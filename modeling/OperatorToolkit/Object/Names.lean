import OperatorToolkit.Base

/-!
# Namespaced names of objects

The part of package `object` that turns a list of objects into names and compares two lists of
names. The accessors of the API machinery may fail and are parameters; when they succeed they return
what the list and the object hold.
-/

namespace OperatorToolkit.Object

/-- `types.NamespacedName`. -/
structure NamespacedName where
  ns : String := ""
  name : String
  deriving DecidableEq, Repr

/-- The name as `%v` prints it. -/
def NamespacedName.format (n : NamespacedName) : String := n.ns ++ "/" ++ n.name

/-- `schema.GroupVersionKind`. -/
structure GroupVersionKind where
  group : String
  version : String
  kind : String
  deriving DecidableEq, Repr

/-- An object of which only the name matters, with the rest of it. -/
structure NamedObject (Content : Type) where
  namespacedName : NamespacedName
  content : Content
  deriving DecidableEq, Repr

/-- `ExtractList` and `Accessor` of the API machinery, and the formatting of what they are
applied to. -/
structure ApiMeta (Content Err : Type) where
  extractList : List (NamedObject Content) → Except Err (List (NamedObject Content))
  accessor : NamedObject Content → Except Err NamespacedName
  formatList : List (NamedObject Content) → String
  formatObject : NamedObject Content → String
  extractList_ok : ∀ {instances items}, extractList instances = .ok items → items = instances
  accessor_ok : ∀ {obj n}, accessor obj = .ok n → n = obj.namespacedName

variable {Content Err : Type} [ErrorValues Err]

/-- Converts an object list to namespaced names. -/
def namespacedNames (api : ApiMeta Content Err) (instances : List (NamedObject Content)) :
    Except Err (List NamespacedName) := do
  let items ← Except.mapError
    (wrap ("failed to extract objects from object list " ++ api.formatList instances))
    (api.extractList instances)
  items.mapM fun item ↦
    Except.mapError (wrap ("failed to get accessor for " ++ api.formatObject item))
      (api.accessor item)

/-- The elements of the first list that are not present in the second. -/
def namespacedNamesDiff (a b : List NamespacedName) : List NamespacedName :=
  a.filter fun aa ↦ !b.contains aa

theorem mem_namespacedNamesDiff {a b : List NamespacedName} {n : NamespacedName} :
    n ∈ namespacedNamesDiff a b ↔ n ∈ a ∧ n ∉ b := by
  simp [namespacedNamesDiff]

omit [ErrorValues Err] in
theorem mapError_eq_ok {α : Type} {f : Err → Err} {x : Except Err α} {a : α} :
    x.mapError f = .ok a ↔ x = .ok a := by
  cases x <;> simp [Except.mapError]

omit [ErrorValues Err] in
/-- A loop that collects the results of a fallible function, each of them known. -/
theorem eq_map_of_mapM_eq_ok {α β : Type} {f : α → Except Err β} {g : α → β}
    (hf : ∀ a b, f a = .ok b → b = g a) {as : List α} {bs : List β} (h : as.mapM f = .ok bs) :
    bs = as.map g := by
  induction as generalizing bs with
  | nil =>
    cases h
    rfl
  | cons a as ih =>
    rw [List.mapM_cons] at h
    cases ha : f a with
    | error err =>
      rw [ha] at h
      cases h
    | ok b =>
      cases has : as.mapM f with
      | error err =>
        rw [ha, has] at h
        cases h
      | ok bs' =>
        rw [ha, has] at h
        cases h
        rw [List.map_cons, hf a b ha, ih has]

/-- If the extraction succeeds it returns the names of the objects. -/
theorem namespacedNames_eq {api : ApiMeta Content Err} {instances : List (NamedObject Content)}
    {names : List NamespacedName} (h : namespacedNames api instances = .ok names) :
    names = instances.map (·.namespacedName) := by
  unfold namespacedNames at h
  cases hitems : api.extractList instances with
  | error err =>
    rw [hitems] at h
    cases h
  | ok items =>
    rw [hitems] at h
    rw [← api.extractList_ok hitems]
    refine eq_map_of_mapM_eq_ok (fun obj n hn ↦ ?_) h
    exact api.accessor_ok (mapError_eq_ok.mp hn)

end OperatorToolkit.Object
