import OperatorToolkit.Object.Names

/-!
# Lists of client objects

`ClientObjects` converts the objects of a list to unstructured client objects. An unstructured
object holds the same name and content. The conversion belongs to the scheme and may fail.
-/

namespace OperatorToolkit.Object

/-- `Convert` of the scheme into an unstructured object, and `IsList` of the result. -/
structure ClientScheme (Content Err : Type) where
  convert : NamedObject Content → Except Err (NamedObject Content)
  isList : NamedObject Content → Bool
  convert_ok : ∀ {obj u}, convert obj = .ok u → u = obj

variable {Content Err : Type} [ErrorValues Err]

def clientObject (scheme : ClientScheme Content Err) (o : NamedObject Content) :
    Except Err (NamedObject Content) := do
  let u ← scheme.convert o
  if scheme.isList u then .error (errorf "object is a list") else .ok u

def clientObjects (scheme : ClientScheme Content Err) (objs : List (NamedObject Content)) :
    Except Err (List (NamedObject Content)) :=
  objs.mapM (clientObject scheme)

theorem clientObject_ok {scheme : ClientScheme Content Err} {o u : NamedObject Content}
    (h : clientObject scheme o = .ok u) : u = o := by
  unfold clientObject at h
  cases hconvert : scheme.convert o with
  | error err =>
    rw [hconvert] at h
    cases h
  | ok converted =>
    rw [hconvert] at h
    change (if scheme.isList converted then _ else _) = _ at h
    split_ifs at h
    cases h
    exact scheme.convert_ok hconvert

/-- If the conversion succeeds, the objects are those of the list. -/
theorem clientObjects_eq {scheme : ClientScheme Content Err} {objs us : List (NamedObject Content)}
    (h : clientObjects scheme objs = .ok us) : us = objs := by
  have hmap : us = objs.map id := eq_map_of_mapM_eq_ok (fun o u ↦ clientObject_ok) h
  rw [hmap, List.map_id]

/-! ## Conversions that do not fail -/

def ApiMeta.plain : ApiMeta Content Err where
  extractList := .ok
  accessor obj := .ok obj.namespacedName
  formatList instances := " ".intercalate (instances.map fun obj ↦ obj.namespacedName.format)
  formatObject obj := obj.namespacedName.format
  extractList_ok h := (Except.ok.inj h).symm
  accessor_ok h := (Except.ok.inj h).symm

def ClientScheme.plain : ClientScheme Content Err where
  convert := .ok
  isList _ := false
  convert_ok h := (Except.ok.inj h).symm

end OperatorToolkit.Object
