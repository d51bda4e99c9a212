import OperatorToolkit.Object.Names

/-!
# Reading from an informer's cache

A `CacheReader` serves `Get` and `List` for one kind from the indexer of an informer. The indexer
belongs to client-go and is a parameter; `Indexer.Holds` says what it answers when a given list of
objects is stored in it, each under its namespace and name, with the given index functions. An
object is modelled by what the reader looks at, and by the rest of it.
-/

namespace OperatorToolkit.Informer

open Object

/-- The errors of the API machinery that the cache returns. -/
class ApiErrors (Err : Type) extends ErrorValues Err where
  newNotFound : (group resource name : String) → Err
  newTimeoutError : (text : String) → (retryAfterSeconds : Nat) → Err

export ApiErrors (newNotFound newTimeoutError)

instance : ApiErrors GoError where
  newNotFound group resource name := ⟨["not found", group, resource, name]⟩
  newTimeoutError text _ := ⟨["timeout", text]⟩

/-- An object in the cache, with the name of its Go type. -/
structure CachedObject (Rest : Type) where
  goType : String
  groupVersionKind : GroupVersionKind
  key : NamespacedName
  labels : List (String × String)
  rest : Rest
  deriving DecidableEq, Repr

/-- An item of the indexer: an object, or a value of another Go type. -/
inductive Item (Rest : Type) where
  | object (obj : CachedObject Rest)
  | other (goType : String)
  deriving DecidableEq, Repr

/-- The reads of `cache.Indexer`. -/
structure Indexer (Rest Err : Type) where
  getByKey : String → Except Err (Option (Item Rest))
  byIndex : (indexName indexedValue : String) → Except Err (List (Item Rest))
  list : List (Item Rest)

/-- `apimeta.RESTScopeName`. -/
inductive RestScopeName where
  | root
  | namespaced
  deriving DecidableEq, Repr

structure CacheReader (Rest Err : Type) where
  indexer : Indexer Rest Err
  groupVersionKind : GroupVersionKind
  scopeName : RestScopeName

/-- It is akin to `metaNamespaceKeyFunc`. -/
def objectKeyToStoreKey (k : NamespacedName) : String :=
  if k.ns = "" then k.name else k.ns ++ "/" ++ k.name

variable {Rest Err : Type} [ApiErrors Err]

/-- `CacheReader.Get` into an object of type `outType`. It returns what has been written there. -/
def CacheReader.get (c : CacheReader Rest Err) (key : NamespacedName) (outType : String) :
    Except Err (CachedObject Rest) := do
  let key := if c.scopeName = .root then { key with ns := "" } else key
  match ← c.indexer.getByKey (objectKeyToStoreKey key) with
  | none =>
    throw (newNotFound c.groupVersionKind.group c.groupVersionKind.kind key.name)
  | some (.other goType) =>
    throw (errorf ("cache contained " ++ goType ++ ", which is not an Object"))
  | some (.object obj) =>
    if obj.goType = outType then
      return { obj with groupVersionKind := c.groupVersionKind }
    else
      throw (errorf
        ("cache had type " ++ obj.goType ++ ", but " ++ outType ++ " was asked for"))

/-! ## Listing -/

/-- `selection.Operator`. -/
inductive Operator where
  | doesNotExist
  | equals
  | doubleEquals
  | isIn
  | notEquals
  | notIn
  | exists
  | greaterThan
  | lessThan
  deriving DecidableEq, Repr

structure Requirement where
  operator : Operator
  field : String
  value : String
  deriving DecidableEq, Repr

/-- A field selector is given by its requirements, a label selector by the labels it matches. -/
structure ListOptions where
  labelSelector : Option (List (String × String) → Bool) := none
  fieldSelector : Option (List Requirement) := none
  ns : String := ""

/-- Checks if the given field selector is of the form `k=v` or `k==v`. -/
def requiresExactMatch : List Requirement → Option (String × String)
  | [req] =>
    if req.operator ≠ .equals ∧ req.operator ≠ .doubleEquals then none
    else some (req.field, req.value)
  | _ => none

def fieldIndexName (field : String) : String := "field:" ++ field

def allNamespacesNamespace : String := "__all_namespaces"

def keyToNamespacedKey (ns baseKey : String) : String :=
  if ns ≠ "" then ns ++ "/" ++ baseKey else allNamespacesNamespace ++ "/" ++ baseKey

/-- `cache.NamespaceIndex`. -/
def namespaceIndex : String := "namespace"

/-- The loop of `List` over the items. A failed type assertion leaves nil to be formatted. -/
def CacheReader.runtimeObjs (c : CacheReader Rest Err)
    (labelSelector : Option (List (String × String) → Bool)) :
    List (Item Rest) → Except Err (List (CachedObject Rest))
  | [] => return []
  | .other _ :: _ => throw (errorf "cache contained <nil>, which is not an Object")
  | .object obj :: items => do
    let objs ← c.runtimeObjs labelSelector items
    if (labelSelector.map (· obj.labels)).getD true then
      return { obj with groupVersionKind := c.groupVersionKind } :: objs
    else return objs

/-- `CacheReader.List`. It returns the objects that have been put into the list; `setList` answers
`SetList` on it. -/
def CacheReader.list (c : CacheReader Rest Err) (setList : List (CachedObject Rest) → Option Err)
    (listOpts : ListOptions) : Except Err (List (CachedObject Rest)) := do
  let objs ← match listOpts.fieldSelector with
    | some selector =>
      match requiresExactMatch selector with
      | none => throw (errorf "non-exact field matches are not supported by the cache")
      | some (field, val) =>
        c.indexer.byIndex (fieldIndexName field) (keyToNamespacedKey listOpts.ns val)
    | none =>
      if listOpts.ns ≠ "" then c.indexer.byIndex namespaceIndex listOpts.ns
      else pure c.indexer.list
  let runtimeObjs ← c.runtimeObjs listOpts.labelSelector objs
  match setList runtimeObjs with
  | some err => throw err
  | none => return runtimeObjs

/-! ## The indexer -/

/-- The key under which the indexer stores an object. -/
def metaNamespaceKeyFunc (obj : CachedObject Rest) : String :=
  if obj.key.ns ≠ "" then obj.key.ns ++ "/" ++ obj.key.name else obj.key.name

/-- The index function that `addInformerToMap` registers. -/
def metaNamespaceIndexFunc (obj : CachedObject Rest) : List String := [obj.key.ns]

/-- The indexer stores exactly these objects, and has these index functions. -/
structure Indexer.Holds (indexer : Indexer Rest Err)
    (indexers : String → Option (CachedObject Rest → List String))
    (objs : List (CachedObject Rest)) : Prop where
  keys_nodup : (objs.map metaNamespaceKeyFunc).Nodup
  getByKey_eq : ∀ key, indexer.getByKey key =
    .ok ((objs.find? (metaNamespaceKeyFunc · = key)).map .object)
  byIndex_perm : ∀ name indexFunc value, indexers name = some indexFunc →
    ∃ items, indexer.byIndex name value = .ok items ∧
      items.Perm ((objs.filter (value ∈ indexFunc ·)).map .object)
  list_perm : indexer.list.Perm (objs.map .object)

/-- The indexers of a new informer. -/
def namespaceIndexers : String → Option (CachedObject Rest → List String) :=
  fun name ↦ if name = namespaceIndex then some metaNamespaceIndexFunc else none

omit [ApiErrors Err] in
theorem metaNamespaceKeyFunc_eq (obj : CachedObject Rest) :
    metaNamespaceKeyFunc obj = objectKeyToStoreKey obj.key := by
  rw [metaNamespaceKeyFunc, objectKeyToStoreKey, ite_not]

/-- An indexer made of a list of objects. -/
def Indexer.ofObjects (indexers : String → Option (CachedObject Rest → List String))
    (objs : List (CachedObject Rest)) : Indexer Rest Err where
  getByKey key := .ok ((objs.find? (metaNamespaceKeyFunc · = key)).map .object)
  byIndex name value := match indexers name with
    | none => .error (errorf ("Index with name " ++ name ++ " does not exist"))
    | some indexFunc => .ok ((objs.filter (value ∈ indexFunc ·)).map .object)
  list := objs.map .object

theorem holds_ofObjects {indexers : String → Option (CachedObject Rest → List String)}
    {objs : List (CachedObject Rest)} (hkeys : (objs.map metaNamespaceKeyFunc).Nodup) :
    (Indexer.ofObjects indexers objs : Indexer Rest Err).Holds indexers objs where
  keys_nodup := hkeys
  getByKey_eq _ := rfl
  byIndex_perm name indexFunc value h :=
    ⟨_, by simp [Indexer.ofObjects, h], List.Perm.refl _⟩
  list_perm := List.Perm.refl _

end OperatorToolkit.Informer
