import Mathlib.Data.List.Perm.Basic
import OperatorToolkit.Informer.InformersMap

/-!
# Finding an object in the cache

A cache that holds an object should find it by its key, and by listing its namespace. `List` looks
at the namespaces of the objects. `Get` looks under the key that the store makes of a namespace and
a name, but it first drops the namespace if the reader's scope is the root one, and the scope of a
reader comes from the namespace of the whole cache: in a cache of all namespaces, the objects of a
namespace are not found.
-/

namespace OperatorToolkit.Informer

open Object

variable {Rest Err : Type} [ApiErrors Err]

/-- The object as the reader returns it. -/
def CacheReader.copied (c : CacheReader Rest Err) (obj : CachedObject Rest) : CachedObject Rest :=
  { obj with groupVersionKind := c.groupVersionKind }

/-- The key that `Get` looks up. -/
def CacheReader.lookupKey (c : CacheReader Rest Err) (key : NamespacedName) : NamespacedName :=
  if c.scopeName = .root then { key with ns := "" } else key

/-! ## What the reader returns -/

section Reads

variable {c : CacheReader Rest Err} {indexers : String → Option (CachedObject Rest → List String)}
  {objs : List (CachedObject Rest)}

omit [ApiErrors Err] in
theorem find?_eq_some_iff (hholds : c.indexer.Holds indexers objs) {storeKey : String}
    {obj : CachedObject Rest} :
    objs.find? (metaNamespaceKeyFunc · = storeKey) = some obj ↔
      obj ∈ objs ∧ metaNamespaceKeyFunc obj = storeKey := by
  constructor
  · intro h
    exact ⟨List.mem_of_find?_eq_some h, by simpa using List.find?_some h⟩
  · rintro ⟨hobj, rfl⟩
    obtain ⟨obj', hobj'⟩ := Option.isSome_iff_exists.mp (List.find?_isSome
      (p := (decide <| metaNamespaceKeyFunc · = metaNamespaceKeyFunc obj)).mpr ⟨obj, hobj, by simp⟩)
    have hkey : metaNamespaceKeyFunc obj' = metaNamespaceKeyFunc obj := by
      simpa using List.find?_some hobj'
    rw [hobj', List.inj_on_of_nodup_map hholds.keys_nodup (List.mem_of_find?_eq_some hobj') hobj
      hkey]

theorem get_eq_ok_iff (hholds : c.indexer.Holds indexers objs) {outType : String}
    (htype : ∀ obj ∈ objs, obj.goType = outType) {key : NamespacedName} {out : CachedObject Rest} :
    c.get key outType = .ok out ↔ ∃ obj ∈ objs,
      metaNamespaceKeyFunc obj = objectKeyToStoreKey (c.lookupKey key) ∧ out = c.copied obj := by
  have hget := hholds.getByKey_eq (objectKeyToStoreKey (c.lookupKey key))
  simp only [← and_assoc, ← find?_eq_some_iff hholds]
  unfold CacheReader.lookupKey at hget ⊢
  simp only [CacheReader.get, hget]
  cases hfind : objs.find? _ with
  | none => simp [bind, Except.bind, throw, throwThe, MonadExceptOf.throw]
  | some obj =>
    have hobj : obj.goType = outType := htype obj (List.mem_of_find?_eq_some hfind)
    simp only [Option.map_some, bind, Except.bind, if_pos hobj, Option.some.injEq]
    constructor
    · intro hout
      exact ⟨obj, rfl, (Except.ok.inj hout).symm⟩
    · rintro ⟨_, rfl, rfl⟩
      rfl

/-- Only objects come out of an indexer that only objects have been put into. -/
theorem exists_eq_map_object {items : List (Item Rest)} {l : List (CachedObject Rest)}
    (h : items.Perm (l.map .object)) :
    ∃ l' : List (CachedObject Rest), items = l'.map .object ∧ l'.Perm l := by
  have hobjects : ∀ item ∈ items, ∃ obj, item = .object obj := by
    intro item hitem
    obtain ⟨obj, -, hobj⟩ := List.mem_map.mp (h.mem_iff.mp hitem)
    exact ⟨obj, hobj.symm⟩
  obtain ⟨l', rfl⟩ : ∃ l' : List (CachedObject Rest), items = l'.map .object := by
    clear h
    induction items with
    | nil => exact ⟨[], rfl⟩
    | cons item items ih =>
      rw [List.forall_mem_cons] at hobjects
      obtain ⟨obj, rfl⟩ := hobjects.1
      obtain ⟨l', rfl⟩ := ih hobjects.2
      exact ⟨obj :: l', rfl⟩
  exact ⟨l', rfl, (List.map_perm_map_iff fun _ _ ↦ Item.object.inj).mp h⟩

theorem runtimeObjs_map (labelSelector : Option (List (String × String) → Bool))
    (l : List (CachedObject Rest)) :
    c.runtimeObjs labelSelector (l.map .object) =
      .ok ((l.filter fun obj ↦ (labelSelector.map (· obj.labels)).getD true).map c.copied) := by
  induction l with
  | nil => rfl
  | cons obj l ih =>
    rw [List.map_cons, CacheReader.runtimeObjs, ih, List.filter_cons]
    simp only [bind, Except.bind]
    split <;> rfl

/-- Listing a namespace without selectors returns the objects of that namespace, and listing the
empty one returns all. -/
theorem mem_list_iff (hholds : c.indexer.Holds indexers objs)
    (hindexers : indexers namespaceIndex = some metaNamespaceIndexFunc)
    {setList : List (CachedObject Rest) → Option Err} (hset : ∀ l, setList l = none) (ns : String) :
    ∃ listed, c.list setList { ns := ns } = .ok listed ∧ ∀ out, out ∈ listed ↔
      ∃ obj ∈ objs, (ns = "" ∨ obj.key.ns = ns) ∧ out = c.copied obj := by
  -- The items to list, and the objects they are.
  obtain ⟨items, hitems, l, rfl, hl⟩ : ∃ items,
      (if ns ≠ "" then c.indexer.byIndex namespaceIndex ns else pure c.indexer.list) = .ok items ∧
      ∃ l : List (CachedObject Rest), items = l.map .object ∧
        ∀ obj, obj ∈ l ↔ obj ∈ objs ∧ (ns = "" ∨ obj.key.ns = ns) := by
    by_cases hns : ns = ""
    · obtain ⟨l, hlist, hperm⟩ := exists_eq_map_object hholds.list_perm
      exact ⟨c.indexer.list, if_neg (not_not.mpr hns), l, hlist, fun obj ↦ by
        simp [hns, hperm.mem_iff]⟩
    · obtain ⟨items, hitems, hperm⟩ := hholds.byIndex_perm namespaceIndex _ ns hindexers
      obtain ⟨l, rfl, hl⟩ := exists_eq_map_object hperm
      refine ⟨_, by rw [if_pos hns, hitems], l, rfl, fun obj ↦ ?_⟩
      simp [hns, hl.mem_iff, metaNamespaceIndexFunc, eq_comm]
  refine ⟨l.map c.copied, ?_, fun out ↦ ?_⟩
  · have hruntime : c.runtimeObjs none (l.map .object) = .ok (l.map c.copied) := by
      rw [runtimeObjs_map]
      simp
    by_cases hns : ns = ""
    all_goals
      simp only [CacheReader.list, ne_eq, hns, not_true, not_false_iff, if_true, if_false]
        at hitems ⊢
      rw [hitems]
      simp only [bind, Except.bind, hruntime, hset]
      rfl
  · simp only [List.mem_map, hl]
    exact exists_congr fun obj ↦ by rw [and_assoc, eq_comm (b := out)]

end Reads

/-! ## The reader of a cache -/

/-- The reads by one key are right: `Get` succeeds if and only if an object with that namespace and
name is cached, it returns that object, and it agrees with listing the namespace. -/
structure ReadsRight (c : CacheReader Rest Err) (objs : List (CachedObject Rest))
    (key : NamespacedName) (outType : String) (setList : List (CachedObject Rest) → Option Err) :
    Prop where
  succeeds_iff : (∃ out, c.get key outType = .ok out) ↔ ∃ obj ∈ objs, obj.key = key
  returns : ∀ out, c.get key outType = .ok out → ∃ obj ∈ objs, obj.key = key ∧ out = c.copied obj
  agrees : ∃ listed, c.list setList { ns := key.ns } = .ok listed ∧
    ((∃ out, c.get key outType = .ok out) ↔ ∃ obj ∈ listed, obj.key = key)

section ReadsRight

variable {c : CacheReader Rest Err} {indexers : String → Option (CachedObject Rest → List String)}
  {objs : List (CachedObject Rest)} {key : NamespacedName} {outType : String}
  {setList : List (CachedObject Rest) → Option Err}

/-- If the reads are right, then exactly the objects with the key are stored where `Get` looks. -/
theorem ReadsRight.stored_iff (h : ReadsRight c objs key outType setList)
    (hholds : c.indexer.Holds indexers objs) (htype : ∀ obj ∈ objs, obj.goType = outType) :
    ∀ obj ∈ objs, metaNamespaceKeyFunc obj = objectKeyToStoreKey (c.lookupKey key) ↔
      obj.key = key := by
  -- An object that `Get` returns has the key, since it is a cached one that has it.
  have hfound {found : CachedObject Rest} (hget : c.get key outType = .ok (c.copied found)) :
      found.key = key := by
    obtain ⟨other, -, hkey, heq⟩ := h.returns _ hget
    have hkeys : (c.copied found).key = (c.copied other).key := congrArg CachedObject.key heq
    exact hkeys.trans hkey
  intro obj hobj
  constructor
  · intro hstored
    exact hfound ((get_eq_ok_iff hholds htype).mpr ⟨obj, hobj, hstored, rfl⟩)
  · intro hkey
    obtain ⟨out, hout⟩ := h.succeeds_iff.mpr ⟨obj, hobj, hkey⟩
    obtain ⟨found, -, hstored, rfl⟩ := (get_eq_ok_iff hholds htype).mp hout
    rw [← hstored, metaNamespaceKeyFunc_eq, metaNamespaceKeyFunc_eq, hfound hout, hkey]

theorem readsRight_of_stored_iff (hholds : c.indexer.Holds indexers objs)
    (hindexers : indexers namespaceIndex = some metaNamespaceIndexFunc)
    (htype : ∀ obj ∈ objs, obj.goType = outType) (hset : ∀ l, setList l = none)
    (hstored : ∀ obj ∈ objs, metaNamespaceKeyFunc obj = objectKeyToStoreKey (c.lookupKey key) ↔
      obj.key = key) : ReadsRight c objs key outType setList := by
  have hsucceeds : (∃ out, c.get key outType = .ok out) ↔ ∃ obj ∈ objs, obj.key = key := by
    constructor
    · rintro ⟨out, hout⟩
      obtain ⟨obj, hobj, hkey, -⟩ := (get_eq_ok_iff hholds htype).mp hout
      exact ⟨obj, hobj, (hstored obj hobj).mp hkey⟩
    · rintro ⟨obj, hobj, hkey⟩
      exact ⟨_, (get_eq_ok_iff hholds htype).mpr ⟨obj, hobj, (hstored obj hobj).mpr hkey, rfl⟩⟩
  obtain ⟨listed, hlist, hlisted⟩ := mem_list_iff hholds hindexers hset key.ns
  refine ⟨hsucceeds, fun out hout ↦ ?_, listed, hlist, hsucceeds.trans ⟨?_, ?_⟩⟩
  · obtain ⟨obj, hobj, hkey, rfl⟩ := (get_eq_ok_iff hholds htype).mp hout
    exact ⟨obj, hobj, (hstored obj hobj).mp hkey, rfl⟩
  · rintro ⟨obj, hobj, hkey⟩
    exact ⟨c.copied obj, (hlisted _).mpr ⟨obj, hobj, .inr (congrArg _ hkey), rfl⟩, hkey⟩
  · rintro ⟨out, hout, hkey⟩
    obtain ⟨obj, hobj, -, rfl⟩ := (hlisted out).mp hout
    exact ⟨obj, hobj, hkey⟩

end ReadsRight

/-- In a cache of all namespaces that is asked for a namespaced key, neither an object with that key
nor one stored under the bare name is cached; otherwise no other object is stored under the text of
the key. -/
def Locatable (ns : String) (objs : List (CachedObject Rest)) (key : NamespacedName) : Prop :=
  if ns = "" ∧ key.ns ≠ "" then
    ∀ obj ∈ objs, obj.key ≠ key ∧ metaNamespaceKeyFunc obj ≠ key.name
  else ∀ obj ∈ objs, metaNamespaceKeyFunc obj = objectKeyToStoreKey key → obj.key = key

instance (ns : String) (objs : List (CachedObject Rest)) (key : NamespacedName) :
    Decidable (Locatable ns objs key) :=
  inferInstanceAs (Decidable (if ns = "" ∧ key.ns ≠ "" then
    ∀ obj ∈ objs, obj.key ≠ key ∧ metaNamespaceKeyFunc obj ≠ key.name
    else ∀ obj ∈ objs, metaNamespaceKeyFunc obj = objectKeyToStoreKey key → obj.key = key))

omit [ApiErrors Err] in
theorem lookupKey_newMapEntry (indexerOf : Nat → Indexer Rest Err) (ns : String)
    (gvk : GroupVersionKind) (informer : Nat) (key : NamespacedName) :
    (newMapEntry indexerOf ns gvk informer).reader.lookupKey key =
      if ns = "" then { key with ns := "" } else key := by
  by_cases hns : ns = "" <;> simp [CacheReader.lookupKey, newMapEntry, hns]

/-- With a namespace in front, the text of a key is longer than the name. -/
theorem objectKeyToStoreKey_ne_name {key : NamespacedName} (hns : key.ns ≠ "") :
    objectKeyToStoreKey key ≠ key.name := by
  intro heq
  rw [objectKeyToStoreKey, if_neg hns] at heq
  have hlength := congrArg String.length heq
  simp only [String.length_append] at hlength
  have hslash : "/".length = 1 := rfl
  omega

/-- The condition says that exactly the objects with the key are stored where `Get` looks. -/
theorem locatable_iff {ns : String} {objs : List (CachedObject Rest)} {key : NamespacedName} :
    Locatable ns objs key ↔ ∀ obj ∈ objs, metaNamespaceKeyFunc obj =
      objectKeyToStoreKey (if ns = "" then { key with ns := "" } else key) ↔ obj.key = key := by
  unfold Locatable
  split
  next h =>
    rw [if_pos h.1]
    have hname : objectKeyToStoreKey { key with ns := "" } = key.name := rfl
    rw [hname]
    refine forall₂_congr fun obj _ ↦ ⟨fun hobj ↦ ?_, fun hiff ↦ ?_⟩
    · exact ⟨fun hkey ↦ absurd hkey hobj.2, fun hkey ↦ absurd hkey hobj.1⟩
    · have hne : obj.key ≠ key := by
        rintro rfl
        have hstored := hiff.mpr rfl
        rw [metaNamespaceKeyFunc_eq] at hstored
        exact objectKeyToStoreKey_ne_name h.2 hstored
      exact ⟨hne, fun hkey ↦ hne (hiff.mp hkey)⟩
  next h =>
    have hkey : (if ns = "" then { key with ns := "" } else key) = key := by
      by_cases hns : ns = ""
      · have hempty : key.ns = "" := by
          by_contra hne
          exact h ⟨hns, hne⟩
        rw [if_pos hns, ← hempty]
      · rw [if_neg hns]
    rw [hkey]
    refine forall₂_congr fun obj _ ↦ ⟨fun hobj ↦ ⟨hobj, ?_⟩, Iff.mp⟩
    rintro rfl
    exact metaNamespaceKeyFunc_eq obj

theorem get_readsRight_iff (indexerOf : Nat → Indexer Rest Err) (ns : String)
    (gvk : GroupVersionKind) (informer : Nat)
    (indexers : String → Option (CachedObject Rest → List String))
    (hindexers : indexers namespaceIndex = some metaNamespaceIndexFunc)
    (objs : List (CachedObject Rest)) (hholds : (indexerOf informer).Holds indexers objs)
    (outType : String) (htype : ∀ obj ∈ objs, obj.goType = outType)
    (setList : List (CachedObject Rest) → Option Err) (hset : ∀ l, setList l = none)
    (key : NamespacedName) :
    ReadsRight (newMapEntry indexerOf ns gvk informer).reader objs key outType setList ↔
      Locatable ns objs key := by
  rw [locatable_iff, ← lookupKey_newMapEntry indexerOf ns gvk informer key]
  constructor
  · intro hreads
    exact hreads.stored_iff hholds htype
  · intro hstored
    exact readsRight_of_stored_iff hholds hindexers htype hset hstored

/-- A pod of the default namespace. -/
def defaultPod : CachedObject Unit :=
  ⟨"*v1.Pod", ⟨"", "", ""⟩, ⟨"default", "web"⟩, [], ()⟩

def podIndexer (_ : Nat) : Indexer Unit GoError := Indexer.ofObjects namespaceIndexers [defaultPod]

theorem holds_podIndexer : (podIndexer 0).Holds namespaceIndexers [defaultPod] :=
  holds_ofObjects (by decide)

theorem get_readsRight_restricted :
    ReadsRight (newMapEntry podIndexer "default" ⟨"", "v1", "Pod"⟩ 0).reader [defaultPod]
      ⟨"default", "web"⟩ "*v1.Pod" (fun _ ↦ none) :=
  (get_readsRight_iff podIndexer "default" ⟨"", "v1", "Pod"⟩ 0 namespaceIndexers rfl [defaultPod]
    holds_podIndexer "*v1.Pod" (by decide) (fun _ ↦ none) (fun _ ↦ rfl) ⟨"default", "web"⟩).mpr
    (by decide)

/-- A cache of all namespaces holds the pod and lists it, but does not find it by its key. -/
theorem allNamespaces_get_notFound :
    let c := (newMapEntry podIndexer "" ⟨"", "v1", "Pod"⟩ 0).reader
    (podIndexer 0).Holds namespaceIndexers [defaultPod] ∧
      defaultPod.key = ⟨"default", "web"⟩ ∧
      c.get ⟨"default", "web"⟩ "*v1.Pod" = .error (newNotFound "" "Pod" "web") ∧
      c.list (fun _ ↦ none) { ns := "default" } = .ok [c.copied defaultPod] :=
  ⟨holds_podIndexer, rfl, rfl, rfl⟩

end OperatorToolkit.Informer
