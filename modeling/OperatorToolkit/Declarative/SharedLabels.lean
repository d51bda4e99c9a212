import Mathlib.Data.List.Forall2
import Mathlib.Data.Option.Basic
import OperatorToolkit.Declarative.Mutate

/-!
# Labels that kustomizations share

`AddCommonLabels` and `AddCommonAnnotations` give a kustomization that has no map the very map that
they were given, and add the entries to it otherwise. So a later mutation of the list writes into
the map of the first one, which keeps the entries and hands them to the next kustomization that it
mutates. `addCommonLabels` on values does not say so. Here the maps are told apart by the function
that holds them, and none of them is nil. As long as each function is always followed by the same
others, every kustomization gets what the mutations on values give. Otherwise a kustomization can
get the labels of another one.
-/

namespace OperatorToolkit.Declarative

variable {F : Type} [DecidableEq F]

/-- Where the labels, or the annotations, of a kustomization are. -/
inductive MapPointer (F : Type) where
  | nil
  /-- The map was made when the kustomization was read. -/
  | own (m : StringMap)
  /-- The map was given to this function. -/
  | captured (f : F)

/-- The maps of the functions, and the labels of the kustomization that is mutated. -/
structure SharedMaps (F : Type) where
  maps : F → StringMap
  pointer : MapPointer F

namespace SharedMaps

/-- `AddCommonLabels` and `AddCommonAnnotations` on the field that they change. -/
def addEntries (s : SharedMaps F) (f : F) : SharedMaps F :=
  match s.pointer with
  | .nil => { s with pointer := .captured f }
  | .own m => { s with pointer := .own ((s.maps f).foldl (fun new key val ↦ new.insert key val) m) }
  | .captured g =>
    let added := (s.maps f).foldl (fun new key val ↦ new.insert key val) (s.maps g)
    { s with maps := Function.update s.maps g added }

def mutate (s : SharedMaps F) (fs : List F) : SharedMaps F := fs.foldl addEntries s

/-- The labels that are written to the file of the kustomization. -/
def value (s : SharedMaps F) : Option StringMap :=
  match s.pointer with
  | .nil => none
  | .own m => some m
  | .captured f => some (s.maps f)

end SharedMaps

/-- A kustomization that was read with these labels. -/
def readLabels : Option StringMap → MapPointer F
  | none => .nil
  | some m => .own m

/-- Kustomizations are read, mutated and written one after the other, with functions that remain. -/
def mutateEach (maps : F → StringMap) : List (Option StringMap × List F) → List (Option StringMap)
  | [] => []
  | (labels, fs) :: runs =>
    let s := SharedMaps.mutate ⟨maps, readLabels labels⟩ fs
    s.value :: mutateEach s.maps runs

/-- The labels as the mutations on values give them. -/
def mutateValue (maps : F → StringMap) (run : Option StringMap × List F) : Option StringMap :=
  run.2.foldl (fun labels f ↦ addEntries (maps f) labels) run.1

/-! ## Entries -/

/-- The maps have the same entries. -/
def SameEntries : Option StringMap → Option StringMap → Prop :=
  Option.Rel fun m m' ↦ ∀ key, m.lookup key = m'.lookup key

/-- The value that the last of the functions with this key adds. -/
def merged (maps : F → StringMap) (fs : List F) (key : String) : Option String :=
  fs.foldr (fun f later ↦ later.or ((maps f).lookup key)) none

theorem lookup_foldl_entries {entries : List (Sigma fun _ : String ↦ String)}
    (hnodup : entries.NodupKeys) (m : StringMap) (key : String) :
    (entries.foldl (fun new entry ↦ new.insert entry.1 entry.2) m).lookup key =
      (entries.dlookup key).or (m.lookup key) := by
  induction entries generalizing m with
  | nil => rfl
  | cons entry entries ih =>
    rw [List.foldl_cons, ih (List.nodupKeys_cons.mp hnodup).2]
    by_cases hkey : key = entry.1
    · subst hkey
      have hnone : entries.dlookup entry.1 = none :=
        List.dlookup_eq_none.mpr (List.nodupKeys_cons.mp hnodup).1
      rw [hnone, AList.lookup_insert, List.dlookup_cons_eq]
      rfl
    · rw [AList.lookup_insert_ne hkey, List.dlookup_cons_ne _ _ hkey]

theorem lookup_foldl_insert_alist (added m : StringMap) (key : String) :
    (added.foldl (fun new key val ↦ new.insert key val) m).lookup key =
      (added.lookup key).or (m.lookup key) :=
  lookup_foldl_entries added.nodupKeys m key

omit [DecidableEq F] in
theorem merged_cons (maps : F → StringMap) (f : F) (fs : List F) (key : String) :
    merged maps (f :: fs) key = (merged maps fs key).or ((maps f).lookup key) := rfl

omit [DecidableEq F] in
theorem merged_congr {maps maps' : F → StringMap} {fs : List F} (h : ∀ f ∈ fs, maps f = maps' f)
    (key : String) : merged maps fs key = merged maps' fs key := by
  induction fs with
  | nil => rfl
  | cons f fs ih =>
    rw [List.forall_mem_cons] at h
    rw [merged_cons, merged_cons, ih h.2, h.1]

/-! ## One kustomization -/

omit [DecidableEq F] in
theorem exists_mutateValue_some (maps : F → StringMap) (m : StringMap) (fs : List F) :
    ∃ m', mutateValue maps (some m, fs) = some m' ∧
      ∀ key, m'.lookup key = (merged maps fs key).or (m.lookup key) := by
  induction fs generalizing m with
  | nil => exact ⟨m, rfl, fun _ ↦ rfl⟩
  | cons f fs ih =>
    obtain ⟨m', hm', hlookup⟩ := ih ((maps f).foldl (fun new key val ↦ new.insert key val) m)
    refine ⟨m', hm', fun key ↦ ?_⟩
    rw [hlookup, lookup_foldl_insert_alist, merged_cons, Option.or_assoc]

omit [DecidableEq F] in
/-- The first function makes the map. -/
theorem exists_mutateValue_none (maps : F → StringMap) (f : F) (fs : List F) :
    ∃ m', mutateValue maps (none, f :: fs) = some m' ∧
      ∀ key, m'.lookup key = merged maps (f :: fs) key :=
  exists_mutateValue_some maps (maps f) fs

theorem exists_mutate_own (maps : F → StringMap) (m : StringMap) (fs : List F) :
    ∃ m', SharedMaps.mutate ⟨maps, .own m⟩ fs = ⟨maps, .own m'⟩ ∧
      ∀ key, m'.lookup key = (merged maps fs key).or (m.lookup key) := by
  induction fs generalizing m with
  | nil => exact ⟨m, rfl, fun _ ↦ rfl⟩
  | cons f fs ih =>
    obtain ⟨m', hm', hlookup⟩ := ih ((maps f).foldl (fun new key val ↦ new.insert key val) m)
    refine ⟨m', hm', fun key ↦ ?_⟩
    rw [hlookup, lookup_foldl_insert_alist, merged_cons, Option.or_assoc]

/-- The functions write into the map that the kustomization shares. -/
theorem exists_mutate_captured (maps : F → StringMap) {g : F} {fs : List F} (hg : g ∉ fs) :
    ∃ m', SharedMaps.mutate ⟨maps, .captured g⟩ fs = ⟨Function.update maps g m', .captured g⟩ ∧
      ∀ key, m'.lookup key = merged maps (g :: fs) key := by
  induction fs generalizing maps with
  | nil => exact ⟨maps g, by rw [Function.update_eq_self]; rfl, fun _ ↦ rfl⟩
  | cons f fs ih =>
    rw [List.mem_cons, not_or] at hg
    let added := (maps f).foldl (fun new key val ↦ new.insert key val) (maps g)
    obtain ⟨m', hm', hlookup⟩ := ih (Function.update maps g added) hg.2
    refine ⟨m', ?_, fun key ↦ ?_⟩
    · rw [Function.update_idem] at hm'
      exact hm'
    · have hother : merged (Function.update maps g added) fs key = merged maps fs key :=
        merged_congr (fun f' hf' ↦ Function.update_of_ne (ne_of_mem_of_not_mem hf' hg.2) _ _) key
      calc
        m'.lookup key = (merged maps fs key).or (added.lookup key) := by
          rw [hlookup, merged_cons, Function.update_self, hother]
        _ = (merged maps fs key).or (((maps f).lookup key).or ((maps g).lookup key)) := by
          rw [lookup_foldl_insert_alist]
        _ = merged maps (g :: f :: fs) key := by
          rw [merged_cons, merged_cons, Option.or_assoc]

/-- A kustomization without labels shares the map of the first function, and all the others write
into it. -/
theorem exists_mutate_nil (maps : F → StringMap) {f : F} {fs : List F} (hf : f ∉ fs) :
    ∃ m', (SharedMaps.mutate ⟨maps, readLabels none⟩ (f :: fs)).value = some m' ∧
      (SharedMaps.mutate ⟨maps, readLabels none⟩ (f :: fs)).maps = Function.update maps f m' ∧
      ∀ key, m'.lookup key = merged maps (f :: fs) key := by
  obtain ⟨m', hm', hlookup⟩ := exists_mutate_captured maps hf
  have hcaptured : SharedMaps.mutate ⟨maps, readLabels none⟩ (f :: fs) =
      ⟨Function.update maps f m', .captured f⟩ := hm'
  rw [hcaptured]
  exact ⟨m', congrArg some (Function.update_self f m' maps), rfl, hlookup⟩

/-! ## Functions that are followed by the same others -/

/-- In this list each function is followed by the others that `after` says, and does not return. -/
def Follows (after : F → List F) : List F → Prop
  | [] => True
  | f :: fs => after f = fs ∧ f ∉ fs ∧ Follows after fs

/-- A map holds what it was made with, or also what the functions after its own have added. -/
def Kept (after : F → List F) (start maps : F → StringMap) : Prop :=
  ∀ f, (∀ key, (maps f).lookup key = (start f).lookup key) ∨
    ∀ key, (maps f).lookup key = merged start (f :: after f) key

variable {after : F → List F} {start maps : F → StringMap}

omit [DecidableEq F] in
/-- What has been added to a map before is added again after it. -/
theorem Kept.merged_eq (h : Kept after start maps) {fs : List F} (hfs : Follows after fs)
    (key : String) : merged maps fs key = merged start fs key := by
  induction fs with
  | nil => rfl
  | cons f fs ih =>
    obtain ⟨hafter, -, hrest⟩ := hfs
    rw [merged_cons, merged_cons, ih hrest]
    rcases h f with hsame | hmore
    · rw [hsame]
    · rw [hmore, hafter, merged_cons]
      cases merged start fs key <;> rfl

/-- One more kustomization gets its labels, and the maps remain as they should be. -/
theorem Kept.mutate (h : Kept after start maps) (labels : Option StringMap) {fs : List F}
    (hfs : Follows after fs) :
    SameEntries (SharedMaps.mutate ⟨maps, readLabels labels⟩ fs).value
        (mutateValue start (labels, fs)) ∧
      Kept after start (SharedMaps.mutate ⟨maps, readLabels labels⟩ fs).maps := by
  cases labels with
  | some m =>
    obtain ⟨m', hm', hlookup⟩ := exists_mutate_own maps m fs
    obtain ⟨value, hvalue, hvalues⟩ := exists_mutateValue_some start m fs
    rw [readLabels, hm', hvalue]
    refine ⟨.some fun key ↦ ?_, h⟩
    rw [hlookup, hvalues, h.merged_eq hfs]
  | none =>
    cases fs with
    | nil => exact ⟨.none, h⟩
    | cons f fs =>
      obtain ⟨m', hm', hmaps, hlookup⟩ := exists_mutate_nil maps hfs.2.1
      obtain ⟨value, hvalue, hvalues⟩ := exists_mutateValue_none start f fs
      rw [hm', hmaps, hvalue]
      refine ⟨.some fun key ↦ ?_, fun f' ↦ ?_⟩
      · rw [hlookup, hvalues, h.merged_eq hfs]
      · by_cases hf' : f' = f
        · refine .inr fun key ↦ ?_
          rw [hf', Function.update_self, hlookup, h.merged_eq hfs, hfs.1]
        · simp only [Function.update_of_ne hf']
          exact h f'

theorem Kept.mutateEach (h : Kept after start maps) {runs : List (Option StringMap × List F)}
    (hruns : ∀ run ∈ runs, Follows after run.2) :
    List.Forall₂ SameEntries (mutateEach maps runs) (runs.map (mutateValue start)) := by
  induction runs generalizing maps with
  | nil => exact .nil
  | cons run runs ih =>
    rw [List.forall_mem_cons] at hruns
    obtain ⟨hvalue, hmaps⟩ := h.mutate run.1 hruns.1
    exact .cons hvalue (ih hmaps hruns.2)

end OperatorToolkit.Declarative
