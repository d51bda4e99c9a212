import Mathlib.Data.String.Basic
import Mathlib.Order.Basic
import Mathlib.Data.List.Pairwise

/-!
# JSON values

The order of the entries of a JSON object has no meaning. Objects list their entries by increasing
key, so that equal values are equal as trees; `Document` is a value that does so at every level.
Lists of that kind are determined by what is looked up in them.
-/

namespace OperatorToolkit.Encoding

/-! ## Lists of entries by increasing key -/

section Entries

variable {κ α : Type} [LinearOrder κ]

def SortedKeys (entries : List (κ × α)) : Prop :=
  entries.Pairwise fun entry later ↦ entry.1 < later.1

instance (entries : List (κ × α)) : Decidable (SortedKeys entries) :=
  inferInstanceAs (Decidable (entries.Pairwise fun entry later ↦ entry.1 < later.1))

theorem sortedKeys_iff {entries : List (κ × α)} :
    SortedKeys entries ↔ (entries.map Prod.fst).Pairwise (· < ·) :=
  List.pairwise_map.symm

theorem sortedKeys_cons_iff {entry : κ × α} {entries : List (κ × α)} :
    SortedKeys (entry :: entries) ↔ (∀ later ∈ entries, entry.1 < later.1) ∧ SortedKeys entries :=
  List.pairwise_cons

theorem lookup_eq_none_iff {entries : List (κ × α)} {key : κ} :
    entries.lookup key = none ↔ ∀ entry ∈ entries, entry.1 ≠ key := by
  simp only [List.lookup_eq_none_iff, bne_iff_ne]
  exact forall₂_congr fun entry _ ↦ ne_comm

theorem lookup_cons_self {entries : List (κ × α)} {key : κ} {value : α} :
    ((key, value) :: entries).lookup key = some value := by
  simp

theorem lookup_cons_of_ne {entries : List (κ × α)} {key other : κ} {value : α} (h : key ≠ other) :
    ((other, value) :: entries).lookup key = entries.lookup key := by
  have htest : (key == other) = false := beq_eq_false_iff_ne.mpr h
  simp only [List.lookup_cons, htest]

theorem lookup_cons {entries : List (κ × α)} {key other : κ} {value : α} :
    ((other, value) :: entries).lookup key =
      if key = other then some value else entries.lookup key := by
  split
  next heq =>
    subst heq
    exact lookup_cons_self
  next hne => exact lookup_cons_of_ne hne

/-- The key in front is found nowhere else. -/
theorem SortedKeys.lookup_head {entry : κ × α} {entries : List (κ × α)}
    (h : SortedKeys (entry :: entries)) : entries.lookup entry.1 = none :=
  lookup_eq_none_iff.mpr fun later hlater ↦ ((sortedKeys_cons_iff.mp h).1 later hlater).ne'

theorem SortedKeys.lookup_eq_some_iff {entries : List (κ × α)} (h : SortedKeys entries) {key : κ}
    {value : α} : entries.lookup key = some value ↔ (key, value) ∈ entries := by
  induction entries with
  | nil => simp
  | cons entry entries ih =>
    obtain ⟨other, first⟩ := entry
    have hrest := ih (sortedKeys_cons_iff.mp h).2
    by_cases hkey : key = other
    · subst hkey
      have hnone := lookup_eq_none_iff.mp h.lookup_head
      have hmem : (key, value) ∉ entries := fun hmem ↦ hnone _ hmem rfl
      simp [hmem, eq_comm]
    · rw [lookup_cons_of_ne hkey, hrest, List.mem_cons]
      simp [hkey]

/-- The first keys agree, since each of them is found in the other list. -/
theorem SortedKeys.head_le {entry : κ × α} {entries entries' : List (κ × α)}
    (h : SortedKeys (entry :: entries))
    (hlookup : ∀ key, (entry :: entries).lookup key = entries'.lookup key) {entry' : κ × α}
    (hmem : entry' ∈ entries') : entry.1 ≤ entry'.1 := by
  by_contra hlt
  have hnone : (entry :: entries).lookup entry'.1 = none := by
    refine lookup_eq_none_iff.mpr fun other hother ↦ ?_
    cases List.mem_cons.mp hother with
    | inl heq => exact heq ▸ (not_le.mp hlt).ne'
    | inr hlater =>
      exact ((not_le.mp hlt).trans ((sortedKeys_cons_iff.mp h).1 other hlater)).ne'
  exact lookup_eq_none_iff.mp ((hlookup entry'.1).symm.trans hnone) entry' hmem rfl

theorem SortedKeys.ext_lookup {entries entries' : List (κ × α)} (h : SortedKeys entries)
    (h' : SortedKeys entries') (hlookup : ∀ key, entries.lookup key = entries'.lookup key) :
    entries = entries' := by
  induction entries generalizing entries' with
  | nil =>
    cases entries' with
    | nil => rfl
    | cons entry' entries' =>
      exact absurd rfl (lookup_eq_none_iff.mp (hlookup entry'.1).symm entry' (by simp))
  | cons entry entries ih =>
    cases entries' with
    | nil => exact absurd rfl (lookup_eq_none_iff.mp (hlookup entry.1) entry (by simp))
    | cons entry' entries' =>
      have hkey : entry.1 = entry'.1 :=
        le_antisymm (h.head_le hlookup (by simp))
          (h'.head_le (fun key ↦ (hlookup key).symm) (by simp))
      obtain ⟨key, value⟩ := entry
      obtain ⟨key', value'⟩ := entry'
      obtain rfl : key = key' := hkey
      have hvalue := hlookup key
      rw [lookup_cons_self, lookup_cons_self] at hvalue
      cases hvalue
      have hrest : entries = entries' := by
        refine ih (sortedKeys_cons_iff.mp h).2 (sortedKeys_cons_iff.mp h').2 fun other ↦ ?_
        by_cases hother : other = key
        · subst hother
          exact h.lookup_head.trans h'.lookup_head.symm
        · have := hlookup other
          rwa [lookup_cons_of_ne hother, lookup_cons_of_ne hother] at this
      rw [hrest]

/-- Store the value under the key, in place of what was there. -/
def insertEntry (key : κ) (value : α) : List (κ × α) → List (κ × α)
  | [] => [(key, value)]
  | (other, first) :: entries =>
    if key < other then (key, value) :: (other, first) :: entries
    else if key = other then (key, value) :: entries
    else (other, first) :: insertEntry key value entries

theorem mem_insertEntry {key : κ} {value : α} {entries : List (κ × α)} {entry : κ × α}
    (h : entry ∈ insertEntry key value entries) : entry = (key, value) ∨ entry ∈ entries := by
  induction entries with
  | nil => simpa [insertEntry] using h
  | cons head entries ih =>
    obtain ⟨other, first⟩ := head
    simp only [insertEntry] at h
    split at h
    · exact List.mem_cons.mp h
    split at h
    · exact (List.mem_cons.mp h).imp_right (List.mem_cons_of_mem _)
    · cases List.mem_cons.mp h with
      | inl heq => exact Or.inr (heq ▸ List.mem_cons_self)
      | inr hmem => exact (ih hmem).imp_right (List.mem_cons_of_mem _)

theorem SortedKeys.insertEntry {key : κ} {value : α} {entries : List (κ × α)}
    (h : SortedKeys entries) : SortedKeys (insertEntry key value entries) := by
  induction entries with
  | nil => exact List.pairwise_singleton _ _
  | cons head entries ih =>
    obtain ⟨other, first⟩ := head
    have hhead := (sortedKeys_cons_iff.mp h).1
    have hrest := (sortedKeys_cons_iff.mp h).2
    simp only [Encoding.insertEntry]
    split
    next hlt =>
      refine sortedKeys_cons_iff.mpr ⟨fun later hlater ↦ ?_, h⟩
      cases List.mem_cons.mp hlater with
      | inl heq => exact heq ▸ hlt
      | inr hmem => exact hlt.trans (hhead later hmem)
    next hle =>
      split
      next heq =>
        subst heq
        exact sortedKeys_cons_iff.mpr ⟨hhead, hrest⟩
      next hne =>
        refine sortedKeys_cons_iff.mpr ⟨fun later hlater ↦ ?_, ih hrest⟩
        cases mem_insertEntry hlater with
        | inl heq => exact heq ▸ lt_of_le_of_ne (not_lt.mp hle) (Ne.symm hne)
        | inr hmem => exact hhead later hmem

theorem lookup_insertEntry {key other : κ} {value : α} {entries : List (κ × α)} :
    (insertEntry key value entries).lookup other =
      if other = key then some value else entries.lookup other := by
  induction entries with
  | nil => exact lookup_cons
  | cons head entries ih =>
    obtain ⟨head, first⟩ := head
    simp only [insertEntry]
    split
    · exact lookup_cons
    split
    next heq =>
      subst heq
      by_cases hother : other = key <;> simp [lookup_cons, hother]
    next hne =>
      rw [lookup_cons, ih, lookup_cons]
      by_cases hhead : other = head
      · simp [hhead, Ne.symm hne]
      · simp [hhead]

/-- A map with its entries by increasing key. -/
structure SortedMap (κ α : Type) [LinearOrder κ] where
  entries : List (κ × α)
  sorted : SortedKeys entries

namespace SortedMap

def empty : SortedMap κ α := ⟨[], List.Pairwise.nil⟩

def insert (m : SortedMap κ α) (key : κ) (value : α) : SortedMap κ α :=
  ⟨insertEntry key value m.entries, m.sorted.insertEntry⟩

end SortedMap

end Entries

/-! ## Values -/

inductive Json where
  | null
  | bool (value : Bool)
  | integer (value : Int)
  | decimal (literal : String)
  | string (text : String)
  | array (items : List Json)
  | object (entries : List (String × Json))

/-- All objects in the value list their entries by increasing key. -/
inductive Json.Ordered : Json → Prop where
  | null : Ordered .null
  | bool {value} : Ordered (.bool value)
  | integer {value} : Ordered (.integer value)
  | decimal {literal} : Ordered (.decimal literal)
  | string {text} : Ordered (.string text)
  | array {items} : (∀ item ∈ items, Ordered item) → Ordered (.array items)
  | object {entries : List (String × Json)} : SortedKeys entries →
      (∀ entry ∈ entries, Ordered entry.2) → Ordered (.object entries)

attribute [simp] Json.Ordered.null Json.Ordered.bool Json.Ordered.integer Json.Ordered.decimal
  Json.Ordered.string

@[simp] theorem Json.ordered_object_iff {entries : List (String × Json)} :
    (Json.object entries).Ordered ↔
      SortedKeys entries ∧ ∀ entry ∈ entries, Json.Ordered entry.2 := by
  constructor
  · intro h
    cases h with
    | object hsorted hentries => exact ⟨hsorted, hentries⟩
  · intro h
    exact .object h.1 h.2

structure Document where
  value : Json
  ordered : value.Ordered

end OperatorToolkit.Encoding
