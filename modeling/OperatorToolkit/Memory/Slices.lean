import Mathlib.Data.List.GetD

/-!
# Slices and their backing arrays

A heap is a list of arrays. A slice is a window of one of them: the index of the array, the position
of its first cell and its length. Reading or writing outside the window has no result, as a slice
expression that is out of range panics. `alloc` and `make` append an array of its own, so a slice
that was there before shares no cell with it, and a write through one slice is seen through another
one only if both are windows of the same array. `Rel` says what a whole run may have done to the
cells that were there before it.
-/

namespace OperatorToolkit.Memory

structure Heap (α : Type*) where
  arrays : List (List α)
  deriving DecidableEq, Repr

structure Slice where
  array : ℕ
  offset : ℕ
  length : ℕ
  deriving DecidableEq, Repr

variable {α : Type*}

namespace Heap

def load (h : Heap α) (s : Slice) (i : ℕ) : Option α :=
  if i < s.length then (h.arrays.getD s.array [])[s.offset + i]? else none

/-- The heap after a write that is in range. -/
def written (h : Heap α) (s : Slice) (i : ℕ) (a : α) : Heap α :=
  ⟨h.arrays.set s.array ((h.arrays.getD s.array []).set (s.offset + i) a)⟩

def store (h : Heap α) (s : Slice) (i : ℕ) (a : α) : Option (Heap α) :=
  if i < s.length then some (h.written s i a) else none

/-- A fresh slice of these cells. -/
def alloc (h : Heap α) (cells : List α) : Heap α × Slice :=
  (⟨h.arrays ++ [cells]⟩, ⟨h.arrays.length, 0, cells.length⟩)

/-- A fresh slice of `n` cells that hold the zero value. -/
def make (h : Heap α) (n : ℕ) (zero : α) : Heap α × Slice :=
  (⟨h.arrays ++ [List.replicate n zero]⟩, ⟨h.arrays.length, 0, n⟩)

/-- What a reader of the slice sees. -/
def contents (h : Heap α) (s : Slice) : List α :=
  ((h.arrays.getD s.array []).drop s.offset).take s.length

end Heap

/-- The window lies inside an array of the heap. -/
structure Slice.Valid (s : Slice) (h : Heap α) : Prop where
  array_lt : s.array < h.arrays.length
  window_le : s.offset + s.length ≤ (h.arrays.getD s.array []).length

namespace Heap

theorem getElem?_contents (h : Heap α) (s : Slice) (i : ℕ) :
    (h.contents s)[i]? = h.load s i := by
  by_cases hi : i < s.length
  · rw [contents, load, if_pos hi, List.getElem?_take_of_lt hi, List.getElem?_drop]
  · rw [contents, load, if_neg hi]
    apply List.getElem?_eq_none
    rw [List.length_take]
    omega

theorem length_contents {h : Heap α} {s : Slice} (hs : s.Valid h) :
    (h.contents s).length = s.length := by
  have hwindow := hs.window_le
  rw [contents, List.length_take, List.length_drop]
  omega

theorem load_eq_some {h : Heap α} {s : Slice} (hs : s.Valid h) {i : ℕ} (hi : i < s.length)
    (default : α) : h.load s i = some ((h.contents s).getD i default) := by
  have hlength := length_contents hs
  rw [← getElem?_contents, List.getD_eq_getElem?_getD,
    List.getElem?_eq_getElem (show i < (h.contents s).length by omega)]
  rfl

/-! ## Allocation -/

section Alloc

variable (h : Heap α) (cells : List α)

theorem make_eq_alloc (n : ℕ) (zero : α) : h.make n zero = h.alloc (List.replicate n zero) := by
  rw [make, alloc, List.length_replicate]

theorem contents_alloc : (h.alloc cells).1.contents (h.alloc cells).2 = cells := by
  simp [alloc, contents]

theorem valid_alloc : (h.alloc cells).2.Valid (h.alloc cells).1 where
  array_lt := by simp [alloc]
  window_le := by simp [alloc]

variable {h cells}

theorem alloc_array_ne {s : Slice} (hs : s.Valid h) : s.array ≠ (h.alloc cells).2.array :=
  Nat.ne_of_lt hs.array_lt

theorem getD_arrays_alloc {s : Slice} (hs : s.Valid h) :
    (h.alloc cells).1.arrays.getD s.array [] = h.arrays.getD s.array [] := by
  rw [alloc, List.getD_append _ _ _ _ hs.array_lt]

theorem contents_of_alloc {s : Slice} (hs : s.Valid h) :
    (h.alloc cells).1.contents s = h.contents s := by
  rw [contents, contents, getD_arrays_alloc hs]

theorem valid_of_alloc {s : Slice} (hs : s.Valid h) : s.Valid (h.alloc cells).1 where
  array_lt := by
    have hlt := hs.array_lt
    simp only [alloc, List.length_append, List.length_singleton]
    omega
  window_le := by
    rw [getD_arrays_alloc hs]
    exact hs.window_le

end Alloc

/-! ## Writes -/

section Store

variable {h : Heap α} {s t : Slice} {i : ℕ} (a : α)

theorem store_eq_some (hi : i < s.length) : h.store s i a = some (h.written s i a) :=
  if_pos hi

theorem getD_written_self (hs : s.array < h.arrays.length) :
    (h.written s i a).arrays.getD s.array [] =
      (h.arrays.getD s.array []).set (s.offset + i) a := by
  rw [written, List.getD_eq_getElem?_getD, List.getElem?_set_self hs]
  rfl

theorem getD_written_of_ne (hne : t.array ≠ s.array) :
    (h.written s i a).arrays.getD t.array [] = h.arrays.getD t.array [] := by
  rw [written, List.getD_eq_getElem?_getD, List.getElem?_set_ne hne.symm,
    List.getD_eq_getElem?_getD]

theorem contents_written_self (hs : s.Valid h) :
    (h.written s i a).contents s = (h.contents s).set i a := by
  rw [contents, getD_written_self a hs.array_lt, ← List.set_drop, List.take_set, contents]

/-- A write is not seen through a slice of another array. -/
theorem contents_written_of_ne (hne : t.array ≠ s.array) :
    (h.written s i a).contents t = h.contents t := by
  rw [contents, contents, getD_written_of_ne a hne]

theorem valid_written (ht : t.Valid h) : t.Valid (h.written s i a) where
  array_lt := by
    rw [written, List.length_set]
    exact ht.array_lt
  window_le := by
    by_cases hne : t.array = s.array
    · have hs : s.array < h.arrays.length := hne ▸ ht.array_lt
      rw [hne, getD_written_self a hs, List.length_set, ← hne]
      exact ht.window_le
    · rw [getD_written_of_ne a hne]
      exact ht.window_le

end Store

/-! ## What may have become of the cells -/

/-- Every cell that was there before is there still, and what it holds is related to what it
held. -/
structure Rel (R : α → α → Prop) (h h' : Heap α) : Prop where
  arrays_le : h.arrays.length ≤ h'.arrays.length
  cell : ∀ (i j : ℕ) (a : α), (h.arrays.getD i [])[j]? = some a →
    ∃ b, (h'.arrays.getD i [])[j]? = some b ∧ R a b

/-- Nothing is said about what the cells hold. -/
abbrev Grows : Heap α → Heap α → Prop := Rel fun _ _ ↦ True

section Rel

variable {R S : α → α → Prop} {h h' h'' base : Heap α} {s : Slice} {i : ℕ}

theorem Rel.trans (htrans : ∀ a b c, R a b → R b c → R a c) (hfirst : Rel R h h')
    (hsecond : Rel R h' h'') : Rel R h h'' where
  arrays_le := Nat.le_trans hfirst.arrays_le hsecond.arrays_le
  cell i j a ha := by
    obtain ⟨b, hb, hab⟩ := hfirst.cell i j a ha
    obtain ⟨c, hc, hbc⟩ := hsecond.cell i j b hb
    exact ⟨c, hc, htrans a b c hab hbc⟩

theorem Rel.mono (hRS : ∀ a b, R a b → S a b) (hrel : Rel R h h') : Rel S h h' where
  arrays_le := hrel.arrays_le
  cell i j a ha := by
    obtain ⟨b, hb, hab⟩ := hrel.cell i j a ha
    exact ⟨b, hb, hRS a b hab⟩

theorem lt_length_of_cell {i j : ℕ} {a : α} (ha : (h.arrays.getD i [])[j]? = some a) :
    i < h.arrays.length := by
  apply Nat.lt_of_not_le
  intro hge
  rw [List.getD_eq_default _ _ hge] at ha
  simp at ha

theorem Rel.alloc (hrel : Rel R base h) (cells : List α) : Rel R base (h.alloc cells).1 where
  arrays_le := by
    have hle := hrel.arrays_le
    simp only [Heap.alloc, List.length_append, List.length_singleton]
    omega
  cell i j a ha := by
    obtain ⟨b, hb, hab⟩ := hrel.cell i j a ha
    rw [Heap.alloc, List.getD_append _ _ _ _ (lt_length_of_cell hb)]
    exact ⟨b, hb, hab⟩

/-- An array that was not there before may be written to. -/
theorem Rel.written (hrel : Rel R base h) (hnew : base.arrays.length ≤ s.array) (a : α) :
    Rel R base (h.written s i a) where
  arrays_le := by
    rw [Heap.written, List.length_set]
    exact hrel.arrays_le
  cell j k b hb := by
    have hlt := lt_length_of_cell hb
    rw [getD_written_of_ne (t := ⟨j, 0, 0⟩) a (show j ≠ s.array by omega)]
    exact hrel.cell j k b hb

theorem Rel.valid (hrel : Rel R h h') (hs : s.Valid h) : s.Valid h' where
  array_lt := Nat.lt_of_lt_of_le hs.array_lt hrel.arrays_le
  window_le := by
    apply Nat.le_trans hs.window_le
    apply Nat.le_of_not_lt
    intro hlt
    -- The first position after the new array would be one of the old array.
    obtain ⟨b, hb, -⟩ := hrel.cell s.array _ _ (List.getElem?_eq_getElem hlt)
    have hin := (List.getElem?_eq_some_iff.mp hb).1
    omega

theorem Rel.load (hrel : Rel R h h') {a : α} (ha : h.load s i = some a) :
    ∃ b, h'.load s i = some b ∧ R a b := by
  rw [Heap.load] at ha ⊢
  split at ha
  next hi =>
    rw [if_pos hi]
    exact hrel.cell _ _ _ ha
  next => cases ha

theorem Rel.contents_eq (hrel : Rel (· = ·) h h') (hs : s.Valid h) :
    h'.contents s = h.contents s := by
  apply List.ext_getElem
  · rw [length_contents hs, length_contents (hrel.valid hs)]
  · intro i hi' hi
    have hload : h.load s i = some (h.contents s)[i] := by
      rw [← getElem?_contents, List.getElem?_eq_getElem hi]
    obtain ⟨b, hb, hab⟩ := hrel.load hload
    rw [← getElem?_contents, List.getElem?_eq_getElem hi'] at hb
    rw [hab, Option.some.inj hb]

end Rel

end Heap

end OperatorToolkit.Memory
