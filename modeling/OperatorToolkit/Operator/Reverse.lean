import OperatorToolkit.Memory.Slices
import OperatorToolkit.Operator.Operand

/-!
# `Reverse` on slices

An order is a slice of steps, and `Reverse` writes into a slice that it makes itself. The loop is
given here once more on a heap of backing arrays: it reads through the slice that it is called on
and writes through the fresh one, so what is shared and what is not can be stated. Its result is
what the list function `OperandOrder.reverse` computes, and no slice that was there before changes.

The two indices stop before they meet, so the middle step of an odd number of steps is never
written and stays nil.
-/

namespace OperatorToolkit.Operator

open Memory

/-- The loop of `Reverse`; an index that is out of range panics, which is `none`. -/
def reverseSlots (h : Heap (List Operand)) (o r : Slice) (left right : ℕ) :
    Option (Heap (List Operand)) :=
  if left < right then do
    let last ← h.load o right
    let first ← h.load o left
    let h ← h.store r left last
    let h ← h.store r right first
    reverseSlots h o r (left + 1) (right - 1)
  else
    some h
termination_by right - left

/-- `Reverse` called on the order in the slice `o`: the heap afterwards and the slice returned. -/
def reverseSlice (h : Heap (List Operand)) (o : Slice) : Option (Heap (List Operand) × Slice) :=
  let made := h.make o.length []
  (reverseSlots made.1 o made.2 0 (o.length - 1)).map fun h' ↦ (h', made.2)

/-! ## The loop on lists -/

theorem length_reverseLoop (o r : OperandOrder) (left right : ℕ) :
    (reverseLoop o r left right).length = r.length := by
  fun_induction reverseLoop o r left right with
  | case1 r left right hlt ih => rw [ih, List.length_set, List.length_set]
  | case2 r left right hge => rfl

theorem OperandOrder.length_reverse (o : OperandOrder) :
    (OperandOrder.reverse o).length = o.length := by
  rw [OperandOrder.reverse, length_reverseLoop, List.length_replicate]

/-- The middle step of an odd number of steps is empty. -/
def MiddleEmpty (o : OperandOrder) : Prop :=
  o.length % 2 = 1 → o.getD (o.length / 2) [] = []

theorem getElem?_listReverse_of_lt (o : OperandOrder) {i : ℕ} (hi : i < o.length) :
    (List.reverse o)[i]? = some (o.getD (o.length - 1 - i) []) := by
  rw [List.getElem?_reverse hi, List.getD_eq_getElem?_getD,
    List.getElem?_eq_getElem (show o.length - 1 - i < o.length by omega)]
  rfl

theorem OperandOrder.getElem?_reverse_of_lt (o : OperandOrder) {i : ℕ} (hi : i < o.length) :
    (OperandOrder.reverse o)[i]? =
      some (if 2 * i + 1 ≠ o.length then o.getD (o.length - 1 - i) [] else []) := by
  have hget := OperandOrder.getD_reverse o i
  have hlength := OperandOrder.length_reverse o
  rw [List.getD_eq_getElem?_getD, List.getElem?_eq_getElem (by omega), Option.getD_some] at hget
  rw [List.getElem?_eq_getElem (by omega), hget]
  simp [hi]

/-- The order is mirrored as a whole exactly when no step is lost in the middle. -/
theorem OperandOrder.reverse_eq_iff (o : OperandOrder) :
    OperandOrder.reverse o = List.reverse o ↔ MiddleEmpty o := by
  constructor
  · intro heq hodd
    have hmiddle := OperandOrder.getElem?_reverse_of_lt o (i := o.length / 2) (by omega)
    rw [heq, getElem?_listReverse_of_lt o (by omega), if_neg (by omega)] at hmiddle
    rw [show o.length - 1 - o.length / 2 = o.length / 2 by omega] at hmiddle
    exact Option.some.inj hmiddle
  · intro hempty
    apply List.ext_getElem?
    intro i
    by_cases hi : i < o.length
    · rw [OperandOrder.getElem?_reverse_of_lt o hi, getElem?_listReverse_of_lt o hi]
      by_cases hmiddle : 2 * i + 1 = o.length
      · rw [if_neg (by omega), show o.length - 1 - i = o.length / 2 by omega, hempty (by omega)]
      · rw [if_pos hmiddle]
    · have hlength := OperandOrder.length_reverse o
      rw [List.getElem?_eq_none (by omega),
        List.getElem?_eq_none (by rw [List.length_reverse]; omega)]

theorem middleEmpty_reverse {o : OperandOrder} (h : MiddleEmpty o) :
    MiddleEmpty (List.reverse o) := by
  intro hodd
  rw [List.length_reverse] at hodd ⊢
  have hmiddle := getElem?_listReverse_of_lt o (i := o.length / 2) (by omega)
  rw [List.getD_eq_getElem?_getD, hmiddle, Option.getD_some,
    show o.length - 1 - o.length / 2 = o.length / 2 by omega]
  exact h hodd

/-! ## The loop on slices -/

section Slots

variable {h h' : Heap (List Operand)} {o r : Slice} {left right : ℕ}

/-- What the loop leaves behind: the slice it writes holds what the loop on lists computes, and
nothing is seen of it through a slice of another array. -/
structure Writes (h h' : Heap (List Operand)) (o r : Slice) (left right : ℕ) : Prop where
  contents_eq : h'.contents r = reverseLoop (h.contents o) (h.contents r) left right
  frame : ∀ t : Slice, t.array ≠ r.array → h'.contents t = h.contents t
  valid : ∀ t : Slice, t.Valid h → t.Valid h'

theorem writes_reverseSlots (ho : o.Valid h) (hr : r.Valid h) (hne : o.array ≠ r.array)
    (hlength : r.length = o.length) (hright : left < right → right < o.length) :
    ∃ h', reverseSlots h o r left right = some h' ∧ Writes h h' o r left right := by
  fun_induction reverseSlots h o r left right with
  | case1 h left right hlt ih =>
    have hin := hright hlt
    let first := (h.contents o).getD left []
    let last := (h.contents o).getD right []
    let h₁ := h.written r left last
    let h₂ := h₁.written r right first
    have hr₁ : r.Valid h₁ := Heap.valid_written last hr
    have hcontents : h₂.contents r = ((h.contents r).set left last).set right first := by
      rw [Heap.contents_written_self first hr₁, Heap.contents_written_self last hr]
    have hframe (t : Slice) (ht : t.array ≠ r.array) : h₂.contents t = h.contents t := by
      rw [Heap.contents_written_of_ne first ht, Heap.contents_written_of_ne last ht]
    have hvalid (t : Slice) (ht : t.Valid h) : t.Valid h₂ :=
      Heap.valid_written first (Heap.valid_written last ht)
    obtain ⟨h', hrun, hwrites⟩ := ih h₂ (hvalid o ho) (hvalid r hr) (by omega)
    refine ⟨h', ?_, ?_, ?_, ?_⟩
    · rw [Heap.load_eq_some ho hin [], Heap.load_eq_some ho (by omega) []]
      simp only [Option.bind_eq_bind, Option.bind_some]
      rw [Heap.store_eq_some _ (by omega), Option.bind_some, Heap.store_eq_some _ (by omega),
        Option.bind_some]
      exact hrun
    · rw [hwrites.contents_eq, hframe o hne, hcontents]
      conv_rhs => rw [reverseLoop, if_pos hlt]
    · intro t ht
      rw [hwrites.frame t ht, hframe t ht]
    · intro t ht
      exact hwrites.valid t (hvalid t ht)
  | case2 h left right hge =>
    refine ⟨h, rfl, ?_, fun _ _ ↦ rfl, fun _ ht ↦ ht⟩
    rw [reverseLoop, if_neg hge]

/-- `Reverse` never panics; it returns a fresh slice with the reversed order, and leaves every slice
that was there before as it was. -/
theorem reverseSlice_spec (ho : o.Valid h) :
    ∃ h' r, reverseSlice h o = some (h', r) ∧ r.Valid h' ∧ r.length = o.length ∧
      h'.contents r = OperandOrder.reverse (h.contents o) ∧
      ∀ t : Slice, t.Valid h → h'.contents t = h.contents t := by
  let made := h.alloc (List.replicate o.length ([] : List Operand))
  have hmake : h.make o.length [] = made := Heap.make_eq_alloc h o.length []
  have hmade : made.2.Valid made.1 := Heap.valid_alloc h _
  have hlength : made.2.length = o.length := List.length_replicate
  have hwritten : ∃ h', reverseSlots made.1 o made.2 0 (o.length - 1) = some h' ∧
      Writes made.1 h' o made.2 0 (o.length - 1) :=
    writes_reverseSlots (Heap.valid_of_alloc ho) hmade (Heap.alloc_array_ne ho) hlength (by omega)
  obtain ⟨h', hrun, hwrites⟩ := hwritten
  refine ⟨h', made.2, ?_, hwrites.valid _ hmade, hlength, ?_, ?_⟩
  · rw [reverseSlice, hmake, hrun, Option.map_some]
  · rw [hwrites.contents_eq, Heap.contents_of_alloc ho, Heap.contents_alloc, OperandOrder.reverse,
      Heap.length_contents ho]
  · intro t ht
    rw [hwrites.frame t (Heap.alloc_array_ne ht), Heap.contents_of_alloc ht]

/-! ## When the order is mirrored -/

theorem middleEmpty_contents_iff (ho : o.Valid h) :
    MiddleEmpty (h.contents o) ↔ o.length % 2 = 0 ∨ h.load o (o.length / 2) = some [] := by
  have hlength := Heap.length_contents ho
  rw [MiddleEmpty, hlength]
  rcases Nat.mod_two_eq_zero_or_one o.length with heven | hodd
  · simp [heven]
  · rw [Heap.load_eq_some ho (by omega) []]
    simp [hodd]

theorem contents_eq_of_load_eq (ho : o.Valid h) (hlength : r.length = o.length)
    (hload : ∀ i < o.length, h'.load r i = h.load o (o.length - 1 - i)) :
    h'.contents r = List.reverse (h.contents o) := by
  apply List.ext_getElem?
  intro i
  rw [Heap.getElem?_contents]
  by_cases hi : i < o.length
  · have hcontents := Heap.length_contents ho
    rw [hload i hi, List.getElem?_reverse (by omega), Heap.getElem?_contents, hcontents]
  · rw [Heap.load, if_neg (by omega), List.getElem?_eq_none]
    rw [List.length_reverse, Heap.length_contents ho]
    omega

theorem load_eq_of_contents_eq (ho : o.Valid h)
    (hcontents : h'.contents r = List.reverse (h.contents o)) {i : ℕ} (hi : i < o.length) :
    h'.load r i = h.load o (o.length - 1 - i) := by
  have hlength := Heap.length_contents ho
  rw [← Heap.getElem?_contents, hcontents, List.getElem?_reverse (by omega), hlength,
    Heap.getElem?_contents]

end Slots

/-- `Reverse` mirrors the order, undoes itself, loses no step and leaves its receiver alone, if and
only if the number of steps is even or the middle step is empty. -/
theorem reverseSlice_mirrors_iff (h : Heap (List Operand)) (o : Slice) (ho : o.Valid h) :
    ∃ h' r h'' r', reverseSlice h o = some (h', r) ∧ reverseSlice h' r = some (h'', r') ∧
      ((r.length = o.length ∧ (∀ i < o.length, h'.load r i = h.load o (o.length - 1 - i)) ∧
          h''.contents r' = h.contents o ∧ (h'.contents r).Perm (h.contents o) ∧
          h'.contents o = h.contents o) ↔
        o.length % 2 = 0 ∨ h.load o (o.length / 2) = some []) := by
  obtain ⟨h', r, hrun, hr, hlength, hcontents, hframe⟩ := reverseSlice_spec ho
  obtain ⟨h'', r', hrun', -, -, hcontents', -⟩ := reverseSlice_spec hr
  refine ⟨h', r, h'', r', hrun, hrun', ?_⟩
  rw [← middleEmpty_contents_iff ho, ← OperandOrder.reverse_eq_iff, ← hcontents]
  constructor
  · rintro ⟨-, hload, -⟩
    exact contents_eq_of_load_eq ho hlength hload
  · intro hreverse
    have hempty : MiddleEmpty (h.contents o) :=
      (OperandOrder.reverse_eq_iff _).mp (hcontents ▸ hreverse)
    have htwice : OperandOrder.reverse (h'.contents r) = h.contents o := by
      rw [hreverse, (OperandOrder.reverse_eq_iff _).mpr (middleEmpty_reverse hempty),
        List.reverse_reverse]
    refine ⟨hlength, fun i hi ↦ load_eq_of_contents_eq ho hreverse hi, ?_, ?_, hframe o ho⟩
    · rw [hcontents', htwice]
    · rw [hreverse]
      exact List.reverse_perm _

/-- Two steps of one operand each, as the only array of a heap. -/
def twoSteps : Heap (List Operand) :=
  ⟨[[[⟨"A", [], .requeueOnError⟩], [⟨"B", ["A"], .requeueOnError⟩]]]⟩

theorem twoSteps_valid : Slice.Valid ⟨0, 0, 2⟩ twoSteps where
  array_lt := by decide
  window_le := by decide

theorem reverseSlice_mirrors_twoSteps :
    ∃ h' r, reverseSlice twoSteps ⟨0, 0, 2⟩ = some (h', r) ∧
      ∀ i < 2, h'.load r i = twoSteps.load ⟨0, 0, 2⟩ (1 - i) := by
  obtain ⟨h', r, h'', r', hrun, -, hiff⟩ :=
    reverseSlice_mirrors_iff twoSteps ⟨0, 0, 2⟩ twoSteps_valid
  exact ⟨h', r, hrun, (hiff.mpr (.inl rfl)).2.1⟩

/-- The first step alone: its reversed order has one step, and that one is empty. -/
theorem reverseSlice_loses_single_step :
    ¬ ∃ h' r, reverseSlice twoSteps ⟨0, 0, 1⟩ = some (h', r) ∧
      ∀ i < 1, h'.load r i = twoSteps.load ⟨0, 0, 1⟩ (1 - 1 - i) := by
  rintro ⟨h', r, hrun, hload⟩
  have hreversed : reverseSlice twoSteps ⟨0, 0, 1⟩ = some (twoSteps.make 1 []) := by
    simp [reverseSlice, reverseSlots, Heap.make]
  rw [hreversed] at hrun
  obtain ⟨rfl, rfl⟩ := Prod.mk.inj (Option.some.inj hrun)
  exact absurd (hload 0 (by decide)) (by decide)

end OperatorToolkit.Operator
