import Mathlib.Data.List.Induction
import Mathlib.Data.List.Nodup

/-!
# The first occurrences in a list

`List.eraseDups` keeps the first occurrence of each element, in order. It does not matter when
repetitions are left out: they may be left out of the first part of a list, and of a list that is
mapped.
-/

namespace OperatorToolkit.Grouping

variable {α : Type} [DecidableEq α]

/-- Induction along the first occurrences. -/
theorem induction_first {P : List α → Prop} (nil : P [])
    (cons : ∀ x xs, P (xs.filter fun y ↦ !y == x) → P (x :: xs)) (xs : List α) : P xs := by
  induction hn : xs.length using Nat.strongRecOn generalizing xs with
  | ind n ih =>
    cases xs with
    | nil => exact nil
    | cons x xs =>
      apply cons
      refine ih _ ?_ _ rfl
      rw [← hn, List.length_cons]
      exact Nat.lt_succ_of_le (List.length_filter_le _ _)

theorem eraseDups_of_nodup {xs : List α} (h : xs.Nodup) : xs.eraseDups = xs := by
  induction xs with
  | nil => rfl
  | cons x xs ih =>
    obtain ⟨hx, hxs⟩ := List.nodup_cons.mp h
    have hfilter : (xs.filter fun y ↦ !y == x) = xs := by
      apply List.filter_eq_self.mpr
      intro y hy
      have hne : y ≠ x := fun heq ↦ hx (heq ▸ hy)
      simpa using hne
    rw [List.eraseDups_cons, hfilter, ih hxs]

theorem eraseDups_concat (xs : List α) (x : α) :
    (xs ++ [x]).eraseDups = if x ∈ xs then xs.eraseDups else xs.eraseDups ++ [x] := by
  rw [List.eraseDups_append]
  split
  next hx => simp [List.removeAll, hx]
  next hx => simp [List.removeAll, hx, List.eraseDups_cons]

theorem nodup_eraseDups (xs : List α) : xs.eraseDups.Nodup := by
  induction xs using induction_first with
  | nil => exact List.nodup_nil
  | cons x xs ih =>
    rw [List.eraseDups_cons, List.nodup_cons]
    exact ⟨by simp, ih⟩

/-- Repetitions may be left out early. -/
theorem eraseDups_append_left (xs ys : List α) :
    (xs.eraseDups ++ ys).eraseDups = (xs ++ ys).eraseDups := by
  have hremove : ys.removeAll xs.eraseDups = ys.removeAll xs := by
    unfold List.removeAll
    congr 1
    funext y
    simp
  rw [List.eraseDups_append, List.eraseDups_append, hremove,
    eraseDups_of_nodup (nodup_eraseDups xs)]

theorem eraseDups_map_of_injOn {β : Type} [DecidableEq β] {f : α → β} {xs : List α}
    (hinj : ∀ x ∈ xs, ∀ y ∈ xs, f x = f y → x = y) : (xs.map f).eraseDups = xs.eraseDups.map f := by
  induction xs using List.reverseRecOn with
  | nil => rfl
  | append_singleton xs x ih =>
    have hearlier := ih fun y hy z hz ↦
      hinj y (List.mem_append_left _ hy) z (List.mem_append_left _ hz)
    have hmem : f x ∈ xs.map f ↔ x ∈ xs := by
      constructor
      · intro hx
        obtain ⟨y, hy, heq⟩ := List.mem_map.mp hx
        exact hinj y (List.mem_append_left _ hy) x (by simp) heq ▸ hy
      · exact List.mem_map_of_mem
    rw [List.map_append, List.map_singleton, eraseDups_concat, eraseDups_concat, hearlier]
    simp only [hmem]
    split <;> simp

theorem removeAll_flatMap (xs ys : List α) (f : α → List α) :
    (xs.flatMap f).removeAll ys = xs.flatMap fun x ↦ (f x).removeAll ys := by
  simp only [List.removeAll, List.filter_flatMap]

theorem flatMap_filter_ne {x : α} {f : α → List α} (hf : f x = []) (xs : List α) :
    (xs.filter fun y ↦ !y == x).flatMap f = xs.flatMap f := by
  induction xs with
  | nil => rfl
  | cons y xs ih =>
    by_cases hy : y = x
    · subst hy
      simp [hf, ih]
    · simp [hy, ih]

/-- Repetitions in a list add nothing new to what it maps to. -/
theorem eraseDups_flatMap_eraseDups (xs : List α) (f : α → List α) :
    (xs.eraseDups.flatMap f).eraseDups = (xs.flatMap f).eraseDups := by
  induction xs using induction_first generalizing f with
  | nil => rfl
  | cons x xs ih =>
    rw [List.eraseDups_cons, List.flatMap_cons, List.flatMap_cons, List.eraseDups_append,
      List.eraseDups_append, removeAll_flatMap, removeAll_flatMap, ih,
      flatMap_filter_ne (by simp [List.removeAll])]

end OperatorToolkit.Grouping
