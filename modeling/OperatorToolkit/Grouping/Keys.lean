import Mathlib.Data.List.Basic

/-!
# Keys joined with a separator

A program that keeps a map under two names often joins them into one text with a separator between.
The parts can be told again from the whole as long as the first of them is free of the separator.
-/

namespace OperatorToolkit.Grouping

/-- Two lists cut at the first occurrence of the same element have the same parts. -/
theorem append_cons_inj {α : Type} {sep : α} {xs ys xs' ys' : List α} (hxs : sep ∉ xs)
    (hxs' : sep ∉ xs') (heq : xs ++ sep :: ys = xs' ++ sep :: ys') : xs = xs' ∧ ys = ys' := by
  induction xs generalizing xs' with
  | nil =>
    cases xs' with
    | nil => exact ⟨rfl, (List.cons_eq_cons.mp heq).2⟩
    | cons x' xs' =>
      exact absurd ((List.cons_eq_cons.mp heq).1 ▸ List.mem_cons_self) hxs'
  | cons x xs ih =>
    cases xs' with
    | nil => exact absurd ((List.cons_eq_cons.mp heq).1 ▸ List.mem_cons_self) hxs
    | cons x' xs' =>
      obtain ⟨hhead, htail⟩ := List.cons_eq_cons.mp heq
      obtain ⟨hrest, hys⟩ := ih (fun h ↦ hxs (List.mem_cons_of_mem _ h))
        (fun h ↦ hxs' (List.mem_cons_of_mem _ h)) htail
      exact ⟨List.cons_eq_cons.mpr ⟨hhead, hrest⟩, hys⟩

theorem joined_inj {sep : Char} {x y x' y' : String} (hx : sep ∉ x.toList) (hx' : sep ∉ x'.toList)
    (heq : x ++ String.singleton sep ++ y = x' ++ String.singleton sep ++ y') :
    x = x' ∧ y = y' := by
  have hchars : x.toList ++ sep :: y.toList = x'.toList ++ sep :: y'.toList := by
    simpa using congrArg String.toList heq
  obtain ⟨hfirst, hsecond⟩ := append_cons_inj hx hx' hchars
  exact ⟨String.toList_inj.mp hfirst, String.toList_inj.mp hsecond⟩

end OperatorToolkit.Grouping
