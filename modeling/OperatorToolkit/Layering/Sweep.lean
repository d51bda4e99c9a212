import OperatorToolkit.Grouping.FirstOccurrences
import OperatorToolkit.Layering.Chains
import Mathlib.Data.List.TakeWhile

/-!
# Sweeping a graph frontier by frontier

A layered traversal walks a frontier, places every vertex whose predecessors are all placed, and
collects the successors of the whole frontier as the next one. The placements of a sweep are
visible to the rest of the same sweep, so a vertex may be placed together with a predecessor that
was visited before it. This module says exactly when that happens: the vertex has a chain that is
one edge shorter than its longest one, and in the enumeration of the chains of that length all its
deepest predecessors come first. Where no vertex is overtaken in this sense, every vertex is placed
at its depth.
-/

namespace OperatorToolkit.Layering

open Grouping

variable {V : Type} [DecidableEq V]

/-! ## Lists without repeats -/

/-- Append the elements that are not there yet. -/
def appendNew (acc : List V) : List V → List V
  | [] => acc
  | v :: rest => appendNew (if v ∈ acc then acc else acc ++ [v]) rest

/-- The elements that stand before the first occurrence of `v`. -/
def before (l : List V) (v : V) : List V := l.takeWhile (· ≠ v)

theorem appendNew_eq (acc l : List V) :
    appendNew acc l = acc ++ (l.removeAll acc).eraseDups := by
  induction l generalizing acc with
  | nil => simp [appendNew]
  | cons v rest ih =>
    by_cases hv : v ∈ acc
    · simp [appendNew, hv, ih, List.cons_removeAll]
    · have hfilter : rest.removeAll (acc ++ [v]) =
          (rest.removeAll acc).filter fun b ↦ !b == v := by
        simp only [List.removeAll, List.filter_filter]
        congr 1
        funext b
        by_cases hb : b = v <;> simp [hb]
      simp [appendNew, hv, ih, List.cons_removeAll, List.eraseDups_cons, hfilter]

theorem appendNew_append (acc l m : List V) :
    appendNew acc (l ++ m) = appendNew (appendNew acc l) m := by
  induction l generalizing acc with
  | nil => rfl
  | cons v rest ih => exact ih _

theorem foldl_appendNew (f : V → List V) (acc l : List V) :
    l.foldl (fun acc c ↦ appendNew acc (f c)) acc = appendNew acc (l.flatMap f) := by
  induction l generalizing acc with
  | nil => rfl
  | cons c rest ih => rw [List.foldl_cons, ih, List.flatMap_cons, appendNew_append]

theorem before_filter_ne {a v : V} (ha : a ≠ v) (l : List V) :
    before (l.filter fun b ↦ !b == a) v = (before l v).filter fun b ↦ !b == a := by
  induction l with
  | nil => rfl
  | cons b rest ih =>
    by_cases hba : b = a
    · subst hba
      simpa [before, ha] using ih
    · by_cases hbv : b = v
      · simp [before, hbv, Ne.symm ha]
      · simpa [before, hba, hbv] using ih

theorem mem_before_eraseDups {l : List V} {u v : V} :
    u ∈ before l.eraseDups v ↔ u ∈ before l v := by
  induction l using induction_first with
  | nil => rfl
  | cons a rest ih =>
    by_cases ha : a = v
    · simp [before, List.eraseDups_cons, ha]
    · have hcons : before (a :: rest).eraseDups v =
          a :: before ((rest.filter fun b ↦ !b == a).eraseDups) v := by
        simp [before, List.eraseDups_cons, ha]
      have hcons' : before (a :: rest) v = a :: before rest v := by simp [before, ha]
      rw [hcons, hcons', List.mem_cons, List.mem_cons, ih, before_filter_ne ha]
      by_cases hu : u = a <;> simp [hu]

/-- A list splits at the first occurrence of each of its elements. -/
theorem eq_before_append {l : List V} {v : V} (hv : v ∈ l) :
    ∃ rest, l = before l v ++ v :: rest := by
  induction l with
  | nil => cases hv
  | cons a rest ih =>
    by_cases ha : a = v
    · exact ⟨rest, by simp [before, ha]⟩
    · obtain ⟨tail, htail⟩ := ih ((List.mem_cons.mp hv).resolve_left (Ne.symm ha))
      refine ⟨tail, ?_⟩
      have : before (a :: rest) v = a :: before rest v := by simp [before, ha]
      rw [this, List.cons_append, ← htail]

theorem not_mem_before (l : List V) (v : V) : v ∉ before l v := by
  intro h
  simpa using List.mem_takeWhile_imp h

namespace Graph

variable (g : Graph V)

/-! ## The frontiers -/

def frontier : ℕ → List V
  | 0 => g.sources
  | k + 1 => (frontier k).foldl (fun acc c ↦ appendNew acc (g.succ c)) []

/-- The frontiers enumerate the chain ends without repeats. -/
theorem frontier_eq (k : ℕ) : g.frontier k = (g.chainEnds k).eraseDups := by
  induction k with
  | zero => exact (eraseDups_of_nodup (g.verts_nodup.filter _)).symm
  | succ k ih =>
    have hnil (l : List V) : appendNew [] l = l.eraseDups := by
      simp [appendNew_eq, List.removeAll]
    rw [frontier, foldl_appendNew, hnil, ih, eraseDups_flatMap_eraseDups, chainEnds]

theorem mem_frontier_iff {k : ℕ} {v : V} : v ∈ g.frontier k ↔ v ∈ g.chainEnds k := by
  rw [frontier_eq, List.mem_eraseDups]

theorem nodup_frontier (k : ℕ) : (g.frontier k).Nodup := by
  rw [frontier_eq]
  exact nodup_eraseDups _

/-! ## One sweep -/

/-- Place a vertex when it is new and all its predecessors are placed. -/
def visit (step : ℕ) (placed : V → Option ℕ) (c : V) : V → Option ℕ :=
  if placed c = none ∧ ∀ p ∈ g.pred c, placed p ≠ none then
    Function.update placed c (some step)
  else
    placed

def sweep (step : ℕ) (placed : V → Option ℕ) (l : List V) : V → Option ℕ :=
  l.foldl (g.visit step) placed

variable {g} {step : ℕ} {placed : V → Option ℕ}

theorem visit_of_ne {c v : V} (h : v ≠ c) : g.visit step placed c v = placed v := by
  unfold visit
  split <;> simp [h]

theorem visit_of_some {c v : V} {s : ℕ} (h : placed v = some s) :
    g.visit step placed c v = some s := by
  by_cases hc : v = c
  · subst hc
    simp [visit, h]
  · rw [visit_of_ne hc, h]

theorem sweep_of_not_mem {l : List V} {v : V} (h : v ∉ l) : g.sweep step placed l v = placed v := by
  induction l generalizing placed with
  | nil => rfl
  | cons c rest ih =>
    obtain ⟨hc, hrest⟩ := not_or.mp (List.mem_cons.not.mp h)
    exact (ih hrest).trans (visit_of_ne hc)

theorem sweep_of_some {l : List V} {v : V} {s : ℕ} (h : placed v = some s) :
    g.sweep step placed l v = some s := by
  induction l generalizing placed with
  | nil => exact h
  | cons c rest ih => exact ih (visit_of_some h)

theorem sweep_append (l m : List V) :
    g.sweep step placed (l ++ m) = g.sweep step (g.sweep step placed l) m :=
  List.foldl_append

/-- What a sweep without repeats does to a new vertex: the placements made before its turn, those
of the same sweep included, decide. -/
theorem sweep_eq_ite {l : List V} {v : V} (hl : l.Nodup) (hv : placed v = none) :
    g.sweep step placed l v =
      if v ∈ l ∧ ∀ p ∈ g.pred v, g.sweep step placed (before l v) p ≠ none then some step
      else none := by
  by_cases hmem : v ∈ l
  · obtain ⟨rest, hsplit⟩ := eq_before_append hmem
    have hrest : v ∉ rest := by
      rw [hsplit] at hl
      exact (List.nodup_cons.mp (List.nodup_append.mp hl).2.1).1
    have hturn : g.sweep step placed (before l v) v = none := by
      rw [sweep_of_not_mem (not_mem_before l v), hv]
    have hwhole : g.sweep step placed l v =
        g.visit step (g.sweep step placed (before l v)) v v := by
      conv_lhs => rw [hsplit, sweep_append]
      exact sweep_of_not_mem hrest
    rw [hwhole]
    by_cases hpred : ∀ p ∈ g.pred v, g.sweep step placed (before l v) p ≠ none
    · rw [visit, if_pos ⟨hturn, hpred⟩, if_pos ⟨hmem, hpred⟩, Function.update_self]
    · rw [visit, if_neg (fun h ↦ hpred h.2), if_neg (fun h ↦ hpred h.2), hturn]
  · rw [sweep_of_not_mem hmem, hv, if_neg (fun h ↦ hmem h.1)]

/-! ## The whole traversal -/

/-- The placements made by the first `k` sweeps. -/
def placements (g : Graph V) : ℕ → V → Option ℕ
  | 0 => fun _ ↦ none
  | k + 1 => g.sweep k (g.placements k) (g.frontier k)

/-- The traversal places `v` in sweep `s`. -/
def Placed (g : Graph V) (v : V) (s : ℕ) : Prop := g.placements (s + 1) v = some s

theorem placements_eq_some_iff {k s : ℕ} {v : V} :
    g.placements k v = some s ↔ s < k ∧ g.Placed v s := by
  induction k with
  | zero => simp [placements]
  | succ k ih =>
    cases hk : g.placements k v with
    | some t =>
      have hnext : g.placements (k + 1) v = some t := sweep_of_some hk
      rw [hnext, ← hk, ih]
      rw [hk] at ih
      constructor
      · rintro ⟨hlt, hs⟩
        exact ⟨by omega, hs⟩
      · rintro ⟨hlt, hs⟩
        refine ⟨?_, hs⟩
        rcases Nat.lt_or_eq_of_le (Nat.lt_succ_iff.mp hlt) with hlt | rfl
        · exact hlt
        · rw [Placed, hnext, Option.some.injEq] at hs
          exact (ih.mp (by rw [hs])).1
    | none =>
      have hnone : ¬ (s < k ∧ g.Placed v s) := fun h ↦ by
        have := ih.mpr h
        rw [hk] at this
        cases this
      have hnext := @sweep_eq_ite _ _ g k _ _ _ (g.nodup_frontier k) hk
      constructor
      · intro h
        have hs : s = k := by
          rw [placements, hnext] at h
          split at h <;> simp_all
        subst hs
        exact ⟨Nat.lt_succ_self s, h⟩
      · rintro ⟨hlt, hs⟩
        have hs' : s = k := by
          by_contra hne
          exact hnone ⟨by omega, hs⟩
        subst hs'
        exact hs

theorem Placed.unique {v : V} {s t : ℕ} (hs : g.Placed v s) (ht : g.Placed v t) : s = t := by
  have h₁ : g.placements (s + t + 1) v = some s := placements_eq_some_iff.mpr ⟨by omega, hs⟩
  have h₂ : g.placements (s + t + 1) v = some t := placements_eq_some_iff.mpr ⟨by omega, ht⟩
  exact Option.some.inj (h₁.symm.trans h₂)

theorem placements_eq_none_iff {v : V} {s : ℕ} :
    g.placements s v = none ↔ ∀ t < s, ¬ g.Placed v t := by
  rw [Option.eq_none_iff_forall_ne_some]
  simp only [ne_eq, placements_eq_some_iff, not_and]

/-- What is placed when `v` has its turn in sweep `s`: what earlier sweeps have placed, and what
this sweep places before `v`. -/
theorem sweep_before_ne_none_iff {v p : V} {s : ℕ} (hmem : v ∈ g.frontier s) :
    g.sweep s (g.placements s) (before (g.frontier s) v) p ≠ none ↔
      ∃ t, g.Placed p t ∧ (t < s ∨ t = s ∧ p ∈ before (g.chainEnds s) v) := by
  rw [← mem_before_eraseDups, ← frontier_eq]
  obtain ⟨rest, hsplit⟩ := eq_before_append hmem
  by_cases hold : ∃ t < s, g.Placed p t
  · obtain ⟨t, ht, hp⟩ := hold
    have := @sweep_of_some _ _ g s _ (before (g.frontier s) v) _ _
      (placements_eq_some_iff.mpr ⟨ht, hp⟩)
    exact iff_of_true (by simp [this]) ⟨t, hp, .inl ht⟩
  · by_cases hp : p ∈ before (g.frontier s) v
    · -- `p` has its turn before `v`, so the whole sweep leaves it where this prefix put it.
      have hnodup := g.nodup_frontier s
      rw [hsplit] at hnodup
      have htail : p ∉ v :: rest := fun h ↦ (List.nodup_append.mp hnodup).2.2 p hp p h rfl
      have hwhole : g.placements (s + 1) p =
          g.sweep s (g.placements s) (before (g.frontier s) v) p := by
        rw [placements]
        conv_lhs => rw [hsplit, sweep_append]
        exact sweep_of_not_mem htail
      rw [← hwhole]
      constructor
      · intro h
        obtain ⟨t, ht⟩ := Option.ne_none_iff_exists'.mp h
        obtain ⟨hlt, hplaced⟩ := placements_eq_some_iff.mp ht
        have hts : t = s := by
          by_contra hne
          exact hold ⟨t, by omega, hplaced⟩
        exact ⟨t, hplaced, .inr ⟨hts, hp⟩⟩
      · rintro ⟨t, hplaced, hlt | ⟨rfl, _⟩⟩
        · exact absurd ⟨t, hlt, hplaced⟩ hold
        · rw [hplaced]
          simp
    · have hnone : g.placements s p = none :=
        placements_eq_none_iff.mpr fun t ht hplaced ↦ hold ⟨t, ht, hplaced⟩
      rw [sweep_of_not_mem hp, hnone]
      constructor
      · simp
      · rintro ⟨t, hplaced, hlt | ⟨_, hbefore⟩⟩
        · exact absurd ⟨t, hlt, hplaced⟩ hold
        · exact absurd hbefore hp

theorem placed_iff {v : V} {s : ℕ} :
    g.Placed v s ↔ (∀ t < s, ¬ g.Placed v t) ∧ v ∈ g.chainEnds s ∧
      ∀ p ∈ g.pred v, ∃ t, g.Placed p t ∧ (t < s ∨ t = s ∧ p ∈ before (g.chainEnds s) v) := by
  rw [← placements_eq_none_iff, ← mem_frontier_iff]
  constructor
  · intro hv
    have hnone : g.placements s v = none :=
      placements_eq_none_iff.mpr fun t ht hplaced ↦ ht.ne (hplaced.unique hv)
    rw [Placed, placements, sweep_eq_ite (g.nodup_frontier s) hnone] at hv
    split at hv
    next h => exact ⟨hnone, h.1, fun p hp ↦ (sweep_before_ne_none_iff h.1).mp (h.2 p hp)⟩
    next => cases hv
  · rintro ⟨hnone, hmem, hpred⟩
    rw [Placed, placements, sweep_eq_ite (g.nodup_frontier s) hnone]
    exact if_pos ⟨hmem, fun p hp ↦ (sweep_before_ne_none_iff hmem).mpr (hpred p hp)⟩

/-- A predecessor is placed no later than its successor. -/
theorem Placed.pred {v p : V} {s : ℕ} (hv : g.Placed v s) (hp : p ∈ g.pred v) :
    ∃ t ≤ s, g.Placed p t := by
  obtain ⟨t, ht, hlt | ⟨rfl, _⟩⟩ := (placed_iff.mp hv).2.2 p hp
  · exact ⟨t, hlt.le, ht⟩
  · exact ⟨t, le_rfl, ht⟩

/-- Every vertex is placed, and no later than at its depth. -/
theorem Acyclic.exists_placed_le_depth (hacyclic : g.Acyclic) {v : V} (hv : v ∈ g.verts) :
    ∃ s ≤ g.depth v, g.Placed v s := by
  induction v using hacyclic.induction with
  | step v ih =>
    by_cases hearly : ∃ t < g.depth v, g.Placed v t
    · obtain ⟨t, ht, hplaced⟩ := hearly
      exact ⟨t, ht.le, hplaced⟩
    · push Not at hearly
      refine ⟨g.depth v, le_rfl, placed_iff.mpr ⟨hearly, hacyclic.mem_chainEnds_depth hv, ?_⟩⟩
      intro p hp
      obtain ⟨t, ht, hplaced⟩ := ih p hp (g.edge_verts (g.mem_pred_iff.mp hp)).1
      exact ⟨t, hplaced, .inl (ht.trans_lt (hacyclic.depth_lt_of_mem_pred hp))⟩

/-! ## When a vertex overtakes -/

/-- `v` also ends a chain that is one edge shorter than its longest one, and in the enumeration of
the chains of that length all its deepest predecessors come before it. -/
def Overtakes (g : Graph V) (v : V) : Prop :=
  ∃ k < g.depth v, g.depth v = k + 1 ∧ v ∈ g.chainEnds k ∧
    ∀ p ∈ g.pred v, g.depth p = k → p ∈ before (g.chainEnds k) v

instance (g : Graph V) : DecidablePred g.Overtakes := fun v ↦
  inferInstanceAs (Decidable (∃ k < g.depth v, g.depth v = k + 1 ∧ v ∈ g.chainEnds k ∧
    ∀ p ∈ g.pred v, g.depth p = k → p ∈ before (g.chainEnds k) v))

/-- Where nothing overtakes, the traversal places every vertex at its depth. -/
theorem Acyclic.placed_depth (hacyclic : g.Acyclic) (hnone : ∀ v ∈ g.verts, ¬ g.Overtakes v)
    {v : V} (hv : v ∈ g.verts) : g.Placed v (g.depth v) := by
  induction v using hacyclic.induction with
  | step v ih =>
    have hpreds : ∀ p ∈ g.pred v, g.Placed p (g.depth p) := fun p hp ↦
      ih p hp (g.edge_verts (g.mem_pred_iff.mp hp)).1
    obtain ⟨s, hle, hs⟩ := hacyclic.exists_placed_le_depth hv
    obtain ⟨-, hchain, hpred⟩ := placed_iff.mp hs
    rcases Nat.lt_or_eq_of_le hle with hlt | rfl
    · exfalso
      -- All predecessors are at most `s` deep, so `s` is one less than the depth of `v`.
      have hdeep : ∀ p ∈ g.pred v, g.depth p < s ∨
          g.depth p = s ∧ p ∈ before (g.chainEnds s) v := by
        intro p hp
        obtain ⟨t, ht, hcase⟩ := hpred p hp
        rwa [ht.unique (hpreds p hp)] at hcase
      obtain ⟨p, hp, hpdepth⟩ := hacyclic.exists_pred_of_depth hv
        (k := g.depth v - 1) (by omega)
      have hs' : g.depth v = s + 1 := by
        rcases hdeep p hp with h | ⟨h, _⟩ <;> omega
      refine hnone v hv ⟨s, hlt, hs', hchain, fun q hq hqdepth ↦ ?_⟩
      rcases hdeep q hq with h | ⟨_, h⟩
      · omega
      · exact h
    · exact hs

/-- **Strictness of the traversal.** It places every vertex after its predecessors exactly when no
vertex overtakes. -/
theorem Acyclic.strict_iff (hacyclic : g.Acyclic) :
    (∀ v s p t, g.Placed v s → p ∈ g.pred v → g.Placed p t → t < s) ↔
      ∀ v ∈ g.verts, ¬ g.Overtakes v := by
  constructor
  · rintro hstrict v hv ⟨k, -, hdepth, hchain, hbefore⟩
    -- Under strictness the placement is the depth, and then `v` would have been placed at `k`.
    have hplaced : ∀ u, u ∈ g.verts → g.Placed u (g.depth u) := by
      intro u hu
      induction u using hacyclic.induction with
      | step u ih =>
        obtain ⟨s, hle, hs⟩ := hacyclic.exists_placed_le_depth hu
        rcases Nat.lt_or_eq_of_le hle with hlt | rfl
        · obtain ⟨p, hp, hpdepth⟩ := hacyclic.exists_pred_of_depth hu
            (k := g.depth u - 1) (by omega)
          have := hstrict u s p _ hs hp (ih p hp (g.edge_verts (g.mem_pred_iff.mp hp)).1)
          omega
        · exact hs
    have hearly : g.Placed v k := by
      refine placed_iff.mpr ⟨fun t ht hvt ↦ ?_, hchain, fun p hp ↦ ?_⟩
      · have := hvt.unique (hplaced v hv)
        omega
      · refine ⟨g.depth p, hplaced p (g.edge_verts (g.mem_pred_iff.mp hp)).1, ?_⟩
        have := hacyclic.depth_lt_of_mem_pred hp
        by_cases hpk : g.depth p = k
        · exact .inr ⟨hpk, hbefore p hp hpk⟩
        · exact .inl (by omega)
    have := hearly.unique (hplaced v hv)
    omega
  · intro hnone v s p t hv hp ht
    have hpv := g.edge_verts (g.mem_pred_iff.mp hp)
    rw [hv.unique (hacyclic.placed_depth hnone hpv.2),
      ht.unique (hacyclic.placed_depth hnone hpv.1)]
    exact hacyclic.depth_lt_of_mem_pred hp

end Graph

end OperatorToolkit.Layering
