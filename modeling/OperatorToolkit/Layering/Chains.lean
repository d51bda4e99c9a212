import Mathlib.Data.List.Chain
import Mathlib.Data.List.Perm.Subperm
import Mathlib.Data.Nat.Find
import Mathlib.Order.Bounds.Basic
import Mathlib.Order.WellFounded
import Mathlib.Logic.Relation

/-!
# Chains in a finite directed graph

A graph is given by a list of vertices and by adjacency lists in both directions. Lists and not
sets, because the traversals that are studied over it depend on the order in which neighbours are
listed. `chainEnds g k` is the list of the last vertices of all chains with `k` edges that start
at a source, in lexicographic order of the chains; `depth` is the length of the longest chain that
ends in a vertex. In an acyclic graph every vertex ends a chain, and no chain is longer than the
vertex list.
-/

namespace OperatorToolkit.Layering

@[ext]
structure Graph (V : Type) where
  verts : List V
  verts_nodup : verts.Nodup
  succ : V → List V
  pred : V → List V
  mem_pred_iff : ∀ {u v}, u ∈ pred v ↔ v ∈ succ u
  edge_verts : ∀ {u v}, v ∈ succ u → u ∈ verts ∧ v ∈ verts

namespace Graph

variable {V : Type} (g : Graph V)

def Edge (u v : V) : Prop := v ∈ g.succ u

def Acyclic : Prop := ∀ v, ¬ Relation.TransGen g.Edge v v

def sources : List V := g.verts.filter fun v ↦ (g.pred v).isEmpty

/-- The last vertices of all chains with the given number of edges from a source. -/
def chainEnds : ℕ → List V
  | 0 => g.sources
  | k + 1 => (chainEnds k).flatMap g.succ

theorem mem_sources_iff {v : V} : v ∈ g.sources ↔ v ∈ g.verts ∧ g.pred v = [] := by
  simp [sources]

theorem mem_chainEnds_succ {k : ℕ} {v : V} :
    v ∈ g.chainEnds (k + 1) ↔ ∃ u ∈ g.chainEnds k, v ∈ g.succ u := by
  simp [chainEnds]

theorem chainEnds_subset_verts {k : ℕ} {v : V} (h : v ∈ g.chainEnds k) : v ∈ g.verts := by
  cases k with
  | zero => exact (g.mem_sources_iff.mp h).1
  | succ k =>
    obtain ⟨u, _, hv⟩ := g.mem_chainEnds_succ.mp h
    exact (g.edge_verts hv).2

/-- The vertices of a chain with `k` edges: `k` of them before its end, the first one a source. -/
theorem exists_chain {k : ℕ} {v : V} (h : v ∈ g.chainEnds k) :
    ∃ init : List V, init.length = k ∧ (init ++ [v]).IsChain g.Edge ∧
      ∀ u ∈ (init ++ [v]).head?, u ∈ g.sources := by
  induction k generalizing v with
  | zero => exact ⟨[], rfl, .singleton v, by simpa [chainEnds] using h⟩
  | succ k ih =>
    obtain ⟨u, hu, hv⟩ := g.mem_chainEnds_succ.mp h
    obtain ⟨init, hlength, hchain, hsource⟩ := ih hu
    refine ⟨init ++ [u], by simp [hlength], ?_, ?_⟩
    · refine List.isChain_append.mpr ⟨hchain, .singleton v, ?_⟩
      simpa [Edge] using hv
    · rwa [List.head?_append_of_ne_nil _ (by simp)]

variable {g}

theorem mem_verts_of_mem_dropLast {chain : List V} (hchain : chain.IsChain g.Edge) :
    ∀ u ∈ chain.dropLast, u ∈ g.verts := by
  induction hchain with
  | nil => simp
  | singleton a => simp
  | cons_cons hedge _ ih =>
    intro u hu
    rcases List.mem_cons.mp hu with rfl | hu
    · exact (g.edge_verts hedge).1
    · exact ih u hu

theorem chain_subset_verts {init : List V} {v : V} (hchain : (init ++ [v]).IsChain g.Edge)
    (hv : v ∈ g.verts) : init ++ [v] ⊆ g.verts := by
  have hinit := mem_verts_of_mem_dropLast hchain
  rw [List.dropLast_concat] at hinit
  exact List.append_subset.mpr ⟨hinit, by simpa using hv⟩

/-- In an acyclic graph a chain visits no vertex twice. -/
theorem Acyclic.nodup (hacyclic : g.Acyclic) {chain : List V} (hchain : chain.IsChain g.Edge) :
    chain.Nodup := by
  have hpairs : chain.Pairwise (Relation.TransGen g.Edge) :=
    (hchain.imp fun _ _ ↦ Relation.TransGen.single).pairwise
  refine hpairs.imp ?_
  rintro a b hab rfl
  exact hacyclic a hab

theorem Acyclic.length_le (hacyclic : g.Acyclic) {chain : List V} (hchain : chain.IsChain g.Edge) :
    chain.length ≤ g.verts.length + 1 := by
  have hdrop := (hacyclic.nodup hchain).sublist (List.dropLast_sublist chain)
  have hle := (hdrop.subperm (mem_verts_of_mem_dropLast hchain)).length_le
  rw [List.length_dropLast] at hle
  omega

theorem Acyclic.le_length (hacyclic : g.Acyclic) {k : ℕ} {v : V} (h : v ∈ g.chainEnds k) :
    k ≤ g.verts.length := by
  obtain ⟨init, hlength, hchain, -⟩ := g.exists_chain h
  have := hacyclic.length_le hchain
  rw [List.length_append, List.length_singleton] at this
  omega

/-- Induction along the edges: predecessors first. -/
theorem Acyclic.induction (hacyclic : g.Acyclic) {motive : V → Prop}
    (step : ∀ v, (∀ p ∈ g.pred v, motive p) → motive v) (v : V) : motive v := by
  by_contra hv
  -- Walking back from a failing vertex never stops and gives chains of every length.
  have hback : ∀ u, ¬ motive u → ∃ p, g.Edge p u ∧ ¬ motive p := by
    intro u hu
    by_contra hnone
    push Not at hnone
    exact hu (step u fun p hp ↦ hnone p (g.mem_pred_iff.mp hp))
  have hlong : ∀ n, ∃ u rest, (u :: rest).length = n + 1 ∧ (u :: rest).IsChain g.Edge ∧
      ¬ motive u := by
    intro n
    induction n with
    | zero => exact ⟨v, [], rfl, .singleton v, hv⟩
    | succ n ih =>
      obtain ⟨u, rest, hlength, hchain, hu⟩ := ih
      obtain ⟨p, hp, hmotive⟩ := hback u hu
      exact ⟨p, u :: rest, by simp [← hlength], .cons_cons hp hchain, hmotive⟩
  obtain ⟨u, rest, hlength, hchain, _⟩ := hlong (g.verts.length + 1)
  have := hacyclic.length_le hchain
  omega

theorem Acyclic.exists_chainEnds (hacyclic : g.Acyclic) (v : V) (hv : v ∈ g.verts) :
    ∃ k, v ∈ g.chainEnds k := by
  induction v using hacyclic.induction with
  | step v ih =>
    cases hpred : g.pred v with
    | nil => exact ⟨0, g.mem_sources_iff.mpr ⟨hv, hpred⟩⟩
    | cons p rest =>
      have hp : p ∈ g.pred v := by simp [hpred]
      have hedge := g.mem_pred_iff.mp hp
      obtain ⟨k, hk⟩ := ih p hp (g.edge_verts hedge).1
      exact ⟨k + 1, g.mem_chainEnds_succ.mpr ⟨p, hk, hedge⟩⟩

theorem chainEnds_ne_nil_of_le {k m : ℕ} (hkm : k ≤ m) (h : g.chainEnds m ≠ []) :
    g.chainEnds k ≠ [] := by
  induction m with
  | zero => simpa [Nat.le_zero.mp hkm] using h
  | succ m ih =>
    rcases Nat.lt_or_eq_of_le hkm with hlt | rfl
    · refine ih (Nat.lt_succ_iff.mp hlt) fun hnil ↦ h ?_
      simp [chainEnds, hnil]
    · exact h

section Depth

variable [DecidableEq V]

/-- The number of edges of the longest chain that ends in a vertex. -/
def depth (g : Graph V) (v : V) : ℕ := Nat.findGreatest (fun k ↦ v ∈ g.chainEnds k) g.verts.length

theorem Acyclic.le_depth (hacyclic : g.Acyclic) {k : ℕ} {v : V} (h : v ∈ g.chainEnds k) :
    k ≤ g.depth v :=
  Nat.le_findGreatest (hacyclic.le_length h) h

theorem Acyclic.mem_chainEnds_depth (hacyclic : g.Acyclic) {v : V} (hv : v ∈ g.verts) :
    v ∈ g.chainEnds (g.depth v) := by
  obtain ⟨k, hk⟩ := hacyclic.exists_chainEnds v hv
  exact Nat.findGreatest_spec (P := fun k ↦ v ∈ g.chainEnds k) (hacyclic.le_length hk) hk

theorem Acyclic.depth_lt_of_mem_pred (hacyclic : g.Acyclic) {p v : V} (hp : p ∈ g.pred v) :
    g.depth p < g.depth v := by
  have hedge := g.mem_pred_iff.mp hp
  have hchain := hacyclic.mem_chainEnds_depth (g.edge_verts hedge).1
  exact hacyclic.le_depth (g.mem_chainEnds_succ.mpr ⟨p, hchain, hedge⟩)

/-- The longest chain to a vertex passes through a predecessor that is one less deep. -/
theorem Acyclic.exists_pred_of_depth (hacyclic : g.Acyclic) {v : V} {k : ℕ} (hv : v ∈ g.verts)
    (hdepth : g.depth v = k + 1) : ∃ p ∈ g.pred v, g.depth p = k := by
  have hchain := hacyclic.mem_chainEnds_depth hv
  rw [hdepth] at hchain
  obtain ⟨p, hp, hedge⟩ := g.mem_chainEnds_succ.mp hchain
  have hpred := g.mem_pred_iff.mpr hedge
  have hlower := hacyclic.le_depth hp
  have hupper := hacyclic.depth_lt_of_mem_pred hpred
  exact ⟨p, hpred, by omega⟩

/-- The depth grows along a chain, one layer at least for each edge. -/
theorem Acyclic.length_le_depth (hacyclic : g.Acyclic) {chain : List V} {v : V}
    (hchain : (chain ++ [v]).IsChain g.Edge) : chain.length ≤ g.depth v := by
  induction chain using List.reverseRecOn generalizing v with
  | nil => exact Nat.zero_le _
  | append_singleton init u ih =>
    obtain ⟨hinit, -, hedge⟩ := List.isChain_append.mp hchain
    have huv : g.Edge u v := hedge u (by simp) v (by simp)
    have hlength := ih hinit
    have hlt := hacyclic.depth_lt_of_mem_pred (g.mem_pred_iff.mpr huv)
    rw [List.length_append, List.length_singleton]
    omega

/-- The depth of a vertex is the number of edges of the longest chain that ends in it. -/
theorem Acyclic.isGreatest_depth (hacyclic : g.Acyclic) {v : V} (hv : v ∈ g.verts) :
    IsGreatest {k | ∃ chain, (chain ++ [v]).IsChain g.Edge ∧ chain.length = k} (g.depth v) := by
  constructor
  · obtain ⟨init, hlength, hchain, -⟩ := g.exists_chain (hacyclic.mem_chainEnds_depth hv)
    exact ⟨init, hchain, hlength⟩
  · rintro k ⟨chain, hchain, rfl⟩
    exact hacyclic.length_le_depth hchain

/-- The number of vertices on the longest chain of the graph. -/
def height (g : Graph V) : ℕ := g.verts.foldr (fun v h ↦ max (g.depth v + 1) h) 0

theorem lt_height_iff {k : ℕ} : k < g.height ↔ ∃ v ∈ g.verts, k ≤ g.depth v := by
  unfold height
  induction g.verts with
  | nil => simp
  | cons v rest ih =>
    rw [List.foldr_cons, List.exists_mem_cons_iff, ← ih]
    omega

/-- Every layer below the height holds a vertex. -/
theorem Acyclic.exists_depth_eq (hacyclic : g.Acyclic) {k : ℕ} (hk : k < g.height) :
    ∃ v ∈ g.verts, g.depth v = k := by
  obtain ⟨v, hv, hle⟩ := lt_height_iff.mp hk
  obtain ⟨d, hd⟩ := Nat.exists_eq_add_of_le hle
  -- Walk down from a vertex that lies `d` layers too high.
  induction d generalizing v with
  | zero => exact ⟨v, hv, hd⟩
  | succ d ih =>
    obtain ⟨p, hp, hdepth⟩ :=
      hacyclic.exists_pred_of_depth hv (show g.depth v = (k + d) + 1 by omega)
    exact ih p (g.edge_verts (g.mem_pred_iff.mp hp)).1 (by omega) hdepth

/-- A chain with `k` edges exists exactly below the height. -/
theorem Acyclic.chainEnds_ne_nil_iff (hacyclic : g.Acyclic) {k : ℕ} :
    g.chainEnds k ≠ [] ↔ k < g.height := by
  rw [lt_height_iff]
  constructor
  · intro h
    obtain ⟨v, hv⟩ := List.exists_mem_of_ne_nil _ h
    exact ⟨v, g.chainEnds_subset_verts hv, hacyclic.le_depth hv⟩
  · rintro ⟨v, hv, hk⟩
    exact chainEnds_ne_nil_of_le hk (List.ne_nil_of_mem (hacyclic.mem_chainEnds_depth hv))

/-- The height is the number of vertices on the longest chain between vertices of the graph. -/
theorem Acyclic.isGreatest_height (hacyclic : g.Acyclic) :
    IsGreatest {k | ∃ chain ⊆ g.verts, chain.IsChain g.Edge ∧ chain.length = k} g.height := by
  constructor
  · rcases Nat.eq_zero_or_pos g.height with hzero | hpos
    · exact ⟨[], List.nil_subset _, .nil, hzero.symm⟩
    · obtain ⟨v, hv, hdepth⟩ := hacyclic.exists_depth_eq (Nat.sub_one_lt_of_lt hpos)
      obtain ⟨chain, hchain, hlength⟩ := (hacyclic.isGreatest_depth hv).1
      refine ⟨chain ++ [v], chain_subset_verts hchain hv, hchain, ?_⟩
      rw [List.length_append, List.length_singleton]
      omega
  · rintro k ⟨chain, hsubset, hchain, rfl⟩
    rcases List.eq_nil_or_concat' chain with rfl | ⟨init, v, rfl⟩
    · exact Nat.zero_le _
    · have hv : v ∈ g.verts := hsubset (by simp)
      have hle := hacyclic.length_le_depth hchain
      rw [List.length_append, List.length_singleton]
      exact lt_height_iff.mpr ⟨v, hv, hle⟩

end Depth

end Graph

end OperatorToolkit.Layering
