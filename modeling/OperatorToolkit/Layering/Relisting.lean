import OperatorToolkit.Layering.Sweep

/-!
# Listing one graph in several ways

Relisting a graph keeps its vertices and edges and changes only the order in which they are listed.
Chains and depths do not see the difference, the traversal does. Where the neighbours of every
vertex are listed in the order of the vertex list, a listing that starts with the vertices of a
chain enumerates this chain first, so the end of the chain has its turn before all other vertices
of that layer. Such a listing separates a vertex from any predecessor it was placed together with.
-/

namespace OperatorToolkit.Layering

variable {V : Type}

theorem head?_of_sublist {l pre post : List V} {x : V} (hl : l.Sublist (pre ++ x :: post))
    (hnodup : (pre ++ x :: post).Nodup) (hpre : ∀ u ∈ pre, u ∉ l) (hx : x ∈ l) :
    l.head? = some x := by
  induction pre with
  | nil =>
    rcases List.sublist_cons_iff.mp hl with hpost | ⟨rest, rfl, -⟩
    · exact absurd (hpost.subset hx) (List.nodup_cons.mp hnodup).1
    · rfl
  | cons a pre ih =>
    rcases List.sublist_cons_iff.mp hl with hrest | ⟨rest, rfl, -⟩
    · exact ih hrest (List.nodup_cons.mp hnodup).2 fun u hu ↦ hpre u (List.mem_cons_of_mem a hu)
    · exact absurd List.mem_cons_self (hpre a List.mem_cons_self)

namespace Graph

variable {g g' : Graph V}

/-- The same vertices and the same edges. -/
structure Relisted (g g' : Graph V) : Prop where
  verts_perm : g.verts.Perm g'.verts
  edge_iff : ∀ {u v}, g.Edge u v ↔ g'.Edge u v

theorem Relisted.mem_pred_iff (h : Relisted g g') {p v : V} : p ∈ g.pred v ↔ p ∈ g'.pred v := by
  rw [g.mem_pred_iff, g'.mem_pred_iff]
  exact h.edge_iff

theorem Relisted.mem_sources_iff (h : Relisted g g') {v : V} : v ∈ g.sources ↔ v ∈ g'.sources := by
  simp only [Graph.mem_sources_iff, h.verts_perm.mem_iff, List.eq_nil_iff_forall_not_mem,
    h.mem_pred_iff]

theorem Relisted.mem_chainEnds_iff (h : Relisted g g') {k : ℕ} {v : V} :
    v ∈ g.chainEnds k ↔ v ∈ g'.chainEnds k := by
  induction k generalizing v with
  | zero => exact h.mem_sources_iff
  | succ k ih =>
    rw [g.mem_chainEnds_succ, g'.mem_chainEnds_succ]
    exact exists_congr fun u ↦ and_congr ih h.edge_iff

theorem Relisted.acyclic (h : Relisted g g') (hacyclic : g.Acyclic) : g'.Acyclic := by
  intro v hv
  exact hacyclic v (Relation.TransGen.mono (fun _ _ huv ↦ h.edge_iff.mpr huv) _ _ hv)

/-- Neighbours are listed in the order of the vertices. -/
def Listed (g : Graph V) : Prop := ∀ u, (g.succ u).Sublist g.verts

/-- A chain that the vertex list starts with is the first one of its length. -/
theorem Acyclic.head?_chainEnds (hacyclic : g.Acyclic) (hlisted : g.Listed) {init post : List V}
    {v : V} (hverts : g.verts = init ++ v :: post) (hchain : (init ++ [v]).IsChain g.Edge)
    (hsource : ∀ u ∈ (init ++ [v]).head?, u ∈ g.sources) :
    (g.chainEnds init.length).head? = some v := by
  have hnodup : (init ++ v :: post).Nodup := hverts ▸ g.verts_nodup
  induction init using List.reverseRecOn generalizing v post with
  | nil =>
    have hsources : g.sources.Sublist ([] ++ v :: post) := hverts ▸ List.filter_sublist
    exact head?_of_sublist hsources hnodup (by simp) (hsource v rfl)
  | append_singleton init u ih =>
    obtain ⟨hinit, -, hedge⟩ := List.isChain_append.mp hchain
    have huv : v ∈ g.succ u := hedge u (by simp) v (by simp)
    have hhead : (g.chainEnds init.length).head? = some u := by
      have hverts' : g.verts = init ++ u :: (v :: post) := by simpa using hverts
      refine ih hverts' hinit ?_ (by simpa using hnodup)
      rwa [List.head?_append_of_ne_nil _ (by simp)] at hsource
    have hsucc : (g.succ u).head? = some v := by
      refine head?_of_sublist (hverts ▸ hlisted u) hnodup (fun w hw hwu ↦ ?_) huv
      -- An edge from `u` back into the chain would close a cycle.
      have hpairs := (hinit.imp fun _ _ ↦ Relation.TransGen.single).pairwise
      rcases List.mem_append.mp hw with hw | hw
      · have hwu' := (List.pairwise_append.mp hpairs).2.2 w hw u (by simp)
        exact hacyclic w (hwu'.tail hwu)
      · obtain rfl : w = u := by simpa using hw
        exact hacyclic w (.single hwu)
    obtain ⟨rest, hrest⟩ := List.head?_eq_some_iff.mp hhead
    obtain ⟨rest', hrest'⟩ := List.head?_eq_some_iff.mp hsucc
    simp [chainEnds, hrest, hrest']

variable [DecidableEq V]

theorem Relisted.depth_eq (h : Relisted g g') (v : V) : g.depth v = g'.depth v := by
  unfold depth
  simp only [h.mem_chainEnds_iff, h.verts_perm.length_eq]

theorem Relisted.height_eq (h : Relisted g g') : g.height = g'.height := by
  refine eq_of_forall_lt_iff fun k ↦ ?_
  simp only [lt_height_iff, h.verts_perm.mem_iff, h.depth_eq]

/-- Where nothing overtakes in either listing, both place every vertex alike. -/
theorem Relisted.placed_iff (h : Relisted g g') (hacyclic : g.Acyclic)
    (hnone : ∀ v ∈ g.verts, ¬ g.Overtakes v) (hnone' : ∀ v ∈ g'.verts, ¬ g'.Overtakes v) {v : V}
    (hv : v ∈ g.verts) {s : ℕ} : g.Placed v s ↔ g'.Placed v s := by
  have hplaced := hacyclic.placed_depth hnone hv
  have hplaced' := (h.acyclic hacyclic).placed_depth hnone' (h.verts_perm.mem_iff.mp hv)
  rw [h.depth_eq] at hplaced
  constructor
  · intro hs
    rwa [hs.unique hplaced]
  · intro hs
    rwa [hs.unique hplaced']

theorem Acyclic.exists_placed_together (hacyclic : g.Acyclic) {v : V} (hv : v ∈ g.verts)
    (hovertakes : g.Overtakes v) : ∃ u s p, g.Placed u s ∧ p ∈ g.pred u ∧ g.Placed p s := by
  have hstrict := hacyclic.strict_iff.not.mpr fun hnone ↦ hnone v hv hovertakes
  push Not at hstrict
  obtain ⟨u, s, p, t, hu, hp, ht, hle⟩ := hstrict
  obtain ⟨t', ht', hplaced⟩ := hu.pred hp
  obtain rfl : s = t := le_antisymm hle ((ht.unique hplaced).trans_le ht')
  exact ⟨u, s, p, hu, hp, ht⟩

/-- The end of the first chain of a layer is not placed together with a predecessor. -/
theorem not_placed_together {v p : V} {s : ℕ} (hhead : (g.chainEnds s).head? = some v)
    (hp : p ∈ g.pred v) (hv : g.Placed v s) : ¬ g.Placed p s := by
  intro hps
  obtain ⟨t, ht, hlt | ⟨-, hbefore⟩⟩ := (placed_iff.mp hv).2.2 p hp
  · exact hlt.ne (ht.unique hps)
  · obtain ⟨rest, hrest⟩ := List.head?_eq_some_iff.mp hhead
    simp [hrest, before] at hbefore

end Graph

end OperatorToolkit.Layering
