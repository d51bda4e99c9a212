import OperatorToolkit.Operator.DagOrder
import OperatorToolkit.Layering.Relisting
import Mathlib.Data.List.Perm.Basic
import Mathlib.Data.List.Permutation

/-!
# Listing the operands in another order

The list order of the operands fixes the order in which vertices and edges enter the graph, and with
it the order in which each frontier is visited. A permutation of the list relists the requirement
graph: the number of steps stays the same, and the operands of each step stay the same under all
permutations exactly when no permutation lets an operand overtake. One listing in which an operand
overtakes is enough for two listings to differ, because the operand can be listed right behind one
of its chains, and then it has its turn before the operand it was placed together with.
-/

namespace OperatorToolkit.Operator

open Layering

variable {Err : Type} {operands l l' : List Operand}

theorem mem_requirementPairs_congr (hperm : operands.Perm l) {a b : String} :
    (a, b) ∈ requirementPairs operands ↔ (a, b) ∈ requirementPairs l := by
  simp only [mem_requirementPairs, hperm.mem_iff]

theorem ProperDAG.perm (h : ProperDAG operands) (hperm : operands.Perm l) : ProperDAG l where
  names_nodup := (hperm.map _).nodup_iff.mp h.names_nodup
  resolved op hop dep hdep :=
    (hperm.map _).mem_iff.mp (h.resolved op (hperm.mem_iff.mpr hop) dep hdep)
  requires_nodup op hop := h.requires_nodup op (hperm.mem_iff.mpr hop)
  acyclic name hcycle := by
    refine h.acyclic name (Relation.TransGen.mono (fun a b hab ↦ ?_) _ _ hcycle)
    exact (mem_requirementPairs_congr hperm).mpr hab

theorem relisted_requirementGraph (h : ProperDAG operands) (h' : ProperDAG l)
    (hperm : operands.Perm l) :
    (requirementGraph operands h).Relisted (requirementGraph l h') where
  verts_perm := hperm.map _
  edge_iff := by
    intro a b
    rw [requirementGraph_edge, requirementGraph_edge]
    exact mem_requirementPairs_congr hperm

/-- The operands that require a name are listed in the order of the operand list. -/
theorem listed_requirementGraph (h : ProperDAG operands) :
    (requirementGraph operands h).Listed := by
  intro u
  change (((requirementPairs operands).filter (·.1 = u)).map (·.2)).Sublist (operands.map (·.name))
  have hrequires := h.requires_nodup
  clear h
  induction operands with
  | nil => exact .slnil
  | cons op rest ih =>
    have hrest := ih fun o ho ↦ hrequires o (List.mem_cons_of_mem op ho)
    have hcount := List.nodup_iff_count_le_one.mp (hrequires op (by simp)) u
    have hhead : (((op.requires.map fun dep ↦ (dep, op.name)).filter (·.1 = u)).map (·.2)) =
        List.replicate (op.requires.count u) op.name := by
      simp only [List.filter_map, Function.comp_def, List.map_map, List.map_const',
        List.count_eq_length_filter]
      rfl
    have hpairs : requirementPairs (op :: rest) =
        (op.requires.map fun dep ↦ (dep, op.name)) ++ requirementPairs rest := by
      simp [requirementPairs]
    rw [hpairs, List.filter_append, List.map_append, hhead, List.map_cons]
    have hsub : (List.replicate (op.requires.count u) op.name).Sublist [op.name] := by
      simpa using List.replicate_sublist_replicate op.name |>.mpr hcount
    exact hsub.append hrest

/-- Any chain of operand names can be listed first. -/
theorem exists_listing (hnames : (operands.map (·.name)).Nodup) {chain : List String}
    (hchain : chain.Nodup) (hsubset : chain ⊆ operands.map (·.name)) :
    ∃ l post, operands.Perm l ∧ l.map (·.name) = chain ++ post := by
  let post := (operands.map (·.name)).filter (· ∉ chain)
  have hperm : (chain ++ post).Perm (operands.map (·.name)) := by
    refine (List.perm_ext_iff_of_nodup ?_ hnames).mpr fun name ↦ ?_
    · refine List.nodup_append.mpr ⟨hchain, hnames.filter _, fun a ha b hb heq ↦ ?_⟩
      have hnot : b ∉ chain := by simpa using (List.mem_filter.mp hb).2
      exact hnot (heq ▸ ha)
    · by_cases hname : name ∈ chain
      · exact iff_of_true (List.mem_append_left _ hname) (hsubset hname)
      · simp [post, hname]
  have hnamed : List.Forall₂ (fun name (op : Operand) ↦ op.name = name)
      (operands.map (·.name)) operands :=
    List.forall₂_map_left_iff.mpr (List.forall₂_same.mpr fun _ _ ↦ rfl)
  obtain ⟨l, hl, hperm'⟩ := List.perm_comp_forall₂ hperm hnamed
  refine ⟨l, post, hperm'.symm, ?_⟩
  clear_value post
  clear hperm hperm' hnamed hchain hsubset
  generalize chain ++ post = names at hl
  induction hl with
  | nil => rfl
  | cons hname _ ih => rw [List.map_cons, hname, ih]

/-- The same number of steps and the same operands in each of them. -/
structure SameSteps (order order' : OperandOrder) : Prop where
  length_eq : order.length = order'.length
  mem_iff : ∀ i op, op ∈ order.getD i [] ↔ op ∈ order'.getD i []

/-- Both lists are rejected, or both give orders with the same steps, whatever the iteration order
of the maps is. -/
def YieldsAlike (D : DagLib Err Operand) (l l' : List Operand) : Prop :=
  ((∃ err, newOperandDAG D l = .error err) ∧ ∃ err, newOperandDAG D l' = .error err) ∨
    ∀ range range' : MapRange ((_ : String) × ℕ), ∃ fuel order order',
      operandOrder D range l fuel = some (.ok order) ∧
      operandOrder D range' l' fuel = some (.ok order') ∧ SameSteps order order'

theorem exists_operandOrder (D : DagLib Err Operand) (range : MapRange ((_ : String) × ℕ))
    (h : ProperDAG operands) :
    ∃ order, operandOrder D range operands (requirementGraph operands h).height =
      some (.ok order) ∧ Orders h order := by
  rcases operandOrder_cases D range h (requirementGraph operands h).height with
    ⟨-, horder⟩ | ⟨hlt, -⟩
  · exact horder
  · exact absurd hlt (lt_irrefl _)

/-- Two listings of a proper DAG yield alike when they place every operand alike. -/
theorem yieldsAlike_iff_placed (D : DagLib Err Operand) (h : ProperDAG l) (h' : ProperDAG l')
    (hperm : l.Perm l') :
    YieldsAlike D l l' ↔ ∀ op ∈ l, ∀ i, (requirementGraph l h).Placed op.name i ↔
      (requirementGraph l' h').Placed op.name i := by
  constructor
  · rintro (⟨⟨err, herr⟩, -⟩ | hyields) op hop i
    · obtain ⟨od, hnew, -⟩ := exists_newOperandDAG D h
      rw [herr] at hnew
      cases hnew
    · obtain ⟨fuel, order, order', hrun, hrun', hsame⟩ := hyields (.stored _) (.stored _)
      have hmem := hsame.mem_iff i op
      rw [(orders_of_operandOrder h hrun).mem_iff,
        (orders_of_operandOrder h' hrun').mem_iff] at hmem
      simpa [hop, hperm.mem_iff.mp hop] using hmem
  · intro hplaced
    refine .inr fun range range' ↦ ?_
    have hheight := (relisted_requirementGraph h h' hperm).height_eq
    obtain ⟨order, hrun, horder⟩ := exists_operandOrder D range h
    obtain ⟨order', hrun', horder'⟩ := exists_operandOrder D range' h'
    refine ⟨_, order, order', hrun, hheight ▸ hrun', ?_, fun i op ↦ ?_⟩
    · rw [horder.length_eq, horder'.length_eq, hheight]
    · rw [horder.mem_iff, horder'.mem_iff, ← hperm.mem_iff]
      exact and_congr_right fun hop ↦ hplaced op hop i

/-- Where an operand overtakes, another listing places some operand differently. -/
theorem exists_listing_differs (D : DagLib Err Operand) (h : ProperDAG operands) {op : Operand}
    (hop : op ∈ operands) (hovertakes : (requirementGraph operands h).Overtakes op.name) :
    ∃ l, operands.Perm l ∧ ¬ YieldsAlike D operands l := by
  have hacyclic := requirementGraph_acyclic h
  obtain ⟨v, s, p, hv, hp, hps⟩ :=
    hacyclic.exists_placed_together (List.mem_map_of_mem hop) hovertakes
  obtain ⟨init, rfl, hchain, hsource⟩ := Graph.exists_chain _ (Graph.placed_iff.mp hv).2.1
  -- List the operands of the chain to `v` first.
  have hsubset : init ++ [v] ⊆ operands.map (·.name) :=
    Graph.chain_subset_verts hchain (Graph.chainEnds_subset_verts _ (Graph.placed_iff.mp hv).2.1)
  obtain ⟨l, post, hperm, hl⟩ := exists_listing h.names_nodup (hacyclic.nodup hchain) hsubset
  have h' := h.perm hperm
  have hrelisted := relisted_requirementGraph h h' hperm
  have hchain' : (init ++ [v]).IsChain (requirementGraph l h').Edge :=
    hchain.imp fun _ _ hab ↦ hrelisted.edge_iff.mp hab
  have hverts : (requirementGraph l h').verts = init ++ v :: post := by
    rw [List.append_cons]
    exact hl
  have hhead := (requirementGraph_acyclic h').head?_chainEnds (listed_requirementGraph h') hverts
    hchain' fun u hu ↦ hrelisted.mem_sources_iff.mp (hsource u hu)
  refine ⟨l, hperm, fun halike ↦ ?_⟩
  have hplaced := (yieldsAlike_iff_placed D h h' hperm).mp halike
  obtain ⟨opv, hopv, rfl⟩ := List.mem_map.mp (hsubset (List.mem_append_right init (by simp)) :
    v ∈ operands.map (·.name))
  obtain ⟨opp, hopp, rfl⟩ := List.mem_map.mp
    ((requirementGraph operands h).edge_verts (Graph.mem_pred_iff _ |>.mp hp)).1
  exact Graph.not_placed_together hhead (hrelisted.mem_pred_iff.mp hp)
    ((hplaced opv hopv _).mp hv) ((hplaced opp hopp _).mp hps)

/-- **Independence of the list order.** All listings of a valid operand set yield alike exactly when
no operand overtakes in any of them. A repeated requirement is rejected in every listing. -/
theorem yieldsAlike_iff (D : DagLib Err Operand) (hnames : (operands.map (·.name)).Nodup)
    (hresolved : ∀ op ∈ operands, ∀ dep ∈ op.requires, dep ∈ operands.map (·.name))
    (hacyclic : ∀ name, ¬ Relation.TransGen (RequiredBy operands) name name) :
    (∀ l l', operands.Perm l → operands.Perm l' → YieldsAlike D l l') ↔
      ∀ l (h : ProperDAG l), operands.Perm l →
        ∀ op ∈ l, ¬ (requirementGraph l h).Overtakes op.name := by
  constructor
  · intro halike l h hperm op hop hovertakes
    obtain ⟨l', hperm', hdiffers⟩ := exists_listing_differs D h hop hovertakes
    exact hdiffers (halike l l' hperm (hperm.trans hperm'))
  · intro hnone l l' hl hl'
    by_cases hrequires : ∀ op ∈ operands, op.requires.Nodup
    · have h : ProperDAG operands := ⟨hnames, hresolved, hrequires, hacyclic⟩
      have hperm := hl.symm.trans hl'
      refine (yieldsAlike_iff_placed D (h.perm hl) (h.perm hl') hperm).mpr fun op hop i ↦ ?_
      refine (relisted_requirementGraph _ _ hperm).placed_iff (requirementGraph_acyclic _) ?_ ?_
        (List.mem_map_of_mem hop)
      · simpa [requirementGraph] using hnone l (h.perm hl) hl
      · simpa [requirementGraph] using hnone l' (h.perm hl') hl'
    · have hrejected (m : List Operand) (hm : operands.Perm m) :
          ∃ err, newOperandDAG D m = .error err := by
        rcases newOperandDAG_cases D m with ⟨-, -, -, -, haccepted⟩ | ⟨herr, -⟩
        · refine absurd (fun op hop ↦ ?_) hrequires
          exact haccepted.requires_nodup (hm.mem_iff.mp hop)
        · exact herr
      exact .inl ⟨hrejected l hl, hrejected l' hl'⟩

theorem yieldsAlike_requiringPair :
    ProperDAG requiringPair ∧ ∀ l l', requiringPair.Perm l → requiringPair.Perm l' →
      YieldsAlike (orderedDag GoError Operand) l l' := by
  have h := properDAG_requiringPair
  refine ⟨h, ?_⟩
  refine (yieldsAlike_iff _ h.names_nodup h.resolved h.acyclic).mpr fun l hl hperm ↦ ?_
  have hlistings := List.mem_permutations'.mpr hperm.symm
  rcases List.mem_pair.mp hlistings with rfl | rfl
  · exact show ∀ op : Operand, op ∈ requiringPair →
      ¬ (requirementGraph requiringPair properDAG_requiringPair).Overtakes op.name by decide
  · exact show ∀ op : Operand, op ∈ requiringPair.reverse →
      ¬ (requirementGraph requiringPair.reverse
        (properDAG_requiringPair.perm requiringPair.reverse_perm.symm)).Overtakes op.name by decide

/-- Listing `C` before `B` gives every operand a step of its own; listing it after `B` leaves the
last step empty. -/
theorem triangle_listings_differ :
    ProperDAG triangle ∧ triangle.Perm swappedTriangle ∧
      operandOrder (orderedDag GoError Operand) (.stored _) triangle 3 =
        some (.ok [[⟨"A", [], .requeueOnError⟩],
          [⟨"C", ["A", "B"], .requeueOnError⟩, ⟨"B", ["A"], .requeueOnError⟩], []]) ∧
      operandOrder (orderedDag GoError Operand) (.stored _) swappedTriangle 3 =
        some (.ok [[⟨"A", [], .requeueOnError⟩], [⟨"B", ["A"], .requeueOnError⟩],
          [⟨"C", ["A", "B"], .requeueOnError⟩]]) ∧
      ¬ YieldsAlike (orderedDag GoError Operand) triangle swappedTriangle := by
  have hperm : triangle.Perm swappedTriangle := .cons _ (.swap _ _ _)
  refine ⟨properDAG_triangle, hperm, rfl, rfl, fun halike ↦ ?_⟩
  have hplaced := (yieldsAlike_iff_placed _ properDAG_triangle properDAG_swappedTriangle hperm).mp
    halike ⟨"C", ["A", "B"], .requeueOnError⟩ (by decide) 1
  have hearly : (requirementGraph triangle properDAG_triangle).Placed "C" 1 := by
    unfold Graph.Placed
    decide
  have hlate : ¬ (requirementGraph swappedTriangle properDAG_swappedTriangle).Placed "C" 1 := by
    unfold Graph.Placed
    decide
  exact hlate (hplaced.mp hearly)

end OperatorToolkit.Operator
