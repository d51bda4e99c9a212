import OperatorToolkit.Operator.DagOrder

/-!
# The number of steps

Chains of requirements bound the work of `solve`: it stops after as many rounds as the longest
chain has operands. The frontier keeps vertices that are already placed and vertices whose turn has
not come, so neither the number of operands nor the number of unplaced ones counts the rounds. The
order lists every operand once, in a step that is not beyond the chains below it.
-/

namespace OperatorToolkit.Operator

open Layering

variable {Err : Type} {operands : List Operand}

/-- Operand names, each one required by the next. -/
structure RequirementChain (operands : List Operand) (chain : List String) : Prop where
  subset : chain ⊆ operands.map (·.name)
  linked : chain.IsChain (RequiredBy operands)

/-- The longest requirement chain has `n` operands. -/
def LongestChain (operands : List Operand) (n : ℕ) : Prop :=
  IsGreatest {k | ∃ chain, RequirementChain operands chain ∧ chain.length = k} n

/-- The longest requirement chain that leads up to `name` has `d` edges. -/
def LongestChainBelow (operands : List Operand) (name : String) (d : ℕ) : Prop :=
  IsGreatest {k | ∃ chain, RequirementChain operands (chain ++ [name]) ∧ chain.length = k} d

theorem requirementChain_iff (h : ProperDAG operands) {chain : List String} :
    RequirementChain operands chain ↔ chain ⊆ (requirementGraph operands h).verts ∧
      chain.IsChain (requirementGraph operands h).Edge := by
  have hedge : (requirementGraph operands h).Edge = RequiredBy operands := by
    funext a b
    exact propext (requirementGraph_edge h)
  rw [hedge]
  exact ⟨fun hchain ↦ ⟨hchain.subset, hchain.linked⟩, fun hchain ↦ ⟨hchain.1, hchain.2⟩⟩

theorem longestChain_height (h : ProperDAG operands) :
    LongestChain operands (requirementGraph operands h).height := by
  have hgreatest := (requirementGraph_acyclic h).isGreatest_height
  simpa only [LongestChain, requirementChain_iff h, and_assoc] using hgreatest

theorem longestChainBelow_depth (h : ProperDAG operands) {op : Operand} (hop : op ∈ operands) :
    LongestChainBelow operands op.name ((requirementGraph operands h).depth op.name) := by
  have hmem : op.name ∈ (requirementGraph operands h).verts := List.mem_map_of_mem hop
  obtain ⟨⟨chain, hchain, hlength⟩, hbound⟩ := (requirementGraph_acyclic h).isGreatest_depth hmem
  constructor
  · have hsubset := Graph.chain_subset_verts hchain hmem
    exact ⟨chain, (requirementChain_iff h).mpr ⟨hsubset, hchain⟩, hlength⟩
  · rintro k ⟨chain', hchain', rfl⟩
    exact hbound ⟨chain', ((requirementChain_iff h).mp hchain').2, rfl⟩

theorem mem_flatten_iff {order : OperandOrder} {op : Operand} :
    op ∈ order.flatten ↔ ∃ i, op ∈ order.getD i [] := by
  rw [List.mem_flatten]
  constructor
  · rintro ⟨step, hstep, hop⟩
    obtain ⟨i, hi, rfl⟩ := List.getElem_of_mem hstep
    exact ⟨i, by simpa [hi] using hop⟩
  · rintro ⟨i, hop⟩
    by_cases hi : i < order.length
    · exact ⟨order[i], List.getElem_mem hi, by simpa [hi] using hop⟩
    · simp [List.getElem?_eq_none (not_lt.mp hi)] at hop

/-- The steps of the order together are the operands, each of them once. -/
theorem Orders.flatten_perm {h : ProperDAG operands} {order : OperandOrder}
    (horder : Orders h order) : order.flatten.Perm operands := by
  have hnodup : operands.Nodup := h.names_nodup.of_map _
  have hstep (i : ℕ) : (order.getD i []).Nodup :=
    (horder.perm i).nodup_iff.mpr (hnodup.filter _)
  refine (List.perm_ext_iff_of_nodup ?_ hnodup).mpr fun op ↦ ?_
  · rw [List.nodup_flatten]
    constructor
    · intro step hmem
      obtain ⟨i, hi, rfl⟩ := List.getElem_of_mem hmem
      simpa [hi] using hstep i
    · rw [List.pairwise_iff_getElem]
      intro i j hi hj hij op hopi hopj
      have hopi' : op ∈ order.getD i [] := by simpa [hi] using hopi
      have hopj' : op ∈ order.getD j [] := by simpa [hj] using hopj
      exact hij.ne ((horder.mem_iff.mp hopi').2.unique (horder.mem_iff.mp hopj').2)
  · rw [mem_flatten_iff]
    constructor
    · rintro ⟨i, hop⟩
      exact (horder.mem_iff.mp hop).1
    · intro hop
      exact (horder.placed_once hop).exists

theorem Orders.step_le {h : ProperDAG operands} {order : OperandOrder} (horder : Orders h order)
    {op : Operand} {i : ℕ} (hop : op ∈ order.getD i []) :
    i ≤ (requirementGraph operands h).depth op.name := by
  obtain ⟨hmem, hplaced⟩ := horder.mem_iff.mp hop
  exact (requirementGraph_acyclic h).le_depth (Graph.placed_iff.mp hplaced).2.1

/-- **Termination and completeness.** `solve` runs for exactly as many rounds as the longest
requirement chain has operands, and gives every vertex a step below that number; `Order` then lists
every operand once, in a step no greater than the length of the longest chain below it. -/
theorem solve_longestChain (D : DagLib Err Operand) (range : MapRange ((_ : String) × ℕ))
    (h : ProperDAG operands) :
    ∃ od n, newOperandDAG D operands = .ok od ∧ LongestChain operands n ∧
      (∀ fuel < n, solve D od fuel = none) ∧
      ∀ fuel ≥ n, ∃ soln order, solve D od fuel = some (.ok (soln, n)) ∧
        (∀ entry ∈ soln.entries, entry.2 < n) ∧
        Operator.order D range od fuel = some (.ok order) ∧ order.length = n ∧
        order.flatten.Perm operands ∧
        ∀ i, ∀ op ∈ order.getD i [], ∃ d, LongestChainBelow operands op.name d ∧ i ≤ d := by
  obtain ⟨od, hnew, hverts, hwf, hgraph⟩ := exists_newOperandDAG D h
  refine ⟨od, _, hnew, longestChain_height h, fun fuel hlt ↦ ?_, fun fuel hle ↦ ?_⟩
  · rcases solve_height h hgraph fuel with ⟨hle, -⟩ | ⟨-, hnone⟩
    · omega
    · exact hnone
  · rcases solve_height h hgraph fuel with ⟨-, soln, hsome, hlookup⟩ | ⟨hlt, -⟩
    · obtain ⟨order, hfill, horder⟩ :=
        exists_fillOrder h hwf hverts rfl hlookup (range.visit_perm soln.entries)
      refine ⟨soln, order, hsome, fun entry hentry ↦ ?_, by simp [Operator.order, hsome, hfill],
        horder.length_eq, horder.flatten_perm, fun i op hop ↦ ?_⟩
      · have hplaced : (requirementGraph operands h).placements
            (requirementGraph operands h).height entry.1 = some entry.2 := by
          rw [← hlookup]
          exact AList.mem_lookup_iff.mpr hentry
        exact (Graph.placements_eq_some_iff.mp hplaced).1
      · exact ⟨_, longestChainBelow_depth h (horder.mem_iff.mp hop).1, horder.step_le hop⟩
    · omega

theorem solve_longestChain_triangle :
    ProperDAG triangle ∧
      ∃ od n, newOperandDAG (orderedDag GoError Operand) triangle = .ok od ∧
        LongestChain triangle n ∧ (∀ fuel < n, solve (orderedDag GoError Operand) od fuel = none) ∧
        ∀ fuel ≥ n, ∃ soln order,
          solve (orderedDag GoError Operand) od fuel = some (.ok (soln, n)) ∧
          (∀ entry ∈ soln.entries, entry.2 < n) ∧
          Operator.order (orderedDag GoError Operand) (.stored _) od fuel = some (.ok order) ∧
          order.length = n ∧ order.flatten.Perm triangle ∧
          ∀ i, ∀ op ∈ order.getD i [], ∃ d, LongestChainBelow triangle op.name d ∧ i ≤ d :=
  ⟨properDAG_triangle, solve_longestChain _ _ properDAG_triangle⟩

end OperatorToolkit.Operator
