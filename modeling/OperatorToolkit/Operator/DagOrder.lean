import OperatorToolkit.Operator.DagSolve

/-!
# The order of a proper DAG

For operands that form a proper DAG, `NewOperandDAG` followed by `Order` returns an order with as
many steps as the longest requirement chain has operands, and every operand stands in the step
where the layered traversal places it. The order respects the requirements exactly when no operand
overtakes: `solveStep` records the vertices of a step in the map that it also reads, so an operand
can join the step of an operand it requires.
-/

namespace OperatorToolkit.Operator

open Layering

variable {Err : Type} {operands : List Operand}

/-- What the computed order holds, step by step. -/
structure Orders (h : ProperDAG operands) (order : OperandOrder) : Prop where
  length_eq : order.length = (requirementGraph operands h).height
  perm : ∀ i, (order.getD i []).Perm
    (operands.filter fun op ↦ (requirementGraph operands h).placements (i + 1) op.name = some i)

theorem Orders.mem_iff {h : ProperDAG operands} {order : OperandOrder} (horder : Orders h order)
    {op : Operand} {i : ℕ} :
    op ∈ order.getD i [] ↔ op ∈ operands ∧ (requirementGraph operands h).Placed op.name i := by
  rw [(horder.perm i).mem_iff, List.mem_filter, decide_eq_true_eq]
  rfl

theorem wellFormed_graph_eq {D : DagLib Err Operand} {od : D.Graph} (hwf : WellFormed D od)
    (h : ProperDAG operands) (hverts : D.vertices od = storedVertices operands)
    (hedges : D.edges od = requirementPairs operands) :
    hwf.graph = requirementGraph operands h := by
  apply Layering.Graph.ext
  · simp [WellFormed.graph, requirementGraph, hverts, storedVertices_of_nodup h.names_nodup]
  · simp [WellFormed.graph, requirementGraph, hedges]
  · simp [WellFormed.graph, requirementGraph, hedges]

/-- The entries of a solved map, visited in any order, fill a step with the operands placed
there. -/
theorem step_perm (h : ProperDAG operands) {soln : StepMap} {n i : ℕ} (hi : i < n)
    (hlookup : (fun v ↦ soln.lookup v) = (requirementGraph operands h).placements n)
    {entries : List ((_ : String) × ℕ)} (hentries : entries.Perm soln.entries) :
    ((entries.filter (·.2 = i)).flatMap fun entry ↦
        storedOperands (operands.map fun op ↦ ⟨op.name, op⟩) entry.1).Perm
      (operands.filter fun op ↦
        (requirementGraph operands h).placements (i + 1) op.name = some i) := by
  have hids : ((operands.map fun op ↦ (⟨op.name, op⟩ : Vertex Operand)).map (·.id)).Nodup := by
    simpa [Function.comp_def] using h.names_nodup
  have hstored (name : String) (op : Operand) :
      op ∈ storedOperands (operands.map fun op ↦ ⟨op.name, op⟩) name ↔
        op ∈ operands ∧ op.name = name := by
    simp only [storedOperands, List.mem_map, List.mem_filter, decide_eq_true_eq]
    constructor
    · rintro ⟨_, ⟨⟨o, ho, rfl⟩, hid⟩, rfl⟩
      exact ⟨ho, hid⟩
    · rintro ⟨hop, rfl⟩
      exact ⟨⟨op.name, op⟩, ⟨⟨op, hop, rfl⟩, rfl⟩, rfl⟩
  have hentry (name : String) : (⟨name, i⟩ : (_ : String) × ℕ) ∈ entries ↔
      (requirementGraph operands h).Placed name i := by
    rw [hentries.mem_iff, ← AList.mem_lookup_iff, Option.mem_def]
    have : soln.lookup name = (requirementGraph operands h).placements n name :=
      congrFun hlookup name
    rw [this, Graph.placements_eq_some_iff]
    exact and_iff_right hi
  have hkeys : (entries.map (·.1)).Nodup := (hentries.map _).nodup_iff.mpr soln.nodupKeys
  refine (List.perm_ext_iff_of_nodup ?_ ((h.names_nodup.of_map _).filter _)).mpr fun op ↦ ?_
  · rw [List.nodup_flatMap]
    refine ⟨fun entry _ ↦ ?_, ?_⟩
    · refine ((List.Nodup.of_map _ hids).filter _).map_on ?_
      intro u hu v hv heq
      obtain ⟨a, _, rfl⟩ := List.mem_map.mp (List.mem_filter.mp hu).1
      obtain ⟨b, _, rfl⟩ := List.mem_map.mp (List.mem_filter.mp hv).1
      exact congrArg (fun op : Operand ↦ (⟨op.name, op⟩ : Vertex Operand)) heq
    · have hpairs : entries.Pairwise fun a b ↦ a.1 ≠ b.1 := List.pairwise_map.mp hkeys
      refine (hpairs.filter _).imp fun {a b} hab ↦ ?_
      refine List.disjoint_left.mpr fun op ha hb ↦ ?_
      exact hab (((hstored _ _).mp ha).2.symm.trans ((hstored _ _).mp hb).2)
  · simp only [List.mem_flatMap, List.mem_filter, decide_eq_true_eq, hstored]
    constructor
    · rintro ⟨⟨name, step⟩, ⟨hmem, rfl⟩, hop, rfl⟩
      exact ⟨hop, (hentry _).mp hmem⟩
    · rintro ⟨hop, hplaced⟩
      exact ⟨⟨op.name, i⟩, ⟨(hentry _).mpr hplaced, rfl⟩, hop, rfl⟩

theorem frontier_ne_nil_iff (h : ProperDAG operands) (k : ℕ) :
    (requirementGraph operands h).frontier k ≠ [] ↔ k < (requirementGraph operands h).height := by
  simp only [← (requirementGraph_acyclic h).chainEnds_ne_nil_iff, ne_eq,
    List.eq_nil_iff_forall_not_mem, Graph.mem_frontier_iff]

/-- The first empty frontier comes after as many rounds as the longest chain has operands. -/
theorem eq_height_of_frontier (h : ProperDAG operands) {n : ℕ}
    (hbefore : ∀ m < n, (requirementGraph operands h).frontier m ≠ [])
    (hempty : (requirementGraph operands h).frontier n = []) :
    n = (requirementGraph operands h).height := by
  apply Nat.le_antisymm
  · by_contra hlt
    exact ((frontier_ne_nil_iff h _).mp (hbefore _ (not_le.mp hlt))).false
  · by_contra hlt
    exact (frontier_ne_nil_iff h n).mpr (not_le.mp hlt) hempty

theorem lt_height_of_placed (h : ProperDAG operands) {name : String} {i : ℕ}
    (hplaced : (requirementGraph operands h).Placed name i) :
    i < (requirementGraph operands h).height :=
  (requirementGraph_acyclic h).chainEnds_ne_nil_iff.mp
    (List.ne_nil_of_mem (Graph.placed_iff.mp hplaced).2.1)

/-- The steps that `Order` fills in from a solved map are those of the traversal. -/
theorem exists_fillOrder (h : ProperDAG operands) {D : DagLib Err Operand} {od : D.Graph}
    (hwf : WellFormed D od) (hverts : D.vertices od = storedVertices operands) {soln : StepMap}
    {n : ℕ} (hn : n = (requirementGraph operands h).height)
    (hlookup : (fun v ↦ soln.lookup v) = (requirementGraph operands h).placements n)
    {entries : List ((_ : String) × ℕ)} (hentries : entries.Perm soln.entries) :
    ∃ order, fillOrder D od n entries = .ok order ∧ Orders h order := by
  have hknown : ∀ entry ∈ entries, entry.1 ∈ (D.vertices od).map (·.id) := by
    intro entry hentry
    have hplaced : (requirementGraph operands h).placements n entry.1 = some entry.2 := by
      rw [← hlookup]
      exact AList.mem_lookup_iff.mpr (hentries.mem_iff.mp hentry)
    have hchain := (Graph.placed_iff.mp (Graph.placements_eq_some_iff.mp hplaced).2).2.1
    rw [hverts, mem_ids_storedVertices]
    exact (requirementGraph operands h).chainEnds_subset_verts hchain
  obtain ⟨order, hfill, hlength, hsteps⟩ := fillOrder_spec hwf entries hknown n
  refine ⟨order, hfill, hlength.trans hn, fun i ↦ ?_⟩
  by_cases hi : i < n
  · rw [hsteps i hi, hverts, storedVertices_of_nodup h.names_nodup]
    exact step_perm h hi hlookup hentries
  · have hnil : order.getD i [] = [] := by
      simp [List.getElem?_eq_none (show order.length ≤ i by omega)]
    rw [hnil]
    refine (List.perm_nil.mpr (List.filter_eq_nil_iff.mpr fun op _ hplaced ↦ hi ?_)).symm
    rw [hn]
    have hplaced' : (requirementGraph operands h).Placed op.name i := by
      simpa [Graph.Placed] using hplaced
    exact lt_height_of_placed h hplaced'

theorem exists_newOperandDAG (D : DagLib Err Operand) (h : ProperDAG operands) :
    ∃ od, newOperandDAG D operands = .ok od ∧ D.vertices od = storedVertices operands ∧
      ∃ hwf : WellFormed D od, hwf.graph = requirementGraph operands h := by
  rcases newOperandDAG_cases D operands with ⟨od, hnew, hverts, hedges, haccepted⟩ | ⟨-, hbad⟩
  · have hwf := wellFormed_of_accepted hverts hedges haccepted
    exact ⟨od, hnew, hverts, hwf, wellFormed_graph_eq hwf h hverts hedges⟩
  · exact absurd h.accepted hbad

/-- As many rounds of `solve` as the longest chain has operands are enough and necessary. -/
theorem solve_height (h : ProperDAG operands) {D : DagLib Err Operand} {od : D.Graph}
    {hwf : WellFormed D od} (hgraph : hwf.graph = requirementGraph operands h) (fuel : ℕ) :
    ((requirementGraph operands h).height ≤ fuel ∧
        ∃ soln, solve D od fuel = some (.ok (soln, (requirementGraph operands h).height)) ∧
          (fun v ↦ soln.lookup v) =
            (requirementGraph operands h).placements (requirementGraph operands h).height) ∨
      (fuel < (requirementGraph operands h).height ∧ solve D od fuel = none) := by
  rcases solve_cases hwf fuel with ⟨n, soln, hn, hsome, hbefore, hempty, hlookup⟩ | ⟨hnone, hall⟩
  · rw [hgraph] at hbefore hempty hlookup
    obtain rfl := eq_height_of_frontier h hbefore hempty
    exact .inl ⟨hn, soln, hsome, hlookup⟩
  · rw [hgraph] at hall
    exact .inr ⟨(frontier_ne_nil_iff h fuel).mp (hall fuel le_rfl), hnone⟩

/-- `NewOperandDAG` and `Order` on a proper DAG give the order of the traversal. -/
theorem operandOrder_cases (D : DagLib Err Operand) (range : MapRange ((_ : String) × ℕ))
    (h : ProperDAG operands) (fuel : ℕ) :
    ((requirementGraph operands h).height ≤ fuel ∧
        ∃ order, operandOrder D range operands fuel = some (.ok order) ∧ Orders h order) ∨
      (fuel < (requirementGraph operands h).height ∧
        operandOrder D range operands fuel = none) := by
  obtain ⟨od, hnew, hverts, hwf, hgraph⟩ := exists_newOperandDAG D h
  rcases solve_height h hgraph fuel with ⟨hle, soln, hsome, hlookup⟩ | ⟨hlt, hnone⟩
  · obtain ⟨order, hfill, horder⟩ :=
      exists_fillOrder h hwf hverts rfl hlookup (range.visit_perm soln.entries)
    exact .inl ⟨hle, order, by simp [operandOrder, hnew, Operator.order, hsome, hfill], horder⟩
  · exact .inr ⟨hlt, by simp [operandOrder, hnew, Operator.order, hnone]⟩

theorem orders_of_operandOrder {D : DagLib Err Operand} {range : MapRange ((_ : String) × ℕ)}
    (h : ProperDAG operands) {fuel : ℕ} {order : OperandOrder}
    (hrun : operandOrder D range operands fuel = some (.ok order)) : Orders h order := by
  rcases operandOrder_cases D range h fuel with ⟨-, order', hrun', horder⟩ | ⟨-, hnone⟩
  · rw [hrun] at hrun'
    cases hrun'
    exact horder
  · rw [hrun] at hnone
    cases hnone

/-! ## Requirements come first -/

/-- Every operand stands in one step, later than the steps of all operands it requires. -/
structure RespectsRequires (operands : List Operand) (order : OperandOrder) : Prop where
  placed_once : ∀ op ∈ operands, ∃! i, op ∈ order.getD i []
  later : ∀ op ∈ operands, ∀ dep ∈ operands, dep.name ∈ op.requires →
    ∀ i j, op ∈ order.getD i [] → dep ∈ order.getD j [] → j < i

theorem Orders.placed_once {h : ProperDAG operands} {order : OperandOrder} (horder : Orders h order)
    {op : Operand} (hop : op ∈ operands) : ∃! i, op ∈ order.getD i [] := by
  have hmem : op.name ∈ (requirementGraph operands h).verts := List.mem_map_of_mem hop
  obtain ⟨s, -, hs⟩ := (requirementGraph_acyclic h).exists_placed_le_depth hmem
  refine ⟨s, horder.mem_iff.mpr ⟨hop, hs⟩, fun t ht ↦ ?_⟩
  exact (horder.mem_iff.mp ht).2.unique hs

theorem Orders.respectsRequires_iff {h : ProperDAG operands} {order : OperandOrder}
    (horder : Orders h order) :
    RespectsRequires operands order ↔
      ∀ op ∈ operands, ¬ (requirementGraph operands h).Overtakes op.name := by
  have hstrict := (requirementGraph_acyclic h).strict_iff
  have hverts : (∀ v ∈ (requirementGraph operands h).verts,
      ¬ (requirementGraph operands h).Overtakes v) ↔
      ∀ op ∈ operands, ¬ (requirementGraph operands h).Overtakes op.name := by
    simp [requirementGraph]
  rw [← hverts, ← hstrict]
  constructor
  · intro hrespects v s p t hv hp ht
    have hpair : (p, v) ∈ requirementPairs operands := by simpa [requirementGraph] using hp
    obtain ⟨op, hop, rfl, hreq⟩ := mem_requirementPairs.mp hpair
    obtain ⟨dep, hdep, rfl⟩ := List.mem_map.mp (h.resolved op hop p hreq)
    exact hrespects.later op hop dep hdep hreq s t (horder.mem_iff.mpr ⟨hop, hv⟩)
      (horder.mem_iff.mpr ⟨hdep, ht⟩)
  · intro hplaced
    refine ⟨fun op hop ↦ horder.placed_once hop, fun op hop dep hdep hreq i j hi hj ↦ ?_⟩
    exact hplaced op.name i dep.name j (horder.mem_iff.mp hi).2
      ((mem_requirementGraph_pred h hop).mpr hreq) (horder.mem_iff.mp hj).2

/-- **Requirements first.** The computed order puts every operand after the operands it requires
exactly when no operand overtakes. -/
theorem operandOrder_respectsRequires_iff (D : DagLib Err Operand)
    (range : MapRange ((_ : String) × ℕ)) (h : ProperDAG operands) :
    (∃ fuel order, operandOrder D range operands fuel = some (.ok order) ∧
        RespectsRequires operands order) ↔
      ∀ op ∈ operands, ¬ (requirementGraph operands h).Overtakes op.name := by
  constructor
  · rintro ⟨fuel, order, hrun, hrespects⟩
    exact (orders_of_operandOrder h hrun).respectsRequires_iff.mp hrespects
  · intro hnone
    rcases operandOrder_cases D range h (requirementGraph operands h).height with
      ⟨-, order, hrun, horder⟩ | ⟨hlt, -⟩
    · exact ⟨_, order, hrun, horder.respectsRequires_iff.mpr hnone⟩
    · exact absurd hlt (lt_irrefl _)

/-- Two operands, one of which requires the other. -/
def requiringPair : List Operand := [⟨"A", [], .requeueOnError⟩, ⟨"B", ["A"], .requeueOnError⟩]

theorem properDAG_requiringPair : ProperDAG requiringPair :=
  ⟨by decide, by decide, by decide,
    acyclic_of_rank (fun name ↦ ["A", "B"].idxOf name) (by decide)⟩

/-- Three operands; the last one requires the first both directly and through the second. -/
def triangle : List Operand := [⟨"A", [], .requeueOnError⟩, ⟨"B", ["A"], .requeueOnError⟩,
  ⟨"C", ["A", "B"], .requeueOnError⟩]

/-- The same operands with the last two listed the other way round. -/
def swappedTriangle : List Operand := [⟨"A", [], .requeueOnError⟩,
  ⟨"C", ["A", "B"], .requeueOnError⟩, ⟨"B", ["A"], .requeueOnError⟩]

theorem properDAG_triangle : ProperDAG triangle :=
  ⟨by decide, by decide, by decide,
    acyclic_of_rank (fun name ↦ ["A", "B", "C"].idxOf name) (by decide)⟩

theorem properDAG_swappedTriangle : ProperDAG swappedTriangle :=
  ⟨by decide, by decide, by decide,
    acyclic_of_rank (fun name ↦ ["A", "B", "C"].idxOf name) (by decide)⟩

theorem operandOrder_swappedTriangle_respectsRequires :
    ∃ fuel order, operandOrder (orderedDag GoError Operand) (.stored _) swappedTriangle fuel =
      some (.ok order) ∧ RespectsRequires swappedTriangle order :=
  (operandOrder_respectsRequires_iff _ _ properDAG_swappedTriangle).mpr (by decide)

/-- `B` is placed before `C` is looked at in the same sweep, so `C` joins the step of `B`. -/
theorem operandOrder_triangle_not_respectsRequires :
    ProperDAG triangle ∧
      operandOrder (orderedDag GoError Operand) (.stored _) triangle 3 =
        some (.ok [[⟨"A", [], .requeueOnError⟩],
          [⟨"C", ["A", "B"], .requeueOnError⟩, ⟨"B", ["A"], .requeueOnError⟩], []]) ∧
      ¬ RespectsRequires triangle [[⟨"A", [], .requeueOnError⟩],
          [⟨"C", ["A", "B"], .requeueOnError⟩, ⟨"B", ["A"], .requeueOnError⟩], []] := by
  refine ⟨properDAG_triangle, rfl, fun hrespects ↦ ?_⟩
  have hlt := hrespects.later ⟨"C", ["A", "B"], .requeueOnError⟩ (by decide)
    ⟨"B", ["A"], .requeueOnError⟩ (by decide) (by decide) 1 1 (by decide) (by decide)
  exact lt_irrefl 1 hlt

end OperatorToolkit.Operator
