import OperatorToolkit.Operator.DagGraph

/-!
# Solving the operand DAG

On a well-formed graph `solveStep` is one sweep of the layered traversal, `solve` stops at the
first empty frontier, and `fillOrder` puts every solved operand into its step. For a proper DAG
this gives the whole order: as many steps as the longest requirement chain has operands, each
holding the operands that the traversal places there.
-/

namespace OperatorToolkit.Operator

open Layering

section Simulation

variable {Err : Type} {D : DagLib Err Operand} {od : D.Graph}

/-- The graph of a well-formed operand DAG, over the vertex IDs. -/
def WellFormed.graph (h : WellFormed D od) : Graph String where
  verts := (D.vertices od).map (·.id)
  verts_nodup := h.ids_nodup
  succ u := ((D.edges od).filter (·.1 = u)).map (·.2)
  pred v := ((D.edges od).filter (·.2 = v)).map (·.1)
  mem_pred_iff := by simp
  edge_verts := by
    intro u v huv
    have hpair : (u, v) ∈ D.edges od := by simpa using huv
    exact h.edges_mem _ hpair

/-- Without repeats by ID, appending vertices is appending their IDs. -/
theorem map_id_foldl_append (ss newRoots : List (Vertex Operand)) :
    (ss.foldl (fun newRoots s ↦
        if vertexExists newRoots s then newRoots else newRoots ++ [s]) newRoots).map (·.id) =
      appendNew (newRoots.map (·.id)) (ss.map (·.id)) := by
  induction ss generalizing newRoots with
  | nil => rfl
  | cons s rest ih =>
    have hexists : vertexExists newRoots s = true ↔ s.id ∈ newRoots.map (·.id) := by
      simp [vertexExists]
    rw [List.foldl_cons, ih, List.map_cons, appendNew]
    by_cases hs : s.id ∈ newRoots.map (·.id)
    · rw [if_pos hs, if_pos (hexists.mpr hs)]
    · rw [if_neg hs, if_neg (hexists.not.mpr hs), List.map_append]
      rfl

theorem foldl_append_subset (ss newRoots vs : List (Vertex Operand)) (hss : ss ⊆ vs)
    (hroots : newRoots ⊆ vs) :
    ss.foldl (fun newRoots s ↦
      if vertexExists newRoots s then newRoots else newRoots ++ [s]) newRoots ⊆ vs := by
  induction ss generalizing newRoots with
  | nil => exact hroots
  | cons s rest ih =>
    obtain ⟨hs, hrest⟩ := List.cons_subset.mp hss
    refine ih _ hrest ?_
    dsimp only
    split
    · exact hroots
    · exact List.append_subset.mpr ⟨hroots, by simpa using hs⟩

theorem addSuccessorsToNewRoots_spec (h : WellFormed D od) {c : Vertex Operand}
    (hc : c ∈ D.vertices od) {newRoots : List (Vertex Operand)}
    (hroots : newRoots ⊆ D.vertices od) :
    ∃ next, addSuccessorsToNewRoots D od c newRoots = .ok next ∧ next ⊆ D.vertices od ∧
      next.map (·.id) = appendNew (newRoots.map (·.id)) (h.graph.succ c.id) := by
  obtain ⟨ss, hss, hsubset, hids⟩ := D.successors_spec od c hc
  refine ⟨_, ?_, foldl_append_subset ss newRoots _ hsubset hroots, ?_⟩
  · simp only [addSuccessorsToNewRoots, hss]
    rfl
  · rw [map_id_foldl_append, hids]
    rfl

theorem lookup_insert_eq_update (order : StepMap) (name : String) (step : ℕ) :
    (fun v ↦ (order.insert name step).lookup v) =
      Function.update (fun v ↦ order.lookup v) name (some step) := by
  funext v
  by_cases hv : v = name
  · subst hv
    simp
  · rw [AList.lookup_insert_ne hv, Function.update_of_ne hv]

/-- One turn of the loop of `solveStep` is one visit of the traversal. -/
theorem solveRoot_spec (h : WellFormed D od) (step : ℕ) {c : Vertex Operand}
    (hc : c ∈ D.vertices od) {newRoots : List (Vertex Operand)}
    (hroots : newRoots ⊆ D.vertices od) (order : StepMap) :
    ∃ next order', solveRoot D od step (newRoots, order) c = .ok (next, order') ∧
      next ⊆ D.vertices od ∧
      next.map (·.id) = appendNew (newRoots.map (·.id)) (h.graph.succ c.id) ∧
      (fun v ↦ order'.lookup v) = h.graph.visit step (fun v ↦ order.lookup v) c.id := by
  obtain ⟨next, hnext, hsubset, hids⟩ := addSuccessorsToNewRoots_spec h hc hroots
  obtain ⟨pp, hpp, -, hpids⟩ := D.predecessors_spec od c hc
  have hpred : pp.map (·.id) = h.graph.pred c.id := hpids
  have hnone : order.lookup c.id = none ↔ c.id ∉ order := AList.lookup_eq_none
  have hplaced (name : String) : order.lookup name ≠ none ↔ name ∈ order := by
    rw [ne_eq, AList.lookup_eq_none, not_not]
  by_cases hmem : c.id ∈ order
  · refine ⟨next, order, ?_, hsubset, hids, ?_⟩
    · simp only [solveRoot, if_pos hmem, hnext]
      rfl
    · rw [Graph.visit, if_neg fun hcond ↦ hnone.mp hcond.1 hmem]
  · by_cases hlength : pp.length = 0
    · have hnil : h.graph.pred c.id = [] := by
        rw [← hpred, List.eq_nil_of_length_eq_zero hlength, List.map_nil]
      refine ⟨next, order.insert c.id step, ?_, hsubset, hids, ?_⟩
      · simp only [solveRoot, if_neg hmem, hpp, hnext]
        simp only [bind, Except.bind, if_pos hlength]
        rfl
      · rw [lookup_insert_eq_update, Graph.visit, if_pos ⟨hnone.mpr hmem, by simp [hnil]⟩]
    · have hsatisfied : (pp.all fun p ↦ p.id ∈ order) = true ↔
          ∀ p ∈ h.graph.pred c.id, order.lookup p ≠ none := by
        rw [← hpred]
        simp only [List.all_eq_true, decide_eq_true_eq, List.forall_mem_map, hplaced]
      refine ⟨next, if pp.all (fun p ↦ p.id ∈ order) then order.insert c.id step else order,
        ?_, hsubset, hids, ?_⟩
      · simp only [solveRoot, if_neg hmem, hpp, hnext]
        simp only [bind, Except.bind, if_neg hlength]
        rfl
      · by_cases hall : (pp.all fun p ↦ p.id ∈ order) = true
        · rw [if_pos hall, lookup_insert_eq_update, Graph.visit,
            if_pos ⟨hnone.mpr hmem, hsatisfied.mp hall⟩]
        · rw [if_neg hall, Graph.visit, if_neg fun hcond ↦ hall (hsatisfied.mpr hcond.2)]

theorem foldlM_solveRoot_spec (h : WellFormed D od) (step : ℕ) (roots : List (Vertex Operand))
    (hcurrent : roots ⊆ D.vertices od) {newRoots : List (Vertex Operand)}
    (hroots : newRoots ⊆ D.vertices od) (order : StepMap) :
    ∃ next order', roots.foldlM (solveRoot D od step) (newRoots, order) = .ok (next, order') ∧
      next ⊆ D.vertices od ∧
      next.map (·.id) = (roots.map (·.id)).foldl (fun acc c ↦ appendNew acc (h.graph.succ c))
        (newRoots.map (·.id)) ∧
      (fun v ↦ order'.lookup v) =
        h.graph.sweep step (fun v ↦ order.lookup v) (roots.map (·.id)) := by
  induction roots generalizing newRoots order with
  | nil => exact ⟨newRoots, order, rfl, hroots, rfl, rfl⟩
  | cons c rest ih =>
    obtain ⟨hc, hrest⟩ := List.cons_subset.mp hcurrent
    obtain ⟨next₁, order₁, hrun₁, hsubset₁, hids₁, hlookup₁⟩ :=
      solveRoot_spec h step hc hroots order
    obtain ⟨next, order', hrun, hsubset, hids, hlookup⟩ := ih hrest hsubset₁ order₁
    refine ⟨next, order', ?_, hsubset, ?_, ?_⟩
    · simp only [List.foldlM_cons, hrun₁]
      exact hrun
    · rw [hids, hids₁, List.map_cons, List.foldl_cons]
    · rw [hlookup, hlookup₁]
      rfl

/-- Where the loop of `solve` stands when it has done `k` rounds. -/
structure SolvedUpTo (h : WellFormed D od) (k : ℕ) (roots : List (Vertex Operand))
    (order : StepMap) : Prop where
  subset : roots ⊆ D.vertices od
  roots_eq : roots.map (·.id) = h.graph.frontier k
  lookup_eq : (fun v ↦ order.lookup v) = h.graph.placements k

theorem solvedUpTo_zero (h : WellFormed D od) : SolvedUpTo h 0 (D.sourceVertices od) ∅ := by
  refine ⟨?_, ?_, ?_⟩
  · rw [D.sourceVertices_spec]
    exact List.filter_subset_self _
  · rw [D.sourceVertices_spec, Graph.frontier, Graph.sources]
    simp [WellFormed.graph, List.filter_map, Function.comp_def]
  · funext v
    rfl

theorem solveStep_spec (h : WellFormed D od) {k : ℕ} {roots : List (Vertex Operand)}
    {order : StepMap} (hk : SolvedUpTo h k roots order) :
    ∃ next order', solveStep D od k roots order = .ok (next, order') ∧
      SolvedUpTo h (k + 1) next order' := by
  obtain ⟨next, order', hrun, hsubset, hids, hlookup⟩ :=
    foldlM_solveRoot_spec h k roots hk.subset (List.nil_subset _) order
  refine ⟨next, order', hrun, hsubset, ?_, ?_⟩
  · rw [hids, hk.roots_eq]
    rfl
  · rw [hlookup, hk.lookup_eq, hk.roots_eq]
    rfl

/-- The loop stops at the first empty frontier, or is still running when the fuel is used up. -/
theorem solveLoop_cases (h : WellFormed D od) (fuel : ℕ) {k : ℕ} {roots : List (Vertex Operand)}
    {order : StepMap} (hk : SolvedUpTo h k roots order) :
    (∃ n order', k ≤ n ∧ n ≤ k + fuel ∧ solveLoop D od fuel k roots order = some (.ok (order', n)) ∧
        (∀ m, k ≤ m → m < n → h.graph.frontier m ≠ []) ∧ h.graph.frontier n = [] ∧
        (fun v ↦ order'.lookup v) = h.graph.placements n) ∨
      (solveLoop D od fuel k roots order = none ∧
        ∀ m, k ≤ m → m ≤ k + fuel → h.graph.frontier m ≠ []) := by
  induction fuel generalizing k roots order with
  | zero =>
    cases roots with
    | nil =>
      refine .inl ⟨k, order, le_rfl, le_rfl, rfl, fun m hm hlt ↦ by omega, hk.roots_eq.symm, ?_⟩
      exact hk.lookup_eq
    | cons c rest =>
      refine .inr ⟨rfl, fun m hm hle ↦ ?_⟩
      have hmk : m = k := by omega
      rw [hmk, ← hk.roots_eq]
      simp
  | succ fuel ih =>
    cases roots with
    | nil =>
      refine .inl ⟨k, order, le_rfl, by omega, rfl, fun m hm hlt ↦ by omega, hk.roots_eq.symm, ?_⟩
      exact hk.lookup_eq
    | cons c rest =>
      have hne : h.graph.frontier k ≠ [] := by
        rw [← hk.roots_eq]
        simp
      obtain ⟨next, order₁, hrun, hnext⟩ := solveStep_spec h hk
      have hloop : solveLoop D od (fuel + 1) k (c :: rest) order =
          solveLoop D od fuel (k + 1) next order₁ := by
        simp only [solveLoop, hrun]
      rw [hloop]
      rcases ih hnext with ⟨n, order', hle, hbound, hsome, hbefore, hempty, hlookup⟩ | ⟨hnone, hall⟩
      · refine .inl ⟨n, order', by omega, by omega, hsome, fun m hm hlt ↦ ?_, hempty, hlookup⟩
        rcases Nat.lt_or_eq_of_le hm with hm | rfl
        · exact hbefore m hm hlt
        · exact hne
      · refine .inr ⟨hnone, fun m hm hle ↦ ?_⟩
        rcases Nat.lt_or_eq_of_le hm with hm | rfl
        · exact hall m hm (by omega)
        · exact hne

theorem solve_cases (h : WellFormed D od) (fuel : ℕ) :
    (∃ n soln, n ≤ fuel ∧ solve D od fuel = some (.ok (soln, n)) ∧
        (∀ m < n, h.graph.frontier m ≠ []) ∧ h.graph.frontier n = [] ∧
        (fun v ↦ soln.lookup v) = h.graph.placements n) ∨
      (solve D od fuel = none ∧ ∀ m ≤ fuel, h.graph.frontier m ≠ []) := by
  rcases solveLoop_cases h fuel (solvedUpTo_zero h) with
    ⟨n, soln, -, hle, hsome, hbefore, hempty, hlookup⟩ | ⟨hnone, hall⟩
  · exact .inl ⟨n, soln, by omega, hsome, fun m hm ↦ hbefore m (by omega) hm, hempty, hlookup⟩
  · exact .inr ⟨hnone, fun m hm ↦ hall m (by omega) (by omega)⟩

/-! ## Filling the steps -/

/-- The operand stored under a name, as a list that is empty for an unknown name. -/
def storedOperands (vs : List (Vertex Operand)) (name : String) : List Operand :=
  (vs.filter (·.id = name)).map (·.value)

theorem storedOperands_of_mem {vs : List (Vertex Operand)} (hids : (vs.map (·.id)).Nodup)
    {v : Vertex Operand} (hv : v ∈ vs) : storedOperands vs v.id = [v.value] := by
  have hfilter : vs.filter (·.id = v.id) = [v] := by
    induction vs with
    | nil => cases hv
    | cons u rest ih =>
      rw [List.map_cons, List.nodup_cons] at hids
      rcases List.mem_cons.mp hv with rfl | hv
      · have hnone : rest.filter (·.id = v.id) = [] := by
          refine List.filter_eq_nil_iff.mpr fun w hw hid ↦ hids.1 ?_
          exact List.mem_map.mpr ⟨w, hw, by simpa using hid⟩
        simp [hnone]
      · have hne : u.id ≠ v.id := fun h ↦ hids.1 (h ▸ List.mem_map_of_mem hv)
        simp [hne, ih hids.2 hv]
  rw [storedOperands, hfilter]
  rfl

/-- Every step collects the operands of its entries, in the order the entries are visited. -/
theorem fillOrder_spec (h : WellFormed D od) (entries : List ((_ : String) × ℕ))
    (hknown : ∀ entry ∈ entries, entry.1 ∈ (D.vertices od).map (·.id)) (steps : ℕ) :
    ∃ result, fillOrder D od steps entries = .ok result ∧ result.length = steps ∧
      ∀ i < steps, result.getD i [] =
        (entries.filter (·.2 = i)).flatMap fun entry ↦ storedOperands (D.vertices od) entry.1 := by
  have hgen : ∀ start : OperandOrder, ∃ result,
      entries.foldlM (fun (result : OperandOrder) entry ↦ do
        let v ← D.getVertex od entry.1
        return result.modify entry.2 (· ++ [v.value])) start = Except.ok result ∧
      result.length = start.length ∧
      ∀ i < start.length, result.getD i [] = start.getD i [] ++
        (entries.filter (·.2 = i)).flatMap fun entry ↦ storedOperands (D.vertices od) entry.1 := by
    induction entries with
    | nil => exact fun start ↦ ⟨start, rfl, rfl, by simp⟩
    | cons entry rest ih =>
      intro start
      obtain ⟨v, hv, hid⟩ := List.mem_map.mp (hknown entry (by simp))
      have hget : D.getVertex od entry.1 = .ok v := hid ▸ getVertex_of_mem h.ids_nodup hv
      have hstored : storedOperands (D.vertices od) entry.1 = [v.value] :=
        hid ▸ storedOperands_of_mem h.ids_nodup hv
      obtain ⟨result, hrun, hlength, hsteps⟩ :=
        ih (fun e he ↦ hknown e (List.mem_cons_of_mem _ he)) (start.modify entry.2 (· ++ [v.value]))
      rw [List.length_modify] at hlength hsteps
      refine ⟨result, ?_, hlength, fun i hi ↦ ?_⟩
      · simp only [List.foldlM_cons, hget]
        exact hrun
      · rw [hsteps i hi]
        by_cases heq : entry.2 = i
        · simp [heq, hstored, List.getD_eq_getElem?_getD, hi]
        · simp [heq, List.getD_eq_getElem?_getD, hi]
  obtain ⟨result, hrun, hlength, hsteps⟩ := hgen (List.replicate steps [])
  rw [List.length_replicate] at hlength hsteps
  refine ⟨result, hrun, hlength, fun i hi ↦ ?_⟩
  rw [hsteps i hi]
  simp [List.getD_eq_getElem?_getD, hi]

/-- A graph that was built is never answered with an error, only with an order or not at all. -/
theorem order_ne_error (h : WellFormed D od) (range : MapRange ((_ : String) × ℕ)) (fuel : ℕ)
    (err : Err) : order D range od fuel ≠ some (.error err) := by
  intro herr
  rcases solve_cases h fuel with ⟨n, soln, -, hsome, -, -, hlookup⟩ | ⟨hnone, -⟩
  · have hknown : ∀ entry ∈ range.visit soln.entries, entry.1 ∈ (D.vertices od).map (·.id) := by
      intro entry hentry
      have hmem := (range.visit_perm _).mem_iff.mp hentry
      have hplaced : h.graph.placements n entry.1 = some entry.2 := by
        rw [← hlookup]
        exact AList.mem_lookup_iff.mpr hmem
      have hchain := (Graph.placed_iff.mp (Graph.placements_eq_some_iff.mp hplaced).2).2.1
      exact h.graph.chainEnds_subset_verts hchain
    obtain ⟨result, hfill, -⟩ := fillOrder_spec h _ hknown n
    simp [order, hsome, hfill] at herr
  · simp [order, hnone] at herr

end Simulation

end OperatorToolkit.Operator
