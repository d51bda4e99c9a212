import OperatorToolkit.Operator.Dag
import OperatorToolkit.Layering.Sweep

/-!
# What the operand DAG holds and how it is solved

`newOperandDAG` succeeds exactly when every required name is known and no requirement is stated
twice, and the graph then holds the stored operands and the requirement pairs. On any such graph
`solveStep` is one sweep of the layered traversal over the vertex names, so the loop of `solve`
either runs for ever or stops at the first empty frontier with the placements of the traversal.
-/

namespace OperatorToolkit.Operator

open Layering

/-! ## The input graph -/

/-- The vertices left after storing all operands by name. -/
def storedVertices (operands : List Operand) : List (Vertex Operand) :=
  operands.foldl (fun vs op ↦ putVertex ⟨op.name, op⟩ vs) []

/-- One pair for each stated requirement: the required name and the name that requires it. -/
def requirementPairs (operands : List Operand) : List (String × String) :=
  operands.flatMap fun op ↦ op.requires.map fun dep ↦ (dep, op.name)

/-- `a` is required by an operand with the name `b`. -/
def RequiredBy (operands : List Operand) (a b : String) : Prop := (a, b) ∈ requirementPairs operands

/-- The operands form a proper DAG. -/
structure ProperDAG (operands : List Operand) : Prop where
  names_nodup : (operands.map (·.name)).Nodup
  resolved : ∀ op ∈ operands, ∀ dep ∈ op.requires, dep ∈ operands.map (·.name)
  requires_nodup : ∀ op ∈ operands, op.requires.Nodup
  acyclic : ∀ name, ¬ Relation.TransGen (RequiredBy operands) name name

theorem mem_requirementPairs {operands : List Operand} {a b : String} :
    (a, b) ∈ requirementPairs operands ↔ ∃ op ∈ operands, op.name = b ∧ a ∈ op.requires := by
  simp only [requirementPairs, List.mem_flatMap, List.mem_map, Prod.mk.injEq]
  constructor
  · rintro ⟨op, hop, dep, hdep, rfl, rfl⟩
    exact ⟨op, hop, rfl, hdep⟩
  · rintro ⟨op, hop, rfl, ha⟩
    exact ⟨op, hop, a, ha, rfl, rfl⟩

/-- A rank that grows along every requirement rules out cycles. -/
theorem acyclic_of_rank {operands : List Operand} (rank : String → ℕ)
    (h : ∀ op ∈ operands, ∀ dep ∈ op.requires, rank dep < rank op.name) (name : String) :
    ¬ Relation.TransGen (RequiredBy operands) name name := by
  have hlt : ∀ {a b}, Relation.TransGen (RequiredBy operands) a b → rank a < rank b := by
    intro a b hab
    induction hab with
    | single hb =>
      obtain ⟨op, hop, rfl, ha⟩ := mem_requirementPairs.mp hb
      exact h op hop _ ha
    | tail _ hc ih =>
      obtain ⟨op, hop, rfl, ha⟩ := mem_requirementPairs.mp hc
      exact ih.trans (h op hop _ ha)
  exact fun hcycle ↦ (hlt hcycle).false

/-! ## Stored vertices -/

theorem map_id_putVertex {Value : Type} (v : Vertex Value) (vs : List (Vertex Value)) :
    (putVertex v vs).map (·.id) =
      if v.id ∈ vs.map (·.id) then vs.map (·.id) else vs.map (·.id) ++ [v.id] := by
  induction vs with
  | nil => simp [putVertex]
  | cons u rest ih =>
    by_cases hu : u.id = v.id
    · simp [putVertex, hu]
    · by_cases hv : v.id ∈ rest.map (·.id) <;> simp_all [putVertex, Ne.symm hu]

theorem putVertex_of_new {Value : Type} {v : Vertex Value} {vs : List (Vertex Value)}
    (h : v.id ∉ vs.map (·.id)) : putVertex v vs = vs ++ [v] := by
  induction vs with
  | nil => rfl
  | cons u rest ih =>
    simp only [List.map_cons, List.mem_cons, not_or] at h
    simp [putVertex, Ne.symm h.1, ih h.2]

theorem mem_ids_foldl_putVertex (operands : List Operand) (vs : List (Vertex Operand))
    (name : String) :
    name ∈ (operands.foldl (fun vs op ↦ putVertex ⟨op.name, op⟩ vs) vs).map (·.id) ↔
      name ∈ vs.map (·.id) ∨ name ∈ operands.map (·.name) := by
  induction operands generalizing vs with
  | nil => simp
  | cons op rest ih =>
    rw [List.foldl_cons, ih, map_id_putVertex]
    split
    next h =>
      rw [List.map_cons, List.mem_cons]
      constructor
      · rintro (h | h) <;> simp [h]
      · rintro (h' | rfl | h') <;> simp_all
    next h =>
      simp only [List.mem_append, List.map_cons, List.mem_cons, List.not_mem_nil, or_false,
        or_assoc]

theorem nodup_ids_foldl_putVertex (operands : List Operand) (vs : List (Vertex Operand))
    (hvs : (vs.map (·.id)).Nodup) :
    ((operands.foldl (fun vs op ↦ putVertex ⟨op.name, op⟩ vs) vs).map (·.id)).Nodup := by
  induction operands generalizing vs with
  | nil => exact hvs
  | cons op rest ih =>
    refine ih _ ?_
    rw [map_id_putVertex]
    split
    next => exact hvs
    next h => exact List.nodup_append.mpr ⟨hvs, List.nodup_singleton _, by simp_all⟩

theorem mem_ids_storedVertices {operands : List Operand} {name : String} :
    name ∈ (storedVertices operands).map (·.id) ↔ name ∈ operands.map (·.name) := by
  simpa [storedVertices] using mem_ids_foldl_putVertex operands [] name

theorem nodup_ids_storedVertices (operands : List Operand) :
    ((storedVertices operands).map (·.id)).Nodup :=
  nodup_ids_foldl_putVertex operands [] (by simp)

/-- Without duplicate names every operand is kept, in list order. -/
theorem storedVertices_of_nodup {operands : List Operand} (h : (operands.map (·.name)).Nodup) :
    storedVertices operands = operands.map fun op ↦ ⟨op.name, op⟩ := by
  have hgen : ∀ vs : List (Vertex Operand),
      (vs.map (·.id) ++ operands.map (·.name)).Nodup →
      operands.foldl (fun vs op ↦ putVertex ⟨op.name, op⟩ vs) vs =
        vs ++ operands.map fun op ↦ ⟨op.name, op⟩ := by
    clear h
    induction operands with
    | nil => simp
    | cons op rest ih =>
      intro vs hvs
      have hnew : op.name ∉ vs.map (·.id) := by
        intro hmem
        exact (List.nodup_append.mp hvs).2.2 _ hmem _ (by simp) rfl
      rw [List.foldl_cons, putVertex_of_new hnew, ih _ (by simpa using hvs)]
      simp
  simpa [storedVertices] using hgen [] (by simpa using h)

/-! ## Well-formed graphs -/

section

variable {Err : Type} {D : DagLib Err Operand}

/-- Vertex IDs are unique and edges join stored vertices. -/
structure WellFormed (D : DagLib Err Operand) (od : D.Graph) : Prop where
  ids_nodup : ((D.vertices od).map (·.id)).Nodup
  edges_mem : ∀ e ∈ D.edges od, e.1 ∈ (D.vertices od).map (·.id) ∧ e.2 ∈ (D.vertices od).map (·.id)

theorem find?_eq_some_of_mem {vs : List (Vertex Operand)} (hids : (vs.map (·.id)).Nodup)
    {v : Vertex Operand} (hv : v ∈ vs) : vs.find? (·.id = v.id) = some v := by
  induction vs with
  | nil => cases hv
  | cons u rest ih =>
    rw [List.map_cons, List.nodup_cons] at hids
    rcases List.mem_cons.mp hv with rfl | hv
    · simp
    · have hne : u.id ≠ v.id := fun h ↦ hids.1 (h ▸ List.mem_map_of_mem hv)
      simp [hne, ih hids.2 hv]

theorem getVertex_of_mem {od : D.Graph} (hids : ((D.vertices od).map (·.id)).Nodup)
    {v : Vertex Operand} (hv : v ∈ D.vertices od) : D.getVertex od v.id = .ok v :=
  D.getVertex_known od v.id v (find?_eq_some_of_mem hids hv)

theorem getVertex_cases {od : D.Graph} (hids : ((D.vertices od).map (·.id)).Nodup) (id : String) :
    (∃ v ∈ D.vertices od, v.id = id ∧ D.getVertex od id = .ok v) ∨
      (id ∉ (D.vertices od).map (·.id) ∧ ∃ err, D.getVertex od id = .error err) := by
  by_cases hid : id ∈ (D.vertices od).map (·.id)
  · obtain ⟨v, hv, rfl⟩ := List.mem_map.mp hid
    exact .inl ⟨v, hv, rfl, getVertex_of_mem hids hv⟩
  · exact .inr ⟨hid, D.getVertex_unknown od id hid⟩

/-- Adding the requirements of one operand either enters them all or fails for a stated reason. -/
theorem addRequirements_cases {od : D.Graph} (hids : ((D.vertices od).map (·.id)).Nodup)
    {head : Vertex Operand} (hhead : head ∈ D.vertices od) (deps : List String)
    (hnodup : (D.edges od).Nodup) :
    (∃ od', addRequirements D head od deps = .ok od' ∧ D.vertices od' = D.vertices od ∧
        D.edges od' = D.edges od ++ deps.map (fun dep ↦ (dep, head.id)) ∧ (D.edges od').Nodup ∧
        ∀ dep ∈ deps, dep ∈ (D.vertices od).map (·.id)) ∨
      (∃ err, addRequirements D head od deps = .error err) ∧
        ¬ ((∀ dep ∈ deps, dep ∈ (D.vertices od).map (·.id)) ∧
          (D.edges od ++ deps.map fun dep ↦ (dep, head.id)).Nodup) := by
  induction deps generalizing od with
  | nil => exact .inl ⟨od, rfl, rfl, by simp, hnodup, by simp⟩
  | cons dep rest ih =>
    rcases getVertex_cases hids dep with ⟨tail, htail, rfl, hget⟩ | ⟨hunknown, err, hget⟩
    · by_cases hedge : (tail.id, head.id) ∈ D.edges od
      · obtain ⟨err, herr⟩ := D.addEdge_existing od tail head hedge
        refine .inr ⟨⟨err, ?_⟩, fun h ↦ ?_⟩
        · simp only [addRequirements, List.foldlM_cons, hget]
          simp only [bind, Except.bind, herr]
        · exact (List.nodup_append.mp h.2).2.2 _ hedge _ (by simp) rfl
      · obtain ⟨od₁, hadd, hverts, hedges⟩ := D.addEdge_new od tail head htail hhead hedge
        have hstep : addRequirements D head od (tail.id :: rest) =
            addRequirements D head od₁ rest := by
          simp only [addRequirements, List.foldlM_cons, hget]
          simp only [bind, Except.bind, hadd]
        have hnodup₁ : (D.edges od₁).Nodup := by
          rw [hedges]
          refine List.nodup_append.mpr ⟨hnodup, List.nodup_singleton _, ?_⟩
          rintro e he _ hsingle rfl
          exact hedge (List.mem_singleton.mp hsingle ▸ he)
        have happend : D.edges od₁ ++ rest.map (fun dep ↦ (dep, head.id)) =
            D.edges od ++ (tail.id :: rest).map fun dep ↦ (dep, head.id) := by
          simp [hedges]
        rw [hstep, ← happend]
        rcases @ih od₁ (hverts ▸ hids) (hverts ▸ hhead) hnodup₁ with
          ⟨od', hrun, hv', he', hn', hdeps⟩ | ⟨herr, hbad⟩
        · rw [hverts] at hv' hdeps
          refine .inl ⟨od', hrun, hv', he', hn', ?_⟩
          intro dep' hdep'
          rcases List.mem_cons.mp hdep' with rfl | hdep'
          · exact List.mem_map_of_mem htail
          · exact hdeps dep' hdep'
        · rw [hverts] at hbad
          exact .inr ⟨herr, fun h ↦ hbad ⟨fun d hd ↦ h.1 d (List.mem_cons_of_mem _ hd), h.2⟩⟩
    · refine .inr ⟨⟨err, ?_⟩, fun h ↦ hunknown (h.1 dep (by simp))⟩
      simp only [addRequirements, List.foldlM_cons, hget]
      rfl

theorem foldlM_addVertex (operands : List Operand) {od : D.Graph} (hedges : D.edges od = []) :
    ∃ od', operands.foldlM (fun od op ↦ D.addVertex od ⟨op.name, op⟩) od = .ok od' ∧
      D.vertices od' = operands.foldl (fun vs op ↦ putVertex ⟨op.name, op⟩ vs) (D.vertices od) ∧
      D.edges od' = [] := by
  induction operands generalizing od with
  | nil => exact ⟨od, rfl, rfl, hedges⟩
  | cons op rest ih =>
    obtain ⟨od₁, hadd, hverts, hedges₁⟩ := D.addVertex_spec od ⟨op.name, op⟩ hedges
    obtain ⟨od', hrun, hverts', hedges'⟩ := ih hedges₁
    refine ⟨od', ?_, by rw [hverts', hverts, List.foldl_cons], hedges'⟩
    simp only [List.foldlM_cons, hadd]
    exact hrun

/-- The loop over all operands, started on a graph that holds their vertices. -/
theorem foldlM_addRequirements_cases (operands : List Operand) {od : D.Graph}
    (hids : ((D.vertices od).map (·.id)).Nodup)
    (hnames : ∀ op ∈ operands, op.name ∈ (D.vertices od).map (·.id))
    (hnodup : (D.edges od).Nodup) :
    (∃ od', operands.foldlM (fun od op ↦ do
          let headVertex ← D.getVertex od op.name
          addRequirements D headVertex od op.requires) od = .ok od' ∧
        D.vertices od' = D.vertices od ∧ D.edges od' = D.edges od ++ requirementPairs operands ∧
        (D.edges od').Nodup ∧
        ∀ op ∈ operands, ∀ dep ∈ op.requires, dep ∈ (D.vertices od).map (·.id)) ∨
      (∃ err, operands.foldlM (fun od op ↦ do
          let headVertex ← D.getVertex od op.name
          addRequirements D headVertex od op.requires) od = .error err) ∧
        ¬ ((∀ op ∈ operands, ∀ dep ∈ op.requires, dep ∈ (D.vertices od).map (·.id)) ∧
          (D.edges od ++ requirementPairs operands).Nodup) := by
  induction operands generalizing od with
  | nil => exact .inl ⟨od, rfl, rfl, by simp [requirementPairs], hnodup, by simp⟩
  | cons op rest ih =>
    obtain ⟨head, hhead, hid⟩ := List.mem_map.mp (hnames op (by simp))
    have hget : D.getVertex od op.name = .ok head := hid ▸ getVertex_of_mem hids hhead
    have hpairs : requirementPairs (op :: rest) =
        op.requires.map (fun dep ↦ (dep, head.id)) ++ requirementPairs rest := by
      simp [requirementPairs, hid]
    simp only [List.foldlM_cons, hget]
    simp only [bind, Except.bind]
    rcases addRequirements_cases hids hhead op.requires hnodup with
      ⟨od₁, hrun, hverts, hedges, hnodup₁, hdeps⟩ | ⟨⟨err, herr⟩, hbad⟩
    · simp only [hrun]
      have happend : D.edges od₁ ++ requirementPairs rest =
          D.edges od ++ requirementPairs (op :: rest) := by
        rw [hedges, hpairs, List.append_assoc]
      rw [← happend]
      rcases @ih od₁ (hverts ▸ hids) (fun o ho ↦ hverts ▸ hnames o (by simp [ho])) hnodup₁ with
        ⟨od', hrun', hverts', hedges', hnodup', hdeps'⟩ | ⟨herr, hbad⟩
      · rw [hverts] at hverts' hdeps'
        refine .inl ⟨od', hrun', hverts', hedges', hnodup', ?_⟩
        intro o ho
        rcases List.mem_cons.mp ho with rfl | ho
        · exact hdeps
        · exact hdeps' o ho
      · rw [hverts] at hbad
        exact .inr ⟨herr, fun h ↦ hbad ⟨fun o ho ↦ h.1 o (List.mem_cons_of_mem _ ho), h.2⟩⟩
    · simp only [herr]
      refine .inr ⟨⟨err, rfl⟩, fun h ↦ hbad ⟨h.1 op (by simp), ?_⟩⟩
      rw [hpairs, ← List.append_assoc] at h
      exact (List.nodup_append.mp h.2).1

/-- What `newOperandDAG` rejects: a required name that no operand has, or a requirement that is
stated twice. -/
def Accepted (operands : List Operand) : Prop :=
  (∀ op ∈ operands, ∀ dep ∈ op.requires, dep ∈ operands.map (·.name)) ∧
    (requirementPairs operands).Nodup

theorem Accepted.requires_nodup {operands : List Operand} (h : Accepted operands) {op : Operand}
    (hop : op ∈ operands) : op.requires.Nodup :=
  ((List.nodup_flatMap.mp h.2).1 op hop).of_map _

theorem newOperandDAG_cases (D : DagLib Err Operand) (operands : List Operand) :
    (∃ od, newOperandDAG D operands = .ok od ∧ D.vertices od = storedVertices operands ∧
        D.edges od = requirementPairs operands ∧ Accepted operands) ∨
      (∃ err, newOperandDAG D operands = .error err) ∧ ¬ Accepted operands := by
  obtain ⟨od, hrun, hverts, hedges⟩ := foldlM_addVertex operands D.edges_newDAG
  rw [D.vertices_newDAG] at hverts
  have hstored : D.vertices od = storedVertices operands := hverts
  have hnames : ∀ op ∈ operands, op.name ∈ (D.vertices od).map (·.id) := fun op hop ↦ by
    rw [hstored, mem_ids_storedVertices]
    exact List.mem_map_of_mem hop
  have hids : ((D.vertices od).map (·.id)).Nodup := hstored ▸ nodup_ids_storedVertices operands
  simp only [newOperandDAG, hrun]
  simp only [bind, Except.bind]
  rcases foldlM_addRequirements_cases operands hids hnames (by simp [hedges]) with
    ⟨od', hrun', hverts', hedges', hnodup, hdeps⟩ | ⟨herr, hbad⟩
  · rw [hedges, List.nil_append] at hedges'
    simp only [hstored, mem_ids_storedVertices] at hdeps
    exact .inl ⟨od', hrun', hverts'.trans hstored, hedges', hdeps, hedges' ▸ hnodup⟩
  · rw [hedges, List.nil_append] at hbad
    simp only [hstored, mem_ids_storedVertices] at hbad
    exact .inr ⟨herr, hbad⟩

theorem wellFormed_of_accepted {od : D.Graph} {operands : List Operand}
    (hverts : D.vertices od = storedVertices operands)
    (hedges : D.edges od = requirementPairs operands) (haccepted : Accepted operands) :
    WellFormed D od := by
  refine ⟨hverts ▸ nodup_ids_storedVertices operands, ?_⟩
  rintro ⟨a, b⟩ he
  rw [hedges] at he
  obtain ⟨op, hop, rfl, ha⟩ := mem_requirementPairs.mp he
  rw [hverts, mem_ids_storedVertices, mem_ids_storedVertices]
  exact ⟨haccepted.1 op hop a ha, List.mem_map_of_mem hop⟩

end

theorem requirementPairs_nodup {operands : List Operand}
    (hnames : (operands.map (·.name)).Nodup) (hrequires : ∀ op ∈ operands, op.requires.Nodup) :
    (requirementPairs operands).Nodup := by
  induction operands with
  | nil => simp [requirementPairs]
  | cons op rest ih =>
    rw [List.map_cons, List.nodup_cons] at hnames
    have hrest := ih hnames.2 fun o ho ↦ hrequires o (List.mem_cons_of_mem _ ho)
    have hhead : (op.requires.map fun dep ↦ (dep, op.name)).Nodup :=
      (hrequires op (by simp)).map fun _ _ h ↦ (Prod.mk.injEq .. ▸ h).1
    refine List.nodup_append.mpr ⟨hhead, hrest, ?_⟩
    rintro ⟨a, b⟩ hab _ hmem rfl
    obtain ⟨dep, _, heq⟩ := List.mem_map.mp hab
    obtain ⟨o, ho, hname, _⟩ := mem_requirementPairs.mp hmem
    cases heq
    exact hnames.1 (hname ▸ List.mem_map_of_mem ho)

theorem ProperDAG.accepted {operands : List Operand} (h : ProperDAG operands) :
    Accepted operands :=
  ⟨h.resolved, requirementPairs_nodup h.names_nodup h.requires_nodup⟩

/-- The requirement graph of a proper DAG, read off the operand list. -/
def requirementGraph (operands : List Operand) (h : ProperDAG operands) : Graph String where
  verts := operands.map (·.name)
  verts_nodup := h.names_nodup
  succ u := ((requirementPairs operands).filter (·.1 = u)).map (·.2)
  pred v := ((requirementPairs operands).filter (·.2 = v)).map (·.1)
  mem_pred_iff := by simp
  edge_verts := by
    intro u v huv
    have hpair : (u, v) ∈ requirementPairs operands := by simpa using huv
    obtain ⟨op, hop, rfl, hu⟩ := mem_requirementPairs.mp hpair
    exact ⟨h.resolved op hop u hu, List.mem_map_of_mem hop⟩

section RequirementGraph

variable {operands : List Operand} (h : ProperDAG operands)

theorem requirementGraph_edge {a b : String} :
    (requirementGraph operands h).Edge a b ↔ RequiredBy operands a b := by
  simp [Graph.Edge, requirementGraph, RequiredBy]

theorem requirementGraph_acyclic : (requirementGraph operands h).Acyclic := by
  intro v hv
  exact h.acyclic v (Relation.TransGen.mono (fun a b hab ↦ (requirementGraph_edge h).mp hab) _ _ hv)

theorem mem_requirementGraph_pred {a : String} {op : Operand} (hop : op ∈ operands) :
    a ∈ (requirementGraph operands h).pred op.name ↔ a ∈ op.requires := by
  have hpred : a ∈ (requirementGraph operands h).pred op.name ↔
      (a, op.name) ∈ requirementPairs operands := by
    simp [requirementGraph]
  rw [hpred, mem_requirementPairs]
  constructor
  · rintro ⟨o, ho, hname, ha⟩
    rwa [← List.inj_on_of_nodup_map h.names_nodup ho hop hname]
  · intro ha
    exact ⟨op, hop, rfl, ha⟩

end RequirementGraph

end OperatorToolkit.Operator
