import OperatorToolkit.Operator.Operand
import Mathlib.Data.List.AList
import Mathlib.Logic.Relation

/-!
# The operand DAG and its traversal

`newOperandDAG` enters the operands and their requirements into a graph of the package
`github.com/goombaio/dag`; `order` solves the graph step by step into an `OperandOrder`. The graph
package is a parameter: `DagLib` names its operations and what the toolkit relies on, in terms of
the vertices and edges that a graph holds. Go does not fix the order in which a map is ranged over,
so `order` also takes the iteration order as a parameter.
-/

namespace OperatorToolkit.Operator

/-- `dag.Vertex`: an ID with a value attached. -/
structure Vertex (Value : Type) where
  id : String
  value : Value
  deriving DecidableEq, Repr

/-- Store a vertex under its ID, in the place of an earlier one. -/
def putVertex {Value : Type} (v : Vertex Value) : List (Vertex Value) → List (Vertex Value)
  | [] => [v]
  | u :: rest => if u.id = v.id then v :: rest else u :: putVertex v rest

/-- The operations of the graph package, with the documented behaviour the toolkit relies on.
`vertices` and `edges` are what a graph holds, in insertion order. -/
structure DagLib (Err Value : Type) where
  Graph : Type
  newDAG : Graph
  addVertex : Graph → Vertex Value → Except Err Graph
  getVertex : Graph → String → Except Err (Vertex Value)
  addEdge : Graph → Vertex Value → Vertex Value → Except Err Graph
  sourceVertices : Graph → List (Vertex Value)
  predecessors : Graph → Vertex Value → Except Err (List (Vertex Value))
  successors : Graph → Vertex Value → Except Err (List (Vertex Value))
  vertices : Graph → List (Vertex Value)
  edges : Graph → List (String × String)
  vertices_newDAG : vertices newDAG = []
  edges_newDAG : edges newDAG = []
  /-- Storing a vertex never fails; the edges of a replaced vertex are not specified. -/
  addVertex_spec : ∀ g v, edges g = [] →
    ∃ g', addVertex g v = .ok g' ∧ vertices g' = putVertex v (vertices g) ∧ edges g' = []
  getVertex_known : ∀ g id v, (vertices g).find? (·.id = id) = some v → getVertex g id = .ok v
  getVertex_unknown : ∀ g id, id ∉ (vertices g).map (·.id) → ∃ err, getVertex g id = .error err
  addEdge_new : ∀ g tail head, tail ∈ vertices g → head ∈ vertices g →
    (tail.id, head.id) ∉ edges g →
    ∃ g', addEdge g tail head = .ok g' ∧ vertices g' = vertices g ∧
      edges g' = edges g ++ [(tail.id, head.id)]
  addEdge_existing : ∀ g tail head, (tail.id, head.id) ∈ edges g →
    ∃ err, addEdge g tail head = .error err
  sourceVertices_spec : ∀ g,
    sourceVertices g = (vertices g).filter fun v ↦ ((edges g).filter (·.2 = v.id)).isEmpty
  predecessors_spec : ∀ g v, v ∈ vertices g →
    ∃ us, predecessors g v = .ok us ∧ us ⊆ vertices g ∧
      us.map (·.id) = ((edges g).filter (·.2 = v.id)).map (·.1)
  successors_spec : ∀ g v, v ∈ vertices g →
    ∃ us, successors g v = .ok us ∧ us ⊆ vertices g ∧
      us.map (·.id) = ((edges g).filter (·.1 = v.id)).map (·.2)

/-! ## An insertion-ordered graph -/

/-- Vertices in insertion order and edges between stored vertices. -/
def OrderedGraph (Value : Type) : Type :=
  { g : List (Vertex Value) × List (Vertex Value × Vertex Value) //
    ∀ e ∈ g.2, e.1 ∈ g.1 ∧ e.2 ∈ g.1 }

namespace OrderedGraph

variable {Err Value : Type} [ErrorValues Err] [DecidableEq Value]

def addVertex (g : OrderedGraph Value) (v : Vertex Value) : OrderedGraph Value :=
  ⟨(putVertex v g.1.1,
    g.1.2.filter fun e ↦ e.1 ∈ putVertex v g.1.1 ∧ e.2 ∈ putVertex v g.1.1), by
    intro e he
    simpa using (List.mem_filter.mp he).2⟩

def getVertex (g : OrderedGraph Value) (id : String) : Except Err (Vertex Value) :=
  match g.1.1.find? (·.id = id) with
  | some v => .ok v
  | none => .error (errorf s!"vertex {id} not found in the graph")

def pushEdge (g : OrderedGraph Value) (tail head : Vertex Value)
    (hmem : tail ∈ g.1.1 ∧ head ∈ g.1.1) : OrderedGraph Value :=
  ⟨(g.1.1, g.1.2 ++ [(tail, head)]), by
    intro e he
    rcases List.mem_append.mp he with he | he
    · exact g.2 e he
    · rw [List.mem_singleton.mp he]
      exact hmem⟩

def addEdge (g : OrderedGraph Value) (tail head : Vertex Value) :
    Except Err (OrderedGraph Value) :=
  if hmem : tail ∈ g.1.1 ∧ head ∈ g.1.1 then
    if (tail.id, head.id) ∈ g.1.2.map (fun e ↦ (e.1.id, e.2.id)) then
      .error (errorf s!"edge ({tail.id},{head.id}) already exists")
    else
      .ok (g.pushEdge tail head hmem)
  else
    .error (errorf s!"vertex {tail.id} or {head.id} not found")

def edges (g : OrderedGraph Value) : List (String × String) := g.1.2.map fun e ↦ (e.1.id, e.2.id)

end OrderedGraph

/-- A graph package that behaves as documented. -/
def orderedDag (Err Value : Type) [ErrorValues Err] [DecidableEq Value] : DagLib Err Value where
  Graph := OrderedGraph Value
  newDAG := ⟨([], []), by simp⟩
  addVertex g v := .ok (g.addVertex v)
  getVertex := OrderedGraph.getVertex
  addEdge := OrderedGraph.addEdge
  sourceVertices g := g.1.1.filter fun v ↦ (g.edges.filter (·.2 = v.id)).isEmpty
  predecessors g v := .ok ((g.1.2.filter (·.2.id = v.id)).map (·.1))
  successors g v := .ok ((g.1.2.filter (·.1.id = v.id)).map (·.2))
  vertices g := g.1.1
  edges := OrderedGraph.edges
  vertices_newDAG := rfl
  edges_newDAG := rfl
  addVertex_spec g v h := by
    have hnil : g.1.2 = [] := by simpa [OrderedGraph.edges] using h
    exact ⟨_, rfl, rfl, by simp [OrderedGraph.edges, OrderedGraph.addVertex, hnil]⟩
  getVertex_known g id v h := by simp [OrderedGraph.getVertex, h]
  getVertex_unknown g id h := by
    have hnone : g.1.1.find? (·.id = id) = none := by
      refine List.find?_eq_none.mpr fun v hv hid ↦ h ?_
      exact List.mem_map.mpr ⟨v, hv, by simpa using hid⟩
    exact ⟨_, by simp [OrderedGraph.getVertex, hnone]; rfl⟩
  addEdge_new g tail head htail hhead hnew := by
    have hnew' : (tail.id, head.id) ∉ g.1.2.map (fun e ↦ (e.1.id, e.2.id)) := hnew
    refine ⟨g.pushEdge tail head ⟨htail, hhead⟩, ?_, rfl, ?_⟩
    · rw [OrderedGraph.addEdge, dif_pos ⟨htail, hhead⟩, if_neg hnew']
    · simp [OrderedGraph.edges, OrderedGraph.pushEdge]
  addEdge_existing g tail head hold := by
    have hold' : (tail.id, head.id) ∈ g.1.2.map (fun e ↦ (e.1.id, e.2.id)) := hold
    by_cases hmem : tail ∈ g.1.1 ∧ head ∈ g.1.1
    · exact ⟨_, by rw [OrderedGraph.addEdge, dif_pos hmem, if_pos hold']⟩
    · exact ⟨_, by rw [OrderedGraph.addEdge, dif_neg hmem]⟩
  sourceVertices_spec g := rfl
  predecessors_spec g v hv := by
    refine ⟨_, rfl, ?_, ?_⟩
    · intro u hu
      obtain ⟨e, he, rfl⟩ := List.mem_map.mp hu
      exact (g.2 e (List.mem_filter.mp he).1).1
    · simp [OrderedGraph.edges, List.filter_map, Function.comp_def]
  successors_spec g v hv := by
    refine ⟨_, rfl, ?_, ?_⟩
    · intro u hu
      obtain ⟨e, he, rfl⟩ := List.mem_map.mp hu
      exact (g.2 e (List.mem_filter.mp he).1).2
    · simp [OrderedGraph.edges, List.filter_map, Function.comp_def]

/-- The order in which `range` visits the entries of a map: some permutation of them. -/
structure MapRange (Entry : Type) where
  visit : List Entry → List Entry
  visit_perm : ∀ entries, (visit entries).Perm entries

/-- Visiting the entries as they are stored. -/
def MapRange.stored (Entry : Type) : MapRange Entry := ⟨id, fun _ ↦ .refl _⟩

section Model

variable {Err : Type} (D : DagLib Err Operand)

/-- Connect the operand to all the vertices it depends on. -/
def addRequirements (headVertex : Vertex Operand) (od : D.Graph) (deps : List String) :
    Except Err D.Graph :=
  deps.foldlM (fun od dep ↦ do
    let tailVertex ← D.getVertex od dep
    D.addEdge od tailVertex headVertex) od

def newOperandDAG (operands : List Operand) : Except Err D.Graph := do
  let od ← operands.foldlM (fun od op ↦ D.addVertex od ⟨op.name, op⟩) D.newDAG
  operands.foldlM (fun od op ↦ do
    let headVertex ← D.getVertex od op.name
    addRequirements D headVertex od op.requires) od

def vertexExists (vs : List (Vertex Operand)) (target : Vertex Operand) : Bool :=
  vs.any fun v ↦ v.id = target.id

def addSuccessorsToNewRoots (od : D.Graph) (v : Vertex Operand)
    (newRoots : List (Vertex Operand)) : Except Err (List (Vertex Operand)) := do
  let ss ← D.successors od v
  return ss.foldl (fun newRoots s ↦
    if vertexExists newRoots s then newRoots else newRoots ++ [s]) newRoots

/-- `map[string]int`: the step of every vertex that has one. -/
abbrev StepMap := AList fun _ : String ↦ ℕ

/-- The body of the loop of `solveStep` for the current root `c`. -/
def solveRoot (od : D.Graph) (step : ℕ) (state : List (Vertex Operand) × StepMap)
    (c : Vertex Operand) : Except Err (List (Vertex Operand) × StepMap) := do
  let (newRoots, order) := state
  if c.id ∈ order then
    return (← addSuccessorsToNewRoots D od c newRoots, order)
  let pp ← D.predecessors od c
  if pp.length = 0 then
    let order := order.insert c.id step
    return (← addSuccessorsToNewRoots D od c newRoots, order)
  let satisfied := pp.all fun p ↦ p.id ∈ order
  let order := if satisfied then order.insert c.id step else order
  return (← addSuccessorsToNewRoots D od c newRoots, order)

def solveStep (od : D.Graph) (step : ℕ) (currentRoots : List (Vertex Operand)) (order : StepMap) :
    Except Err (List (Vertex Operand) × StepMap) :=
  currentRoots.foldlM (solveRoot D od step) ([], order)

/-- The loop of `solve`, for at most `fuel` rounds; `none` when it is still running then. -/
def solveLoop (od : D.Graph) : (fuel step : ℕ) → List (Vertex Operand) → StepMap →
    Option (Except Err (StepMap × ℕ))
  | _, step, [], order => some (.ok (order, step))
  | 0, _, _ :: _, _ => none
  | fuel + 1, step, c :: rest, order =>
    match solveStep D od step (c :: rest) order with
    | .error err => some (.error err)
    | .ok (newRoots, order) => solveLoop od fuel (step + 1) newRoots order

def solve (od : D.Graph) (fuel : ℕ) : Option (Except Err (StepMap × ℕ)) :=
  solveLoop D od fuel 0 (D.sourceVertices od) ∅

/-- The second half of `Order`: distribute the solved vertices over the steps. -/
def fillOrder (od : D.Graph) (steps : ℕ) (entries : List ((_ : String) × ℕ)) :
    Except Err OperandOrder :=
  entries.foldlM (fun result entry ↦ do
    let v ← D.getVertex od entry.1
    return result.modify entry.2 (· ++ [v.value])) (List.replicate steps [])

/-- `Order`, run for at most `fuel` rounds of `solve`. -/
def order (range : MapRange ((_ : String) × ℕ)) (od : D.Graph) (fuel : ℕ) :
    Option (Except Err OperandOrder) :=
  match solve D od fuel with
  | none => none
  | some (.error err) => some (.error err)
  | some (.ok (soln, steps)) => some (fillOrder D od steps (range.visit soln.entries))

/-- `NewOperandDAG` followed by `Order`. -/
def operandOrder (range : MapRange ((_ : String) × ℕ)) (operands : List Operand) (fuel : ℕ) :
    Option (Except Err OperandOrder) :=
  match newOperandDAG D operands with
  | .error err => some (.error err)
  | .ok od => order D range od fuel

end Model

end OperatorToolkit.Operator
