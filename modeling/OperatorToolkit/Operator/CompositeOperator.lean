import OperatorToolkit.Operator.DagOrder
import OperatorToolkit.Operator.Executor

/-!
# The composite operator

`newCompositeOperator` applies the options to the default settings, enters the operands into a DAG
and computes their order; `ensure` and `cleanup` hand that order, or its reversal, to the executor.
The package rejects what the graph package rejects: unknown names and edges that are stated twice.
Neither a cycle nor a repeated name is looked for, and the last part of this module says exactly
for which operands the constructor still does what it documents.
-/

namespace OperatorToolkit.Operator

open Interaction Layering

/-- The settings that options write to; a recorder that was not given is `none`. -/
structure CompositeOperatorConfig (Ctx Obj Recorder : Type) where
  operands : List Operand
  isSuspended : Ctx → Obj → Bool
  executionStrategy : ExecutionStrategy
  recorder : Option Recorder
  /-- In nanoseconds. -/
  retryPeriod : Int

/-- Wait five seconds before a retry. -/
def defaultRetryPeriod : Int := 5 * 1000000000

def defaultIsSuspended {Ctx Obj : Type} (_ : Ctx) (_ : Obj) : Bool := false

section Options

variable {Ctx Obj Recorder : Type}

abbrev CompositeOperatorOption (Ctx Obj Recorder : Type) :=
  CompositeOperatorConfig Ctx Obj Recorder → CompositeOperatorConfig Ctx Obj Recorder

def withExecutionStrategy (strategy : ExecutionStrategy) :
    CompositeOperatorOption Ctx Obj Recorder := fun c ↦ { c with executionStrategy := strategy }

def withOperands (operands : List Operand) : CompositeOperatorOption Ctx Obj Recorder :=
  fun c ↦ { c with operands := operands }

def withSuspensionCheck (f : Ctx → Obj → Bool) : CompositeOperatorOption Ctx Obj Recorder :=
  fun c ↦ { c with isSuspended := f }

def withEventRecorder (recorder : Recorder) : CompositeOperatorOption Ctx Obj Recorder :=
  fun c ↦ { c with recorder := some recorder }

def withRetryPeriod (duration : Int) : CompositeOperatorOption Ctx Obj Recorder :=
  fun c ↦ { c with retryPeriod := duration }

def CompositeOperatorConfig.default : CompositeOperatorConfig Ctx Obj Recorder where
  operands := []
  isSuspended := defaultIsSuspended
  executionStrategy := .parallel
  recorder := none
  retryPeriod := defaultRetryPeriod

/-- The settings after the loop over the options. -/
def configure (opts : List (CompositeOperatorOption Ctx Obj Recorder)) :
    CompositeOperatorConfig Ctx Obj Recorder :=
  opts.foldl (fun c opt ↦ opt c) .default

end Options

/-- An operator that has been built: its order and executor are set. -/
structure CompositeOperator (Ctx Obj Recorder : Type) {Err : Type} (D : DagLib Err Operand) where
  operands : List Operand
  dag : D.Graph
  isSuspended : Ctx → Obj → Bool
  order : OperandOrder
  executor : Executor Recorder
  retryPeriod : Int

variable {Ctx Obj Recorder Event Err : Type}

/-- `NewCompositeOperator`, run for at most `fuel` rounds of `solve`. -/
def newCompositeOperator [ErrorValues Err] (D : DagLib Err Operand)
    (range : MapRange ((_ : String) × ℕ)) (opts : List (CompositeOperatorOption Ctx Obj Recorder))
    (fuel : ℕ) : Option (Except Err (CompositeOperator Ctx Obj Recorder D)) :=
  let c := configure opts
  match c.recorder with
  | none => some (.error (errorf "EventRecorder must be provided to the CompositeOperator"))
  | some recorder =>
    match newOperandDAG D c.operands with
    | .error err => some (.error err)
    | .ok od =>
      match order D range od fuel with
      | none => none
      | some (.error err) => some (.error err)
      | some (.ok order) => some (.ok
          { operands := c.operands, dag := od, isSuspended := c.isSuspended, order := order,
            executor := newExecutor c.executionStrategy recorder, retryPeriod := c.retryPeriod })

/-! ## Ensure and Cleanup -/

namespace CompositeOperator

variable {D : DagLib Err Operand} (co : CompositeOperator Ctx Obj Recorder D)

def ensureExecution [OperandErrors Err] (obj : Obj) (ownerRef : OwnerReference) :
    Execution Obj Event Err :=
  co.executor.executeOperands co.order callEnsure obj ownerRef

/-- What `Ensure` makes of the executor's answer: a not-ready error becomes a delayed requeue. -/
def ensureResult [OperandErrors Err] (res : Result) (execErr : Option Err) :
    Result × Option Err :=
  match execErr with
  | none => (res, none)
  | some err =>
    if NotReady err then ({ requeue := true, requeueAfter := co.retryPeriod }, none)
    else ({ requeue := true }, some err)

/-- `Ensure` can return this result and error after this log of operand runs. -/
inductive EnsureReturns [OperandErrors Err] (ctx : Ctx) (obj : Obj) (ownerRef : OwnerReference) :
    List (Staged.Event (OperandRun Obj Event Err)) → Result × Option Err → Prop where
  | suspended : co.isSuspended ctx obj = true → EnsureReturns ctx obj ownerRef [] ({}, none)
  | executed {res execErr log rec} : co.isSuspended ctx obj = false →
      (co.ensureExecution obj ownerRef).Reaches ⟨.returned res execErr, log, rec⟩ →
      EnsureReturns ctx obj ownerRef log (co.ensureResult res execErr)

def cleanupExecution (obj : Obj) : Execution Obj Event Err :=
  co.executor.executeOperands (OperandOrder.reverse co.order) callCleanup obj {}

/-- The states that a call of `Cleanup` can pass through. -/
inductive CleanupReaches [ErrorValues Err] (ctx : Ctx) (obj : Obj) :
    ExecState Obj Event Err → Prop where
  | suspended : co.isSuspended ctx obj = true → CleanupReaches ctx obj ⟨.returned {} none, [], []⟩
  | executing {s} : co.isSuspended ctx obj = false → (co.cleanupExecution obj).Reaches s →
      CleanupReaches ctx obj s

end CompositeOperator

/-! ## Which operands are accepted -/

section Constructor

variable [ErrorValues Err] {D : DagLib Err Operand} {range : MapRange ((_ : String) × ℕ)}
  {opts : List (CompositeOperatorOption Ctx Obj Recorder)}

/-- The constructor returns, with an operator or with an error. -/
def Terminates (D : DagLib Err Operand) (range : MapRange ((_ : String) × ℕ))
    (opts : List (CompositeOperatorOption Ctx Obj Recorder)) : Prop :=
  ∃ fuel, (newCompositeOperator D range opts fuel).isSome

/-- The constructor returns an operator. -/
def Succeeds (D : DagLib Err Operand) (range : MapRange ((_ : String) × ℕ))
    (opts : List (CompositeOperatorOption Ctx Obj Recorder)) : Prop :=
  ∃ fuel co, newCompositeOperator D range opts fuel = some (.ok co)

/-- With a recorder, the constructor returns what `operandOrder` returns for the operands. -/
theorem map_order_newCompositeOperator (hrecorder : (configure opts).recorder.isSome) (fuel : ℕ) :
    (newCompositeOperator D range opts fuel).map (Except.map CompositeOperator.order) =
      operandOrder D range (configure opts).operands fuel := by
  obtain ⟨recorder, hrec⟩ := Option.isSome_iff_exists.mp hrecorder
  unfold newCompositeOperator operandOrder
  simp only [hrec]
  cases newOperandDAG D (configure opts).operands with
  | error err => rfl
  | ok od =>
    dsimp only
    cases Operator.order D range od fuel with
    | none => rfl
    | some result => cases result <;> rfl

theorem terminates_iff (hrecorder : (configure opts).recorder.isSome) :
    Terminates D range opts ↔
      ∃ fuel, (operandOrder D range (configure opts).operands fuel).isSome := by
  simp only [Terminates, ← map_order_newCompositeOperator hrecorder, Option.isSome_map]

theorem succeeds_iff (hrecorder : (configure opts).recorder.isSome) :
    Succeeds D range opts ↔
      ∃ fuel order, operandOrder D range (configure opts).operands fuel = some (.ok order) := by
  simp only [Succeeds, ← map_order_newCompositeOperator hrecorder, Option.map_eq_some_iff]
  refine exists_congr fun fuel ↦ ⟨?_, ?_⟩
  · rintro ⟨co, hco⟩
    exact ⟨co.order, _, hco, rfl⟩
  · rintro ⟨order, _ | co, hco, hmap⟩
    · cases hmap
    · exact ⟨co, hco⟩

/-- A built operator has the settings of the options, and its order is the computed one. -/
theorem newCompositeOperator_eq_ok {fuel : ℕ} {co : CompositeOperator Ctx Obj Recorder D}
    (h : newCompositeOperator D range opts fuel = some (.ok co)) :
    operandOrder D range (configure opts).operands fuel = some (.ok co.order) ∧
      co.operands = (configure opts).operands ∧ co.isSuspended = (configure opts).isSuspended ∧
      co.executor.execStrategy = (configure opts).executionStrategy ∧
      co.retryPeriod = (configure opts).retryPeriod := by
  unfold newCompositeOperator at h
  unfold operandOrder
  cases hrec : (configure opts).recorder with
  | none => simp [hrec] at h
  | some recorder =>
    simp only [hrec] at h
    cases hnew : newOperandDAG D (configure opts).operands with
    | error err => simp [hnew] at h
    | ok od =>
      simp only [hnew] at h ⊢
      cases horder : Operator.order D range od fuel with
      | none => simp [horder] at h
      | some result =>
        cases result with
        | error err => simp [horder] at h
        | ok order =>
          simp only [horder, Option.some.injEq, Except.ok.injEq] at h
          subst h
          exact ⟨rfl, rfl, rfl, rfl, rfl⟩

/-- **Accepted operands.** The constructor terminates, and succeeds exactly on proper DAGs, when and
only when the operands are a proper DAG or are rejected by the graph package: they require an
unknown name or state one requirement twice. -/
theorem newCompositeOperator_exact_iff (D : DagLib Err Operand)
    (range : MapRange ((_ : String) × ℕ)) (opts : List (CompositeOperatorOption Ctx Obj Recorder))
    (hrecorder : (configure opts).recorder.isSome) :
    (Terminates D range opts ∧ (Succeeds D range opts ↔ ProperDAG (configure opts).operands)) ↔
      ¬ Accepted (configure opts).operands ∨ ProperDAG (configure opts).operands := by
  rw [terminates_iff hrecorder, succeeds_iff hrecorder]
  generalize (configure opts).operands = operands
  rcases newOperandDAG_cases D operands with
    ⟨od, hnew, hverts, hedges, haccepted⟩ | ⟨⟨err, hnew⟩, hrejected⟩
  · have hwf := wellFormed_of_accepted hverts hedges haccepted
    constructor
    · rintro ⟨⟨fuel, hsome⟩, hsucceeds⟩
      -- Once the DAG is built, whatever `Order` returns is an order.
      refine .inr (hsucceeds.mp ⟨fuel, ?_⟩)
      obtain ⟨result, hresult⟩ := Option.isSome_iff_exists.mp hsome
      cases result with
      | ok order => exact ⟨order, hresult⟩
      | error err =>
        simp only [operandOrder, hnew] at hresult
        exact absurd hresult (order_ne_error hwf range fuel err)
    · rintro (hrejected | hproper)
      · exact absurd haccepted hrejected
      · rcases operandOrder_cases D range hproper (requirementGraph operands hproper).height with
          ⟨-, order, hrun, -⟩ | ⟨hlt, -⟩
        · exact ⟨⟨_, by rw [hrun]; rfl⟩, fun _ ↦ hproper, fun _ ↦ ⟨_, order, hrun⟩⟩
        · exact absurd hlt (lt_irrefl _)
  · refine iff_of_true ⟨⟨0, by simp [operandOrder, hnew]⟩, ?_, ?_⟩ (.inl hrejected)
    · rintro ⟨fuel, order, hrun⟩
      simp [operandOrder, hnew] at hrun
    · intro hproper
      exact absurd hproper.accepted hrejected

end Constructor

theorem newCompositeOperator_exact_triangle :
    Terminates (orderedDag GoError Operand) (.stored _)
        [withEventRecorder (), withOperands triangle, withSuspensionCheck fun _ _ : Unit ↦ false] ∧
      (Succeeds (orderedDag GoError Operand) (.stored _)
          [withEventRecorder (), withOperands triangle,
            withSuspensionCheck fun _ _ : Unit ↦ false] ↔
        ProperDAG triangle) :=
  (newCompositeOperator_exact_iff _ _ _ rfl).mpr (.inr properDAG_triangle)

/-- An operand that requires itself has no source above it: it is accepted and left out. -/
theorem newCompositeOperator_selfRequiring :
    (∃ co, newCompositeOperator (orderedDag GoError Operand) (.stored _)
        [withEventRecorder (), withOperands [⟨"A", ["A"], .requeueOnError⟩],
          withSuspensionCheck fun _ _ : Unit ↦ false] 0 = some (.ok co) ∧ co.order = []) ∧
      ¬ ProperDAG [⟨"A", ["A"], .requeueOnError⟩] := by
  refine ⟨⟨_, rfl, rfl⟩, fun hproper ↦ ?_⟩
  have hself : RequiredBy [⟨"A", ["A"], .requeueOnError⟩] "A" "A" := by
    simp [RequiredBy, requirementPairs]
  exact hproper.acyclic "A" (.single hself)

end OperatorToolkit.Operator
