import OperatorToolkit.Operator.Operand
import OperatorToolkit.Staged.Barrier

/-!
# The operand executor

`ExecuteOperands` walks the steps of an order. Under the serial strategy the operands of a step run
one after another until one fails. Under the parallel strategy each operand gets a goroutine; the
errors and results travel through two buffered channels, and a wait group tells when all goroutines
are done. The execution is a transition system in which a goroutine can pause between any two of
its statements, so that a reachable state stands for a point of some interleaving. Starts and ends
of operand runs are logged; the recorder keeps the events that were handed to it.
-/

namespace OperatorToolkit.Operator

open Interaction Interaction.Program

inductive ExecutionStrategy where
  | parallel
  | serial
  | unknown (value : Int)
  deriving DecidableEq, Repr

structure Executor (Recorder : Type) where
  execStrategy : ExecutionStrategy
  recorder : Recorder

def newExecutor {Recorder : Type} (e : ExecutionStrategy) (r : Recorder) : Executor Recorder :=
  ⟨e, r⟩

variable {Obj Event Err : Type}

/-- One execution of an operand's run call: the calls it made and what it returned. -/
structure OperandRun (Obj Event Err : Type) where
  calls : List (operandCalls Obj Event Err).Call
  outcome : Outcome Event Err

/-- The arguments of one call of `ExecuteOperands`. -/
structure Execution (Obj Event Err : Type) where
  strategy : ExecutionStrategy
  order : OperandOrder
  run : Operand → Program (operandCalls Obj Event Err) (Outcome Event Err)

def Executor.executeOperands {Recorder : Type} (exe : Executor Recorder) (order : OperandOrder)
    (call : OperandRunCall Obj Event Err) (obj : Obj) (ownerRef : OwnerReference) :
    Execution Obj Event Err :=
  ⟨exe.execStrategy, order, fun op ↦ call op obj ownerRef⟩

/-- The operands of the step `order[k]`. -/
def Execution.step (x : Execution Obj Event Err) (k : ℕ) : List Operand := x.order.getD k []

/-- The run can be an execution of the operand's run call. -/
def Execution.Produces (x : Execution Obj Event Err) (op : Operand)
    (r : OperandRun Obj Event Err) : Prop :=
  Runs (x.run op) r.calls r.outcome

/-- How far `operateWithWaitGroup` has got. -/
inductive Goroutine (Obj Event Err : Type) where
  | ready
  | calling
  | returned (r : OperandRun Obj Event Err)
  | errorSent (r : OperandRun Obj Event Err)
  | eventRecorded (r : OperandRun Obj Event Err)
  | finished (r : OperandRun Obj Event Err)
  | exited (r : OperandRun Obj Event Err)

/-- The local state of `concurrentExec`. -/
structure Concurrent (Obj Event Err : Type) where
  goroutines : List (Goroutine Obj Event Err)
  waitGroup : ℕ
  errChan : List Err
  resultChan : List Result

inductive Control (Obj Event Err : Type) where
  /-- At the head of the loop over the steps. -/
  | loop (k : ℕ)
  /-- In `serialExec`, before operand `i`. -/
  | serial (k i : ℕ) (result : Option Result)
  /-- In `serialExec`, while the run call of operand `i` is under way. -/
  | serialCall (k i : ℕ) (result : Option Result)
  | concurrent (k : ℕ) (c : Concurrent Obj Event Err)
  /-- The step has returned `res` and `execErr`. -/
  | stepDone (k : ℕ) (res : Option Result) (execErr : Option Err)
  | returned (result : Result) (err : Option Err)

structure ExecState (Obj Event Err : Type) where
  control : Control Obj Event Err
  log : List (Staged.Event (OperandRun Obj Event Err))
  recorded : List Event

def ExecState.init : ExecState Obj Event Err := ⟨.loop 0, [], []⟩

variable [ErrorValues Err]

/-- The loop over the closed error channel. -/
def collectErrors (errs : List Err) : Option Err :=
  errs.foldl (fun rerr err ↦ newAggregate [rerr, some err]) none

def unknownStrategyText (value : Int) : String := s!"unknown operands execution strategy: {value}"

/-- One atomic step of the main thread or of one goroutine. A goroutine at position `pre.length`
belongs to the operand at that position of the step. -/
inductive ExecStep (x : Execution Obj Event Err) :
    ExecState Obj Event Err → ExecState Obj Event Err → Prop where
  | loopEnd {k log rec} : x.order.length ≤ k →
      ExecStep x ⟨.loop k, log, rec⟩ ⟨.returned {} none, log, rec⟩
  | unknownStrategy {k log rec value} : k < x.order.length → x.strategy = .unknown value →
      ExecStep x ⟨.loop k, log, rec⟩
        ⟨.returned {} (some (errorf (unknownStrategyText value))), log, rec⟩
  | serialEnter {k log rec} : k < x.order.length → x.strategy = .serial →
      ExecStep x ⟨.loop k, log, rec⟩ ⟨.serial k 0 none, log, rec⟩
  | serialStart {k i result log rec} : i < (x.step k).length →
      ExecStep x ⟨.serial k i result, log, rec⟩
        ⟨.serialCall k i result, log ++ [.started k i], rec⟩
  | serialFail {k i result log rec op r err} : (x.step k)[i]? = some op → x.Produces op r →
      r.outcome.err = some err →
      ExecStep x ⟨.serialCall k i result, log, rec⟩
        ⟨.stepDone k result (newAggregate [none, some err]), log ++ [.finished k i r], rec⟩
  | serialNext {k i result log rec op r} : (x.step k)[i]? = some op → x.Produces op r →
      r.outcome.err = none →
      ExecStep x ⟨.serialCall k i result, log, rec⟩
        ⟨.serial k (i + 1) (if r.outcome.event.isSome then some {} else result),
          log ++ [.finished k i r], rec ++ r.outcome.event.toList⟩
  | serialEnd {k i result log rec} : i = (x.step k).length →
      ExecStep x ⟨.serial k i result, log, rec⟩ ⟨.stepDone k result none, log, rec⟩
  | concurrentEnter {k log rec} : k < x.order.length → x.strategy = .parallel →
      ExecStep x ⟨.loop k, log, rec⟩
        ⟨.concurrent k ⟨[], (x.step k).length, [], []⟩, log, rec⟩
  | spawn {k gs wg errs ress log rec} : gs.length < (x.step k).length →
      ExecStep x ⟨.concurrent k ⟨gs, wg, errs, ress⟩, log, rec⟩
        ⟨.concurrent k ⟨gs ++ [.ready], wg, errs, ress⟩, log, rec⟩
  | callStart {k pre post wg errs ress log rec} :
      ExecStep x ⟨.concurrent k ⟨pre ++ .ready :: post, wg, errs, ress⟩, log, rec⟩
        ⟨.concurrent k ⟨pre ++ .calling :: post, wg, errs, ress⟩,
          log ++ [.started k pre.length], rec⟩
  | callReturn {k pre post wg errs ress log rec op r} : (x.step k)[pre.length]? = some op →
      x.Produces op r →
      ExecStep x ⟨.concurrent k ⟨pre ++ .calling :: post, wg, errs, ress⟩, log, rec⟩
        ⟨.concurrent k ⟨pre ++ .returned r :: post, wg, errs, ress⟩,
          log ++ [.finished k pre.length r], rec⟩
  | noError {k pre post wg errs ress log rec r} : r.outcome.err = none →
      ExecStep x ⟨.concurrent k ⟨pre ++ .returned r :: post, wg, errs, ress⟩, log, rec⟩
        ⟨.concurrent k ⟨pre ++ .errorSent r :: post, wg, errs, ress⟩, log, rec⟩
  | sendError {k pre post wg errs ress log rec r err} : r.outcome.err = some err →
      errs.length < (x.step k).length →
      ExecStep x ⟨.concurrent k ⟨pre ++ .returned r :: post, wg, errs, ress⟩, log, rec⟩
        ⟨.concurrent k ⟨pre ++ .errorSent r :: post, wg, errs ++ [err], ress⟩, log, rec⟩
  | noEvent {k pre post wg errs ress log rec r} : r.outcome.event = none →
      ExecStep x ⟨.concurrent k ⟨pre ++ .errorSent r :: post, wg, errs, ress⟩, log, rec⟩
        ⟨.concurrent k ⟨pre ++ .finished r :: post, wg, errs, ress⟩, log, rec⟩
  | record {k pre post wg errs ress log rec r event} : r.outcome.event = some event →
      ExecStep x ⟨.concurrent k ⟨pre ++ .errorSent r :: post, wg, errs, ress⟩, log, rec⟩
        ⟨.concurrent k ⟨pre ++ .eventRecorded r :: post, wg, errs, ress⟩, log, rec ++ [event]⟩
  | sendResult {k pre post wg errs ress log rec r} : ress.length < (x.step k).length →
      ExecStep x ⟨.concurrent k ⟨pre ++ .eventRecorded r :: post, wg, errs, ress⟩, log, rec⟩
        ⟨.concurrent k ⟨pre ++ .finished r :: post, wg, errs, ress ++ [⟨false, 0⟩]⟩, log, rec⟩
  | waitGroupDone {k pre post wg errs ress log rec r} :
      ExecStep x ⟨.concurrent k ⟨pre ++ .finished r :: post, wg, errs, ress⟩, log, rec⟩
        ⟨.concurrent k ⟨pre ++ .exited r :: post, wg - 1, errs, ress⟩, log, rec⟩
  | join {k gs errs ress log rec} : gs.length = (x.step k).length →
      ExecStep x ⟨.concurrent k ⟨gs, 0, errs, ress⟩, log, rec⟩
        ⟨.stepDone k (if 0 < ress.length then some {} else none) (collectErrors errs), log, rec⟩
  | stepFailed {k res err log rec} :
      ExecStep x ⟨.stepDone k res (some err), log, rec⟩
        ⟨.returned { requeue := true } (some err), log, rec⟩
  | stepChanged {k res log rec} : res.isSome → stepRequeueStrategy (x.step k) = .requeueAlways →
      ExecStep x ⟨.stepDone k res none, log, rec⟩ ⟨.returned { requeue := true } none, log, rec⟩
  | stepNext {k res log rec} : ¬ (res.isSome ∧ stepRequeueStrategy (x.step k) = .requeueAlways) →
      ExecStep x ⟨.stepDone k res none, log, rec⟩ ⟨.loop (k + 1), log, rec⟩

/-- The states that an execution can pass through. -/
def Execution.Reaches (x : Execution Obj Event Err) : ExecState Obj Event Err → Prop :=
  Relation.ReflTransGen (ExecStep x) .init

end OperatorToolkit.Operator
