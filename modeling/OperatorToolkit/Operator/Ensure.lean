import OperatorToolkit.Operator.CompositeOperator
import OperatorToolkit.Operator.ExecutorBarrier

/-!
# Errors of Ensure

`Ensure` turns a not-ready error into a delayed requeue and reports every other error. The errors
of a step that ran in parallel arrive as one aggregate, and an aggregate is not ready as soon as
one of its members is. The swallowed error is therefore told apart from the reported one by a
single condition on the step that failed: that no operand in it was not ready while another one
failed for a different reason.
-/

namespace OperatorToolkit.Operator

open Interaction Program Staged

variable {Ctx Obj Recorder Event Err : Type}

/-- The error that an operand method returned. -/
def callError : (operandCalls Obj Event Err).Call → Option Err
  | ⟨.ensure _ _ _, outcome⟩ => Outcome.err outcome
  | ⟨.delete _ _, outcome⟩ => Outcome.err outcome
  | ⟨.readyCheck _ _, reply⟩ => Prod.snd reply
  | ⟨.postReady _ _, err⟩ => err

/-- An error that came up in a run: an operand method returned it, or its run call did. -/
def OperandError (log : List (Staged.Event (OperandRun Obj Event Err))) (e : Err) : Prop :=
  ∃ k i r, .finished k i r ∈ log ∧
    (r.outcome.err = some e ∨ ∃ call ∈ r.calls, callError call = some e)

/-- A step in which one operand was not ready while another one failed for a different reason. -/
def MixedStep [OperandErrors Err] (log : List (Staged.Event (OperandRun Obj Event Err))) : Prop :=
  ∃ k i j r r' e e', .finished k i r ∈ log ∧ .finished k j r' ∈ log ∧
    r.outcome.err = some e ∧ r'.outcome.err = some e' ∧ NotReady e ∧ ¬ NotReady e'

section Errors

variable [OperandErrors Err]

/-- The five ways in which `CallEnsure` can run. -/
inductive EnsureRun (op : Operand) (obj : Obj) (ownerRef : OwnerReference) :
    List (operandCalls Obj Event Err).Call → Outcome Event Err → Prop where
  | ensureFailed {event err} :
      EnsureRun op obj ownerRef [⟨.ensure op obj ownerRef, Outcome.mk event (some err)⟩]
        ⟨none, some err⟩
  | readyCheckFailed {event ready err} :
      EnsureRun op obj ownerRef [⟨.ensure op obj ownerRef, Outcome.mk event none⟩,
        ⟨.readyCheck op obj, (ready, some err)⟩] ⟨none, some err⟩
  | notReady {event} :
      EnsureRun op obj ownerRef [⟨.ensure op obj ownerRef, Outcome.mk event none⟩,
        ⟨.readyCheck op obj, (false, none)⟩] ⟨none, some (wrap (notReadyText op) errNotReady)⟩
  | postReadyFailed {event err} :
      EnsureRun op obj ownerRef [⟨.ensure op obj ownerRef, Outcome.mk event none⟩,
        ⟨.readyCheck op obj, (true, none)⟩, ⟨.postReady op obj, some err⟩] ⟨none, some err⟩
  | ready {event} :
      EnsureRun op obj ownerRef [⟨.ensure op obj ownerRef, Outcome.mk event none⟩,
        ⟨.readyCheck op obj, (true, none)⟩, ⟨.postReady op obj, none⟩] ⟨event, none⟩

theorem callEnsure_cases {op : Operand} {obj : Obj} {ownerRef : OwnerReference}
    {calls : List (operandCalls Obj Event Err).Call} {outcome : Outcome Event Err}
    (h : Runs (callEnsure op obj ownerRef) calls outcome) :
    EnsureRun op obj ownerRef calls outcome := by
  simp only [callEnsure, runs_ensure_iff] at h
  obtain ⟨⟨event, ensureErr⟩, rest, rfl, h⟩ := h
  cases ensureErr with
  | some err =>
    simp only [Option.isSome_some, if_true, pure_eq, runs_done_iff] at h
    obtain ⟨rfl, rfl⟩ := h
    exact .ensureFailed
  | none =>
    simp only [Option.isSome_none, Bool.false_eq_true, if_false, runs_readyCheck_iff] at h
    obtain ⟨⟨ready, readyErr⟩, rest, rfl, h⟩ := h
    cases readyErr with
    | some err =>
      simp only [Option.isSome_some, if_true, pure_eq, runs_done_iff] at h
      obtain ⟨rfl, rfl⟩ := h
      exact .readyCheckFailed
    | none =>
      simp only [Option.isSome_none, Bool.false_eq_true, if_false] at h
      cases ready with
      | false =>
        simp only [Bool.not_false, if_true, pure_eq, runs_done_iff] at h
        obtain ⟨rfl, rfl⟩ := h
        exact .notReady
      | true =>
        simp only [Bool.not_true, Bool.false_eq_true, if_false, runs_postReady_iff] at h
        obtain ⟨postErr, rest, rfl, h⟩ := h
        cases postErr with
        | some err =>
          simp only [Option.isSome_some, if_true, pure_eq, runs_done_iff] at h
          obtain ⟨rfl, rfl⟩ := h
          exact .postReadyFailed
        | none =>
          simp only [Option.isSome_none, Bool.false_eq_true, if_false, pure_eq, runs_done_iff] at h
          obtain ⟨rfl, rfl⟩ := h
          exact .ready

theorem EnsureRun.runs {op : Operand} {obj : Obj} {ownerRef : OwnerReference}
    {calls : List (operandCalls Obj Event Err).Call} {outcome : Outcome Event Err}
    (h : EnsureRun op obj ownerRef calls outcome) :
    Runs (callEnsure op obj ownerRef) calls outcome := by
  cases h with
  | ensureFailed => exact .call (.done _)
  | readyCheckFailed | notReady => exact .call (.call (.done _))
  | postReadyFailed | ready => exact .call (.call (.call (.done _)))

/-- `CallEnsure` returns the error of the method that failed. -/
theorem callEnsure_error {op : Operand} {obj : Obj} {ownerRef : OwnerReference}
    {calls : List (operandCalls Obj Event Err).Call} {outcome : Outcome Event Err}
    (h : Runs (callEnsure op obj ownerRef) calls outcome) {call} (hcall : call ∈ calls) {e : Err}
    (he : callError call = some e) : outcome.err = some e := by
  cases callEnsure_cases h <;>
    simp only [List.mem_cons, List.not_mem_nil, or_false] at hcall <;>
    rcases hcall with rfl | rfl | rfl <;> simp_all [callError]

variable {D : DagLib Err Operand} {co : CompositeOperator Ctx Obj Recorder D} {ctx : Ctx}
  {obj : Obj}
  {ownerRef : OwnerReference} {log : List (Staged.Event (OperandRun Obj Event Err))}

theorem CompositeOperator.EnsureReturns.of_active {out : Result × Option Err}
    (h : co.EnsureReturns ctx obj ownerRef log out) (hactive : co.isSuspended ctx obj = false) :
    ∃ res execErr rec, (co.ensureExecution obj ownerRef).Reaches ⟨.returned res execErr, log, rec⟩ ∧
      out = co.ensureResult res execErr := by
  cases h with
  | suspended hsuspended => simp [hactive] at hsuspended
  | executed _ hreach => exact ⟨_, _, _, hreach, rfl⟩

theorem CompositeOperator.ensureResult_err_eq_none_iff {res : Result} {execErr : Option Err} :
    (co.ensureResult res execErr).2 = none ↔ ∀ err, execErr = some err → NotReady err := by
  cases execErr with
  | none => simp [CompositeOperator.ensureResult]
  | some err =>
    by_cases hready : NotReady err <;> simp [CompositeOperator.ensureResult, hready]

/-- The errors that came up are those that the run calls returned. -/
theorem operandError_iff {s : ExecState Obj Event Err}
    (hreach : (co.ensureExecution obj ownerRef).Reaches s) {e : Err} :
    OperandError s.log e ↔ ∃ k i r, .finished k i r ∈ s.log ∧ r.outcome.err = some e := by
  constructor
  · rintro ⟨k, i, r, hr, he | ⟨call, hcall, he⟩⟩
    · exact ⟨k, i, r, hr, he⟩
    · obtain ⟨op, -, hproduces⟩ := hreach.produces hr
      exact ⟨k, i, r, hr, callEnsure_error hproduces hcall he⟩
  · rintro ⟨k, i, r, hr, he⟩
    exact ⟨k, i, r, hr, .inl he⟩

/-- **Reported errors.** A call of `Ensure` returns a nil error exactly when all operand errors of
the call are not-ready errors, if and only if no step has mixed them with other errors. -/
theorem ensure_reports_iff {out : Result × Option Err}
    (hstrategy : co.executor.execStrategy = .serial ∨ co.executor.execStrategy = .parallel)
    (hactive : co.isSuspended ctx obj = false) (h : co.EnsureReturns ctx obj ownerRef log out) :
    (out.2 = none ↔ ∀ e, OperandError log e → NotReady e) ↔ ¬ MixedStep log := by
  obtain ⟨res, execErr, rec, hreach, rfl⟩ := h.of_active hactive
  have hknown : ∀ value, co.executor.execStrategy ≠ .unknown value := by
    rcases hstrategy with hs | hs <;> simp [hs]
  simp only [CompositeOperator.ensureResult_err_eq_none_iff, operandError_iff hreach]
  cases execErr with
  | none =>
    have hnone : ∀ k i r, .finished k i r ∈ log → r.outcome.err = none := fun k i r hr ↦
      err_eq_none_of_returned hreach rfl hr
    refine iff_of_true (iff_of_true (by simp) ?_) ?_
    · rintro e ⟨k, i, r, hr, he⟩
      simp [hnone k i r hr] at he
    · rintro ⟨k, i, j, r, r', e, e', hr, -, he, -⟩
      simp [hnone k i r hr] at he
  | some err =>
    obtain ⟨k, hfailed⟩ := failedAt_of_returned hknown hreach rfl
    have hready : (∀ err', some err = some err' → NotReady err') ↔
        ∃ i r e, .finished k i r ∈ log ∧ r.outcome.err = some e ∧ NotReady e := by
      simpa [NotReady] using hfailed.is_iff errNotReady
    rw [hready]
    constructor
    · rintro hiff ⟨k', i, j, r, r', e, e', hr, hr', he, he', hnotReady, hother⟩
      obtain rfl := hfailed.only k' i r hr (by simp [he])
      exact hother (hiff.mp ⟨i, r, e, hr, he, hnotReady⟩ e' ⟨k', j, r', hr', he'⟩)
    · intro hmixed
      constructor
      · rintro ⟨i, r, e, hr, he, hnotReady⟩ e' ⟨k', j, r', hr', he'⟩
        obtain rfl := hfailed.only k' j r' hr' (by simp [he'])
        by_contra hother
        exact hmixed ⟨k', i, j, r, r', e, e', hr, hr', he, he', hnotReady, hother⟩
      · intro hall
        obtain ⟨i, r, e, hr, he⟩ := hfailed.exists_error
        exact ⟨i, r, e, hr, he, hall e ⟨k, i, r, hr, he⟩⟩

theorem notReady_wrap (text : String) : NotReady (wrap text (errNotReady : Err)) :=
  ErrorValues.is_wrap _ _ _ OperandErrors.is_errNotReady

/-- A parallel operator with one step in which some operand is not ready. -/
theorem ensureReturns_one_step {ops : List Operand} (horder : co.order = [ops])
    (hparallel : co.executor.execStrategy = .parallel) (hactive : co.isSuspended ctx obj = false)
    {runs : List (OperandRun Obj Event Err)}
    (hruns : List.Forall₂ (fun op r ↦ EnsureRun op obj ownerRef r.calls r.outcome) ops runs)
    (hready : ∃ r ∈ runs, ∃ e, r.outcome.err = some e ∧ NotReady e) :
    co.EnsureReturns ctx obj ownerRef (runEvents 0 0 runs)
      ({ requeue := true, requeueAfter := co.retryPeriod }, none) := by
  have hstep : (co.ensureExecution obj ownerRef : Execution Obj Event Err).step 0 = ops := by
    simp [CompositeOperator.ensureExecution, Executor.executeOperands, Execution.step, horder]
  have hlength : 0 < (co.ensureExecution obj ownerRef : Execution Obj Event Err).order.length := by
    simp [CompositeOperator.ensureExecution, Executor.executeOperands, horder]
  have hproduces : List.Forall₂ (co.ensureExecution obj ownerRef).Produces
      ((co.ensureExecution obj ownerRef : Execution Obj Event Err).step 0) runs := by
    rw [hstep]
    exact hruns.imp fun _ _ hr ↦ hr.runs
  obtain ⟨r, hr, e, he, hnotReady⟩ := hready
  have hmem : e ∈ runs.filterMap (·.outcome.err) := List.mem_filterMap.mpr ⟨r, hr, he⟩
  obtain ⟨err, herr⟩ : ∃ err, collectErrors (runs.filterMap (·.outcome.err)) = some err :=
    Option.ne_none_iff_exists'.mp fun hnone ↦
      List.ne_nil_of_mem hmem (collectErrors_eq_none_iff.mp hnone)
  have hresult : co.ensureResult { requeue := true } (some err) =
      ({ requeue := true, requeueAfter := co.retryPeriod }, none) :=
    if_pos ((is_collectErrors_iff herr).mpr ⟨e, hmem, hnotReady⟩)
  have hdone := parallel_step hparallel hlength hproduces [] []
  rw [herr] at hdone
  exact hresult ▸ .executed hactive (hdone.tail .stepFailed)

end Errors

/-- Two operands that do not depend on each other. -/
def independentPair : List (CompositeOperatorOption Unit Unit Unit) :=
  [withEventRecorder (), withOperands [⟨"A", [], .requeueOnError⟩, ⟨"B", [], .requeueOnError⟩]]

theorem exists_independentPair_operator :
    ∃ co : CompositeOperator Unit Unit Unit (orderedDag GoError Operand),
      newCompositeOperator _ (.stored _) independentPair 1 = some (.ok co) ∧
      co.order = [[⟨"B", [], .requeueOnError⟩, ⟨"A", [], .requeueOnError⟩]] ∧
      co.executor.execStrategy = .parallel ∧ co.isSuspended () () = false :=
  ⟨_, rfl, rfl, rfl, rfl⟩

def notReadyRun (op : Operand) : OperandRun Unit String GoError :=
  ⟨[⟨.ensure op () {}, Outcome.mk none none⟩, ⟨.readyCheck op (), (false, none)⟩],
    ⟨none, some (wrap (notReadyText op) errNotReady)⟩⟩

def ensureFailedRun (op : Operand) (err : GoError) : OperandRun Unit String GoError :=
  ⟨[⟨.ensure op () {}, Outcome.mk none (some err)⟩], ⟨none, some err⟩⟩

/-- Both operands are not ready, and the error of `Ensure` is nil. -/
theorem ensure_reports_notReady :
    ∃ (co : CompositeOperator Unit Unit Unit (orderedDag GoError Operand))
      (log : List (Staged.Event (OperandRun Unit String GoError))) (result : Result),
      newCompositeOperator _ (.stored _) independentPair 1 = some (.ok co) ∧
      co.EnsureReturns () () {} log (result, none) ∧ ∀ e, OperandError log e → NotReady e := by
  obtain ⟨co, hnew, horder, hparallel, hactive⟩ := exists_independentPair_operator
  have hreturns := @ensureReturns_one_step _ _ _ _ _ _ _ co () () {} _ horder hparallel hactive
    [notReadyRun ⟨"B", [], .requeueOnError⟩, notReadyRun ⟨"A", [], .requeueOnError⟩]
    (.cons .notReady (.cons .notReady .nil))
    ⟨_, List.mem_cons_self, _, rfl, notReady_wrap _⟩
  refine ⟨co, _, _, hnew, hreturns,
    ((ensure_reports_iff (.inr hparallel) hactive hreturns).mpr ?_).mp rfl⟩
  rintro ⟨k, i, j, r, r', e, e', -, hr', -, he', -, hother⟩
  simp only [runEvents, List.mem_cons, reduceCtorEq, Staged.Event.finished.injEq, false_or,
    List.not_mem_nil, or_false] at hr'
  rcases hr' with ⟨-, -, rfl⟩ | ⟨-, -, rfl⟩
  · cases he'
    exact hother (notReady_wrap _)
  · cases he'
    exact hother (notReady_wrap _)

/-- One operand is not ready, the other one fails, and the error of `Ensure` is nil. -/
theorem ensure_swallows_error :
    ∃ (co : CompositeOperator Unit Unit Unit (orderedDag GoError Operand))
      (log : List (Staged.Event (OperandRun Unit String GoError))) (result : Result),
      newCompositeOperator _ (.stored _) independentPair 1 = some (.ok co) ∧
      co.isSuspended () () = false ∧ co.EnsureReturns () () {} log (result, none) ∧
      OperandError log ⟨["disk full"]⟩ ∧ ¬ NotReady (⟨["disk full"]⟩ : GoError) := by
  obtain ⟨co, hnew, horder, hparallel, hactive⟩ := exists_independentPair_operator
  have hreturns := @ensureReturns_one_step _ _ _ _ _ _ _ co () () {} _ horder hparallel hactive
    [notReadyRun ⟨"B", [], .requeueOnError⟩,
      ensureFailedRun ⟨"A", [], .requeueOnError⟩ ⟨["disk full"]⟩]
    (.cons .notReady (.cons .ensureFailed .nil)) ⟨_, List.mem_cons_self, _, rfl, notReady_wrap _⟩
  refine ⟨co, _, _, hnew, hactive, hreturns,
    ⟨0, 1, ensureFailedRun ⟨"A", [], .requeueOnError⟩ ⟨["disk full"]⟩, ?_, .inl rfl⟩, by decide⟩
  simp [runEvents]

end OperatorToolkit.Operator
