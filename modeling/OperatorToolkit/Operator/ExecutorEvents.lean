import OperatorToolkit.Operator.ConcurrentExec
import OperatorToolkit.Operator.Strategies

/-!
# The end of an execution

Every execution returns, whatever the operands do and however the goroutines interleave, and the
recorder has then been handed each event of an operand exactly once. The serial strategy makes one
exception: it does not look at the event of an operand that has failed. As long as nothing has
failed, the recorder has been handed what was logged and is not pending; what is added here is what
happens in the step that fails.
-/

namespace OperatorToolkit.Operator

open Relation

variable {Obj Event Err : Type}

/-- The event that is recorded for an entry of the log. -/
def recordedEvent (strategy : ExecutionStrategy) :
    Staged.Event (OperandRun Obj Event Err) → Option Event
  | .started _ _ => none
  | .finished _ _ r =>
    if strategy = .serial ∧ r.outcome.err.isSome then none else r.outcome.event

/-- The strategy whose code is being executed. -/
def Control.strategy? : Control Obj Event Err → Option ExecutionStrategy
  | .serial _ _ _ | .serialCall _ _ _ => some .serial
  | .concurrent _ _ => some .parallel
  | .loop _ | .stepDone _ _ _ | .returned _ _ => none

/-- The step has not failed, and the execution has not returned. -/
def Control.InOrder : Control Obj Event Err → Prop
  | .stepDone _ _ (some _) | .returned _ _ => False
  | .stepDone _ _ none | .loop _ | .serial _ _ _ | .serialCall _ _ _ | .concurrent _ _ => True

/-- The code of a strategy is executed only under it, and the serial strategy goes on only as long
as no run has failed. -/
structure Steady (x : Execution Obj Event Err) (s : ExecState Obj Event Err) : Prop where
  strategy : ∀ strategy, s.control.strategy? = some strategy → x.strategy = strategy
  clean : x.strategy = .serial → s.control.InOrder →
    ∀ k i r, .finished k i r ∈ s.log → r.outcome.err = none

variable {x : Execution Obj Event Err} {s s' : ExecState Obj Event Err}

section Steps

variable [ErrorValues Err]

theorem Steady.step (h : Steady x s) (hstep : ExecStep x s s') : Steady x s' := by
  -- In the code of the parallel strategy there is nothing to show about the serial one.
  have hparallel (hs : s.control.strategy? = some .parallel) (hserial : x.strategy = .serial) :
      False := by
    have hstrategy := h.strategy .parallel hs
    rw [hserial] at hstrategy
    cases hstrategy
  cases hstep with
  | loopEnd | unknownStrategy | stepFailed | stepChanged => exact ⟨nofun, fun _ ↦ False.elim⟩
  | serialEnter _ hstrategy | concurrentEnter _ hstrategy =>
    refine ⟨fun strategy heq ↦ ?_, h.clean⟩
    cases heq
    exact hstrategy
  | serialStart =>
    refine ⟨h.strategy, fun hserial hgoes k i r hr ↦ h.clean hserial hgoes k i r ?_⟩
    simpa using hr
  | @serialFail _ _ _ _ _ _ _ err =>
    obtain ⟨agg, hagg⟩ := newAggregate_isSome err [none, some err] (by simp)
    rw [hagg]
    exact ⟨nofun, fun _ ↦ False.elim⟩
  | serialNext _ _ herr =>
    refine ⟨h.strategy, fun hserial hgoes k i r hr ↦ ?_⟩
    rcases List.mem_append.mp hr with hold | hnew
    · exact h.clean hserial trivial k i r hold
    · cases List.mem_singleton.mp hnew
      exact herr
  | serialEnd => exact ⟨nofun, h.clean⟩
  | stepNext => exact ⟨nofun, h.clean⟩
  | join => exact ⟨nofun, fun hserial ↦ (hparallel rfl hserial).elim⟩
  | spawn | callStart | callReturn | noError | sendError | noEvent | record | sendResult
  | waitGroupDone => exact ⟨h.strategy, fun hserial ↦ (hparallel rfl hserial).elim⟩

theorem Execution.Reaches.steady (h : x.Reaches s) : Steady x s := by
  induction h with
  | refl => exact ⟨nofun, nofun⟩
  | tail _ hstep ih => exact ih.step hstep

omit [ErrorValues Err] in
/-- Events that all count: no run has failed, or the strategy does not mind. -/
theorem loggedEvents_eq_filterMap {strategy : ExecutionStrategy}
    {log : List (Staged.Event (OperandRun Obj Event Err))}
    (h : strategy = .serial → ∀ k i r, .finished k i r ∈ log → r.outcome.err = none) :
    loggedEvents log = (log.filterMap (recordedEvent strategy) : Multiset Event) := by
  unfold loggedEvents
  congr 1
  refine List.filterMap_congr fun event hevent ↦ ?_
  cases event with
  | started => rfl
  | finished k i r =>
    rw [loggedEvent, recordedEvent, if_neg]
    intro hfailed
    rw [h hfailed.1 k i r hevent] at hfailed
    exact absurd hfailed.2 (by simp)

/-- As long as the execution goes on, what has been logged has been recorded or is pending. -/
theorem Execution.Reaches.recorded_add_pending (h : x.Reaches s) (hgoes : s.control.InOrder) :
    (s.recorded : Multiset Event) + s.control.pending =
      (s.log.filterMap (recordedEvent x.strategy) : Multiset Event) := by
  have hall := loggedEvents_eq_filterMap fun hserial ↦ h.steady.clean hserial hgoes
  have hrecorded := h.recorded
  obtain ⟨control, log, rec⟩ := s
  unfold Recorded at hrecorded
  rw [← hall]
  cases control with
  | stepDone k res err =>
    cases err with
    | none => exact hrecorded
    | some err => exact hgoes.elim
  | returned => exact hgoes.elim
  | loop | serial | serialCall | concurrent => exact hrecorded

/-- At the end of a step, also of one that has failed, nothing is pending. -/
theorem ExecStep.recorded_stepDone (hstep : ExecStep x s s') (h : x.Reaches s) {k : ℕ}
    {res : Option Result} {err : Option Err} (hs : s'.control = .stepDone k res err) :
    (s'.recorded : Multiset Event) =
      (s'.log.filterMap (recordedEvent x.strategy) : Multiset Event) := by
  cases hstep with
  | serialEnd => simpa [Control.pending] using h.recorded_add_pending trivial
  | @serialFail k i _ log rec _ r _ _ _ herr =>
    -- The strategy returns before it looks at the event.
    have hbefore : (rec : Multiset Event) =
        (log.filterMap (recordedEvent x.strategy) : Multiset Event) := by
      simpa [Control.pending] using h.recorded_add_pending trivial
    have hskipped : recordedEvent x.strategy (.finished k i r) = none := by
      simp [recordedEvent, h.steady.strategy .serial rfl, herr]
    simp [hbefore, hskipped]
  | join hspawned =>
    have hbefore := h.recorded_add_pending trivial
    obtain ⟨a, -, -, href⟩ := h.refines
    cases href with
    | concurrent _ _ hok =>
      obtain ⟨runs, rfl⟩ := hok.exists_exited hspawned
      have hpending : ((runs.map Goroutine.exited).map Goroutine.pending).sum = 0 :=
        List.sum_eq_zero (by simp [Goroutine.pending])
      simpa only [Control.pending, hpending, add_zero] using hbefore
  | _ => cases hs

theorem Execution.Reaches.recorded_stepDone (h : x.Reaches s) {k : ℕ} {res : Option Result}
    {err : Option Err} (hs : s.control = .stepDone k res err) :
    (s.recorded : Multiset Event) =
      (s.log.filterMap (recordedEvent x.strategy) : Multiset Event) := by
  cases h with
  | refl => cases hs
  | tail hreach hstep => exact hstep.recorded_stepDone hreach hs

theorem ExecStep.recorded_returned (hstep : ExecStep x s s') (h : x.Reaches s) {result : Result}
    {err : Option Err} (hs : s'.control = .returned result err) :
    (s'.recorded : Multiset Event) =
      (s'.log.filterMap (recordedEvent x.strategy) : Multiset Event) := by
  cases hstep with
  | loopEnd | unknownStrategy => simpa [Control.pending] using h.recorded_add_pending trivial
  | stepFailed | stepChanged => exact h.recorded_stepDone rfl
  | _ => cases hs

end Steps

section Returns

variable [ErrorValues Err]

/-- A run call ends at most once, so the outcomes of an execution are given by a table. -/
theorem Execution.Reaches.exists_follows (h : x.Reaches s) :
    ∃ outcomes, x.Allows outcomes ∧ Follows outcomes s.log := by
  obtain ⟨a, hreach, hlog, -⟩ := h.refines
  have hvalid := hreach.valid
  have houtcome (k i : ℕ) : ∃ outcome : Outcome Event Err,
      (∀ op, (x.step k)[i]? = some op → ∃ r, x.Produces op r ∧ r.outcome = outcome) ∧
        ∀ r, .finished k i r ∈ s.log → r.outcome = outcome := by
    rw [← hlog]
    cases hstatus : a.statusAt k i with
    | finished r =>
      obtain ⟨op, hop, hproduces⟩ := hvalid.produces hstatus
      refine ⟨r.outcome, fun op' hop' ↦ ⟨r, ?_, rfl⟩, fun r' hr' ↦ ?_⟩
      · rw [x.plan_stage, hop'] at hop
        cases hop
        exact hproduces
      · rw [hvalid.mem_finished_iff, hstatus] at hr'
        cases hr'
        rfl
    | idle | running =>
      have hnot (r : OperandRun Obj Event Err) : ¬ .finished k i r ∈ a.log := by
        rw [hvalid.mem_finished_iff, hstatus]
        nofun
      cases hop : (x.step k)[i]? with
      | none => exact ⟨⟨none, none⟩, nofun, fun r hr ↦ absurd hr (hnot r)⟩
      | some op =>
        obtain ⟨r, hproduces⟩ := x.exists_produces op
        refine ⟨r.outcome, fun op' hop' ↦ ⟨r, ?_, rfl⟩, fun r' hr' ↦ absurd hr' (hnot r')⟩
        cases hop'
        exact hproduces
  choose outcomes hallows hfollows using houtcome
  exact ⟨outcomes, hallows, hfollows⟩

/-- Until it has returned, the execution can go on, whatever the operands return. -/
theorem Execution.Reaches.exists_step (h : x.Reaches s)
    (hrunning : ∀ result err, s.control ≠ .returned result err) : ∃ s', ExecStep x s s' := by
  obtain ⟨outcomes, hallows, hfollows⟩ := h.exists_follows
  rcases exists_execStep hallows h hfollows with ⟨s', hstep, -⟩ | ⟨result, err, hreturned⟩
  · exact ⟨s', hstep⟩
  · exact absurd hreturned (hrunning result err)

/-- What has been returned. -/
def ExecState.HasReturned (s : ExecState Obj Event Err) : Prop :=
  ∃ result err, s.control = .returned result err

/-- **Returning.** Whatever the operands return and however the goroutines interleave,
`ExecuteOperands` returns, and the recorder has then been handed the events of all the operand runs,
each of them once. Only the serial strategy leaves out the event of a run that has failed. -/
theorem executeOperands_returns (x : Execution Obj Event Err) (s : ExecState Obj Event Err)
    (h : x.Reaches s) :
    Inevitable x (fun t ↦ t.HasReturned ∧
      t.recorded.Perm (t.log.filterMap (recordedEvent x.strategy))) s := by
  induction s using (wellFounded_execStep x).induction with
  | _ s ih =>
    by_cases hreturned : s.HasReturned
    · obtain ⟨result, err, hs⟩ := id hreturned
      refine .now ⟨hreturned, Multiset.coe_eq_coe.mp ?_⟩
      cases h with
      | refl => cases hs
      | tail hreach hstep => exact hstep.recorded_returned hreach hs
    · refine .later ?_ fun s' hstep ↦ ih s' hstep (ReflTransGen.tail h hstep)
      exact h.exists_step fun result err hs ↦ hreturned ⟨result, err, hs⟩

end Returns

/-- Both operands have been spawned and one of them has been called. -/
theorem executeOperands_returns_deletePair :
    Inevitable deletePair (fun t ↦ t.HasReturned ∧
      t.recorded.Perm (t.log.filterMap (recordedEvent deletePair.strategy)))
      ⟨.concurrent 0 ⟨[.ready, .calling], 2, [], []⟩, [.started 0 1], []⟩ := by
  have hreaches : deletePair.Reaches
      ⟨.concurrent 0 ⟨[.ready, .calling], 2, [], []⟩, [.started 0 1], []⟩ := by
    refine .head (.concurrentEnter (by decide) rfl) (.head (.spawn (by decide)) ?_)
    refine .head (.spawn (by decide)) (.single ?_)
    exact @ExecStep.callStart _ _ _ _ deletePair 0 [.ready] [] 2 [] [] [] []
  exact executeOperands_returns deletePair _ hreaches

end OperatorToolkit.Operator
