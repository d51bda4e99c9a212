import OperatorToolkit.Operator.ExecutorRuns

/-!
# The executor implements the barrier

Both strategies of `ExecuteOperands` refine the staged execution of `Staged.Barrier`: every step of
the executor is a step of the staged machine or leaves it alone. The stages are the steps of the
order, and the next one may open when no run has failed and the step has not both changed something
and asked for a requeue. What the wait group and the two channels hold is part of the relation.
-/

namespace OperatorToolkit.Operator

open Interaction Staged

variable {Obj Event Err : Type}

/-- The staged execution that an execution of operands implements. -/
def Execution.plan (x : Execution Obj Event Err) : Plan Operand (OperandRun Obj Event Err) where
  stages := x.order
  Produces := x.Produces
  Proceed ops runs := (∀ r ∈ runs, r.outcome.err = none) ∧
    ¬ (stepRequeueStrategy ops = .requeueAlways ∧ ∃ r ∈ runs, r.outcome.event.isSome)

@[simp] theorem Execution.plan_stage (x : Execution Obj Event Err) (k : ℕ) :
    x.plan.stage k = x.step k := rfl

namespace Goroutine

def status : Goroutine Obj Event Err → Status (OperandRun Obj Event Err)
  | .ready => .idle
  | .calling => .running
  | .returned r | .errorSent r | .eventRecorded r | .finished r | .exited r => .finished r

/-- The error that a goroutine has put into the error channel. -/
def sentError : Goroutine Obj Event Err → Option Err
  | .ready | .calling | .returned _ => none
  | .errorSent r | .eventRecorded r | .finished r | .exited r => r.outcome.err

/-- Whether a goroutine has put a result into the result channel. -/
def sentResult : Goroutine Obj Event Err → Bool
  | .ready | .calling | .returned _ | .errorSent _ | .eventRecorded _ => false
  | .finished r | .exited r => r.outcome.event.isSome

def hasExited : Goroutine Obj Event Err → Bool
  | .exited _ => true
  | _ => false

theorem exists_eq_map_exited {gs : List (Goroutine Obj Event Err)}
    (h : ∀ g ∈ gs, g.hasExited = true) :
    ∃ runs : List (OperandRun Obj Event Err), gs = runs.map .exited := by
  induction gs with
  | nil => exact ⟨[], rfl⟩
  | cons g rest ih =>
    obtain ⟨runs, rfl⟩ := ih fun g' hg' ↦ h g' (List.mem_cons_of_mem _ hg')
    have hg := h g List.mem_cons_self
    cases g with
    | exited r => exact ⟨r :: runs, rfl⟩
    | _ => cases hg

end Goroutine

/-- The wait group and the channels of `concurrentExec` against its goroutines. -/
structure ConcurrentOk (ops : List Operand) (c : Concurrent Obj Event Err) : Prop where
  spawned_le : c.goroutines.length ≤ ops.length
  waitGroup_eq : c.waitGroup + c.goroutines.countP Goroutine.hasExited = ops.length
  errChan_perm : c.errChan.Perm (c.goroutines.filterMap Goroutine.sentError)
  resultChan_length : c.resultChan.length = c.goroutines.countP Goroutine.sentResult
  recorded_event : ∀ r, .eventRecorded r ∈ c.goroutines → r.outcome.event.isSome

/-- The wait group still counts a goroutine that has not exited. -/
theorem ConcurrentOk.waitGroup_pos {ops : List Operand} {c : Concurrent Obj Event Err}
    (h : ConcurrentOk ops c) {g : Goroutine Obj Event Err} (hg : g ∈ c.goroutines)
    (hexited : g.hasExited = false) : 0 < c.waitGroup := by
  have hlt : c.goroutines.countP Goroutine.hasExited < c.goroutines.length := by
    refine Nat.lt_of_le_of_ne List.countP_le_length fun heq ↦ ?_
    have := List.countP_eq_length.mp heq g hg
    simp [hexited] at this
  have hcount := h.waitGroup_eq
  have hspawned := h.spawned_le
  omega

/-- The wait group is at zero only when all goroutines have exited. -/
theorem ConcurrentOk.exists_exited {ops : List Operand} {gs : List (Goroutine Obj Event Err)}
    {errs : List Err} {ress : List Result} (h : ConcurrentOk ops ⟨gs, 0, errs, ress⟩)
    (hlength : gs.length = ops.length) : ∃ runs : List (OperandRun Obj Event Err),
      gs = runs.map .exited := by
  refine Goroutine.exists_eq_map_exited (List.countP_eq_length.mp ?_)
  have hcount := h.waitGroup_eq
  simp only [Nat.zero_add] at hcount
  omega

/-- When all goroutines have exited, the error channel holds the errors of their runs. -/
theorem ConcurrentOk.errs_perm {ops : List Operand} {runs : List (OperandRun Obj Event Err)}
    {wg : ℕ} {errs : List Err} {ress : List Result}
    (h : ConcurrentOk ops ⟨runs.map .exited, wg, errs, ress⟩) :
    errs.Perm (runs.filterMap (·.outcome.err)) := by
  simpa [List.filterMap_map, Function.comp_def, Goroutine.sentError] using h.errChan_perm

/-- When all goroutines have exited, there is a result if there was an event. -/
theorem ConcurrentOk.ress_pos_iff {ops : List Operand} {runs : List (OperandRun Obj Event Err)}
    {wg : ℕ} {errs : List Err} {ress : List Result}
    (h : ConcurrentOk ops ⟨runs.map .exited, wg, errs, ress⟩) :
    0 < ress.length ↔ ∃ r ∈ runs, r.outcome.event.isSome := by
  have hlength : ress.length = (runs.map Goroutine.exited).countP Goroutine.sentResult :=
    h.resultChan_length
  rw [hlength, List.countP_pos_iff]
  simp [Goroutine.sentResult]

/-- A new goroutine has not sent anything yet. -/
theorem ConcurrentOk.spawn {ops : List Operand} {gs : List (Goroutine Obj Event Err)} {wg : ℕ}
    {errs : List Err} {ress : List Result} (h : ConcurrentOk ops ⟨gs, wg, errs, ress⟩)
    (hlt : gs.length < ops.length) : ConcurrentOk ops ⟨gs ++ [.ready], wg, errs, ress⟩ where
  spawned_le := by simpa using Nat.succ_le_of_lt hlt
  waitGroup_eq := by simpa [Goroutine.hasExited] using h.waitGroup_eq
  errChan_perm := by simpa [List.filterMap_cons, Goroutine.sentError] using h.errChan_perm
  resultChan_length := by simpa [Goroutine.sentResult] using h.resultChan_length
  recorded_event r hr := h.recorded_event r (by simpa using hr)

/-- One entry of a list gains `sent`, and so does a collection of what the entries have. -/
theorem perm_filterMap_of_move {α β : Type} {f : α → Option β} {pre post : List α} {a a' : α}
    {collected sent : List β} (h : collected.Perm ((pre ++ a :: post).filterMap f))
    (hsent : (f a').toList = (f a).toList ++ sent) :
    (collected ++ sent).Perm ((pre ++ a' :: post).filterMap f) := by
  have hcons (a : α) : (a :: post).filterMap f = (f a).toList ++ post.filterMap f := by
    cases ha : f a <;> simp [ha]
  simp only [List.filterMap_append, hcons, hsent] at h ⊢
  refine (h.append_right sent).trans ?_
  simp only [List.append_assoc]
  exact (List.perm_append_comm.append_left _).append_left _

/-- One goroutine moves on; `sent` is what it puts into the error channel. -/
theorem ConcurrentOk.move {ops : List Operand} {pre post : List (Goroutine Obj Event Err)}
    {g g' : Goroutine Obj Event Err} {wg wg' : ℕ} {errs errs' : List Err} {ress ress' : List Result}
    (sent : List Err) (h : ConcurrentOk ops ⟨pre ++ g :: post, wg, errs, ress⟩)
    (herrs : errs' = errs ++ sent)
    (hwg : wg' + (if g'.hasExited then 1 else 0) = wg + (if g.hasExited then 1 else 0))
    (hsent : g'.sentError.toList = g.sentError.toList ++ sent)
    (hress : ress'.length + (if g.sentResult then 1 else 0) =
      ress.length + (if g'.sentResult then 1 else 0))
    (hrecorded : ∀ r, g' = .eventRecorded r → r.outcome.event.isSome) :
    ConcurrentOk ops ⟨pre ++ g' :: post, wg', errs', ress'⟩ where
  spawned_le := by simpa using h.spawned_le
  waitGroup_eq := by
    have := h.waitGroup_eq
    simp only [List.countP_append, List.countP_cons] at this ⊢
    omega
  errChan_perm := by
    rw [herrs]
    exact perm_filterMap_of_move h.errChan_perm hsent
  resultChan_length := by
    have := h.resultChan_length
    simp only [List.countP_append, List.countP_cons] at this ⊢
    omega
  recorded_event := by
    intro r hr
    rcases List.mem_append.mp hr with hr | hr
    · exact h.recorded_event r (List.mem_append_left _ hr)
    · rcases List.mem_cons.mp hr with hr | hr
      · exact hrecorded r hr.symm
      · exact h.recorded_event r (List.mem_append_right _ (List.mem_cons_of_mem _ hr))

/-- Each statement of `concurrentExec` and of its goroutines keeps the wait group and the channels
in step with the goroutines. -/
theorem ExecStep.concurrentOk [ErrorValues Err] {x : Execution Obj Event Err}
    {s s' : ExecState Obj Event Err} (hstep : ExecStep x s s') {k : ℕ}
    {c c' : Concurrent Obj Event Err} (hs : s.control = .concurrent k c)
    (hs' : s'.control = .concurrent k c') (hok : ConcurrentOk (x.step k) c) :
    ConcurrentOk (x.step k) c' := by
  cases hstep with
  | spawn hlt =>
    cases hs
    cases hs'
    exact hok.spawn hlt
  | callStart | callReturn =>
    cases hs
    cases hs'
    exact hok.move [] (by simp) rfl rfl rfl (by simp)
  | noError herr =>
    cases hs
    cases hs'
    exact hok.move [] (by simp) rfl (by simp [Goroutine.sentError, herr]) rfl (by simp)
  | sendError herr _ =>
    cases hs
    cases hs'
    exact hok.move _ rfl rfl (by simp [Goroutine.sentError, herr]) rfl (by simp)
  | noEvent hevent =>
    cases hs
    cases hs'
    exact hok.move [] (by simp) rfl (by simp [Goroutine.sentError])
      (by simp [Goroutine.sentResult, hevent]) (by simp)
  | record hevent =>
    cases hs
    cases hs'
    exact hok.move [] (by simp) rfl (by simp [Goroutine.sentError]) rfl (by simp [hevent])
  | @sendResult k pre post wg errs ress log rec r _ =>
    cases hs
    cases hs'
    have hevent := hok.recorded_event r (by simp)
    exact hok.move [] (by simp) rfl (by simp [Goroutine.sentError])
      (by simp [Goroutine.sentResult, hevent]) (by simp)
  | @waitGroupDone k pre post wg errs ress log rec r =>
    cases hs
    cases hs'
    have hpos : 0 < wg := hok.waitGroup_pos (g := .finished r) (by simp) rfl
    exact hok.move [] (by simp) (by simp [Goroutine.hasExited]; omega)
      (by simp [Goroutine.sentError]) rfl (by simp)
  | loopEnd | unknownStrategy | serialEnter | serialStart | serialFail | serialNext | serialEnd |
    concurrentEnter | stepFailed | stepChanged | stepNext => cases hs
  | join => cases hs'

/-- No run has failed, and the result tells whether there was an event. -/
structure CleanRuns (runs : List (OperandRun Obj Event Err)) (result : Option Result) : Prop where
  err_eq_none : ∀ r ∈ runs, r.outcome.err = none
  result_iff : result.isSome ↔ ∃ r ∈ runs, r.outcome.event.isSome

theorem CleanRuns.nil : CleanRuns ([] : List (OperandRun Obj Event Err)) none :=
  ⟨by simp, by simp⟩

theorem CleanRuns.append {runs : List (OperandRun Obj Event Err)} {result : Option Result}
    (h : CleanRuns runs result) {r : OperandRun Obj Event Err} (herr : r.outcome.err = none) :
    CleanRuns (runs ++ [r]) (if r.outcome.event.isSome then some {} else result) where
  err_eq_none := by
    intro r' hr'
    rcases List.mem_append.mp hr' with hr' | hr'
    · exact h.err_eq_none r' hr'
    · rw [List.mem_singleton.mp hr', herr]
  result_iff := by
    by_cases hevent : r.outcome.event.isSome
    · simp only [hevent, if_true, Option.isSome_some, true_iff]
      exact ⟨r, by simp, hevent⟩
    · simpa [hevent, or_and_right, exists_or] using h.result_iff

/-- In this log the operands of step `k` have all ended without error, and the step has not both
a `RequeueAlways` operand and an event. -/
structure StepPassed (x : Execution Obj Event Err)
    (log : List (Staged.Event (OperandRun Obj Event Err))) (k : ℕ) : Prop where
  all_finished : ∀ j < (x.step k).length, ∃ r, .finished k j r ∈ log
  err_eq_none : ∀ j r, .finished k j r ∈ log → r.outcome.err = none
  no_requeue : ¬ ((∃ op ∈ x.step k, op.requeueStrategy = .requeueAlways) ∧
    ∃ j r, .finished k j r ∈ log ∧ r.outcome.event.isSome)

theorem stepPassed_of_closed {x : Execution Obj Event Err}
    {log : List (Staged.Event (OperandRun Obj Event Err))} {k : ℕ} (h : Closed x.plan log k) :
    StepPassed x log k := by
  obtain ⟨runs, hproduced, ⟨herr, hrequeue⟩, hmem⟩ := h
  refine ⟨fun j hj ↦ ?_, fun j r hr ↦ ?_, ?_⟩
  · have hj' : j < runs.length := hproduced.length_eq ▸ hj
    exact ⟨runs[j], (hmem j _).mpr (List.getElem?_eq_getElem hj')⟩
  · exact herr r (List.mem_of_getElem? ((hmem j r).mp hr))
  · rintro ⟨halways, j, r, hr, hevent⟩
    exact hrequeue ⟨(stepRequeueStrategy_eq_always_iff _).mpr halways, r,
      List.mem_of_getElem? ((hmem j r).mp hr), hevent⟩

/-- A run that failed belongs to the current step. -/
theorem mem_current_of_err {x : Execution Obj Event Err} {a : State (OperandRun Obj Event Err)}
    (hvalid : Valid x.plan a) {k i : ℕ} {r : OperandRun Obj Event Err}
    (hr : .finished k i r ∈ a.log) (herr : r.outcome.err ≠ none) :
    k = a.past.length ∧ .finished r ∈ a.current := by
  rcases statusAt_eq_finished (hvalid.mem_finished_iff.mp hr) with ⟨runs, hpast, hget⟩ | ⟨hk, hcur⟩
  · have hproceed := (hvalid.past_ok k runs hpast).2
    exact absurd (hproceed.1 r (List.mem_of_getElem? hget)) herr
  · exact ⟨hk, List.mem_of_getElem? hcur⟩

theorem mem_log_of_mem_current {x : Execution Obj Event Err}
    {a : State (OperandRun Obj Event Err)} (hvalid : Valid x.plan a)
    {r : OperandRun Obj Event Err} (hr : .finished r ∈ a.current) :
    ∃ i, .finished a.past.length i r ∈ a.log := by
  obtain ⟨i, hi⟩ := List.getElem?_of_mem hr
  exact ⟨i, hvalid.mem_finished_iff.mpr (by simp [State.statusAt, hi])⟩

section Errors

variable [ErrorValues Err]

/-- The error stands for the errors of the runs that have ended. -/
structure Failed (current : List (Status (OperandRun Obj Event Err))) (err : Err) : Prop where
  exists_error : ∃ r e, .finished r ∈ current ∧ r.outcome.err = some e
  is_iff : ∀ target, ErrorValues.is err target ↔
    ∃ r e, .finished r ∈ current ∧ r.outcome.err = some e ∧ ErrorValues.is e target

/-- What a step returns, read off its runs. -/
inductive StepReports (current : List (Status (OperandRun Obj Event Err))) :
    Option Result → Option Err → Prop where
  | clean {runs : List (OperandRun Obj Event Err)} {res : Option Result} :
      current = runs.map .finished → CleanRuns runs res → StepReports current res none
  | failed {res : Option Result} {err : Err} :
    Failed current err → StepReports current res (some err)

theorem foldl_newAggregate (errs : List Err) (rerr : Option Err) :
    (errs.foldl (fun rerr err ↦ newAggregate [rerr, some err]) rerr = none ↔
        rerr = none ∧ errs = []) ∧
      ∀ agg target, errs.foldl (fun rerr err ↦ newAggregate [rerr, some err]) rerr = some agg →
        (ErrorValues.is agg target ↔
          (∃ err, rerr = some err ∧ ErrorValues.is err target) ∨
            ∃ err ∈ errs, ErrorValues.is err target) := by
  induction errs generalizing rerr with
  | nil => simp +contextual
  | cons err rest ih =>
    obtain ⟨next, hnext⟩ := newAggregate_isSome err [rerr, some err] (by simp)
    have his (target : Err) := ErrorValues.is_newAggregate_iff [rerr, some err] next target hnext
    rw [List.foldl_cons, hnext]
    refine ⟨by simp [(ih (some next)).1], fun agg target hagg ↦ ?_⟩
    rw [(ih (some next)).2 agg target hagg]
    simp only [Option.some.injEq, exists_eq_left', his, List.mem_cons, List.not_mem_nil, or_false]
    constructor
    · rintro (⟨e, rfl | rfl, he⟩ | hrest)
      · exact .inl ⟨e, rfl, he⟩
      · exact .inr ⟨e, .inl rfl, he⟩
      · obtain ⟨e, hmem, he⟩ := hrest
        exact .inr ⟨e, .inr hmem, he⟩
    · rintro (⟨e, rfl, he⟩ | ⟨e, rfl | hmem, he⟩)
      · exact .inl ⟨e, .inl rfl, he⟩
      · exact .inl ⟨e, .inr rfl, he⟩
      · exact .inr ⟨e, hmem, he⟩

theorem collectErrors_eq_none_iff {errs : List Err} : collectErrors errs = none ↔ errs = [] := by
  simp [collectErrors, (foldl_newAggregate errs none).1]

theorem is_collectErrors_iff {errs : List Err} {agg target : Err}
    (h : collectErrors errs = some agg) :
    ErrorValues.is agg target ↔ ∃ err ∈ errs, ErrorValues.is err target := by
  simp [(foldl_newAggregate errs none).2 agg target h]

/-- When all goroutines have exited, the channels tell what the runs returned. -/
theorem stepReports_join {ops : List Operand} {gs : List (Goroutine Obj Event Err)}
    {errs : List Err} {ress : List Result} (hok : ConcurrentOk ops ⟨gs, 0, errs, ress⟩)
    (hlength : gs.length = ops.length) :
    StepReports (gs.map Goroutine.status) (if 0 < ress.length then some {} else none)
      (collectErrors errs) := by
  obtain ⟨runs, rfl⟩ := hok.exists_exited hlength
  have herrs (e : Err) : e ∈ errs ↔ ∃ r ∈ runs, r.outcome.err = some e := by
    rw [hok.errs_perm.mem_iff, List.mem_filterMap]
  have hstatus : (runs.map Goroutine.exited).map Goroutine.status =
      runs.map .finished := by
    simp [Goroutine.status]
  rw [hstatus]
  cases hcollect : collectErrors errs with
  | none =>
    have hnil := collectErrors_eq_none_iff.mp hcollect
    refine .clean rfl ⟨fun r hr ↦ ?_, ?_⟩
    · refine Option.eq_none_iff_forall_ne_some.mpr fun e he ↦ ?_
      have := (herrs e).mpr ⟨r, hr, he⟩
      simp [hnil] at this
    · rw [← hok.ress_pos_iff]
      split <;> simp_all
  | some agg =>
    have hne : errs ≠ [] := by
      rintro rfl
      simp [collectErrors] at hcollect
    refine .failed ⟨?_, fun target ↦ ?_⟩
    · obtain ⟨e, he⟩ := List.exists_mem_of_ne_nil errs hne
      obtain ⟨r, hr, hre⟩ := (herrs e).mp he
      exact ⟨r, e, List.mem_map_of_mem hr, hre⟩
    · rw [is_collectErrors_iff hcollect]
      constructor
      · rintro ⟨e, he, his⟩
        obtain ⟨r, hr, hre⟩ := (herrs e).mp he
        exact ⟨r, e, List.mem_map_of_mem hr, hre, his⟩
      · rintro ⟨r, e, hr, hre, his⟩
        obtain ⟨r', hr', hrr⟩ := List.mem_map.mp hr
        cases hrr
        exact ⟨e, (herrs e).mpr ⟨r, hr', hre⟩, his⟩

/-- `serialExec` gives up at the first error, which is then the only one. -/
theorem stepReports_serialFail {runs : List (OperandRun Obj Event Err)} {result : Option Result}
    (hclean : CleanRuns runs result) {r : OperandRun Obj Event Err} {err : Err}
    (herr : r.outcome.err = some err) {m : ℕ} :
    StepReports (runs.map .finished ++ .finished r :: List.replicate m .idle) result
      (newAggregate [none, some err]) := by
  obtain ⟨agg, hagg⟩ := newAggregate_isSome err [none, some err] (by simp)
  have honly : ∀ r' e, Status.finished r' ∈ runs.map Status.finished ++
      .finished r :: List.replicate m .idle → r'.outcome.err = some e → e = err := by
    intro r' e hmem he
    simp only [List.mem_append, List.mem_map, Status.finished.injEq, exists_eq_right,
      List.mem_cons, List.mem_replicate, reduceCtorEq, and_false, or_false] at hmem
    rcases hmem with hmem | rfl
    · simp [hclean.err_eq_none r' hmem] at he
    · exact Option.some.inj (he.symm.trans herr)
  rw [hagg]
  refine .failed ⟨⟨r, err, by simp, herr⟩, fun target ↦ ?_⟩
  rw [ErrorValues.is_newAggregate_iff _ agg target hagg]
  constructor
  · rintro ⟨e, he, his⟩
    obtain rfl : e = err := by simpa using he
    exact ⟨r, e, by simp, herr, his⟩
  · rintro ⟨r', e, hmem, he, his⟩
    obtain rfl := honly r' e hmem he
    exact ⟨e, by simp, his⟩

/-! ## The refinement relation -/

/-- Where the staged machine stands when the executor is at a given point. -/
inductive Refines (x : Execution Obj Event Err) :
    Control Obj Event Err → State (OperandRun Obj Event Err) → Prop where
  | loop {past log} : past.length ≤ x.order.length →
      Refines x (.loop past.length)
        ⟨past, List.replicate (x.step past.length).length .idle, log⟩
  | serial {past log result m} (runs : List (OperandRun Obj Event Err)) :
      past.length < x.order.length → runs.length + m = (x.step past.length).length →
      CleanRuns runs result →
      Refines x (.serial past.length runs.length result)
        ⟨past, runs.map .finished ++ List.replicate m .idle, log⟩
  | serialCall {past log result m} (runs : List (OperandRun Obj Event Err)) :
      past.length < x.order.length → runs.length + (m + 1) = (x.step past.length).length →
      CleanRuns runs result →
      Refines x (.serialCall past.length runs.length result)
        ⟨past, runs.map .finished ++ .running :: List.replicate m .idle, log⟩
  | concurrent {past log m} {c : Concurrent Obj Event Err} : past.length < x.order.length →
      c.goroutines.length + m = (x.step past.length).length →
      ConcurrentOk (x.step past.length) c →
      Refines x (.concurrent past.length c)
        ⟨past, c.goroutines.map Goroutine.status ++ List.replicate m .idle, log⟩
  | stepDone {past current log res execErr} : past.length < x.order.length →
      StepReports current res execErr →
      Refines x (.stepDone past.length res execErr) ⟨past, current, log⟩
  | complete {a} : a.past.length = x.order.length → Refines x (.returned {} none) a
  | failed {a err} : a.past.length < x.order.length → Failed a.current err →
      Refines x (.returned { requeue := true } (some err)) a
  | changed {a} {runs : List (OperandRun Obj Event Err)} {res : Option Result} :
      a.past.length < x.order.length → a.current = runs.map .finished → CleanRuns runs res →
      res.isSome → stepRequeueStrategy (x.step a.past.length) = .requeueAlways →
      Refines x (.returned { requeue := true } none) a
  | unknownStrategy {a value} : x.strategy = .unknown value →
      Refines x (.returned {} (some (errorf (unknownStrategyText value)))) a

theorem Refines.init (x : Execution Obj Event Err) : Refines x (.loop 0) x.plan.init :=
  @Refines.loop _ _ _ _ x [] [] (Nat.zero_le _)

/-- A goroutine moves on without starting or ending its run call. -/
theorem Refines.move {x : Execution Obj Event Err} {k : ℕ}
    {pre post : List (Goroutine Obj Event Err)} {g g' : Goroutine Obj Event Err} {wg wg' : ℕ}
    {errs errs' : List Err} {ress ress' : List Result} {a : State (OperandRun Obj Event Err)}
    (href : Refines x (.concurrent k ⟨pre ++ g :: post, wg, errs, ress⟩) a)
    (hstatus : g'.status = g.status)
    (hmove : ConcurrentOk (x.step k) ⟨pre ++ g :: post, wg, errs, ress⟩ →
      ConcurrentOk (x.step k) ⟨pre ++ g' :: post, wg', errs', ress'⟩) :
    Refines x (.concurrent k ⟨pre ++ g' :: post, wg', errs', ress'⟩) a := by
  cases href with
  | @concurrent past log m c hk hm hok =>
    have hcurrent : (pre ++ g :: post).map Goroutine.status =
        (pre ++ g' :: post).map Goroutine.status := by
      simp [hstatus]
    rw [hcurrent]
    exact .concurrent hk (by simpa using hm) (hmove hok)

/-- A new goroutine has not started its run call. -/
theorem Refines.spawn {x : Execution Obj Event Err} {k : ℕ} {gs : List (Goroutine Obj Event Err)}
    {wg : ℕ} {errs : List Err} {ress : List Result} {a : State (OperandRun Obj Event Err)}
    (href : Refines x (.concurrent k ⟨gs, wg, errs, ress⟩) a)
    (hlt : gs.length < (x.step k).length) :
    Refines x (.concurrent k ⟨gs ++ [.ready], wg, errs, ress⟩) a := by
  cases href with
  | @concurrent past log m c hk hm hok =>
    obtain ⟨m, rfl⟩ : ∃ m', m = m' + 1 := ⟨m - 1, by simp only at hm; omega⟩
    have hlength : (gs ++ [Goroutine.ready]).length + m = (x.step past.length).length := by
      simp only [List.length_append, List.length_singleton] at hm ⊢
      omega
    have hnext : Refines x (.concurrent past.length ⟨gs ++ [Goroutine.ready], wg, errs, ress⟩)
        ⟨past, (gs ++ [Goroutine.ready]).map Goroutine.status ++ List.replicate m .idle, log⟩ :=
      .concurrent hk hlength (hok.spawn hlt)
    simpa [Goroutine.status, List.replicate_succ] using hnext

/-- A goroutine starts or ends its run call. -/
theorem Refines.callMove {x : Execution Obj Event Err} {k : ℕ}
    {pre post : List (Goroutine Obj Event Err)} {g : Goroutine Obj Event Err} {wg : ℕ}
    {errs : List Err} {ress : List Result} {a : State (OperandRun Obj Event Err)}
    (href : Refines x (.concurrent k ⟨pre ++ g :: post, wg, errs, ress⟩) a)
    (g' : Goroutine Obj Event Err) (hrecorded : ∀ r, g' ≠ .eventRecorded r)
    (hexited : g'.hasExited = g.hasExited) (herror : g'.sentError = g.sentError)
    (hresult : g'.sentResult = g.sentResult) :
    ∃ past rest log, k = past.length ∧
      a = ⟨past, pre.map Goroutine.status ++ g.status :: rest, log⟩ ∧
      ∀ log', Refines x (.concurrent k ⟨pre ++ g' :: post, wg, errs, ress⟩)
        ⟨past, pre.map Goroutine.status ++ g'.status :: rest, log'⟩ := by
  cases href with
  | @concurrent past log m c hk hm hok =>
    refine ⟨past, post.map Goroutine.status ++ List.replicate m .idle, log, rfl, by simp,
      fun log' ↦ ?_⟩
    have hok' : ConcurrentOk (x.step past.length) ⟨pre ++ g' :: post, wg, errs, ress⟩ :=
      hok.move [] (by simp) (by simp [hexited]) (by simp [herror]) (by simp [hresult])
        fun r hr ↦ absurd hr (hrecorded r)
    have hnext : Refines x (.concurrent past.length ⟨pre ++ g' :: post, wg, errs, ress⟩)
        ⟨past, (pre ++ g' :: post).map Goroutine.status ++ List.replicate m .idle, log'⟩ :=
      .concurrent hk (by simpa using hm) hok'
    simpa using hnext

/-- The run call of a serial step ends. -/
theorem Refines.serialReturn {x : Execution Obj Event Err} {k i : ℕ} {result : Option Result}
    {a : State (OperandRun Obj Event Err)} (href : Refines x (.serialCall k i result) a)
    {op : Operand} {r : OperandRun Obj Event Err} (hop : (x.step k)[i]? = some op)
    (hproduces : x.Produces op r) :
    ∃ past runs m, k = past.length ∧ i = runs.length ∧ past.length < x.order.length ∧
      runs.length + (m + 1) = (x.step past.length).length ∧ CleanRuns runs result ∧
      Step x.plan a ⟨past, runs.map .finished ++ .finished r :: List.replicate m .idle,
        a.log ++ [.finished k i r]⟩ := by
  cases href with
  | @serialCall past log _ m runs hk hm hclean =>
    have htask : (x.plan.stage past.length)[(runs.map Status.finished).length]? = some op := by
      simpa using hop
    exact ⟨past, runs, m, rfl, rfl, hk, hm, hclean, by simpa using Step.finish htask hproduces⟩

/-- A step that has failed nowhere and does not requeue is over. -/
theorem Refines.advance {x : Execution Obj Event Err} {k : ℕ} {res : Option Result}
    {a : State (OperandRun Obj Event Err)} (href : Refines x (.stepDone k res none) a)
    (hnot : ¬(res.isSome ∧ stepRequeueStrategy (x.step k) = .requeueAlways)) :
    ∃ a', Step x.plan a a' ∧ a'.log = a.log ∧ Refines x (.loop (k + 1)) a' := by
  cases href with
  | stepDone hk hreports =>
    cases hreports with
    | clean hcurrent hclean =>
      subst hcurrent
      refine ⟨_, .advance hk ⟨hclean.err_eq_none, ?_⟩, rfl, ?_⟩
      · rintro ⟨halways, hevent⟩
        exact hnot ⟨hclean.result_iff.mpr hevent, halways⟩
      · have hnext (runs : List (OperandRun Obj Event Err)) (log) :
            Refines x (.loop (_ ++ [runs]).length) ⟨_ ++ [runs], _, log⟩ :=
          .loop (by simpa using Nat.succ_le_of_lt hk)
        simpa using hnext _ _

/-- Each step of the executor is matched by at most one step of the staged machine. -/
theorem ExecStep.refines {x : Execution Obj Event Err} {s s' : ExecState Obj Event Err}
    {a : State (OperandRun Obj Event Err)} (hstep : ExecStep x s s') (hlog : a.log = s.log)
    (href : Refines x s.control a) :
    ∃ a', Relation.ReflGen (Step x.plan) a a' ∧ a'.log = s'.log ∧ Refines x s'.control a' := by
  have hkeeps {k : ℕ} {c c' : Concurrent Obj Event Err} (hs : s.control = .concurrent k c)
      (hs' : s'.control = .concurrent k c') := hstep.concurrentOk hs hs'
  cases hstep with
  | loopEnd hk =>
    cases href with
    | loop hle => exact ⟨_, .refl, hlog, .complete (Nat.le_antisymm hle hk)⟩
  | unknownStrategy _ hstrategy => exact ⟨_, .refl, hlog, .unknownStrategy hstrategy⟩
  | serialEnter hk _ =>
    cases href with
    | loop hle => exact ⟨_, .refl, hlog, .serial [] hk (by simp) .nil⟩
  | serialStart hi =>
    cases href with
    | @serial past log result m runs hk hm hclean =>
      obtain ⟨m, rfl⟩ : ∃ m', m = m' + 1 := ⟨m - 1, by omega⟩
      refine ⟨_, .single .start, ?_, .serialCall runs hk hm hclean⟩
      simpa using hlog
  | @serialFail k i result log rec op r err hop hproduces herr =>
    obtain ⟨past, runs, m, rfl, rfl, hk, -, hclean, hfinish⟩ := href.serialReturn hop hproduces
    exact ⟨_, .single hfinish, by rw [hlog], .stepDone hk (stepReports_serialFail hclean herr)⟩
  | @serialNext k i result log rec op r hop hproduces herr =>
    obtain ⟨past, runs, m, rfl, rfl, hk, hm, hclean, hfinish⟩ := href.serialReturn hop hproduces
    have hnext (log) : Refines x (.serial past.length (runs ++ [r]).length _)
        ⟨past, (runs ++ [r]).map .finished ++ List.replicate m .idle, log⟩ :=
      .serial (runs ++ [r]) hk (by simp; omega) (hclean.append herr)
    exact ⟨_, .single hfinish, by rw [hlog], by simpa using hnext _⟩
  | serialEnd hi =>
    cases href with
    | @serial past log result m runs hk hm hclean =>
      obtain rfl : m = 0 := by omega
      exact ⟨_, .refl, hlog, .stepDone hk (.clean (by simp) hclean)⟩
  | concurrentEnter hk _ =>
    cases href with
    | loop hle =>
      exact ⟨_, .refl, hlog, .concurrent hk (by simp) ⟨by simp, by simp, by simp, by simp, by simp⟩⟩
  | spawn hlt => exact ⟨_, .refl, hlog, href.spawn hlt⟩
  | callStart =>
    obtain ⟨past, rest, log, rfl, rfl, hnext⟩ := href.callMove .calling (by simp) rfl rfl rfl
    exact ⟨_, .single .start, by simpa using hlog, hnext _⟩
  | @callReturn k pre post wg errs ress log rec op r hop hproduces =>
    obtain ⟨past, rest, log, rfl, rfl, hnext⟩ := href.callMove (.returned r) (by simp) rfl rfl rfl
    have htask : (x.plan.stage past.length)[(pre.map Goroutine.status).length]? = some op := by
      simpa using hop
    exact ⟨_, .single (.finish htask hproduces), by simpa using hlog, hnext _⟩
  | noError | sendError | noEvent | record | sendResult | waitGroupDone =>
    exact ⟨_, .refl, hlog, href.move rfl (hkeeps rfl rfl)⟩
  | join hall =>
    cases href with
    | @concurrent past log m c hk hm hok =>
      obtain rfl : m = 0 := by
        simp only at hm
        omega
      refine ⟨_, .refl, hlog, .stepDone hk ?_⟩
      simpa using stepReports_join hok hall
  | stepFailed =>
    cases href with
    | stepDone hk hreports =>
      cases hreports with
      | failed hfailed => exact ⟨_, .refl, hlog, .failed hk hfailed⟩
  | stepChanged hres halways =>
    cases href with
    | stepDone hk hreports =>
      cases hreports with
      | clean hcurrent hclean => exact ⟨_, .refl, hlog, .changed hk hcurrent hclean hres halways⟩
  | stepNext hnot =>
    obtain ⟨a', hadvance, hsame, hnext⟩ := href.advance hnot
    exact ⟨a', .single hadvance, hsame.trans hlog, hnext⟩

theorem Execution.Reaches.refines {x : Execution Obj Event Err} {s : ExecState Obj Event Err}
    (h : x.Reaches s) :
    ∃ a, Reachable x.plan a ∧ a.log = s.log ∧ Refines x s.control a := by
  induction h with
  | refl => exact ⟨x.plan.init, .refl, rfl, Refines.init x⟩
  | tail _ hstep ih =>
    obtain ⟨a, hreach, hlog, href⟩ := ih
    obtain ⟨a', hmove, hlog', href'⟩ := hstep.refines hlog href
    exact ⟨a', hreach.trans hmove.to_reflTransGen, hlog', href'⟩

/-! ## The barrier -/

/-- Whatever has run is a run of the operand at its place in the order. -/
theorem Execution.Reaches.produces {x : Execution Obj Event Err} {s : ExecState Obj Event Err}
    (h : x.Reaches s) {k i : ℕ} {r : OperandRun Obj Event Err} (hr : .finished k i r ∈ s.log) :
    ∃ op, (x.step k)[i]? = some op ∧ x.Produces op r := by
  obtain ⟨a, hreach, hlog, -⟩ := h.refines
  have hstatus := hreach.valid.mem_finished_iff.mp (hlog ▸ hr)
  exact hreach.valid.produces hstatus

/-- The error that an execution returned stands for the errors of one step of the log, and no other
step has any. -/
structure FailedAt (log : List (Staged.Event (OperandRun Obj Event Err))) (err : Err) (k : ℕ) :
    Prop where
  only : ∀ k' i r, .finished k' i r ∈ log → r.outcome.err ≠ none → k' = k
  exists_error : ∃ i r e, .finished k i r ∈ log ∧ r.outcome.err = some e
  is_iff : ∀ target, ErrorValues.is err target ↔
    ∃ i r e, .finished k i r ∈ log ∧ r.outcome.err = some e ∧ ErrorValues.is e target

theorem failedAt_of_returned {x : Execution Obj Event Err} {s : ExecState Obj Event Err}
    (hknown : ∀ value, x.strategy ≠ .unknown value) (h : x.Reaches s) {result : Result} {err : Err}
    (hs : s.control = .returned result (some err)) : ∃ k, FailedAt s.log err k := by
  obtain ⟨a, hreach, hlog, href⟩ := h.refines
  have hvalid := hreach.valid
  rw [hs] at href
  rw [← hlog]
  cases href with
  | unknownStrategy hstrategy => exact absurd hstrategy (hknown _)
  | failed _ hfailed =>
    refine ⟨a.past.length, fun k' i r hr herr ↦ (mem_current_of_err hvalid hr herr).1, ?_,
      fun target ↦ ?_⟩
    · obtain ⟨r, e, hr, he⟩ := hfailed.exists_error
      obtain ⟨i, hi⟩ := mem_log_of_mem_current hvalid hr
      exact ⟨i, r, e, hi, he⟩
    · rw [hfailed.is_iff]
      constructor
      · rintro ⟨r, e, hr, he, his⟩
        obtain ⟨i, hi⟩ := mem_log_of_mem_current hvalid hr
        exact ⟨i, r, e, hi, he, his⟩
      · rintro ⟨i, r, e, hi, he, his⟩
        exact ⟨r, e, (mem_current_of_err hvalid hi (by simp [he])).2, he, his⟩

/-- An execution that returns no error has seen none. -/
theorem err_eq_none_of_returned {x : Execution Obj Event Err} {s : ExecState Obj Event Err}
    (h : x.Reaches s) {result : Result} (hs : s.control = .returned result none) {k i : ℕ}
    {r : OperandRun Obj Event Err} (hr : .finished k i r ∈ s.log) : r.outcome.err = none := by
  obtain ⟨a, hreach, hlog, href⟩ := h.refines
  have hvalid := hreach.valid
  rw [hs] at href
  rw [← hlog] at hr
  by_contra herr
  have hmem := (mem_current_of_err hvalid hr herr).2
  cases href with
  | complete hpast =>
    have hlength := hvalid.current_length
    rw [hpast, x.plan_stage, Execution.step, List.getD_eq_getElem?_getD,
      List.getElem?_eq_none (Nat.le_refl _)] at hlength
    simp [List.eq_nil_of_length_eq_zero hlength] at hmem
  | changed _ hcurrent hclean =>
    rw [hcurrent] at hmem
    obtain ⟨r', hr', heq⟩ := List.mem_map.mp hmem
    cases heq
    exact herr (hclean.err_eq_none r hr')

/-- An execution that returns no error and asks for no requeue has completed every step. -/
theorem past_length_of_returned {x : Execution Obj Event Err} {result : Result}
    {a : State (OperandRun Obj Event Err)} (href : Refines x (.returned result none) a)
    (hrequeue : result.requeue = false) : a.past.length = x.order.length := by
  cases href with
  | complete hpast => exact hpast
  | changed => cases hrequeue

/-- A start in the log is preceded by everything that the earlier steps owe. -/
theorem Execution.Reaches.stepPassed {x : Execution Obj Event Err} {s : ExecState Obj Event Err}
    (h : x.Reaches s) {pre post : List (Staged.Event (OperandRun Obj Event Err))} {k i k' : ℕ}
    (hsplit : s.log = pre ++ .started k i :: post) (hk' : k' < k) : StepPassed x pre k' := by
  obtain ⟨a, hreach, hlog, -⟩ := h.refines
  exact stepPassed_of_closed (hreach.valid.barrier pre k i post (hlog.trans hsplit) k' hk')

theorem Execution.Reaches.counts_of_returned {x : Execution Obj Event Err}
    {s : ExecState Obj Event Err} (h : x.Reaches s) {result : Result}
    (hs : s.control = .returned result none) (hrequeue : result.requeue = false) {k i : ℕ}
    (hi : i < (x.step k).length) : startCount s.log k i = 1 ∧ finishCount s.log k i = 1 := by
  obtain ⟨a, hreach, hlog, href⟩ := h.refines
  have hvalid := hreach.valid
  rw [hs] at href
  have hk : k < a.past.length := by
    rw [past_length_of_returned href hrequeue]
    exact lt_length_of_lt_step hi
  obtain ⟨runs, -, hproduced, -, hstatus⟩ := hvalid.statusAt_past hk
  have hi' : i < runs.length := hproduced.length_eq ▸ hi
  rw [← hlog]
  exact hvalid.counts_of_finished (by rw [hstatus, List.getElem?_eq_getElem hi']; rfl)

/-- **Barrier.** At every point of every interleaving: an operand of the next step has been started
only after the step before it was passed, nothing is started twice, and a return without error and
requeue means that every operand ran exactly once. -/
theorem executeOperands_barrier {x : Execution Obj Event Err} {s : ExecState Obj Event Err}
    (h : x.Reaches s) :
    (∀ pre k i post, s.log = pre ++ .started (k + 1) i :: post → StepPassed x pre k) ∧
      (∀ k i, startCount s.log k i ≤ 1) ∧
      ∀ result, s.control = .returned result none → result.requeue = false →
        ∀ k i, i < (x.step k).length → startCount s.log k i = 1 ∧ finishCount s.log k i = 1 := by
  refine ⟨fun pre k i post hsplit ↦ h.stepPassed hsplit k.lt_succ_self, ?_,
    fun result hs hrequeue k i hi ↦ h.counts_of_returned hs hrequeue hi⟩
  obtain ⟨a, hreach, hlog, -⟩ := h.refines
  exact hlog ▸ hreach.valid.startCount_le

/-- The cleanup of three operands in two steps. -/
def twoStepCleanup : Execution Unit String GoError :=
  (newExecutor .parallel ()).executeOperands
    [[⟨"A", [], .requeueOnError⟩, ⟨"B", [], .requeueAlways⟩], [⟨"C", ["A", "B"], .requeueOnError⟩]]
    callCleanup () {}

theorem executeOperands_barrier_twoStepCleanup :
    ∃ s, twoStepCleanup.Reaches s ∧ s.control = .returned {} none ∧
      startCount s.log 1 0 = 1 ∧ finishCount s.log 1 0 = 1 := by
  obtain ⟨log, hreach⟩ := quiet_complete (x := twoStepCleanup) (.inr rfl) (cleanup_quiet _ _ _ _)
  exact ⟨_, hreach, rfl, (executeOperands_barrier hreach).2.2 _ rfl rfl 1 0 (by decide)⟩

end Errors

end OperatorToolkit.Operator
