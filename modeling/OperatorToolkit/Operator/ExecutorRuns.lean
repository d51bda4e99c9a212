import OperatorToolkit.Operator.Executor

/-!
# Runs of the executor

The executor is never forced into a particular interleaving; the runs built here take the operands
of a step in list order. They show that an execution can be driven to its end with given outcomes,
and how far it has got when a given operand is about to start.
-/

namespace OperatorToolkit.Operator

open Relation

variable {Obj Event Err : Type} {x : Execution Obj Event Err} {k : ℕ}

/-- The log of operands that run one after another. -/
def runEvents (k : ℕ) : ℕ → List (OperandRun Obj Event Err) →
    List (Staged.Event (OperandRun Obj Event Err))
  | _, [] => []
  | i, r :: rest => .started k i :: .finished k i r :: runEvents k (i + 1) rest

/-- A run without error and without event. -/
def OperandRun.Quiet (r : OperandRun Obj Event Err) : Prop := r.outcome = ⟨none, none⟩

theorem mem_runEvents {runs : List (OperandRun Obj Event Err)} {i k' j : ℕ}
    {r : OperandRun Obj Event Err} (h : .finished k' j r ∈ runEvents k i runs) :
    k' = k ∧ j < i + runs.length := by
  induction runs generalizing i with
  | nil => cases h
  | cons r' rest ih =>
    simp only [runEvents, List.mem_cons, reduceCtorEq, Staged.Event.finished.injEq, false_or] at h
    rcases h with ⟨rfl, rfl, rfl⟩ | h
    · exact ⟨rfl, by simp⟩
    · obtain ⟨rfl, hj⟩ := ih h
      exact ⟨rfl, by simp; omega⟩

theorem exists_quiet_runs (hquiet : ∀ op, ∃ r, x.Produces op r ∧ r.Quiet) (ops : List Operand) :
    ∃ runs, List.Forall₂ x.Produces ops runs ∧ ∀ r ∈ runs, r.Quiet := by
  induction ops with
  | nil => exact ⟨[], .nil, by simp⟩
  | cons op rest ih =>
    obtain ⟨r, hr, hq⟩ := hquiet op
    obtain ⟨runs, hruns, hqs⟩ := ih
    exact ⟨r :: runs, .cons hr hruns, by simpa using ⟨hq, hqs⟩⟩

theorem lt_length_of_lt_step {i : ℕ} (hi : i < (x.step k).length) : k < x.order.length := by
  by_contra hk
  simp [Execution.step, List.getElem?_eq_none (Nat.le_of_not_lt hk)] at hi

variable [ErrorValues Err]

/-! ## The parallel strategy -/

theorem spawn_all (m : ℕ) {gs : List (Goroutine Obj Event Err)} {wg : ℕ} {errs : List Err}
    {ress : List Result} {log : List (Staged.Event (OperandRun Obj Event Err))} {rec : List Event}
    (hm : gs.length + m ≤ (x.step k).length) :
    ReflTransGen (ExecStep x) ⟨.concurrent k ⟨gs, wg, errs, ress⟩, log, rec⟩
      ⟨.concurrent k ⟨gs ++ List.replicate m .ready, wg, errs, ress⟩, log, rec⟩ := by
  induction m generalizing gs with
  | zero => simpa using ReflTransGen.refl
  | succ m ih =>
    refine .head (.spawn (by omega)) ?_
    have hrest := @ih (gs ++ [.ready]) (by simp; omega)
    simpa [List.replicate_succ] using hrest

/-- A goroutine with room in the channels can run to its end. -/
theorem goroutine_exits {pre post : List (Goroutine Obj Event Err)} {wg : ℕ} {errs : List Err}
    {ress : List Result} {log : List (Staged.Event (OperandRun Obj Event Err))} {rec : List Event}
    {op : Operand} {r : OperandRun Obj Event Err} (hop : (x.step k)[pre.length]? = some op)
    (hr : x.Produces op r) (herrs : errs.length < (x.step k).length)
    (hress : ress.length < (x.step k).length) :
    ReflTransGen (ExecStep x)
      ⟨.concurrent k ⟨pre ++ .ready :: post, wg, errs, ress⟩, log, rec⟩
      ⟨.concurrent k ⟨pre ++ .exited r :: post, wg - 1, errs ++ r.outcome.err.toList,
          ress ++ (r.outcome.event.map fun _ ↦ ({} : Result)).toList⟩,
        log ++ [.started k pre.length, .finished k pre.length r],
        rec ++ r.outcome.event.toList⟩ := by
  have hreturned : ReflTransGen (ExecStep x)
      ⟨.concurrent k ⟨pre ++ .ready :: post, wg, errs, ress⟩, log, rec⟩
      ⟨.concurrent k ⟨pre ++ .returned r :: post, wg, errs, ress⟩,
        log ++ [.started k pre.length, .finished k pre.length r], rec⟩ := by
    refine .head .callStart (.head (.callReturn hop hr) ?_)
    simpa using ReflTransGen.refl
  have hsent (log) : ReflTransGen (ExecStep x)
      ⟨.concurrent k ⟨pre ++ .returned r :: post, wg, errs, ress⟩, log, rec⟩
      ⟨.concurrent k ⟨pre ++ .errorSent r :: post, wg, errs ++ r.outcome.err.toList, ress⟩,
        log, rec⟩ := by
    cases herr : r.outcome.err with
    | none => simpa using ReflTransGen.single (ExecStep.noError herr)
    | some err => exact .single (.sendError herr herrs)
  have hfinished (log errs) : ReflTransGen (ExecStep x)
      ⟨.concurrent k ⟨pre ++ .errorSent r :: post, wg, errs, ress⟩, log, rec⟩
      ⟨.concurrent k ⟨pre ++ .finished r :: post, wg, errs,
        ress ++ (r.outcome.event.map fun _ ↦ ({} : Result)).toList⟩, log,
        rec ++ r.outcome.event.toList⟩ := by
    cases hevent : r.outcome.event with
    | none => simpa using ReflTransGen.single (ExecStep.noEvent hevent)
    | some event => exact .head (.record hevent) (.single (.sendResult hress))
  exact ((hreturned.trans (hsent _)).trans (hfinished _ _)).tail .waitGroupDone

/-- The goroutines of the operands `ops` run to their ends one after another. -/
theorem goroutines_exit {ops : List Operand} {runs : List (OperandRun Obj Event Err)}
    (hruns : List.Forall₂ x.Produces ops runs) {before after : List Operand}
    {gs : List (Goroutine Obj Event Err)} {errs : List Err} {ress : List Result}
    {log : List (Staged.Event (OperandRun Obj Event Err))} {rec : List Event}
    (hstep : x.step k = before ++ ops ++ after) (hgs : gs.length = before.length)
    (herrs : errs.length ≤ gs.length) (hress : ress.length ≤ gs.length) :
    ReflTransGen (ExecStep x)
      ⟨.concurrent k ⟨gs ++ List.replicate (ops.length + after.length) .ready,
          ops.length + after.length, errs, ress⟩, log, rec⟩
      ⟨.concurrent k ⟨gs ++ runs.map .exited ++ List.replicate after.length .ready, after.length,
          errs ++ runs.filterMap (·.outcome.err),
          ress ++ (runs.filterMap (·.outcome.event)).map fun _ ↦ ({} : Result)⟩,
        log ++ runEvents k gs.length runs, rec ++ runs.filterMap (·.outcome.event)⟩ := by
  induction hruns generalizing before gs errs ress log rec with
  | nil => simpa [runEvents] using ReflTransGen.refl
  | @cons op r ops runs hr hruns ih =>
    have hop : (x.step k)[gs.length]? = some op := by simp [hstep, hgs]
    have hlength : gs.length < (x.step k).length := (List.getElem?_eq_some_iff.mp hop).1
    have hfirst := @goroutine_exits _ _ _ x k _ gs
      (List.replicate (ops.length + after.length) .ready) (ops.length + 1 + after.length) errs ress
      log rec op r hop hr (by omega) (by omega)
    have herr : r.outcome.err.toList.length ≤ 1 := by cases r.outcome.err <;> simp
    have hevent : (r.outcome.event.map fun _ ↦ ({} : Result)).toList.length ≤ 1 := by
      cases r.outcome.event <;> simp
    have hrest := @ih (before ++ [op]) (gs ++ [.exited r]) (errs ++ r.outcome.err.toList)
      (ress ++ (r.outcome.event.map fun _ ↦ ({} : Result)).toList)
      (log ++ [.started k gs.length, .finished k gs.length r]) (rec ++ r.outcome.event.toList)
      (by simp [hstep]) (by simp [hgs])
      (by simp only [List.length_append, List.length_singleton]; omega)
      (by simp only [List.length_append, List.length_singleton]; omega)
    have hready : gs ++ List.replicate ((op :: ops).length + after.length) .ready =
        gs ++ .ready :: List.replicate (ops.length + after.length) .ready := by
      rw [List.length_cons, Nat.add_right_comm, List.replicate_succ]
    have herrs' : (r :: runs).filterMap (·.outcome.err) =
        r.outcome.err.toList ++ runs.filterMap (·.outcome.err) := by
      cases h : r.outcome.err <;> simp [h]
    have hevents : (r :: runs).filterMap (·.outcome.event) =
        r.outcome.event.toList ++ runs.filterMap (·.outcome.event) := by
      cases h : r.outcome.event <;> simp [h]
    rw [hready, herrs', hevents]
    refine hfirst.trans ?_
    have hwg : ops.length + 1 + after.length - 1 = ops.length + after.length := by omega
    rw [hwg]
    simpa [runEvents, Option.toList_map] using hrest

/-- `concurrentExec` can return with the errors and events of any runs of its operands. -/
theorem concurrentExec_returns {runs : List (OperandRun Obj Event Err)}
    (hruns : List.Forall₂ x.Produces (x.step k) runs)
    (log : List (Staged.Event (OperandRun Obj Event Err))) (rec : List Event) :
    ReflTransGen (ExecStep x) ⟨.concurrent k ⟨[], (x.step k).length, [], []⟩, log, rec⟩
      ⟨.stepDone k (if 0 < (runs.filterMap (·.outcome.event)).length then some {} else none)
          (collectErrors (runs.filterMap (·.outcome.err))),
        log ++ runEvents k 0 runs, rec ++ runs.filterMap (·.outcome.event)⟩ := by
  have hspawn :=
    @spawn_all _ _ _ x k _ (x.step k).length [] (x.step k).length [] [] log rec (by simp)
  have hexit := @goroutines_exit _ _ _ x k _ (x.step k) runs hruns [] [] [] [] [] log rec
    (by simp) rfl (by simp) (by simp)
  have hjoin (errs : List Err) (ress : List Result) (log) (rec) :
      ExecStep x ⟨.concurrent k ⟨runs.map .exited, 0, errs, ress⟩, log, rec⟩ _ :=
    .join (by simp [hruns.length_eq])
  have hrun := (hspawn.trans (by simpa using hexit)).tail (hjoin _ _ _ _)
  simpa only [List.length_replicate] using hrun

/-- A parallel step reports the errors and events of its runs. -/
theorem parallel_step (hstrategy : x.strategy = .parallel) (hk : k < x.order.length)
    {runs : List (OperandRun Obj Event Err)} (hruns : List.Forall₂ x.Produces (x.step k) runs)
    (log : List (Staged.Event (OperandRun Obj Event Err))) (rec : List Event) :
    ReflTransGen (ExecStep x) ⟨.loop k, log, rec⟩
      ⟨.stepDone k (if 0 < (runs.filterMap (·.outcome.event)).length then some {} else none)
          (collectErrors (runs.filterMap (·.outcome.err))),
        log ++ runEvents k 0 runs, rec ++ runs.filterMap (·.outcome.event)⟩ :=
  .head (.concurrentEnter hk hstrategy) (concurrentExec_returns hruns log rec)

/-- Any operand of a parallel step can be the first to start. -/
theorem parallel_start (hstrategy : x.strategy = .parallel) {i : ℕ} (hi : i < (x.step k).length)
    (log : List (Staged.Event (OperandRun Obj Event Err))) (rec : List Event) :
    ∃ control, ReflTransGen (ExecStep x) ⟨.loop k, log, rec⟩
      ⟨control, log ++ [.started k i], rec⟩ := by
  have hk : k < x.order.length := lt_length_of_lt_step hi
  have hspawn := @spawn_all _ _ _ x k _ (x.step k).length [] (x.step k).length [] [] log rec
    (by simp)
  have hsplit : List.replicate (x.step k).length (.ready : Goroutine Obj Event Err) =
      List.replicate i .ready ++ .ready :: List.replicate ((x.step k).length - i - 1) .ready := by
    rw [← List.replicate_succ, ← List.replicate_add]
    congr 1
    omega
  rw [List.nil_append, hsplit] at hspawn
  have hstart := @ExecStep.callStart _ _ _ _ x k (List.replicate i .ready)
    (List.replicate ((x.step k).length - i - 1) .ready) (x.step k).length [] [] log rec
  rw [List.length_replicate] at hstart
  exact ⟨_, (ReflTransGen.head (.concurrentEnter hk hstrategy) hspawn).tail hstart⟩

/-! ## The serial strategy -/

theorem serial_quiet {ops : List Operand} {runs : List (OperandRun Obj Event Err)}
    (hruns : List.Forall₂ x.Produces ops runs) (hquiet : ∀ r ∈ runs, r.Quiet)
    {before after : List Operand} (hstep : x.step k = before ++ ops ++ after)
    {log : List (Staged.Event (OperandRun Obj Event Err))} {rec : List Event} :
    ReflTransGen (ExecStep x) ⟨.serial k before.length none, log, rec⟩
      ⟨.serial k (before.length + ops.length) none, log ++ runEvents k before.length runs,
        rec⟩ := by
  induction hruns generalizing before log with
  | nil => simpa [runEvents] using ReflTransGen.refl
  | @cons op r ops runs hr hruns ih =>
    have hop : (x.step k)[before.length]? = some op := by simp [hstep]
    have hr' : r.outcome = ⟨none, none⟩ := hquiet r List.mem_cons_self
    have hrest := @ih (fun r hr ↦ hquiet r (List.mem_cons_of_mem _ hr)) (before ++ [op])
      (by simp [hstep]) (log ++ [.started k before.length, .finished k before.length r])
    refine .head (.serialStart (List.getElem?_eq_some_iff.mp hop).1) ?_
    refine .head (.serialNext hop hr (by simp [hr'])) ?_
    simpa [hr', runEvents, Nat.add_comm, Nat.add_left_comm] using hrest

/-! ## Quiet runs under either strategy -/

/-- A step whose operands all run quietly. -/
theorem quiet_step (hstrategy : x.strategy = .serial ∨ x.strategy = .parallel)
    (hk : k < x.order.length) {runs : List (OperandRun Obj Event Err)}
    (hruns : List.Forall₂ x.Produces (x.step k) runs) (hquiet : ∀ r ∈ runs, r.Quiet)
    (log : List (Staged.Event (OperandRun Obj Event Err))) :
    ReflTransGen (ExecStep x) ⟨.loop k, log, []⟩
      ⟨.loop (k + 1), log ++ runEvents k 0 runs, []⟩ := by
  rcases hstrategy with hserial | hparallel
  · have hrun := @serial_quiet _ _ _ x k _ (x.step k) runs hruns hquiet [] [] (by simp) log []
    refine .head (.serialEnter hk hserial) (.trans (by simpa using hrun) ?_)
    exact .head (.serialEnd rfl) (.single (.stepNext (by simp)))
  · have hevents : runs.filterMap (·.outcome.event) = [] := by
      refine List.filterMap_eq_nil_iff.mpr fun r hr ↦ ?_
      rw [show r.outcome = ⟨none, none⟩ from hquiet r hr]
    have herrs : runs.filterMap (·.outcome.err) = [] := by
      refine List.filterMap_eq_nil_iff.mpr fun r hr ↦ ?_
      rw [show r.outcome = ⟨none, none⟩ from hquiet r hr]
    have hrun := parallel_step hparallel hk hruns log []
    rw [hevents, herrs] at hrun
    exact hrun.tail (.stepNext (by simp))

section Quiet

variable (hstrategy : x.strategy = .serial ∨ x.strategy = .parallel)
  (hquiet : ∀ op, ∃ r, x.Produces op r ∧ r.Quiet)

include hstrategy hquiet

/-- The steps before `m` can all be run quietly. -/
theorem quiet_steps {m : ℕ} (hm : m ≤ x.order.length) :
    ∃ log, x.Reaches ⟨.loop m, log, []⟩ ∧ ∀ k i r, .finished k i r ∈ log → k < m := by
  induction m with
  | zero => exact ⟨[], .refl, by simp⟩
  | succ m ih =>
    obtain ⟨log, hreach, hlog⟩ := ih (by omega)
    obtain ⟨runs, hruns, hqs⟩ := exists_quiet_runs hquiet (x.step m)
    have hrun := quiet_step hstrategy (by omega) hruns hqs log
    refine ⟨_, ReflTransGen.trans hreach hrun, fun k i r hr ↦ ?_⟩
    rcases List.mem_append.mp hr with hr | hr
    · exact Nat.lt_succ_of_lt (hlog k i r hr)
    · have := (mem_runEvents hr).1
      omega

/-- All steps can be run quietly, and the execution then returns an empty result. -/
theorem quiet_complete : ∃ log, x.Reaches ⟨.returned {} none, log, []⟩ := by
  obtain ⟨log, hreach, -⟩ := quiet_steps hstrategy hquiet (Nat.le_refl _)
  exact ⟨log, ReflTransGen.tail hreach (.loopEnd (Nat.le_refl _))⟩

end Quiet

omit [ErrorValues Err] in
/-- A `Delete` can return neither event nor error. -/
theorem cleanup_quiet {Recorder : Type} (exe : Executor Recorder) (order : OperandOrder) (obj : Obj)
    (ownerRef : OwnerReference) (op : Operand) :
    ∃ r : OperandRun Obj Event Err,
      (exe.executeOperands order callCleanup obj ownerRef).Produces op r ∧ r.Quiet :=
  ⟨⟨[⟨.delete op obj, ⟨none, none⟩⟩], ⟨none, none⟩⟩, .call (.done _), rfl⟩

end OperatorToolkit.Operator
