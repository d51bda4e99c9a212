import OperatorToolkit.Operator.Ensure
import Mathlib.Order.Bounds.Basic

/-!
# How often Ensure asks for a requeue

An operand that has applied its change has nothing more to report. A call of `Ensure` that asks for
a requeue has stopped at a step with an event, after every operand up to that step was run; the
events of these operands are used up, so the next such call gets further. The number of requeues is
therefore bounded by the number of steps that can ask for one, and a call on an object that is not
suspended and asks for none has run everything.
-/

namespace OperatorToolkit.Operator

open Interaction Staged

variable {Ctx Obj Recorder Event Err : Type}

/-- The greatest step of which an operand has been started. -/
def LastStep (log : List (Staged.Event (OperandRun Obj Event Err))) (m : ℕ) : Prop :=
  IsGreatest {k | ∃ i, .started k i ∈ log} m

section Execution

variable [ErrorValues Err] {x : Execution Obj Event Err} {s : ExecState Obj Event Err}

/-- An execution that asks for a requeue without an error has stopped at some step, after all
operands up to it were run. -/
structure RequeuedAt (x : Execution Obj Event Err)
    (log : List (Staged.Event (OperandRun Obj Event Err))) (m : ℕ) : Prop where
  lt_length : m < x.order.length
  always : ∃ op ∈ x.step m, op.requeueStrategy = .requeueAlways
  event : ∃ i < (x.step m).length, ∃ r, .finished m i r ∈ log ∧ r.outcome.event.isSome
  lastStep : LastStep log m
  finished : ∀ k ≤ m, ∀ i < (x.step k).length, ∃ r, .finished k i r ∈ log

theorem exists_requeuedAt (h : x.Reaches s) {result : Result}
    (hs : s.control = .returned result none) (hrequeue : result.requeue = true) :
    ∃ m, RequeuedAt x s.log m := by
  obtain ⟨a, hreach, hlog, href⟩ := h.refines
  have hvalid := hreach.valid
  rw [hs] at href
  cases href with
  | complete => cases hrequeue
  | @changed _ runs res hlt hcurrent hclean hres halways =>
    obtain ⟨r, hr, hevent⟩ := hclean.result_iff.mp hres
    obtain ⟨j, hj⟩ := mem_log_of_mem_current hvalid (hcurrent ▸ List.mem_map_of_mem hr)
    obtain ⟨op, hop, -⟩ := hvalid.produces (hvalid.mem_finished_iff.mp hj)
    refine ⟨a.past.length, hlt, (stepRequeueStrategy_eq_always_iff _).mp halways,
      ⟨j, (List.getElem?_eq_some_iff.mp hop).1, r, hlog ▸ hj, hevent⟩, ⟨⟨j, ?_⟩, ?_⟩,
      fun k hk i hi ↦ ?_⟩
    · rw [← hlog, hvalid.mem_started_iff, hvalid.mem_finished_iff.mp hj]
      nofun
    · rintro k ⟨i, hstarted⟩
      by_contra hgt
      rw [← hlog, hvalid.mem_started_iff, State.statusAt, if_neg (by omega), if_neg (by omega)]
        at hstarted
      exact hstarted rfl
    · rw [← hlog]
      rcases Nat.lt_or_eq_of_le hk with hlt | rfl
      · exact (stepPassed_of_closed (hvalid.closed hlt)).all_finished i hi
      · have hlength := hvalid.current_length
        rw [hcurrent, List.length_map, x.plan_stage] at hlength
        refine ⟨runs[i], hvalid.mem_finished_iff.mpr ?_⟩
        simp [State.statusAt, hcurrent, hlength ▸ hi]

end Execution

/-! ## Successive calls -/

/-- One call of `Ensure`: its arguments, the operand runs it made and what it returned. -/
structure EnsureCall (Ctx Obj Event Err : Type) where
  ctx : Ctx
  obj : Obj
  ownerRef : OwnerReference
  log : List (Staged.Event (OperandRun Obj Event Err))
  out : Result × Option Err

/-- No operand fails or is not ready, and none reports an event if an earlier call has run it. -/
structure AppliedOnce (calls : List (EnsureCall Ctx Obj Event Err)) : Prop where
  err_eq_none : ∀ call ∈ calls, ∀ k i r, .finished k i r ∈ call.log → r.outcome.err = none
  event_once : calls.Pairwise fun call call' ↦ ∀ k i r r', .finished k i r ∈ call.log →
    .finished k i r' ∈ call'.log → r'.outcome.event = none

section Calls

variable [OperandErrors Err] {D : DagLib Err Operand} {co : CompositeOperator Ctx Obj Recorder D}
  {calls : List (EnsureCall Ctx Obj Event Err)}

/-- Calls of `Ensure` on one operator. -/
def CompositeOperator.Calls (co : CompositeOperator Ctx Obj Recorder D)
    (calls : List (EnsureCall Ctx Obj Event Err)) : Prop :=
  ∀ call ∈ calls, co.EnsureReturns call.ctx call.obj call.ownerRef call.log call.out

/-- Whether a step of the order has an operand that asks to be requeued always. -/
def requeuesAlways (ops : List Operand) : Bool :=
  ops.any fun op ↦ op.requeueStrategy = .requeueAlways

omit [OperandErrors Err] in
theorem countP_order (order : OperandOrder) :
    order.countP requeuesAlways =
      ((List.range order.length).filter fun k ↦ requeuesAlways (order.getD k [])).length := by
  have horder : (List.range order.length).map (order.getD · []) = order := by
    refine List.ext_getElem (by simp) fun k hk hk' ↦ ?_
    simp [hk']
  rw [← List.countP_eq_length_filter]
  conv_lhs => rw [← horder]
  exact List.countP_map

theorem CompositeOperator.EnsureReturns.of_suspended {ctx : Ctx} {obj : Obj}
    {ownerRef : OwnerReference} {log : List (Staged.Event (OperandRun Obj Event Err))}
    {out : Result × Option Err} (h : co.EnsureReturns ctx obj ownerRef log out)
    (hsuspended : co.isSuspended ctx obj = true) : out = ({}, none) := by
  cases h with
  | suspended => rfl
  | executed hactive => simp [hactive] at hsuspended

section Applied

variable (hstrategy : co.executor.execStrategy = .serial ∨ co.executor.execStrategy = .parallel)
  (hcalls : co.Calls calls) (happlied : AppliedOnce calls)

include hstrategy hcalls happlied

theorem CompositeOperator.Calls.executed {call : EnsureCall Ctx Obj Event Err}
    (hcall : call ∈ calls) (hactive : co.isSuspended call.ctx call.obj = false) :
    ∃ res rec, (co.ensureExecution call.obj call.ownerRef).Reaches
      ⟨.returned res none, call.log, rec⟩ ∧ call.out = (res, none) := by
  obtain ⟨res, execErr, rec, hreach, hout⟩ := (hcalls call hcall).of_active hactive
  cases execErr with
  | none => exact ⟨res, rec, hreach, hout⟩
  | some err =>
    have hknown : ∀ value, co.executor.execStrategy ≠ .unknown value := by
      rcases hstrategy with hs | hs <;> simp [hs]
    obtain ⟨k, hfailed⟩ := failedAt_of_returned hknown hreach rfl
    obtain ⟨i, r, e, hr, he⟩ := hfailed.exists_error
    rw [happlied.err_eq_none call hcall k i r hr] at he
    cases he

theorem CompositeOperator.Calls.requeuedAt {call : EnsureCall Ctx Obj Event Err}
    (hcall : call ∈ calls) (hrequeue : call.out.1.requeue = true) :
    ∃ m, RequeuedAt (co.ensureExecution call.obj call.ownerRef) call.log m := by
  cases hactive : co.isSuspended call.ctx call.obj with
  | false =>
    obtain ⟨res, rec, hreach, hout⟩ := hcalls.executed hstrategy happlied hcall hactive
    rw [hout] at hrequeue
    exact exists_requeuedAt hreach rfl hrequeue
  | true =>
    rw [(hcalls call hcall).of_suspended hactive] at hrequeue
    cases hrequeue

omit hstrategy hcalls happlied in
/-- A call that asks for a requeue gets further than an earlier one, since the events of the steps
up to where that one stopped have been reported. -/
theorem RequeuedAt.lt {call call' : EnsureCall Ctx Obj Event Err} {m m' : ℕ}
    (h : RequeuedAt (co.ensureExecution call.obj call.ownerRef) call.log m)
    (h' : RequeuedAt (co.ensureExecution call'.obj call'.ownerRef) call'.log m')
    (honce : ∀ k i r r', .finished k i r ∈ call.log → .finished k i r' ∈ call'.log →
      r'.outcome.event = none) : m < m' := by
  by_contra hle
  obtain ⟨i, hi, r', hr', hevent⟩ := h'.event
  obtain ⟨r, hr⟩ := h.finished m' (Nat.le_of_not_lt hle) i hi
  rw [honce m' i r r' hr hr'] at hevent
  cases hevent

/-- The steps at which the calls that ask for a requeue stop are different steps with a
`RequeueAlways` operand. -/
theorem length_requeues_le : (calls.filter (·.out.1.requeue)).length ≤
    co.order.countP requeuesAlways := by
  let requeues := calls.filter (·.out.1.requeue)
  have hrequeued : ∀ call ∈ requeues,
      ∃ m, RequeuedAt (co.ensureExecution call.obj call.ownerRef) call.log m := by
    intro call hcall
    obtain ⟨hmem, hrequeue⟩ := List.mem_filter.mp hcall
    exact hcalls.requeuedAt hstrategy happlied hmem hrequeue
  choose! stop hstop using hrequeued
  have hincreasing : (requeues.map stop).Pairwise (· < ·) := by
    refine List.pairwise_map.mpr ((happlied.event_once.filter _).imp_of_mem ?_)
    intro call call' hcall hcall' honce
    exact (hstop call hcall).lt (hstop call' hcall') honce
  have hsteps : requeues.map stop ⊆
      (List.range co.order.length).filter fun k ↦ requeuesAlways (co.order.getD k []) := by
    intro m hm
    obtain ⟨call, hcall, rfl⟩ := List.mem_map.mp hm
    have hat := hstop call hcall
    refine List.mem_filter.mpr ⟨List.mem_range.mpr hat.lt_length, ?_⟩
    obtain ⟨op, hop, halways⟩ := hat.always
    exact List.any_eq_true.mpr ⟨op, hop, decide_eq_true halways⟩
  have hdistinct : (requeues.map stop).Nodup := hincreasing.imp Nat.ne_of_lt
  rw [countP_order]
  calc requeues.length = (requeues.map stop).length := (List.length_map stop).symm
    _ ≤ _ := (List.subperm_of_subset hdistinct hsteps).length_le

end Applied

/-- **Requeues.** If every change is applied once, the calls that ask for a requeue stop at later
and later steps, there are at most as many of them as there are steps with a `RequeueAlways`
operand, and a call on an object that is not suspended and that asks for no requeue has run every
operand. -/
theorem ensure_requeues
    (hstrategy : co.executor.execStrategy = .serial ∨ co.executor.execStrategy = .parallel)
    (hcalls : co.Calls calls) (happlied : AppliedOnce calls) :
    (calls.filter (·.out.1.requeue)).length ≤ co.order.countP requeuesAlways ∧
      (∀ call ∈ calls, call.out.1.requeue = true → ∃ m, LastStep call.log m) ∧
      ((calls.filter (·.out.1.requeue)).Pairwise fun call call' ↦
        ∀ m m', LastStep call.log m → LastStep call'.log m' → m < m') ∧
      ∀ call ∈ calls, call.out.1.requeue = false → co.isSuspended call.ctx call.obj = false →
        ∀ k i, i < (co.order.getD k []).length →
          startCount call.log k i = 1 ∧ finishCount call.log k i = 1 := by
  refine ⟨length_requeues_le hstrategy hcalls happlied, fun call hcall hrequeue ↦ ?_, ?_,
    fun call hcall hrequeue hactive k i hi ↦ ?_⟩
  · obtain ⟨m, hm⟩ := hcalls.requeuedAt hstrategy happlied hcall hrequeue
    exact ⟨m, hm.lastStep⟩
  · refine (happlied.event_once.filter _).imp_of_mem ?_
    intro call call' hcall hcall' honce m m' hm hm'
    obtain ⟨hmem, hrequeue⟩ := List.mem_filter.mp hcall
    obtain ⟨hmem', hrequeue'⟩ := List.mem_filter.mp hcall'
    obtain ⟨n, hn⟩ := hcalls.requeuedAt hstrategy happlied hmem hrequeue
    obtain ⟨n', hn'⟩ := hcalls.requeuedAt hstrategy happlied hmem' hrequeue'
    rw [hm.unique hn.lastStep, hm'.unique hn'.lastStep]
    exact hn.lt hn' honce
  · obtain ⟨res, rec, hreach, hout⟩ := hcalls.executed hstrategy happlied hcall hactive
    rw [hout] at hrequeue
    exact hreach.counts_of_returned rfl hrequeue hi

/-- A run of an operand that is ready; the event is what its `Ensure` reports. -/
def readyRun (op : Operand) (obj : Obj) (ownerRef : OwnerReference) (event : Option Event) :
    OperandRun Obj Event Err :=
  ⟨[⟨.ensure op obj ownerRef, Outcome.mk event none⟩, ⟨.readyCheck op obj, (true, none)⟩,
    ⟨.postReady op obj, none⟩], ⟨event, none⟩⟩

/-- The log of steps with one operand each, all of them ready, up to the first that reports an
event. -/
def readySteps (obj : Obj) (ownerRef : OwnerReference) :
    ℕ → List (Operand × Option Event) → List (Staged.Event (OperandRun Obj Event Err))
  | _, [] => []
  | k, (op, some event) :: _ => runEvents k 0 [readyRun op obj ownerRef (some event)]
  | k, (op, none) :: rest =>
    runEvents k 0 [readyRun op obj ownerRef none] ++ readySteps obj ownerRef (k + 1) rest

/-- The execution of such steps, from one of them on. -/
theorem reaches_readySteps {obj : Obj} {ownerRef : OwnerReference}
    (hparallel : co.executor.execStrategy = .parallel) (pre : List (Operand × Option Event))
    {ops : List (Operand × Option Event)} (horder : co.order = (pre ++ ops).map ([·.1]))
    (halways : ∀ op ∈ ops, op.1.requeueStrategy = .requeueAlways)
    (log : List (Staged.Event (OperandRun Obj Event Err))) (rec : List Event) :
    ∃ rec', Relation.ReflTransGen (ExecStep (co.ensureExecution obj ownerRef))
      ⟨.loop pre.length, log, rec⟩
      ⟨.returned { requeue := ops.any (·.2.isSome) } none,
        log ++ readySteps obj ownerRef pre.length ops, rec'⟩ := by
  let x : Execution Obj Event Err := co.ensureExecution obj ownerRef
  have hx : x.order = (pre ++ ops).map ([·.1]) := horder
  induction ops generalizing pre log rec with
  | nil =>
    refine ⟨rec, .single ?_⟩
    rw [readySteps, List.append_nil]
    exact .loopEnd (by change x.order.length ≤ _; simp [hx])
  | cons op ops ih =>
    obtain ⟨op, event⟩ := op
    have hk : pre.length < x.order.length := by simp [hx]
    have hstep : x.step pre.length = [op] := by simp [Execution.step, hx]
    have hproduces : List.Forall₂ x.Produces (x.step pre.length)
        [readyRun op obj ownerRef event] := by
      rw [hstep]
      exact .cons EnsureRun.ready.runs .nil
    have hdone := parallel_step hparallel hk hproduces log rec
    cases event with
    | some event =>
      have hstrategy : stepRequeueStrategy (x.step pre.length) = .requeueAlways := by
        rw [hstep]
        exact if_pos (halways _ List.mem_cons_self)
      exact ⟨_, hdone.tail (.stepChanged rfl hstrategy)⟩
    | none =>
      have hnext := hdone.tail (.stepNext (by simp [readyRun]))
      have hpre : co.order = (pre ++ [(op, (none : Option Event))] ++ ops).map ([·.1]) := by
        rw [horder, List.append_cons]
      obtain ⟨rec', hrest⟩ := ih _ hpre (fun op hop ↦ halways op (List.mem_cons_of_mem _ hop)) _ _
        (hx.trans (by rw [List.append_cons]))
      rw [List.length_append, List.length_singleton] at hrest
      refine ⟨rec', ?_⟩
      rw [readySteps, ← List.append_assoc]
      exact hnext.trans hrest

/-- An operator with one operand in each step asks for a requeue when one of them reports an
event. -/
theorem ensureReturns_ready {ctx : Ctx} {obj : Obj} {ownerRef : OwnerReference}
    (hparallel : co.executor.execStrategy = .parallel) {ops : List (Operand × Option Event)}
    (horder : co.order = ops.map ([·.1]))
    (halways : ∀ op ∈ ops, op.1.requeueStrategy = .requeueAlways)
    (hactive : co.isSuspended ctx obj = false) :
    co.EnsureReturns ctx obj ownerRef (readySteps obj ownerRef 0 ops)
      ({ requeue := ops.any (·.2.isSome) }, (none : Option Err)) := by
  obtain ⟨rec', hreach⟩ := reaches_readySteps hparallel [] horder halways [] []
  exact .executed hactive hreach

end Calls

/-! ## An operator with two steps -/

def databaseOperand : Operand := ⟨"database", [], .requeueAlways⟩

def serverOperand : Operand := ⟨"server", ["database"], .requeueAlways⟩

/-- A call in which the two operands report these events. -/
def gameCall (database server : Option String) : EnsureCall Unit Unit String GoError where
  ctx := ()
  obj := ()
  ownerRef := {}
  log := readySteps () {} 0 [(databaseOperand, database), (serverOperand, server)]
  out := ({ requeue := database.isSome || server.isSome }, none)

/-- The database is created in the first call, the server in the second one. -/
def gameCalls : List (EnsureCall Unit Unit String GoError) :=
  [gameCall (some "created") none, gameCall none (some "started"), gameCall none none]

theorem appliedOnce_gameCalls : AppliedOnce gameCalls := by
  constructor
  · simp only [gameCalls, gameCall, readySteps, runEvents, readyRun]
    grind
  · simp only [gameCalls, gameCall, readySteps, runEvents, readyRun]
    grind

/-- Two calls ask for a requeue, the second one at the later step, and the third call runs all. -/
theorem ensure_requeues_database :
    ∃ co : CompositeOperator Unit Unit Unit (orderedDag GoError Operand),
      newCompositeOperator _ (.stored _) [withEventRecorder (),
        withOperands [databaseOperand, serverOperand]] 3 = some (.ok co) ∧
      co.order = [[databaseOperand], [serverOperand]] ∧ co.Calls gameCalls ∧
      (gameCalls.filter (·.out.1.requeue)).length = 2 ∧
      (gameCalls.filter (·.out.1.requeue)).length ≤ co.order.countP requeuesAlways ∧
      ((gameCalls.filter (·.out.1.requeue)).Pairwise fun call call' ↦
        ∀ m m', LastStep call.log m → LastStep call'.log m' → m < m') ∧
      startCount (gameCall none none).log 1 0 = 1 := by
  obtain ⟨co, hnew, horder, hparallel, hactive⟩ :
      ∃ co : CompositeOperator Unit Unit Unit (orderedDag GoError Operand),
        newCompositeOperator _ (.stored _) [withEventRecorder (),
          withOperands [databaseOperand, serverOperand]] 3 = some (.ok co) ∧
        co.order = [[databaseOperand], [serverOperand]] ∧
        co.executor.execStrategy = .parallel ∧ co.isSuspended () () = false :=
    ⟨_, rfl, rfl, rfl, rfl⟩
  have hcall (database server : Option String) : co.EnsureReturns () () {}
      (gameCall database server).log (gameCall database server).out := by
    have hreturns := @ensureReturns_ready _ _ _ _ _ _ _ co () () {} hparallel
      [(databaseOperand, database), (serverOperand, server)] horder
      (by simp [databaseOperand, serverOperand]) hactive
    simpa [gameCall] using hreturns
  have hcalls : co.Calls gameCalls := by
    intro call hmem
    simp only [gameCalls, List.mem_cons, List.not_mem_nil, or_false] at hmem
    rcases hmem with rfl | rfl | rfl <;> exact hcall _ _
  obtain ⟨hcount, -, hlater, hall⟩ := ensure_requeues (.inr hparallel) hcalls appliedOnce_gameCalls
  refine ⟨co, hnew, horder, hcalls, rfl, hcount, hlater, ?_⟩
  exact (hall (gameCall none none) (by simp [gameCalls]) rfl hactive 1 0 (by simp [horder])).1

/-- A call on a suspended object asks for no requeue and runs nothing. -/
theorem ensure_suspended_runs_nothing :
    ∃ co : CompositeOperator Unit Unit Unit (orderedDag GoError Operand),
      newCompositeOperator _ (.stored _) [withEventRecorder (), withOperands [databaseOperand],
        withSuspensionCheck fun _ _ ↦ true] 1 = some (.ok co) ∧
      co.executor.execStrategy = .parallel ∧ co.order = [[databaseOperand]] ∧
      ∃ call : EnsureCall Unit Unit String GoError, co.Calls [call] ∧ AppliedOnce [call] ∧
        call.out.1.requeue = false ∧ startCount call.log 0 0 = 0 := by
  refine ⟨_, rfl, rfl, rfl, ⟨(), (), {}, [], ({}, none)⟩, ?_, ?_, rfl, rfl⟩
  · intro call hcall
    rw [List.mem_singleton.mp hcall]
    exact .suspended rfl
  · refine ⟨fun call hcall k i r hr ↦ ?_, List.pairwise_singleton _ _⟩
    rw [List.mem_singleton.mp hcall] at hr
    cases hr

end OperatorToolkit.Operator
