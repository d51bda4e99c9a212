import OperatorToolkit.Operator.ExecutorBarrier
import Mathlib.Algebra.GroupWithZero.Nat
import Mathlib.Data.Prod.Lex
import Mathlib.Order.WellFounded

/-!
# Every execution returns

No interleaving of an execution goes on forever: a step of the loop follows another one at most as
often as the order is long, and within a step each statement of each goroutine is passed once. Nor
does an execution get stuck: the channels have room for what the goroutines send, and the wait group
is at zero when the last of them has exited. An execution whose run calls return is therefore bound
to return itself.
-/

namespace OperatorToolkit.Operator

open Relation Staged

variable {Obj Event Err : Type} {x : Execution Obj Event Err} {s s' : ExecState Obj Event Err}

/-! ## Where an execution is -/

/-- The step of the order that the executor is at. -/
def Control.step? : Control Obj Event Err → Option ℕ
  | .loop k | .serial k _ _ | .serialCall k _ _ | .concurrent k _ | .stepDone k _ _ => some k
  | .returned _ _ => none

/-- How many statements a goroutine has before it. -/
def Goroutine.remaining : Goroutine Obj Event Err → ℕ
  | .ready => 6
  | .calling => 5
  | .returned _ => 4
  | .errorSent _ => 3
  | .eventRecorded _ => 2
  | .finished _ => 1
  | .exited _ => 0

/-- A bound on what is left to do in the current step; a goroutine that is still to be started
counts more than one that has been. -/
def Control.remaining (x : Execution Obj Event Err) : Control Obj Event Err → ℕ
  | .loop k => if k < x.order.length then 7 * (x.step k).length + 4 else 1
  | .serial k i _ => 2 * ((x.step k).length - i) + 3
  | .serialCall k i _ => 2 * ((x.step k).length - i) + 2
  | .concurrent k c => 7 * ((x.step k).length - c.goroutines.length) +
      (c.goroutines.map Goroutine.remaining).sum + 3
  | .stepDone _ _ _ => 2
  | .returned _ _ => 0

/-- The steps that are left, then what is left of the current one. -/
def Control.rank (x : Execution Obj Event Err) (c : Control Obj Event Err) : ℕ ×ₗ ℕ :=
  toLex ((c.step?.map (x.order.length - ·)).getD 0, c.remaining x)

theorem Control.rank_lt_of_step {k : ℕ} {c c' : Control Obj Event Err} (hc : c.step? = some k)
    (hc' : c'.step? = some k) (h : c'.remaining x < c.remaining x) : c'.rank x < c.rank x := by
  simp only [rank, hc, hc', Option.map_some, Option.getD_some]
  exact Prod.Lex.toLex_lt_toLex.mpr (.inr ⟨rfl, h⟩)

theorem Control.rank_returned_lt {result : Result} {err : Option Err} {c : Control Obj Event Err}
    (h : 0 < c.remaining x) : Control.rank x (.returned result err) < c.rank x := by
  refine Prod.Lex.toLex_lt_toLex.mpr ?_
  rcases Nat.eq_zero_or_pos ((c.step?.map (x.order.length - ·)).getD 0) with hzero | hpos
  · exact .inr ⟨hzero.symm, h⟩
  · exact .inl hpos

theorem Control.rank_move_lt {k : ℕ} {pre post : List (Goroutine Obj Event Err)}
    {g g' : Goroutine Obj Event Err} {wg wg' : ℕ} {errs errs' : List Err} {ress ress' : List Result}
    (h : g'.remaining < g.remaining) :
    Control.rank x (.concurrent k ⟨pre ++ g' :: post, wg', errs', ress'⟩) <
      Control.rank x (.concurrent k ⟨pre ++ g :: post, wg, errs, ress⟩) := by
  refine rank_lt_of_step rfl rfl ?_
  simp only [remaining, List.map_append, List.map_cons, List.sum_append, List.sum_cons,
    List.length_append, List.length_cons]
  omega

/-! ## What is sent and returned -/

section Channels

variable {ops : List Operand} {c : Concurrent Obj Event Err} {g : Goroutine Obj Event Err}

/-- There is room for the error of a goroutine that has not sent one. -/
theorem ConcurrentOk.errChan_lt (h : ConcurrentOk ops c) (hg : g ∈ c.goroutines)
    (hsent : g.sentError = none) : c.errChan.length < ops.length := by
  have hlt : (c.goroutines.filterMap Goroutine.sentError).length < c.goroutines.length :=
    List.length_filterMap_lt_length_iff_exists.mpr ⟨g, hg, hsent⟩
  calc c.errChan.length = (c.goroutines.filterMap Goroutine.sentError).length :=
        h.errChan_perm.length_eq
    _ < c.goroutines.length := hlt
    _ ≤ ops.length := h.spawned_le

/-- There is room for the result of a goroutine that has not sent one. -/
theorem ConcurrentOk.resultChan_lt (h : ConcurrentOk ops c) (hg : g ∈ c.goroutines)
    (hsent : g.sentResult = false) : c.resultChan.length < ops.length := by
  have hlt : c.goroutines.countP Goroutine.sentResult < c.goroutines.length := by
    refine Nat.lt_of_le_of_ne List.countP_le_length fun heq ↦ ?_
    have hall := List.countP_eq_length.mp heq g hg
    rw [hsent] at hall
    cases hall
  calc c.resultChan.length = c.goroutines.countP Goroutine.sentResult := h.resultChan_length
    _ < c.goroutines.length := hlt
    _ ≤ ops.length := h.spawned_le

/-- The wait group is at zero when all goroutines have been started and have exited. -/
theorem ConcurrentOk.waitGroup_eq_zero (h : ConcurrentOk ops c)
    (hlength : c.goroutines.length = ops.length) (hexited : ∀ g ∈ c.goroutines, g.hasExited) :
    c.waitGroup = 0 := by
  have hcount : c.goroutines.countP Goroutine.hasExited = c.goroutines.length :=
    List.countP_eq_length.mpr hexited
  have hwg := h.waitGroup_eq
  omega

end Channels

/-- The run calls in the log have returned what they were to return; `outcomes k i` is for the
operand at position `i` of step `k`. -/
def Follows (outcomes : ℕ → ℕ → Outcome Event Err)
    (log : List (Staged.Event (OperandRun Obj Event Err))) : Prop :=
  ∀ k i r, .finished k i r ∈ log → r.outcome = outcomes k i

/-- Every run call can return what it is to return. -/
def Execution.Allows (x : Execution Obj Event Err) (outcomes : ℕ → ℕ → Outcome Event Err) : Prop :=
  ∀ k i op, (x.step k)[i]? = some op → ∃ r, x.Produces op r ∧ r.outcome = outcomes k i

variable {outcomes : ℕ → ℕ → Outcome Event Err}
  {log : List (Staged.Event (OperandRun Obj Event Err))}

theorem Follows.append_started (h : Follows outcomes log) {k i : ℕ} :
    Follows outcomes (log ++ [.started k i]) :=
  fun k' i' r hr ↦ h k' i' r (by simpa using hr)

theorem Follows.append_finished (h : Follows outcomes log) {k i : ℕ} {r : OperandRun Obj Event Err}
    (hr : r.outcome = outcomes k i) : Follows outcomes (log ++ [.finished k i r]) := by
  intro k' i' r' hr'
  rcases List.mem_append.mp hr' with hold | hnew
  · exact h k' i' r' hold
  · cases List.mem_singleton.mp hnew
    exact hr

/-! ## Steps -/

section Steps

variable [ErrorValues Err]

/-- The executor has been at the head of the loop for step `k` on its way to the state. -/
def Execution.Passes (x : Execution Obj Event Err) (k : ℕ) (s : ExecState Obj Event Err) : Prop :=
  ∃ u, x.Reaches u ∧ u.control = .loop k ∧ ReflTransGen (ExecStep x) u s

theorem ExecStep.step?_cases (h : ExecStep x s s') :
    s'.control.step? = s.control.step? ∨
      (∃ k, s.control.step? = some k ∧ s'.control = .loop (k + 1)) ∨
      ∃ result err, s'.control = .returned result err := by
  cases h with
  | loopEnd | unknownStrategy | stepFailed | stepChanged => exact .inr (.inr ⟨_, _, rfl⟩)
  | stepNext => exact .inr (.inl ⟨_, rfl, rfl⟩)
  | _ => exact .inl rfl

/-- The steps are taken in order. -/
theorem Execution.Reaches.passes (h : x.Reaches s) {k : ℕ} (hk : s.control.step? = some k) {j : ℕ}
    (hj : j ≤ k) : x.Passes j s := by
  induction h generalizing k j with
  | refl =>
    obtain rfl : j = 0 := by
      cases hk
      omega
    exact ⟨.init, .refl, rfl, .refl⟩
  | @tail u v hu hstep ih =>
    rcases hstep.step?_cases with hsame | ⟨k', hk', hloop⟩ | ⟨result, err, hreturned⟩
    · obtain ⟨w, hw, hwj, hwu⟩ := ih (hsame ▸ hk) hj
      exact ⟨w, hw, hwj, hwu.tail hstep⟩
    · rw [hloop] at hk
      obtain rfl : k' + 1 = k := Option.some.inj hk
      rcases Nat.lt_or_eq_of_le hj with hlt | rfl
      · obtain ⟨w, hw, hwj, hwu⟩ := ih hk' (Nat.le_of_lt_succ hlt)
        exact ⟨w, hw, hwj, hwu.tail hstep⟩
      · exact ⟨v, ReflTransGen.tail hu hstep, hloop, .refl⟩
    · rw [hreturned] at hk
      cases hk

/-- An execution that has returned after step `k` was entered has been at the end of that step. -/
theorem exists_stepDone {k : ℕ} (hk : k < x.order.length)
    (hknown : ∀ value, x.strategy ≠ .unknown value) {result : Result} {err : Option Err}
    (hs : s.control = .returned result err) {u : ExecState Obj Event Err}
    (h : ReflTransGen (ExecStep x) u s) (hu : u.control.step? = some k) :
    ∃ v res execErr, ReflTransGen (ExecStep x) u v ∧ v.control = .stepDone k res execErr ∧
      ReflTransGen (ExecStep x) v s := by
  induction h using ReflTransGen.head_induction_on with
  | refl =>
    rw [hs] at hu
    cases hu
  | @head u u' hstep hrest ih =>
    have hpass (hu' : u'.control.step? = some k) : ∃ v res execErr, ReflTransGen (ExecStep x) u v ∧
        v.control = .stepDone k res execErr ∧ ReflTransGen (ExecStep x) v s := by
      obtain ⟨v, res, execErr, hv, hcontrol, hvs⟩ := ih hu'
      exact ⟨v, res, execErr, .head hstep hv, hcontrol, hvs⟩
    have hhere (res : Option Result) (execErr : Option Err)
        (hcontrol : u.control = .stepDone k res execErr) : ∃ v res execErr,
        ReflTransGen (ExecStep x) u v ∧ v.control = .stepDone k res execErr ∧
        ReflTransGen (ExecStep x) v s :=
      ⟨u, res, execErr, .refl, hcontrol, .head hstep hrest⟩
    cases hstep with
    | loopEnd hle =>
      cases hu
      omega
    | unknownStrategy _ hvalue => exact absurd hvalue (hknown _)
    | stepFailed | stepChanged | stepNext =>
      cases hu
      exact hhere _ _ rfl
    | _ => exact hpass hu

/-! ## No execution goes on forever -/

theorem ExecStep.rank_lt (h : ExecStep x s s') : s'.control.rank x < s.control.rank x := by
  cases h with
  | loopEnd | unknownStrategy =>
    refine Control.rank_returned_lt ?_
    simp only [Control.remaining]
    split <;> omega
  | stepFailed | stepChanged => exact Control.rank_returned_lt (Nat.zero_lt_succ 1)
  | serialEnter hk | concurrentEnter hk =>
    refine Control.rank_lt_of_step rfl rfl ?_
    simp only [Control.remaining, if_pos hk, List.length_nil, List.map_nil, List.sum_nil]
    omega
  | serialStart => exact Control.rank_lt_of_step rfl rfl (Nat.lt_succ_self _)
  | @serialFail k i _ _ _ _ _ _ hop | @serialNext k i _ _ _ _ _ hop =>
    have hi : i < (x.step k).length := (List.getElem?_eq_some_iff.mp hop).1
    refine Control.rank_lt_of_step rfl rfl ?_
    simp only [Control.remaining]
    omega
  | serialEnd | join =>
    refine Control.rank_lt_of_step rfl rfl ?_
    simp only [Control.remaining]
    omega
  | spawn hlt =>
    refine Control.rank_lt_of_step rfl rfl ?_
    simp only [Control.remaining, List.map_append, List.sum_append, List.length_append,
      List.length_singleton, List.map_singleton, List.sum_singleton, Goroutine.remaining]
    omega
  | callStart | callReturn | noError | sendError | noEvent | record | sendResult | waitGroupDone =>
    exact Control.rank_move_lt (by simp [Goroutine.remaining])
  | @stepNext k =>
    refine Prod.Lex.toLex_lt_toLex.mpr ?_
    by_cases hk : k < x.order.length
    · refine .inl ?_
      simp only [Control.step?, Option.map_some, Option.getD_some]
      omega
    · refine .inr ⟨?_, ?_⟩
      · simp only [Control.step?, Option.map_some, Option.getD_some]
        omega
      · simp only [Control.remaining]
        rw [if_neg (by omega)]
        omega

/-- There is no infinite execution. -/
theorem wellFounded_execStep (x : Execution Obj Event Err) :
    WellFounded fun s' s ↦ ExecStep x s s' :=
  Subrelation.wf (fun h ↦ ExecStep.rank_lt h)
    (InvImage.wf (fun s : ExecState Obj Event Err ↦ s.control.rank x) wellFounded_lt)

/-! ## No execution gets stuck -/

/-- No interleaving goes on forever, and none gets stuck before the execution has returned. -/
structure Execution.Returns (x : Execution Obj Event Err) (outcomes : ℕ → ℕ → Outcome Event Err) :
    Prop where
  wellFounded : WellFounded fun s' s ↦ ExecStep x s s'
  progress : ∀ s, x.Reaches s → Follows outcomes s.log →
    (∃ s', ExecStep x s s' ∧ Follows outcomes s'.log) ∨
      ∃ result err, s.control = .returned result err

/-- What one statement of step `k` adds to the log; a run call that ends has the property `P`. -/
inductive Logged (P : ℕ → OperandRun Obj Event Err → Prop) (k : ℕ)
    (log : List (Staged.Event (OperandRun Obj Event Err))) :
    List (Staged.Event (OperandRun Obj Event Err)) → Prop where
  | nothing : Logged P k log log
  | started {i} : Logged P k log (log ++ [.started k i])
  | finished {i r} : P i r → Logged P k log (log ++ [.finished k i r])

omit [ErrorValues Err] in
theorem Follows.of_logged {k : ℕ} {log' : List (Staged.Event (OperandRun Obj Event Err))}
    (h : Follows outcomes log) (hlogged : Logged (fun i r ↦ r.outcome = outcomes k i) k log log') :
    Follows outcomes log' := by
  cases hlogged with
  | nothing => exact h
  | started => exact h.append_started
  | finished hr => exact h.append_finished hr

section Progress

variable {k : ℕ} {P : ℕ → OperandRun Obj Event Err → Prop} {rec : List Event}

/-- A goroutine that has not exited can go on. -/
theorem exists_goroutineStep {pre post : List (Goroutine Obj Event Err)}
    {g : Goroutine Obj Event Err} {wg : ℕ} {errs : List Err} {ress : List Result}
    (hok : ConcurrentOk (x.step k) ⟨pre ++ g :: post, wg, errs, ress⟩) (hexited : ¬g.hasExited)
    (hruns : ∀ i op, (x.step k)[i]? = some op → ∃ r, x.Produces op r ∧ P i r) :
    ∃ s', ExecStep x ⟨.concurrent k ⟨pre ++ g :: post, wg, errs, ress⟩, log, rec⟩ s' ∧
      Logged P k log s'.log := by
  have hg : g ∈ pre ++ g :: post := by simp
  cases g with
  | ready => exact ⟨_, .callStart, .started⟩
  | calling =>
    have hlt : pre.length < (x.step k).length := by
      have hle := hok.spawned_le
      simp only [List.length_append, List.length_cons] at hle
      omega
    obtain ⟨r, hproduces, hr⟩ := hruns pre.length _ (List.getElem?_eq_getElem hlt)
    exact ⟨_, .callReturn (List.getElem?_eq_getElem hlt) hproduces, .finished hr⟩
  | returned r =>
    cases herr : r.outcome.err with
    | none => exact ⟨_, .noError herr, .nothing⟩
    | some err => exact ⟨_, .sendError herr (hok.errChan_lt hg rfl), .nothing⟩
  | errorSent r =>
    cases hevent : r.outcome.event with
    | none => exact ⟨_, .noEvent hevent, .nothing⟩
    | some event => exact ⟨_, .record hevent, .nothing⟩
  | eventRecorded r => exact ⟨_, .sendResult (hok.resultChan_lt hg rfl), .nothing⟩
  | finished r => exact ⟨_, .waitGroupDone, .nothing⟩
  | exited r => exact absurd rfl hexited

/-- As long as `concurrentExec` has not returned, it or one of its goroutines can go on. -/
theorem exists_concurrentStep {c : Concurrent Obj Event Err} (hok : ConcurrentOk (x.step k) c)
    (hruns : ∀ i op, (x.step k)[i]? = some op → ∃ r, x.Produces op r ∧ P i r) :
    ∃ s', ExecStep x ⟨.concurrent k c, log, rec⟩ s' ∧ Logged P k log s'.log := by
  have hle := hok.spawned_le
  by_cases hspawned : c.goroutines.length < (x.step k).length
  · exact ⟨_, .spawn hspawned, .nothing⟩
  by_cases hexited : ∀ g ∈ c.goroutines, g.hasExited
  · have hall : c.goroutines.length = (x.step k).length := by omega
    have hzero := hok.waitGroup_eq_zero hall hexited
    obtain ⟨gs, wg, errs, ress⟩ := c
    subst hzero
    exact ⟨_, .join hall, .nothing⟩
  · simp only [not_forall] at hexited
    obtain ⟨g, hg, hnot⟩ := hexited
    obtain ⟨gs, wg, errs, ress⟩ := c
    obtain ⟨pre, post, rfl⟩ := List.append_of_mem hg
    exact exists_goroutineStep hok hnot hruns

end Progress

theorem exists_execStep (hallows : x.Allows outcomes) (h : x.Reaches s)
    (hfollows : Follows outcomes s.log) :
    (∃ s', ExecStep x s s' ∧ Follows outcomes s'.log) ∨
      ∃ result err, s.control = .returned result err := by
  obtain ⟨a, -, -, href⟩ := h.refines
  obtain ⟨control, log, rec⟩ := s
  cases control with
  | loop k =>
    refine .inl ?_
    by_cases hk : k < x.order.length
    · cases hstrategy : x.strategy with
      | parallel => exact ⟨_, .concurrentEnter hk hstrategy, hfollows⟩
      | serial => exact ⟨_, .serialEnter hk hstrategy, hfollows⟩
      | unknown => exact ⟨_, .unknownStrategy hk hstrategy, hfollows⟩
    · exact ⟨_, .loopEnd (Nat.le_of_not_lt hk), hfollows⟩
  | serial k i result =>
    cases href with
    | serial runs hk hlength =>
      rcases Nat.lt_or_eq_of_le (Nat.le.intro hlength) with hlt | heq
      · exact .inl ⟨_, .serialStart hlt, hfollows.append_started⟩
      · exact .inl ⟨_, .serialEnd heq, hfollows⟩
  | serialCall k i result =>
    cases href with
    | @serialCall past _ _ m runs hk hlength =>
      have hlt : runs.length < (x.step past.length).length := by omega
      have hop := List.getElem?_eq_getElem hlt
      obtain ⟨r, hproduces, hr⟩ := hallows _ _ _ hop
      cases herr : r.outcome.err with
      | none => exact .inl ⟨_, .serialNext hop hproduces herr, hfollows.append_finished hr⟩
      | some err => exact .inl ⟨_, .serialFail hop hproduces herr, hfollows.append_finished hr⟩
  | concurrent k c =>
    refine .inl ?_
    cases href with
    | concurrent _ _ hok =>
      obtain ⟨s', hstep, hlogged⟩ := exists_concurrentStep hok fun i op hop ↦ hallows _ i op hop
      exact ⟨s', hstep, hfollows.of_logged hlogged⟩
  | stepDone k res execErr =>
    refine .inl ?_
    cases execErr with
    | some err => exact ⟨_, .stepFailed, hfollows⟩
    | none =>
      by_cases hchanged : res.isSome ∧ stepRequeueStrategy (x.step k) = .requeueAlways
      · exact ⟨_, .stepChanged hchanged.1 hchanged.2, hfollows⟩
      · exact ⟨_, .stepNext hchanged, hfollows⟩
  | returned result err => exact .inr ⟨result, err, rfl⟩

theorem Execution.Allows.returns (hallows : x.Allows outcomes) : x.Returns outcomes :=
  ⟨wellFounded_execStep x, fun _ h hfollows ↦ exists_execStep hallows h hfollows⟩

/-- Some interleaving with the given outcomes ends. -/
theorem Execution.Returns.exists_returned (h : x.Returns outcomes) : ∃ s, x.Reaches s ∧
    Follows outcomes s.log ∧ ∃ result err, s.control = .returned result err := by
  have hall : ∀ s, x.Reaches s → Follows outcomes s.log → ∃ s', x.Reaches s' ∧
      Follows outcomes s'.log ∧ ∃ result err, s'.control = .returned result err := by
    intro s
    induction s using h.wellFounded.induction with
    | _ s ih =>
      intro hreach hfollows
      rcases h.progress s hreach hfollows with ⟨s', hstep, hfollows'⟩ | hreturned
      · exact ih s' hstep (ReflTransGen.tail hreach hstep) hfollows'
      · exact ⟨s, hreach, hfollows, hreturned⟩
  exact hall .init .refl nofun

end Steps

end OperatorToolkit.Operator
