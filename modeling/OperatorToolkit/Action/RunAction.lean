import OperatorToolkit.Base
import OperatorToolkit.Interaction.Program

/-!
# Running an action

`RunAction` of the stateless-action controller drives an action manager: it runs the action once,
then waits for the retry timer or for the deadline of its context, checks after each tick of the
timer whether the action is still needed, and runs it again if so. A deferred function calls
`Defer` at the end and turns its failure into the returned error.

The manager may answer anything and the `select` may choose either of its cases, so both are calls.
Nothing bounds the number of ticks. The loop is cut off after `fuel` rounds, and a finite run of
`RunAction` is one that some amount of fuel is enough for.
-/

namespace OperatorToolkit.Action

open Interaction Interaction.Program

/-- The case of the `select` statement that was taken. -/
inductive Selected where
  | retryTimer
  | ctxDone
  deriving DecidableEq, Repr

inductive ActionRequest (Obj : Type) where
  | getName (o : Obj)
  | run (o : Obj)
  | check (o : Obj)
  | defer (o : Obj)
  | select

def actionCalls (Obj Err : Type) : Signature where
  Request := ActionRequest Obj
  Reply
    | .getName _ => String × Option Err
    | .run _ => Option Err
    | .check _ => Bool × Option Err
    | .defer _ => Option Err
    | .select => Selected

variable {Obj Err : Type}

namespace Call

def getName (o : Obj) : Program (actionCalls Obj Err) (String × Option Err) :=
  Program.request (S := actionCalls Obj Err) (ActionRequest.getName o)

def run (o : Obj) : Program (actionCalls Obj Err) (Option Err) :=
  Program.request (S := actionCalls Obj Err) (ActionRequest.run o)

def check (o : Obj) : Program (actionCalls Obj Err) (Bool × Option Err) :=
  Program.request (S := actionCalls Obj Err) (ActionRequest.check o)

def defer (o : Obj) : Program (actionCalls Obj Err) (Option Err) :=
  Program.request (S := actionCalls Obj Err) (ActionRequest.defer o)

def select : Program (actionCalls Obj Err) Selected :=
  Program.request (S := actionCalls Obj Err) (ActionRequest.select)

end Call

/-- The loop of `RunAction`: whether it was left within `fuel` rounds. Failures of `Check` and of
`Run` are logged. -/
def actionLoop (o : Obj) : ℕ → Program (actionCalls Obj Err) Bool
  | 0 => return false
  | fuel + 1 => do
    match ← Call.select with
    | .ctxDone => return true
    | .retryTimer =>
      let (checkResult, checkErr) ← Call.check o
      if checkErr.isSome then
        actionLoop o fuel
      else if checkResult then
        let _runErr ← Call.run o
        actionLoop o fuel
      else
        return true

def getNameText : String := "failed to get action manager name"

def deferText : String := "failed to run deferred action"

/-- `RunAction`; the result is `none` if the fuel was not enough. -/
def runAction [ErrorValues Err] (fuel : ℕ) (o : Obj) :
    Program (actionCalls Obj Err) (Option (Option Err)) := do
  let (_name, err) ← Call.getName o
  if let some err := err then
    return some (some (wrap getNameText err))
  let _runErr ← Call.run o
  let left ← actionLoop o fuel
  if left then
    let deferErr ← Call.defer o
    return some (deferErr.map (wrap deferText))
  else
    return none

/-! ## Runs of the loop -/

/-- The calls of a run of the loop, one case for each way a round can go. -/
inductive LoopRun (o : Obj) : List (actionCalls Obj Err).Call → Prop where
  | ctxDone : LoopRun o [⟨.select, .ctxDone⟩]
  | succeeded : LoopRun o [⟨.select, .retryTimer⟩, ⟨.check o, (false, none)⟩]
  | checkFailed {checkResult checkErr rest} : LoopRun o rest →
      LoopRun o (⟨.select, .retryTimer⟩ :: ⟨.check o, (checkResult, some checkErr)⟩ :: rest)
  | rerun {runErr rest} : LoopRun o rest →
      LoopRun o (⟨.select, .retryTimer⟩ :: ⟨.check o, (true, none)⟩ :: ⟨.run o, runErr⟩ :: rest)

theorem loopRun_of_runs {o : Obj} {fuel : ℕ} {calls : List (actionCalls Obj Err).Call}
    (h : Runs (actionLoop o fuel) calls true) : LoopRun o calls := by
  induction fuel generalizing calls with
  | zero =>
    obtain ⟨-, hfalse⟩ := runs_done_iff.mp h
    cases hfalse
  | succ fuel ih =>
    obtain ⟨selected, rest, rfl, hrest⟩ := runs_call_iff.mp h
    cases selected with
    | ctxDone =>
      obtain ⟨rfl, -⟩ := runs_done_iff.mp hrest
      exact .ctxDone
    | retryTimer =>
      obtain ⟨⟨checkResult, checkErr⟩, rest, rfl, hround⟩ := runs_call_iff.mp hrest
      cases checkErr with
      | some err => exact .checkFailed (ih hround)
      | none =>
        cases checkResult with
        | true =>
          obtain ⟨runErr, rest, rfl, hagain⟩ := runs_call_iff.mp hround
          exact .rerun (ih hagain)
        | false =>
          obtain ⟨rfl, -⟩ := runs_done_iff.mp hround
          exact .succeeded

/-- A run of the loop is a run of the code, and more fuel does not change it. -/
theorem LoopRun.runs {o : Obj} {calls : List (actionCalls Obj Err).Call} (h : LoopRun o calls) :
    ∃ rounds, ∀ fuel ≥ rounds, Runs (actionLoop o fuel) calls true := by
  induction h with
  | ctxDone =>
    refine ⟨1, fun fuel hfuel ↦ ?_⟩
    obtain ⟨m, rfl⟩ := Nat.exists_eq_add_of_le' hfuel
    exact .call (.done true)
  | succeeded =>
    refine ⟨1, fun fuel hfuel ↦ ?_⟩
    obtain ⟨m, rfl⟩ := Nat.exists_eq_add_of_le' hfuel
    exact .call (.call (.done true))
  | checkFailed _ ih =>
    obtain ⟨rounds, hrounds⟩ := ih
    refine ⟨rounds + 1, fun fuel hfuel ↦ ?_⟩
    obtain ⟨m, rfl⟩ := Nat.exists_eq_add_of_le' hfuel
    exact .call (.call (hrounds (m + rounds) (Nat.le_add_left _ _)))
  | rerun _ ih =>
    obtain ⟨rounds, hrounds⟩ := ih
    refine ⟨rounds + 1, fun fuel hfuel ↦ ?_⟩
    obtain ⟨m, rfl⟩ := Nat.exists_eq_add_of_le' hfuel
    exact .call (.call (.call (hrounds (m + rounds) (Nat.le_add_left _ _))))

def isRun : (actionCalls Obj Err).Call → Bool
  | ⟨.run _, _⟩ => true
  | _ => false

def isCheck : (actionCalls Obj Err).Call → Bool
  | ⟨.check _, _⟩ => true
  | _ => false

/-- A `Check` that returned `(true, nil)`. -/
def isCheckTrue : (actionCalls Obj Err).Call → Bool
  | ⟨.check _, reply⟩ => reply.1 && reply.2.isNone
  | _ => false

def isDefer : (actionCalls Obj Err).Call → Bool
  | ⟨.defer _, _⟩ => true
  | _ => false

namespace LoopRun

variable {o : Obj} {calls : List (actionCalls Obj Err).Call}

/-- Each further `Run` belongs to one `Check` that asked for it. -/
theorem countP_isRun (h : LoopRun o calls) : calls.countP isRun = calls.countP isCheckTrue := by
  induction h with
  | ctxDone | succeeded => rfl
  | checkFailed _ ih => simpa [List.countP_cons, isRun, isCheckTrue] using ih
  | rerun _ ih => simpa [List.countP_cons, isRun, isCheckTrue] using ih

theorem not_isDefer (h : LoopRun o calls) : ∀ call ∈ calls, isDefer call = false := by
  induction h with
  | ctxDone | succeeded => simp [isDefer]
  | checkFailed _ ih | rerun _ ih => simpa [isDefer] using ih

/-- A `Run` directly follows a `Check` that returned `(true, nil)`. -/
theorem check_before_run (h : LoopRun o calls) {i : ℕ} {o' : Obj} {runErr : Option Err}
    (hrun : calls[i]? = some ⟨.run o', runErr⟩) :
    ∃ j, i = j + 1 ∧ calls[j]? = some ⟨.check o, (true, none)⟩ := by
  induction h generalizing i with
  | ctxDone => rcases i with _ | i <;> cases hrun
  | succeeded => rcases i with _ | _ | i <;> cases hrun
  | checkFailed _ ih =>
    rcases i with _ | _ | i
    · cases hrun
    · cases hrun
    · obtain ⟨j, rfl, hj⟩ := ih hrun
      exact ⟨j + 2, rfl, hj⟩
  | rerun _ ih =>
    rcases i with _ | _ | _ | i
    · cases hrun
    · cases hrun
    · exact ⟨1, rfl, rfl⟩
    · obtain ⟨j, rfl, hj⟩ := ih hrun
      exact ⟨j + 3, rfl, hj⟩

/-- The loop is left after a `Check` that returned `(false, nil)`. -/
theorem length_of_check_false (h : LoopRun o calls) {i : ℕ} {o' : Obj}
    (hcheck : calls[i]? = some ⟨.check o', (false, none)⟩) : calls.length = i + 1 := by
  induction h generalizing i with
  | ctxDone => rcases i with _ | i <;> cases hcheck
  | succeeded =>
    rcases i with _ | _ | i
    · cases hcheck
    · rfl
    · cases hcheck
  | checkFailed _ ih =>
    rcases i with _ | _ | i
    · cases hcheck
    · cases hcheck
    · rw [List.length_cons, List.length_cons, ih hcheck]
  | rerun _ ih =>
    rcases i with _ | _ | _ | i
    · cases hcheck
    · cases hcheck
    · cases hcheck
    · rw [List.length_cons, List.length_cons, List.length_cons, ih hcheck]

end LoopRun

/-! ## Runs of the action -/

section RunAction

variable [ErrorValues Err] {o : Obj} {fuel : ℕ} {calls : List (actionCalls Obj Err).Call}
  {result : Option Err}

/-- Either `GetName` fails, or the first `Run`, the loop and `Defer` follow one another. -/
theorem runAction_cases (h : Runs (runAction fuel o) calls (some result)) :
    (∃ name err, calls = [⟨.getName o, (name, some err)⟩] ∧
        result = some (wrap getNameText err)) ∨
      ∃ name runErr rounds deferErr, LoopRun o rounds ∧ result = deferErr.map (wrap deferText) ∧
        calls = ⟨.getName o, (name, none)⟩ :: ⟨.run o, runErr⟩ ::
          (rounds ++ [⟨.defer o, deferErr⟩]) := by
  obtain ⟨⟨name, err⟩, rest, rfl, hrest⟩ := runs_call_iff.mp h
  cases err with
  | some err =>
    obtain ⟨rfl, hresult⟩ := runs_done_iff.mp hrest
    exact .inl ⟨name, err, rfl, Option.some.inj hresult⟩
  | none =>
    obtain ⟨runErr, rest, rfl, hloop⟩ := runs_call_iff.mp hrest
    change Runs (actionLoop o fuel >>= _) rest (some result) at hloop
    obtain ⟨rounds, left, last, rfl, hrounds, hlast⟩ := runs_bind_iff.mp hloop
    cases left with
    | false =>
      obtain ⟨-, hresult⟩ := runs_done_iff.mp hlast
      cases hresult
    | true =>
      obtain ⟨deferErr, rest, rfl, hdone⟩ := runs_call_iff.mp hlast
      obtain ⟨rfl, hresult⟩ := runs_done_iff.mp hdone
      exact .inr ⟨name, runErr, rounds, deferErr, loopRun_of_runs hrounds, Option.some.inj hresult,
        rfl⟩

/-- With enough fuel the code can go through any run of the loop. -/
theorem runs_runAction {rounds : List (actionCalls Obj Err).Call} (h : LoopRun o rounds)
    (name : String) (runErr deferErr : Option Err) :
    ∃ enough, ∀ fuel ≥ enough, Runs (runAction fuel o)
      (⟨.getName o, (name, none)⟩ :: ⟨.run o, runErr⟩ :: (rounds ++ [⟨.defer o, deferErr⟩]))
      (some (deferErr.map (wrap deferText))) := by
  obtain ⟨enough, henough⟩ := h.runs
  refine ⟨enough, fun fuel hfuel ↦ .call (.call ?_)⟩
  change Runs (actionLoop o fuel >>= _) _ _
  exact runs_bind_iff.mpr ⟨rounds, true, _, rfl, henough fuel hfuel, .call (.done _)⟩

/-- A run of `RunAction` in which `GetName` succeeded. -/
structure ActionRun (o : Obj) (calls : List (actionCalls Obj Err).Call) (result : Option Err) :
    Prop where
  run_first : ∃ name runErr rest,
    calls = ⟨.getName o, (name, none)⟩ :: ⟨.run o, runErr⟩ :: rest
  defer_last : ∃ before deferErr, calls = before ++ [⟨.defer o, deferErr⟩] ∧
    (∀ call ∈ before, isDefer call = false) ∧ (result.isSome ↔ deferErr.isSome) ∧
    result = deferErr.map (wrap deferText)
  run_count : calls.countP isRun = 1 + calls.countP isCheckTrue
  run_cause : ∀ (i : ℕ) o' runErr, calls[i + 2]? = some ⟨.run o', runErr⟩ →
    calls[i + 1]? = some ⟨.check o, (true, none)⟩
  failed_check : ∀ (i : ℕ) o' checkResult checkErr,
    calls[i]? = some ⟨.check o', (checkResult, some checkErr)⟩ →
      ∀ call, calls[i + 1]? = some call → isRun call = false
  check_false : ∀ (i : ℕ) o', calls[i]? = some ⟨.check o', (false, none)⟩ →
    ∀ (j : ℕ) call, i < j → calls[j]? = some call → isRun call = false ∧ isCheck call = false

variable {name : String} {firstErr deferErr : Option Err}
  {rounds : List (actionCalls Obj Err).Call}

omit [ErrorValues Err] in
/-- A call before `Defer` is one of the loop. -/
theorem getElem?_of_append_defer {i : ℕ} {call : (actionCalls Obj Err).Call}
    (h : (rounds ++ [⟨.defer o, deferErr⟩])[i]? = some call) (hcall : isDefer call = false) :
    rounds[i]? = some call := by
  rcases Nat.lt_trichotomy i rounds.length with hlt | rfl | hgt
  · rwa [List.getElem?_append_left hlt] at h
  · rw [List.getElem?_concat_length] at h
    cases h
    cases hcall
  · rw [List.getElem?_eq_none (by rw [List.length_append]; exact hgt)] at h
    cases h

omit [ErrorValues Err] in
theorem LoopRun.run_cause (h : LoopRun o rounds) (i : ℕ) (o' : Obj) (runErr : Option Err)
    (hrun : (rounds ++ [⟨.defer o, deferErr⟩])[i]? = some ⟨.run o', runErr⟩) :
    ∃ j, i = j + 1 ∧
      (rounds ++ [⟨.defer o, deferErr⟩])[j]? = some ⟨.check o, (true, none)⟩ := by
  obtain ⟨j, rfl, hj⟩ := h.check_before_run (getElem?_of_append_defer hrun rfl)
  have hlt : j < rounds.length := (List.getElem?_eq_some_iff.mp hj).1
  exact ⟨j, rfl, by rwa [List.getElem?_append_left hlt]⟩

omit [ErrorValues Err] in
/-- After a `Check` that returned `(false, nil)` only `Defer` is called. -/
theorem LoopRun.eq_defer_of_check_false (h : LoopRun o rounds) {i j : ℕ} {o' : Obj}
    {call : (actionCalls Obj Err).Call}
    (hcheck : (rounds ++ [⟨.defer o, deferErr⟩])[i]? = some ⟨.check o', (false, none)⟩)
    (hlt : i < j) (hcall : (rounds ++ [⟨.defer o, deferErr⟩])[j]? = some call) :
    call = ⟨.defer o, deferErr⟩ := by
  have hlength := h.length_of_check_false (getElem?_of_append_defer hcheck rfl)
  have hj := (List.getElem?_eq_some_iff.mp hcall).1
  rw [List.length_append, List.length_singleton] at hj
  obtain rfl : j = rounds.length := by omega
  rw [List.getElem?_concat_length] at hcall
  exact (Option.some.inj hcall).symm

/-- What holds in the loop holds in the run around it. -/
theorem LoopRun.actionRun (h : LoopRun o rounds) :
    ActionRun o (⟨.getName o, (name, none)⟩ :: ⟨.run o, firstErr⟩ ::
      (rounds ++ [⟨.defer o, deferErr⟩])) (deferErr.map (wrap deferText)) where
  run_first := ⟨name, firstErr, _, rfl⟩
  defer_last := by
    refine ⟨⟨.getName o, (name, none)⟩ :: ⟨.run o, firstErr⟩ :: rounds, deferErr, rfl, ?_, ?_, rfl⟩
    · simpa [isDefer] using h.not_isDefer
    · cases deferErr <;> simp
  run_count := by
    have hcount := h.countP_isRun
    simp [List.countP_cons, List.countP_append, isRun, isCheckTrue, hcount, Nat.add_comm]
  run_cause := by
    intro i o' runErr hrun
    obtain ⟨j, rfl, hj⟩ := h.run_cause i o' runErr hrun
    exact hj
  failed_check := by
    intro i o' checkResult checkErr hcheck call hcall
    rcases i with _ | _ | i
    · cases hcheck
    · cases hcheck
    · rcases call with ⟨request, reply⟩
      cases request with
      | run o'' =>
        obtain ⟨j, hij, hj⟩ := h.run_cause (i + 1) o'' reply hcall
        obtain rfl : i = j := Nat.succ.inj hij
        have hsame := hcheck.symm.trans hj
        cases hsame
      | _ => rfl
  check_false := by
    intro i o' hcheck j call hlt hcall
    rcases i with _ | _ | i
    · cases hcheck
    · cases hcheck
    · obtain ⟨j, rfl⟩ : ∃ m, j = m + 2 := ⟨j - 2, by omega⟩
      rw [h.eq_defer_of_check_false hcheck (by omega) hcall]
      exact ⟨rfl, rfl⟩

/-- Whatever the manager answers and whichever case the `select` takes: if `GetName` fails, it is
the only call and its error is returned. Otherwise `Run` comes first and `Defer` comes once and
last, `Run` is called once more for each `Check` that returned `(true, nil)`, right after it, and
only a failure of `Defer` is returned. -/
theorem runAction_spec (o : Obj) (fuel : ℕ) (calls : List (actionCalls Obj Err).Call)
    (result : Option Err) (h : Runs (runAction fuel o) calls (some result)) :
    (∃ name err, calls = [⟨.getName o, (name, some err)⟩] ∧
        result = some (wrap getNameText err)) ∨
      ActionRun o calls result := by
  rcases runAction_cases h with hname | ⟨name, runErr, rounds, deferErr, hrounds, rfl, rfl⟩
  · exact .inl hname
  · exact .inr hrounds.actionRun

end RunAction

/-- The action is run again after the first tick; the second check fails, the deadline passes, and
`Defer` fails. -/
def retriedCalls : List (actionCalls String GoError).Call :=
  [⟨.getName "a", ("restart", none)⟩, ⟨.run "a", some ⟨["connection refused"]⟩⟩,
    ⟨.select, .retryTimer⟩, ⟨.check "a", (true, none)⟩, ⟨.run "a", none⟩,
    ⟨.select, .retryTimer⟩, ⟨.check "a", (true, some ⟨["timeout"]⟩)⟩,
    ⟨.select, .ctxDone⟩, ⟨.defer "a", some ⟨["no such host"]⟩⟩]

theorem runAction_spec_retried :
    Runs (runAction 3 "a") retriedCalls (some (some (wrap deferText ⟨["no such host"]⟩))) ∧
      ActionRun "a" retriedCalls (some (wrap deferText ⟨["no such host"]⟩)) := by
  have hruns : Runs (runAction 3 "a") retriedCalls
      (some (some (wrap deferText ⟨["no such host"]⟩))) :=
    .call (.call (.call (.call (.call (.call (.call (.call (.call (.done _)))))))))
  refine ⟨hruns, (runAction_spec "a" 3 retriedCalls _ hruns).resolve_left ?_⟩
  rintro ⟨name, err, hcalls, -⟩
  cases hcalls

end OperatorToolkit.Action
