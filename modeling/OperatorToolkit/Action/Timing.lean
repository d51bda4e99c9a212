import Mathlib.Algebra.Order.Ring.Nat
import OperatorToolkit.Action.Reconcile

/-!
# The time that actions take

`RunAction` waits for `actionRetryPeriod` before each check and gives up once `actionTimeout` has
passed. Here each call of a goroutine is stamped with the time at which it returned. The retry timer
never fires early, the context is cancelled at some moment between its deadline and a bounded lag
later, and a goroutine that waits goes on at most a bounded delay after the context was cancelled.
If the timer has fired during that delay, `select` may take either case. A goroutine with a delay of
a whole period could check for ever, so the delay is taken to be less. Nothing is said about how
long the action manager takes.

In every interleaving of reconciliations and of the goroutines that they start, an action is then
run for each item that was listed, at most a bounded number of times, and it is given up only at its
deadline.
-/

namespace OperatorToolkit.Action

open Interaction Interaction.Program

/-- The periods of a reconciler, how late the cancellation of a context may come, and how long after
it a goroutine may still be waiting. -/
structure Timing where
  actionRetryPeriod : ℕ
  actionTimeout : ℕ
  lag : ℕ
  delay : ℕ
  delay_lt : delay < actionRetryPeriod

/-- How often the retry timer can fire before the goroutine sees the cancellation. -/
def Timing.rounds (t : Timing) : ℕ := (t.actionTimeout + t.lag + t.delay) / t.actionRetryPeriod

variable {Obj Err : Type}

def isTimer : (actionCalls Obj Err).Call → Bool
  | ⟨.select, .retryTimer⟩ => true
  | _ => false

/-- What the timers and the scheduler permit of a call that began and returned at the given times,
if the context is cancelled at `doneAt`. -/
def CallTimed (t : Timing) (doneAt : ℕ) (began : ℕ) (call : (actionCalls Obj Err).Call)
    (now : ℕ) : Prop :=
  match call with
  | ⟨.select, .retryTimer⟩ =>
    began + t.actionRetryPeriod ≤ now ∧ now ≤ max began doneAt + t.delay
  | ⟨.select, .ctxDone⟩ => doneAt ≤ now ∧ now ≤ max began doneAt + t.delay
  | _ => True

/-- The calls of a goroutine, each beginning when the one before it has returned. -/
inductive Timed (t : Timing) (doneAt : ℕ) : ℕ → List ((actionCalls Obj Err).Call × ℕ) → Prop where
  | nil {began} : Timed t doneAt began []
  | cons {began call now entries} : began ≤ now → CallTimed t doneAt began call now →
      Timed t doneAt now entries → Timed t doneAt began ((call, now) :: entries)

/-- The context is made when `GetName` has returned. -/
def Timely (t : Timing) : List ((actionCalls Obj Err).Call × ℕ) → Prop
  | [] => True
  | (_, begun) :: entries => ∃ doneAt, begun + t.actionTimeout ≤ doneAt ∧
      doneAt ≤ begun + t.actionTimeout + t.lag ∧ Timed t doneAt begun entries

section Timers

variable {t : Timing} {doneAt began : ℕ} {entries : List ((actionCalls Obj Err).Call × ℕ)}

theorem CallTimed.tick {call : (actionCalls Obj Err).Call} {now : ℕ}
    (h : CallTimed t doneAt began call now) (hcall : isTimer call = true) :
    began + t.actionRetryPeriod ≤ now ∧ now ≤ doneAt + t.delay := by
  obtain ⟨request, reply⟩ := call
  cases request with
  | select =>
    cases reply with
    | retryTimer =>
      obtain ⟨hperiod, hnow⟩ := h
      -- A wait that begins after the cancellation is over before the timer fires.
      have hdelay := t.delay_lt
      rcases le_total began doneAt with hbegan | hbegan
      · rw [max_eq_right hbegan] at hnow
        exact ⟨hperiod, hnow⟩
      · rw [max_eq_left hbegan] at hnow
        omega
    | ctxDone => cases hcall
  | _ => cases hcall

/-- Each tick of the retry timer takes a period, and the last one comes at most the delay after the
cancellation. -/
theorem Timed.ticks (h : Timed t doneAt began entries) :
    (entries.map Prod.fst).countP isTimer = 0 ∨
      began + (entries.map Prod.fst).countP isTimer * t.actionRetryPeriod ≤ doneAt + t.delay := by
  induction h with
  | nil => exact .inl rfl
  | @cons began call now entries hle hcall _ ih =>
    rw [List.map_cons]
    cases htimer : isTimer call with
    | false =>
      rw [List.countP_cons_of_neg (by simp [htimer])]
      exact ih.imp_right (Nat.le_trans (Nat.add_le_add_right hle _))
    | true =>
      obtain ⟨htick, hdone⟩ := hcall.tick htimer
      rw [List.countP_cons_of_pos htimer, Nat.succ_mul]
      apply Or.inr
      rcases ih with hzero | hmore
      · rw [hzero, Nat.zero_mul, Nat.zero_add]
        exact htick.trans hdone
      · omega

/-- The bound on the ticks of a goroutine. -/
theorem Timely.ticks_le (h : Timely t entries)
    (hfirst : ∀ call ∈ (entries.map Prod.fst).head?, isTimer call = false) :
    (entries.map Prod.fst).countP isTimer ≤ t.rounds := by
  cases entries with
  | nil => exact Nat.zero_le _
  | cons entry entries =>
    obtain ⟨doneAt, -, hle, htimed⟩ := h
    have hentry : isTimer entry.1 = false := hfirst entry.1 rfl
    rw [List.map_cons, List.countP_cons_of_neg (by simp [hentry])]
    refine (Nat.le_div_iff_mul_le (Nat.zero_lt_of_lt t.delay_lt)).mpr ?_
    rcases htimed.ticks with hzero | hticks
    · rw [hzero, Nat.zero_mul]
      exact Nat.zero_le _
    · omega

theorem Timed.doneAt_le (h : Timed t doneAt began entries) {now : ℕ}
    (hdone : (⟨.select, .ctxDone⟩, now) ∈ entries) : doneAt ≤ now := by
  induction h with
  | nil => cases hdone
  | cons _ hcall _ ih =>
    rcases List.mem_cons.mp hdone with heq | hmem
    · cases heq
      exact hcall.1
    · exact ih hmem

end Timers

/-! ## Goroutines -/

variable {o : Obj} {fuel : ℕ} {calls : List (actionCalls Obj Err).Call}

/-- Each check of the loop comes after a tick and each run after a check, and the fuel is used up by
the ticks. -/
theorem actionLoop_leads {rest : Program (actionCalls Obj Err) Bool}
    (h : Leads (actionLoop o fuel) calls rest) :
    calls.countP isCheck ≤ calls.countP isTimer ∧ calls.countP isRun ≤ calls.countP isCheck ∧
      (rest = .done false → fuel ≤ calls.countP isTimer) := by
  induction fuel generalizing calls with
  | zero =>
    obtain ⟨rfl, rfl⟩ := leads_done_iff.mp h
    exact ⟨Nat.le_refl _, Nat.le_refl _, fun _ ↦ Nat.le_refl _⟩
  | succ fuel ih =>
    rcases leads_call_iff.mp h with ⟨rfl, rfl⟩ | ⟨selected, calls, rfl, hselected⟩
    · exact ⟨Nat.le_refl _, Nat.le_refl _, by simp⟩
    cases selected with
    | ctxDone =>
      obtain ⟨rfl, rfl⟩ := leads_done_iff.mp hselected
      exact ⟨Nat.zero_le _, Nat.zero_le _, by simp⟩
    | retryTimer =>
      rcases leads_call_iff.mp hselected with ⟨rfl, rfl⟩ | ⟨checked, calls, rfl, hchecked⟩
      · exact ⟨Nat.zero_le _, Nat.zero_le _, by simp⟩
      rcases checked with ⟨checkResult, checkErr⟩
      -- The check goes with the tick before it.
      simp only [List.countP_cons, isCheck, isTimer, isRun]
      cases checkErr with
      | some err =>
        obtain ⟨hchecks, hruns, hfuel⟩ := ih hchecked
        grind
      | none =>
        cases checkResult with
        | false =>
          obtain ⟨rfl, rfl⟩ := leads_done_iff.mp hchecked
          exact ⟨Nat.le_refl _, Nat.zero_le _, by simp⟩
        | true =>
          rcases leads_call_iff.mp hchecked with ⟨rfl, rfl⟩ | ⟨runErr, calls, rfl, hrun⟩
          · exact ⟨Nat.le_refl _, Nat.zero_le _, by simp⟩
          obtain ⟨hchecks, hruns, hfuel⟩ := ih hrun
          simp only [List.countP_cons, isCheck, isTimer, isRun]
          grind

/-- The two calls that end the loop: the action is no longer needed, or the context is done. -/
def EndsLoop (o : Obj) (call : (actionCalls Obj Err).Call) : Prop :=
  call = ⟨.check o, (false, none)⟩ ∨ call = ⟨.select, .ctxDone⟩

/-- The calls of the loop after which it goes on. -/
def goesOn : (actionCalls Obj Err).Call → Bool
  | ⟨.select, .retryTimer⟩ => true
  | ⟨.check _, reply⟩ => reply.1 || reply.2.isSome
  | ⟨.run _, _⟩ => true
  | _ => false

theorem LoopRun.last (h : LoopRun o calls) :
    ∃ rounds cause, calls = rounds ++ [cause] ∧ EndsLoop o cause ∧
      ∀ call ∈ rounds, goesOn call = true := by
  induction h with
  | ctxDone => exact ⟨[], _, rfl, .inr rfl, by simp⟩
  | succeeded => exact ⟨[_], _, rfl, .inl rfl, by simp [goesOn]⟩
  | checkFailed _ ih =>
    obtain ⟨rounds, cause, rfl, hcause, hrounds⟩ := ih
    exact ⟨_ :: _ :: rounds, cause, rfl, hcause, by simpa [goesOn] using hrounds⟩
  | rerun _ ih =>
    obtain ⟨rounds, cause, rfl, hcause, hrounds⟩ := ih
    exact ⟨_ :: _ :: _ :: rounds, cause, rfl, hcause, by simpa [goesOn] using hrounds⟩

/-- How a goroutine has ended, if its fuel was enough. Either the action has no name, or it was run,
then came the rounds of the loop up to the first call that ends it, and then `Defer`. -/
inductive Ended [ErrorValues Err] (o : Obj) :
    List (actionCalls Obj Err).Call → Option Err → Prop where
  | unnamed {name err} : Ended o [⟨.getName o, (name, some err)⟩] (some (wrap getNameText err))
  | finished {name runErr rounds cause deferErr} : (∀ call ∈ rounds, goesOn call = true) →
      EndsLoop o cause →
      Ended o (⟨.getName o, (name, none)⟩ :: ⟨.run o, runErr⟩ ::
        (rounds ++ [cause, ⟨.defer o, deferErr⟩])) (deferErr.map (wrap deferText))

variable [ErrorValues Err]

/-- What holds of a goroutine at any moment. -/
structure Acts (o : Obj) (fuel : ℕ) (calls : List (actionCalls Obj Err).Call)
    (rest : Program (actionCalls Obj Err) (Option (Option Err))) : Prop where
  first : ∀ call ∈ calls.head?, call.1 = .getName o
  check_le : calls.countP isCheck ≤ calls.countP isTimer
  run_le : calls.countP isRun ≤ 1 + calls.countP isCheck
  ended : ∀ result, rest = .done (some result) → Ended o calls result
  enough : rest = .done none → fuel ≤ calls.countP isTimer

/-- Before and after the loop there is one run, no tick and no check. -/
theorem Acts.of_loop {name : String} {runErr : Option Err}
    {rounds last : List (actionCalls Obj Err).Call}
    {rest : Program (actionCalls Obj Err) (Option (Option Err))}
    {loop : Program (actionCalls Obj Err) Bool} (hloop : Leads (actionLoop o fuel) rounds loop)
    (hlast : last = [] ∨ ∃ deferErr, last = [⟨.defer o, deferErr⟩])
    (hended : ∀ result, rest = .done (some result) → loop = .done true ∧
      ∃ deferErr, last = [⟨.defer o, deferErr⟩] ∧ result = deferErr.map (wrap deferText))
    (henough : rest = .done none → loop = .done false) :
    Acts o fuel (⟨.getName o, (name, none)⟩ :: ⟨.run o, runErr⟩ :: (rounds ++ last)) rest := by
  obtain ⟨hchecks, hruns, hfuel⟩ := actionLoop_leads hloop
  have hcheck : last.countP isCheck = 0 := by
    rcases hlast with rfl | ⟨deferErr, rfl⟩ <;> rfl
  have hrun : last.countP isRun = 0 := by
    rcases hlast with rfl | ⟨deferErr, rfl⟩ <;> rfl
  have htimer : last.countP isTimer = 0 := by
    rcases hlast with rfl | ⟨deferErr, rfl⟩ <;> rfl
  refine ⟨by rintro _ ⟨⟩; rfl, ?_, ?_, fun result hresult ↦ ?_, fun hnone ↦ ?_⟩
  · simpa [isCheck, isTimer, List.countP_append, hcheck, htimer] using hchecks
  · simp only [List.countP_cons, List.countP_append, isRun, isCheck, hcheck, hrun]
    grind
  · obtain ⟨rfl, deferErr, rfl, rfl⟩ := hended result hresult
    obtain ⟨before, cause, rfl, hcause, hbefore⟩ := (loopRun_of_runs hloop.runs).last
    rw [List.append_assoc]
    exact .finished hbefore hcause
  · simpa [isTimer, List.countP_append, htimer] using hfuel (henough hnone)

theorem runAction_leads {rest : Program (actionCalls Obj Err) (Option (Option Err))}
    (h : Leads (runAction fuel o) calls rest) : Acts o fuel calls rest := by
  rcases leads_call_iff.mp h with ⟨rfl, rfl⟩ | ⟨⟨name, nameErr⟩, calls, rfl, hnamed⟩
  · exact ⟨nofun, Nat.le_refl _, Nat.zero_le _, nofun, nofun⟩
  cases nameErr with
  | some err =>
    obtain ⟨rfl, rfl⟩ := leads_done_iff.mp hnamed
    refine ⟨by rintro _ ⟨⟩; rfl, Nat.le_refl _, Nat.zero_le _, fun result hresult ↦ ?_, nofun⟩
    cases hresult
    exact .unnamed
  | none =>
    rcases leads_call_iff.mp hnamed with ⟨rfl, rfl⟩ | ⟨runErr, calls, rfl, hrun⟩
    · exact ⟨by rintro _ ⟨⟩; rfl, Nat.le_refl _, Nat.zero_le _, nofun, nofun⟩
    change Leads (actionLoop o fuel >>= _) calls rest at hrun
    rcases leads_bind hrun with ⟨request, more, hloop, rfl⟩ |
      ⟨rounds, left, last, rfl, hrounds, hlast⟩
    · rw [← List.append_nil calls]
      exact .of_loop hloop (.inl rfl) (by nofun) (by nofun)
    · cases left with
      | false =>
        obtain ⟨rfl, rfl⟩ := leads_done_iff.mp hlast
        exact .of_loop hrounds (.inl rfl) (by nofun) fun _ ↦ rfl
      | true =>
        rcases leads_call_iff.mp hlast with ⟨rfl, rfl⟩ | ⟨deferErr, last, rfl, hdeferred⟩
        · exact .of_loop hrounds (.inl rfl) (by nofun) (by nofun)
        · obtain ⟨rfl, rfl⟩ := leads_done_iff.mp hdeferred
          refine .of_loop hrounds (.inr ⟨deferErr, rfl⟩) (fun result hresult ↦ ?_) (by nofun)
          cases hresult
          exact ⟨rfl, deferErr, rfl, rfl⟩

/-- A goroutine with the time bounds of its reconciler. -/
structure ActsInTime (t : Timing) (o : Obj)
    (w : Thread (actionCalls Obj Err) (Option (Option Err)) ℕ) : Prop where
  check_le : w.calls.countP isCheck ≤ t.rounds
  run_le : w.calls.countP isRun ≤ 1 + t.rounds
  ended : ∀ result, w.rest = .done result → ∃ err, result = some err ∧ Ended o w.calls err
  given_up : ∀ call begun now, w.history.head? = some (call, begun) →
    (⟨.select, .ctxDone⟩, now) ∈ w.history → begun + t.actionTimeout ≤ now

/-- The goroutines that a call of a reconciliation starts. -/
def launch (fuel : ℕ) {types : ActionTypes} : (controllerCalls types Err).Request →
    List (Program (actionCalls (types.Manager × types.Item) Err) (Option (Option Err)))
  | .goRunAction actmgr o => [runAction fuel (actmgr, o)]
  | _ => []

theorem launched_eq {types : ActionTypes}
    (m : Thread (controllerCalls types Err) (Result × Option Err) ℕ) :
    m.launched (launch fuel) = (m.calls.filterMap started).map (runAction fuel) := by
  unfold Thread.launched
  induction m.calls with
  | nil => rfl
  | cons call calls ih =>
    obtain ⟨request, reply⟩ := call
    cases request with
    | goRunAction actmgr o => exact congrArg (List.cons _) ih
    | _ => exact ih

theorem actsInTime_of_timely {t : Timing} (hfuel : t.rounds < fuel)
    (w : Thread (actionCalls Obj Err) (Option (Option Err)) ℕ) (hcode : w.code = runAction fuel o)
    (htimely : Timely t w.history) : ActsInTime t o w := by
  have hacts : Acts o fuel w.calls w.rest := runAction_leads (hcode ▸ w.leads)
  have hfirst (call : (actionCalls Obj Err).Call) (hcall : call ∈ w.calls.head?) :
      isTimer call = false := by
    obtain ⟨request, reply⟩ := call
    obtain rfl : request = .getName o := hacts.first _ hcall
    rfl
  have hticks : w.calls.countP isTimer ≤ t.rounds := htimely.ticks_le hfirst
  refine ⟨hacts.check_le.trans hticks, ?_, fun result hresult ↦ ?_, ?_⟩
  · exact hacts.run_le.trans (Nat.add_le_add_left (hacts.check_le.trans hticks) 1)
  · cases result with
    | none => exact absurd (hacts.enough hresult) (by omega)
    | some err => exact ⟨err, rfl, hacts.ended err hresult⟩
  · intro call begun now hhead hdone
    obtain ⟨entries, hhistory⟩ := List.head?_eq_some_iff.mp hhead
    rw [hhistory] at htimely hdone
    obtain ⟨doneAt, hdeadline, -, htimed⟩ := htimely
    rcases List.mem_cons.mp hdone with hfirst | hmem
    · have hname : call.1 = .getName o := hacts.first call (by simp [Thread.calls, hhistory])
      cases hfirst
      cases hname
    · exact hdeadline.trans (htimed.doneAt_le hmem)

/-- In every interleaving of reconciliations and the goroutines that they start, at every moment: a
reconciliation has started goroutines for what it has listed, in order, only if an action was
required, and for all of it once it has returned; the goroutines are exactly those, each of them
once; and each of them has checked and run its action no more often than the periods allow, has
called `Defer` last and once when it has ended, after the reason for it, and has not given up before
its deadline. -/
theorem actions_in_time {types : ActionTypes} (t : Timing) (fuel : ℕ) (hfuel : t.rounds < fuel)
    (keys : List types.Key)
    (threads : Threads (controllerCalls types Err) (actionCalls (types.Manager × types.Item) Err)
      (Result × Option Err) (Option (Option Err)) ℕ)
    (hreach : ThreadsReach (launch fuel) (keys.map reconcile) threads)
    (htimely : ∀ w ∈ threads.workers, Timely t w.history) :
    (∀ m ∈ threads.mains, StartsListed m.calls
        (fun obj ↦ ⟨.requireAction obj, .ok true⟩ ∈ m.calls) (∃ value, m.rest = .done value)) ∧
      (threads.workers.map (·.code)).Perm ((threads.mains.flatMap fun m ↦
        m.calls.filterMap started).map (runAction fuel)) ∧
      ∀ w ∈ threads.workers, ∃ mo, w.code = runAction fuel mo ∧ ActsInTime t mo w := by
  have hworkers : (threads.workers.map (·.code)).Perm ((threads.mains.flatMap fun m ↦
      m.calls.filterMap started).map (runAction fuel)) := by
    rw [List.map_flatMap]
    simpa only [launched_eq] using hreach.workers_code
  refine ⟨fun m hm ↦ ?_, hworkers, fun w hw ↦ ?_⟩
  · have hcode : m.code ∈ keys.map reconcile :=
      hreach.mains_code ▸ List.mem_map_of_mem hm
    obtain ⟨key, -, hkey⟩ := List.mem_map.mp hcode
    exact reconcile_leads (hkey ▸ m.leads)
  · obtain ⟨mo, -, hcode⟩ := List.mem_map.mp (hworkers.mem_iff.mp (List.mem_map_of_mem hw))
    exact ⟨mo, hcode.symm, actsInTime_of_timely hfuel w hcode.symm (htimely w hw)⟩

/-- Keys, objects and items are named, and there is one action manager. -/
def pingTypes : ActionTypes := ⟨String, String, Unit, String⟩

def pingTiming : Timing := ⟨4, 10, 0, 1, by decide⟩

/-- The calls of a goroutine whose context is cancelled at 11. -/
def slowHistory : List ((actionCalls (Unit × String) GoError).Call × ℕ) :=
  [(⟨.getName ((), "slow"), ("ping", none)⟩, 1), (⟨.run ((), "slow"), some ⟨["timeout"]⟩⟩, 3),
    (⟨.select, .retryTimer⟩, 7), (⟨.check ((), "slow"), (true, none)⟩, 7),
    (⟨.run ((), "slow"), none⟩, 8), (⟨.select, .retryTimer⟩, 12),
    (⟨.check ((), "slow"), (true, some ⟨["timeout"]⟩)⟩, 13), (⟨.select, .ctxDone⟩, 13),
    (⟨.defer ((), "slow"), none⟩, 14)]

/-- The calls of one whose action succeeds at once. -/
def quickHistory : List ((actionCalls (Unit × String) GoError).Call × ℕ) :=
  [(⟨.getName ((), "quick"), ("ping", none)⟩, 2), (⟨.run ((), "quick"), none⟩, 2),
    (⟨.select, .retryTimer⟩, 6), (⟨.check ((), "quick"), (false, none)⟩, 6),
    (⟨.defer ((), "quick"), none⟩, 6)]

theorem timely_slowHistory : Timely pingTiming slowHistory :=
  ⟨11, by decide, by decide, .cons (by decide) trivial (.cons (by decide) ⟨by decide, by decide⟩
    (.cons (by decide) trivial (.cons (by decide) trivial (.cons (by decide) ⟨by decide, by decide⟩
    (.cons (by decide) trivial (.cons (by decide) ⟨by decide, by decide⟩
    (.cons (by decide) trivial .nil)))))))⟩

theorem timely_quickHistory : Timely pingTiming quickHistory :=
  ⟨12, by decide, by decide, .cons (by decide) trivial (.cons (by decide) ⟨by decide, by decide⟩
    (.cons (by decide) trivial (.cons (by decide) trivial .nil)))⟩

/-- An action on two items: one succeeds at the first check, and one is given up after a check that
came when the context was already cancelled. -/
theorem actions_in_time_ping :
    ∃ threads : Threads (controllerCalls pingTypes GoError) (actionCalls (Unit × String) GoError)
        (Result × Option GoError) (Option (Option GoError)) ℕ,
      ThreadsReach (launch 3) [reconcile (t := pingTypes) "a"] threads ∧
        threads.workers.map (·.history) = [slowHistory, quickHistory] ∧
        ∀ w ∈ threads.workers, w.rest = .done (some none) ∧
          ∃ mo, w.code = runAction 3 mo ∧ ActsInTime pingTiming mo w := by
  let main := @ThreadsStep.main (controllerCalls pingTypes GoError)
    (actionCalls (Unit × String) GoError) (Result × Option GoError) (Option (Option GoError)) ℕ
    (launch 3) [] []
  let worker := @ThreadsStep.worker (controllerCalls pingTypes GoError)
    (actionCalls (Unit × String) GoError) (Result × Option GoError) (Option (Option GoError)) ℕ
    (launch 3)
  have hmain : ThreadsReach (launch 3) [reconcile (t := pingTypes) "a"] _ :=
    .tail (.tail (.tail (.tail (.tail (.tail .refl
      (@main _ _ _ (.getObject "a") _ (.found (some "a")) 0 .nil))
      (@main _ _ _ (.requireAction "a") _ (.ok true) 0 _))
      (@main _ _ _ (.buildActionManager "a") _ (.ok ()) 0 _))
      (@main _ _ _ (.getObjects ()) _ (.ok ["slow", "quick"]) 0 _))
      (@main _ _ _ (.goRunAction () "slow") _ () 0 _))
      (@main _ _ _ (.goRunAction () "quick") _ () 0 _)
  have hboth : ThreadsReach (launch 3) [reconcile (t := pingTypes) "a"] _ :=
    .tail (.tail (.tail (.tail (.tail (.tail (.tail (.tail hmain
      (@worker _ [] _ _ _ (.getName ((), "slow")) _ ("ping", none) 1 .nil))
      (@worker _ [_] [] _ _ (.getName ((), "quick")) _ ("ping", none) 2 .nil))
      (@worker _ [_] [] _ _ (.run ((), "quick")) _ none 2 _))
      (@worker _ [] _ _ _ (.run ((), "slow")) _ (some ⟨["timeout"]⟩) 3 _))
      (@worker _ [_] [] _ _ .select _ .retryTimer 6 _))
      (@worker _ [_] [] _ _ (.check ((), "quick")) _ (false, none) 6 _))
      (@worker _ [_] [] _ _ (.defer ((), "quick")) _ none 6 _))
      (@worker _ [] _ _ _ .select _ .retryTimer 7 _)
  have hslow : ThreadsReach (launch 3) [reconcile (t := pingTypes) "a"] _ :=
    .tail (.tail (.tail (.tail (.tail (.tail hboth
      (@worker _ [] _ _ _ (.check ((), "slow")) _ (true, none) 7 _))
      (@worker _ [] _ _ _ (.run ((), "slow")) _ none 8 _))
      (@worker _ [] _ _ _ .select _ .retryTimer 12 _))
      (@worker _ [] _ _ _ (.check ((), "slow")) _ (true, some ⟨["timeout"]⟩) 13 _))
      (@worker _ [] _ _ _ .select _ .ctxDone 13 _))
      (@worker _ [] _ _ _ (.defer ((), "slow")) _ none 14 _)
  have hall := @actions_in_time GoError _ pingTypes pingTiming 3 (by decide) ["a"] _ hslow
    (List.forall_mem_cons.mpr
      ⟨timely_slowHistory, List.forall_mem_singleton.mpr timely_quickHistory⟩)
  exact ⟨_, hslow, rfl, List.forall_mem_cons.mpr ⟨⟨rfl, hall.2.2 _ List.mem_cons_self⟩,
    List.forall_mem_singleton.mpr
      ⟨rfl, hall.2.2 _ (List.mem_cons_of_mem _ List.mem_cons_self)⟩⟩⟩

end OperatorToolkit.Action
