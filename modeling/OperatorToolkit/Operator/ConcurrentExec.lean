import OperatorToolkit.Operator.ExecutorReturns
import Mathlib.Algebra.Order.Group.Multiset
import Mathlib.Data.Multiset.Bind

/-!
# `concurrentExec`

One call of `concurrentExec` begins with no goroutine started, the wait group at the number of
operands and two empty channels with that capacity. It is followed here from that state through
every interleaving: a send never has to wait, the call is bound to return, and what it returns is
read off the runs of its operands. The errors are folded into nested aggregates, so they are
compared by the leaves of the nest.
-/

namespace OperatorToolkit.Operator

open Interaction Interaction.Program Relation

/-- Errors that can be told to be aggregates. -/
class AggregateErrors (Err : Type) extends ErrorValues Err where
  /-- `Errors` of an aggregate; any other error has no such method. -/
  errors : Err → Option (List Err)
  /-- The errors that are left when every aggregate is replaced by its members. -/
  leaves : Err → Multiset Err
  errors_newAggregate : ∀ errs agg, newAggregate errs = some agg →
    errors agg = some errs.reduceOption
  leaves_aggregate : ∀ agg members, errors agg = some members →
    leaves agg = (members.map leaves).sum
  leaves_other : ∀ err, errors err = none → leaves err = {err}

open AggregateErrors

/-! ## Nested aggregates -/

/-- An error with a text, around another one, or made of several. -/
inductive NestedError where
  | text (message : String)
  | wrapped (message : String) (err : NestedError)
  | aggregate (errs : List NestedError)

namespace NestedError

mutual

/-- The texts of an error and of what it wraps. -/
def texts : NestedError → List String
  | .text message => [message]
  | .wrapped message err => message :: err.texts
  | .aggregate errs => textsAll errs

def textsAll : List NestedError → List String
  | [] => []
  | err :: rest => err.texts ++ textsAll rest

end

mutual

def flatten : NestedError → List NestedError
  | .aggregate errs => flattenAll errs
  | err => [err]

def flattenAll : List NestedError → List NestedError
  | [] => []
  | err :: rest => err.flatten ++ flattenAll rest

end

theorem mem_textsAll_iff {message : String} {errs : List NestedError} :
    message ∈ textsAll errs ↔ ∃ err ∈ errs, message ∈ err.texts := by
  induction errs with
  | nil => simp [textsAll]
  | cons err rest ih => simp [textsAll, ih]

theorem coe_flattenAll (errs : List NestedError) :
    (flattenAll errs : Multiset NestedError) =
      (errs.map fun err ↦ (err.flatten : Multiset NestedError)).sum := by
  induction errs with
  | nil => simp [flattenAll]
  | cons err rest ih => simp [flattenAll, ← ih]

def is (err : NestedError) : NestedError → Bool
  | .text message => message ∈ err.texts
  | _ => false

def newAggregate (errs : List (Option NestedError)) : Option NestedError :=
  if errs.reduceOption.isEmpty then none else some (.aggregate errs.reduceOption)

theorem eq_aggregate_of_newAggregate {errs : List (Option NestedError)} {agg : NestedError}
    (h : newAggregate errs = some agg) : agg = .aggregate errs.reduceOption := by
  unfold newAggregate at h
  split at h
  · cases h
  · exact (Option.some.inj h).symm

def errors : NestedError → Option (List NestedError)
  | .aggregate errs => some errs
  | _ => none

instance : AggregateErrors NestedError where
  errorf := .text
  wrap := .wrapped
  message err := ": ".intercalate err.texts
  is := is
  newAggregate := newAggregate
  is_wrap := by
    intro message err target h
    cases target with
    | text => simpa [is, texts] using Or.inr (by simpa [is] using h)
    | wrapped | aggregate => simp [is] at h
  newAggregate_eq_none_iff := by
    intro errs
    rw [← reduceOption_eq_nil_iff, newAggregate]
    simp
  is_newAggregate_iff := by
    intro errs agg target h
    rw [eq_aggregate_of_newAggregate h]
    cases target with
    | text =>
      simp only [is, decide_eq_true_eq]
      simp only [texts, mem_textsAll_iff, List.reduceOption_mem_iff]
    | wrapped | aggregate => simp [is]
  errors := errors
  leaves err := err.flatten
  errors_newAggregate := by
    intro errs agg h
    rw [eq_aggregate_of_newAggregate h, errors]
  leaves_aggregate := by
    intro agg members h
    cases agg with
    | text | wrapped => cases h
    | aggregate errs =>
      cases h
      rw [flatten, coe_flattenAll]
  leaves_other := by
    intro err h
    cases err with
    | text | wrapped => rfl
    | aggregate => cases h

end NestedError

variable {Obj Event Err : Type}

/-- The aggregate that `concurrentExec` builds has the leaves of the errors it was built from. -/
theorem leaves_foldl_newAggregate [AggregateErrors Err] (errs : List Err) (rerr : Option Err)
    {agg : Err}
    (h : errs.foldl (fun rerr err ↦ newAggregate [rerr, some err]) rerr = some agg) :
    leaves agg = (rerr.toList.map leaves).sum + (errs.map leaves).sum := by
  induction errs generalizing rerr with
  | nil =>
    obtain rfl : rerr = some agg := h
    simp
  | cons err rest ih =>
    obtain ⟨next, hnext⟩ := newAggregate_isSome err [rerr, some err] (by simp)
    have hleaves : leaves next = (rerr.toList.map leaves).sum + leaves err := by
      rw [leaves_aggregate next _ (errors_newAggregate _ _ hnext)]
      cases rerr <;> simp
    rw [List.foldl_cons, hnext] at h
    rw [ih (some next) h, List.map_cons, List.sum_cons, ← add_assoc, ← hleaves]
    simp

theorem leaves_collectErrors [AggregateErrors Err] {errs : List Err} {agg : Err}
    (h : collectErrors errs = some agg) : leaves agg = (errs.map leaves).sum := by
  rw [leaves_foldl_newAggregate errs none h]
  simp

/-! ## Runs of the operands -/

/-- An operand's run call can always return: there is a reply to each of its calls. -/
theorem exists_runs (program : Program (operandCalls Obj Event Err) (Outcome Event Err)) :
    ∃ calls outcome, Runs program calls outcome := by
  induction program with
  | done outcome => exact ⟨[], outcome, .done outcome⟩
  | call request next ih =>
    have hreply : Nonempty ((operandCalls Obj Event Err).Reply request) := by
      cases request with
      | ensure | delete => exact ⟨(⟨none, none⟩ : Outcome Event Err)⟩
      | readyCheck => exact ⟨((true, none) : Bool × Option Err)⟩
      | postReady => exact ⟨(none : Option Err)⟩
    obtain ⟨reply⟩ := hreply
    obtain ⟨calls, outcome, hruns⟩ := ih reply
    exact ⟨_, outcome, .call hruns⟩

theorem Execution.exists_produces (x : Execution Obj Event Err) (op : Operand) :
    ∃ r, x.Produces op r := by
  obtain ⟨calls, outcome, hruns⟩ := exists_runs (x.run op)
  exact ⟨⟨calls, outcome⟩, hruns⟩

/-- The run that a goroutine has had. -/
def Goroutine.run? : Goroutine Obj Event Err → Option (OperandRun Obj Event Err)
  | .ready | .calling => none
  | .returned r | .errorSent r | .eventRecorded r | .finished r | .exited r => some r

/-- The event that a goroutine has handed to the recorder. -/
def Goroutine.recorded : Goroutine Obj Event Err → Option Event
  | .ready | .calling | .returned _ | .errorSent _ => none
  | .eventRecorded r | .finished r | .exited r => r.outcome.event

/-- The run that an entry of the log reports. -/
def loggedRun : Staged.Event (OperandRun Obj Event Err) → Option (OperandRun Obj Event Err)
  | .started _ _ => none
  | .finished _ _ r => some r

/-- A call of `concurrentExec` that is under way; `new` and `events` are what it has added to the
log and handed to the recorder. -/
structure Underway (x : Execution Obj Event Err) (k : ℕ) (c : Concurrent Obj Event Err)
    (new : List (Staged.Event (OperandRun Obj Event Err))) (events : List Event) : Prop where
  ok : ConcurrentOk (x.step k) c
  produces : ∀ (i : ℕ) r, c.goroutines[i]?.bind Goroutine.run? = some r →
    ∃ op, (x.step k)[i]? = some op ∧ x.Produces op r
  finished_perm : (new.filterMap loggedRun).Perm (c.goroutines.filterMap Goroutine.run?)
  events_perm : events.Perm (c.goroutines.filterMap Goroutine.recorded)

namespace Underway

variable {x : Execution Obj Event Err} {k : ℕ}
  {new : List (Staged.Event (OperandRun Obj Event Err))} {events : List Event}

theorem enter (x : Execution Obj Event Err) (k : ℕ) :
    Underway x k ⟨[], (x.step k).length, [], []⟩ [] [] where
  ok := ⟨by simp, by simp, by simp, by simp, by simp⟩
  produces := by simp
  finished_perm := .nil
  events_perm := .nil

theorem spawn {gs : List (Goroutine Obj Event Err)} {wg : ℕ} {errs : List Err} {ress : List Result}
    (h : Underway x k ⟨gs, wg, errs, ress⟩ new events) (hlt : gs.length < (x.step k).length) :
    Underway x k ⟨gs ++ [.ready], wg, errs, ress⟩ new events where
  ok := h.ok.spawn hlt
  produces := by
    intro i r hr
    rcases Nat.lt_trichotomy i gs.length with hi | rfl | hi
    · exact h.produces i r (by simpa [List.getElem?_append_left hi] using hr)
    · simp [Goroutine.run?] at hr
    · rw [List.getElem?_eq_none (by simp; omega)] at hr
      cases hr
  finished_perm := by simpa [Goroutine.run?, List.filterMap_cons] using h.finished_perm
  events_perm := by simpa [Goroutine.recorded, List.filterMap_cons] using h.events_perm

/-- One goroutine moves on. It may have got its run, which is then logged, or have handed its event
to the recorder. -/
theorem move {pre post : List (Goroutine Obj Event Err)} {g g' : Goroutine Obj Event Err}
    {wg wg' : ℕ} {errs errs' : List Err} {ress ress' : List Result}
    (h : Underway x k ⟨pre ++ g :: post, wg, errs, ress⟩ new events)
    (logged : List (Staged.Event (OperandRun Obj Event Err))) (handed : List Event)
    (hok : ConcurrentOk (x.step k) ⟨pre ++ g' :: post, wg', errs', ress'⟩)
    (hproduces : ∀ r, g'.run? = some r → g.run? = some r ∨
      ∃ op, (x.step k)[pre.length]? = some op ∧ x.Produces op r)
    (hlogged : g'.run?.toList = g.run?.toList ++ logged.filterMap loggedRun)
    (hhanded : g'.recorded.toList = g.recorded.toList ++ handed) :
    Underway x k ⟨pre ++ g' :: post, wg', errs', ress'⟩ (new ++ logged) (events ++ handed) where
  ok := hok
  produces := by
    intro i r hr
    by_cases hi : i = pre.length
    · subst hi
      rcases hproduces r (by simpa using hr) with hold | hnew
      · exact h.produces _ r (by simpa using hold)
      · exact hnew
    · rw [Staged.getElem?_middle_of_ne g' g hi] at hr
      exact h.produces i r hr
  finished_perm := by
    rw [List.filterMap_append]
    exact perm_filterMap_of_move h.finished_perm hlogged
  events_perm := perm_filterMap_of_move h.events_perm hhanded

/-- A goroutine moves on without ending its run call and without recording anything. -/
theorem move_quiet {pre post : List (Goroutine Obj Event Err)} {g g' : Goroutine Obj Event Err}
    {wg wg' : ℕ} {errs errs' : List Err} {ress ress' : List Result}
    (h : Underway x k ⟨pre ++ g :: post, wg, errs, ress⟩ new events)
    (hok : ConcurrentOk (x.step k) ⟨pre ++ g' :: post, wg', errs', ress'⟩)
    (hrun : g'.run? = g.run?) (hrecorded : g'.recorded = g.recorded) :
    Underway x k ⟨pre ++ g' :: post, wg', errs', ress'⟩ new events := by
  simpa using h.move [] [] hok (fun r hr ↦ .inl (hrun ▸ hr)) (by simp [hrun])
    (by simp [hrecorded])

/-- One statement of the call, or its end. -/
theorem step [ErrorValues Err] {c : Concurrent Obj Event Err}
    (h : Underway x k c new events) {log : List (Staged.Event (OperandRun Obj Event Err))}
    {rec : List Event} {s' : ExecState Obj Event Err}
    (hstep : ExecStep x ⟨.concurrent k c, log, rec⟩ s') :
    (∃ c' logged handed, s'.control = .concurrent k c' ∧ s'.log = log ++ logged ∧
        s'.recorded = rec ++ handed ∧ Underway x k c' (new ++ logged) (events ++ handed)) ∨
      ∃ gs errs ress, c = ⟨gs, 0, errs, ress⟩ ∧ gs.length = (x.step k).length ∧
        s' = ⟨.stepDone k (if 0 < ress.length then some {} else none) (collectErrors errs), log,
          rec⟩ := by
  have hok {c' : Concurrent Obj Event Err} (hs' : s'.control = .concurrent k c') :
      ConcurrentOk (x.step k) c' := hstep.concurrentOk rfl hs' h.ok
  cases hstep with
  | spawn hlt =>
    exact .inl ⟨_, [], [], rfl, by simp, by simp, by simpa using h.spawn hlt⟩
  | callStart =>
    refine .inl ⟨_, [.started k _], [], rfl, rfl, by simp, ?_⟩
    exact h.move _ _ (hok rfl) (by simp [Goroutine.run?]) rfl rfl
  | callReturn hop hproduces =>
    refine .inl ⟨_, [.finished k _ _], [], rfl, rfl, by simp, ?_⟩
    refine h.move _ _ (hok rfl) ?_ rfl rfl
    intro r hr
    cases hr
    exact .inr ⟨_, hop, hproduces⟩
  | noError | sendError | sendResult | waitGroupDone =>
    refine .inl ⟨_, [], [], rfl, by simp, by simp, ?_⟩
    simpa using h.move_quiet (hok rfl) rfl rfl
  | noEvent hevent =>
    refine .inl ⟨_, [], [], rfl, by simp, by simp, ?_⟩
    simpa using h.move_quiet (hok rfl) rfl (by simp [Goroutine.recorded, hevent])
  | @record _ _ _ _ _ _ _ _ r event hevent =>
    refine .inl ⟨_, [], [event], rfl, by simp, rfl, ?_⟩
    exact h.move [] _ (hok rfl) (fun _ hr ↦ .inl hr) rfl (by simp [Goroutine.recorded, hevent])
  | join hall => exact .inr ⟨_, _, _, rfl, hall, rfl⟩

end Underway

/-- In every interleaving the execution comes to a state with the property. -/
inductive Inevitable [ErrorValues Err] (x : Execution Obj Event Err)
    (P : ExecState Obj Event Err → Prop) : ExecState Obj Event Err → Prop where
  | now {t : ExecState Obj Event Err} : P t → Inevitable x P t
  | later {t : ExecState Obj Event Err} : (∃ t', ExecStep x t t') →
      (∀ t', ExecStep x t t' → Inevitable x P t') → Inevitable x P t

/-! ## What the call returns -/

section Returns

variable [AggregateErrors Err] {x : Execution Obj Event Err} {k : ℕ}
  {log : List (Staged.Event (OperandRun Obj Event Err))} {rec : List Event}
  {s s' : ExecState Obj Event Err}

/-- What a call of `concurrentExec` returns and leaves behind, in terms of the runs of its operands.
An error of an operand that is itself an aggregate counts with its leaves. -/
structure ReturnedWith (x : Execution Obj Event Err) (k : ℕ)
    (runs : List (OperandRun Obj Event Err))
    (new : List (Staged.Event (OperandRun Obj Event Err))) (events : List Event)
    (res : Option Result) (execErr : Option Err) : Prop where
  produces : List.Forall₂ x.Produces (x.step k) runs
  finished_perm : (new.filterMap loggedRun).Perm runs
  err_eq_none_iff : execErr = none ↔ ∀ r ∈ runs, r.outcome.err = none
  leaves_eq : ∀ err, execErr = some err →
    leaves err = ((runs.filterMap (·.outcome.err)).map leaves).sum
  leaves_eq_errors : (∀ r ∈ runs, ∀ err, r.outcome.err = some err → errors err = none) →
    ∀ err, execErr = some err → leaves err = ↑(runs.filterMap (·.outcome.err))
  result_isSome_iff : res.isSome ↔ ∃ r ∈ runs, r.outcome.event.isSome
  events_perm : events.Perm (runs.filterMap (·.outcome.event))

theorem sum_map_leaves {errs : List Err} (h : ∀ err ∈ errs, errors err = none) :
    (errs.map leaves).sum = (errs : Multiset Err) := by
  induction errs with
  | nil => rfl
  | cons err rest ih =>
    have herr : leaves err = {err} := leaves_other err (h err List.mem_cons_self)
    rw [List.map_cons, List.sum_cons, herr, ih fun e he ↦ h e (List.mem_cons_of_mem _ he)]
    rfl

/-- When the wait group is at zero, all goroutines have had their runs and sent what they had to. -/
theorem Underway.returnedWith {gs : List (Goroutine Obj Event Err)} {errs : List Err}
    {ress : List Result} {new : List (Staged.Event (OperandRun Obj Event Err))}
    {events : List Event} (h : Underway x k ⟨gs, 0, errs, ress⟩ new events)
    (hlength : gs.length = (x.step k).length) :
    ∃ runs, ReturnedWith x k runs new events (if 0 < ress.length then some {} else none)
      (collectErrors errs) := by
  obtain ⟨runs, rfl⟩ := h.ok.exists_exited hlength
  have herrs := h.ok.errs_perm
  have hleaves (err : Err) (herr : collectErrors errs = some err) :
      leaves err = ((runs.filterMap (·.outcome.err)).map leaves).sum := by
    rw [leaves_collectErrors herr]
    exact (herrs.map leaves).sum_eq
  refine ⟨runs, ⟨?_, ?_, ?_, hleaves, ?_, ?_, ?_⟩⟩
  · refine List.forall₂_iff_get.mpr ⟨by simpa using hlength.symm, fun i hi hi' ↦ ?_⟩
    obtain ⟨op, hop, hproduces⟩ := h.produces i runs[i] (by simp [hi', Goroutine.run?])
    obtain rfl : (x.step k)[i] = op := (List.getElem?_eq_some_iff.mp hop).2
    exact hproduces
  · simpa [List.filterMap_map, Function.comp_def, Goroutine.run?] using h.finished_perm
  · rw [collectErrors_eq_none_iff, ← List.perm_nil]
    calc errs.Perm [] ↔ (runs.filterMap (·.outcome.err)).Perm [] := herrs.congr_left []
      _ ↔ ∀ r ∈ runs, r.outcome.err = none := by rw [List.perm_nil, List.filterMap_eq_nil_iff]
  · intro hplain err herr
    rw [hleaves err herr]
    apply sum_map_leaves
    intro e he
    obtain ⟨r, hr, hre⟩ := List.mem_filterMap.mp he
    exact hplain r hr e hre
  · rw [← h.ok.ress_pos_iff]
    split <;> simp_all
  · simpa [List.filterMap_map, Function.comp_def, Goroutine.recorded] using h.events_perm

/-- Where an execution is that has entered `concurrentExec` for step `k`. -/
inductive Entered (x : Execution Obj Event Err) (k : ℕ)
    (log : List (Staged.Event (OperandRun Obj Event Err))) (rec : List Event) :
    ExecState Obj Event Err → Prop where
  | underway {c new events} : Underway x k c new events →
      Entered x k log rec ⟨.concurrent k c, log ++ new, rec ++ events⟩
  | returned {runs new events res execErr} : ReturnedWith x k runs new events res execErr →
      Entered x k log rec ⟨.stepDone k res execErr, log ++ new, rec ++ events⟩
  | past {t : ExecState Obj Event Err} : (∀ j, t.control.step? = some j → k < j) →
      Entered x k log rec t

theorem Entered.step (h : Entered x k log rec s) (hstep : ExecStep x s s') :
    Entered x k log rec s' := by
  cases h with
  | underway h =>
    rcases h.step hstep with ⟨c', logged, handed, hcontrol, hlog, hrec, h'⟩ |
      ⟨gs, errs, ress, rfl, hlength, rfl⟩
    · rw [List.append_assoc] at hlog hrec
      obtain ⟨control, log', rec'⟩ := s'
      cases hcontrol
      subst hlog
      subst hrec
      exact .underway h'
    · obtain ⟨runs, hruns⟩ := h.returnedWith hlength
      exact .returned hruns
  | returned =>
    apply Entered.past
    intro j hj
    cases hstep with
    | stepFailed | stepChanged => cases hj
    | stepNext =>
      cases hj
      exact Nat.lt_succ_self k
  | past hpast =>
    apply Entered.past
    intro j hj
    rcases hstep.step?_cases with hsame | ⟨i, hi, hloop⟩ | ⟨result, err, hreturned⟩
    · exact hpast j (hsame ▸ hj)
    · rw [hloop] at hj
      cases hj
      exact Nat.lt_succ_of_lt (hpast i hi)
    · rw [hreturned] at hj
      cases hj

theorem entered_of_steps
    (h : ReflTransGen (ExecStep x) ⟨.concurrent k ⟨[], (x.step k).length, [], []⟩, log, rec⟩ s) :
    Entered x k log rec s := by
  induction h with
  | refl =>
    have hunderway : Entered x k log rec ⟨.concurrent k _, log ++ [], rec ++ []⟩ :=
      .underway (Underway.enter x k)
    rwa [List.append_nil, List.append_nil] at hunderway
  | tail _ hstep ih => exact ih.step hstep

/-- There is always a next statement, and no interleaving goes on forever. -/
theorem Underway.inevitable {c : Concurrent Obj Event Err}
    {new : List (Staged.Event (OperandRun Obj Event Err))} {events : List Event}
    (h : Underway x k c new events) (hs : s.control = .concurrent k c) :
    Inevitable x (fun t ↦ ∃ res execErr, t.control = .stepDone k res execErr) s := by
  induction s using (wellFounded_execStep x).induction generalizing c new events with
  | _ s ih =>
    obtain ⟨control, log, rec⟩ := s
    cases hs
    apply Inevitable.later
    · have hruns : ∀ (i : ℕ) op, (x.step k)[i]? = some op → ∃ r, x.Produces op r ∧ True :=
        fun _ op _ ↦ (x.exists_produces op).imp fun _ hr ↦ ⟨hr, trivial⟩
      have hnext : ∃ s', ExecStep x ⟨.concurrent k c, log, rec⟩ s' ∧ _ :=
        exists_concurrentStep (P := fun _ _ ↦ True) h.ok hruns
      exact hnext.imp fun _ hstep ↦ hstep.1
    · intro s' hstep
      rcases h.step hstep with ⟨c', logged, handed, hcontrol, -, -, h'⟩ |
        ⟨gs, errs, ress, -, -, rfl⟩
      · exact ih s' hstep h' hcontrol
      · exact .now ⟨_, _, rfl⟩

/-- In every interleaving of `concurrentExec`: a goroutine that is about to send finds room in the
channel, the call returns, and when it does all operands have had their runs, whose errors and
events are exactly those that are returned and recorded. -/
theorem concurrentExec_spec (x : Execution Obj Event Err) (k : ℕ)
    (log : List (Staged.Event (OperandRun Obj Event Err))) (rec : List Event)
    (s : ExecState Obj Event Err)
    (h : ReflTransGen (ExecStep x) ⟨.concurrent k ⟨[], (x.step k).length, [], []⟩, log, rec⟩ s) :
    (∀ c, s.control = .concurrent k c →
        (∀ r, .returned r ∈ c.goroutines → c.errChan.length < (x.step k).length) ∧
        (∀ r, .eventRecorded r ∈ c.goroutines → c.resultChan.length < (x.step k).length) ∧
        Inevitable x (fun t ↦ ∃ res execErr, t.control = .stepDone k res execErr) s) ∧
      ∀ res execErr, s.control = .stepDone k res execErr →
        ∃ runs new events, s.log = log ++ new ∧ s.recorded = rec ++ events ∧
          ReturnedWith x k runs new events res execErr := by
  constructor
  · intro c hs
    cases entered_of_steps h with
    | @underway c' new events hunderway =>
      cases hs
      refine ⟨fun r hr ↦ ?_, fun r hr ↦ ?_, hunderway.inevitable rfl⟩
      · exact hunderway.ok.errChan_lt hr rfl
      · exact hunderway.ok.resultChan_lt hr rfl
    | returned => cases hs
    | past hpast => exact absurd (hpast k (by rw [hs]; rfl)) (Nat.lt_irrefl k)
  · intro res execErr hs
    cases entered_of_steps h with
    | underway => cases hs
    | @returned runs new events _ _ hreturned =>
      cases hs
      exact ⟨runs, new, events, rfl, rfl, hreturned⟩
    | past hpast => exact absurd (hpast k (by rw [hs]; rfl)) (Nat.lt_irrefl k)

end Returns

/-- Two operands are deleted at the same time. -/
def deletePair : Execution String String NestedError :=
  (newExecutor .parallel ()).executeOperands
    [[⟨"A", [], .requeueOnError⟩, ⟨"B", [], .requeueOnError⟩]] callCleanup "app" {}

/-- `A` is deleted with an event and an error, `B` with an error only. -/
def deletePairRuns : List (OperandRun String String NestedError) :=
  [⟨[⟨.delete ⟨"A", [], .requeueOnError⟩ "app", ⟨some "deleted A", some (.text "A failed")⟩⟩],
      ⟨some "deleted A", some (.text "A failed")⟩⟩,
    ⟨[⟨.delete ⟨"B", [], .requeueOnError⟩ "app", ⟨none, some (.text "B failed")⟩⟩],
      ⟨none, some (.text "B failed")⟩⟩]

theorem deletePair_produces : List.Forall₂ deletePair.Produces (deletePair.step 0) deletePairRuns :=
  .cons (.call (.done _)) (.cons (.call (.done _)) .nil)

theorem concurrentExec_spec_deletePair :
    ∃ s runs new events,
      ReflTransGen (ExecStep deletePair) ⟨.concurrent 0 ⟨[], 2, [], []⟩, [], []⟩ s ∧
      s.control = .stepDone 0 (some {})
        (some (.aggregate [.aggregate [.text "A failed"], .text "B failed"])) ∧
      s.log = [] ++ new ∧ s.recorded = [] ++ events ∧
      ReturnedWith deletePair 0 runs new events (some {})
        (some (.aggregate [.aggregate [.text "A failed"], .text "B failed"])) := by
  have hsteps := concurrentExec_returns deletePair_produces [] []
  obtain ⟨runs, new, events, hlog, hrec, hreturned⟩ :=
    (concurrentExec_spec deletePair 0 [] [] _ hsteps).2 _ _ rfl
  exact ⟨_, runs, new, events, hsteps, rfl, hlog, hrec, hreturned⟩

end OperatorToolkit.Operator
