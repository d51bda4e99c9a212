import OperatorToolkit.Operator.ExecutorReturns
import Mathlib.Algebra.BigOperators.Group.List.Basic
import Mathlib.Algebra.Order.Group.Multiset

/-!
# The serial and the parallel strategy agree

Given what each operand's run call returns, the two strategies stop at the same step: the first one
with an error, or with an event and a `RequeueAlways` operand. They return the same result, and in
every step without errors both call all operands and hand the same events to the recorder, in an
order that depends on the interleaving. Only in a step with errors they differ: the serial strategy
leaves out the operands after the first error, and does not record the event of an operand that
returns an error along with it.
-/

namespace OperatorToolkit.Operator

open Relation Staged

variable {Obj Event Err : Type} {x : Execution Obj Event Err} {s : ExecState Obj Event Err}
  {outcomes : ℕ → ℕ → Outcome Event Err} {log : List (Staged.Event (OperandRun Obj Event Err))}
  {rec : List Event} {k : ℕ}

/-! ## Where an execution stops -/

/-- The operands of a step return no error, and not both is there an event and is the step to be
requeued always. -/
def Continues (ops : List Operand) (outcome : ℕ → Outcome Event Err) : Prop :=
  (∀ i < ops.length, (outcome i).err = none) ∧
    ¬(stepRequeueStrategy ops = .requeueAlways ∧ ∃ i < ops.length, (outcome i).event.isSome)

theorem StepPassed.continues (h : StepPassed x log k) (hfollows : Follows outcomes log) :
    Continues (x.step k) (outcomes k) := by
  have hfinished : ∀ i < (x.step k).length,
      ∃ r, .finished k i r ∈ log ∧ r.outcome = outcomes k i := by
    intro i hi
    obtain ⟨r, hr⟩ := h.all_finished i hi
    exact ⟨r, hr, hfollows k i r hr⟩
  refine ⟨fun i hi ↦ ?_, ?_⟩
  · obtain ⟨r, hr, hout⟩ := hfinished i hi
    rw [← hout]
    exact h.err_eq_none i r hr
  · rintro ⟨halways, i, hi, hevent⟩
    obtain ⟨r, hr, hout⟩ := hfinished i hi
    rw [← hout] at hevent
    exact h.no_requeue ⟨(stepRequeueStrategy_eq_always_iff _).mp halways, i, r, hr, hevent⟩

/-- The runs of the current stage in the log. -/
theorem outcome_of_current {a : State (OperandRun Obj Event Err)} (hvalid : Valid x.plan a)
    (hfollows : Follows outcomes a.log) {i : ℕ} {r : OperandRun Obj Event Err}
    (hr : a.current[i]? = some (.finished r)) :
    i < (x.step a.past.length).length ∧ r.outcome = outcomes a.past.length i := by
  have hi : i < a.current.length := (List.getElem?_eq_some_iff.mp hr).1
  have hstatus : a.statusAt a.past.length i = .finished r := by simp [State.statusAt, hr]
  exact ⟨hvalid.current_length ▸ hi, hfollows _ i r (hvalid.mem_finished_iff.mpr hstatus)⟩

theorem continues_of_past {a : State (OperandRun Obj Event Err)} (hvalid : Valid x.plan a)
    (hfollows : Follows outcomes a.log) {j : ℕ} (hj : j < a.past.length) :
    Continues (x.step j) (outcomes j) :=
  (stepPassed_of_closed (hvalid.closed hj)).continues hfollows

section Spec

variable [ErrorValues Err]

theorem loop_spec (h : x.Reaches ⟨.loop k, log, rec⟩) (hfollows : Follows outcomes log) :
    k ≤ x.order.length ∧ ∀ j < k, Continues (x.step j) (outcomes j) := by
  obtain ⟨a, hreach, rfl, href⟩ := h.refines
  cases href with
  | loop hle => exact ⟨hle, fun j hj ↦ continues_of_past hreach.valid hfollows hj⟩

/-- What a step returns, in terms of what its operands return. -/
structure StepSpec (x : Execution Obj Event Err) (outcomes : ℕ → ℕ → Outcome Event Err) (k : ℕ)
    (res : Option Result) (execErr : Option Err) : Prop where
  lt_length : k < x.order.length
  continues : ∀ j < k, Continues (x.step j) (outcomes j)
  err_eq_none_iff : execErr = none ↔ ∀ i < (x.step k).length, (outcomes k i).err = none
  res_isSome_iff : execErr = none →
    (res.isSome ↔ ∃ i < (x.step k).length, (outcomes k i).event.isSome)

theorem stepDone_spec {res : Option Result} {execErr : Option Err}
    (h : x.Reaches ⟨.stepDone k res execErr, log, rec⟩) (hfollows : Follows outcomes log) :
    StepSpec x outcomes k res execErr := by
  obtain ⟨a, hreach, rfl, href⟩ := h.refines
  have hvalid := hreach.valid
  cases href with
  | @stepDone past current log _ _ hk hreports =>
    have hcontinues : ∀ j < past.length, Continues (x.step j) (outcomes j) := fun j hj ↦
      continues_of_past hvalid hfollows hj
    cases hreports with
    | @clean runs _ hcurrent hclean =>
      subst hcurrent
      have hlength : runs.length = (x.step past.length).length := by
        simpa using hvalid.current_length
      have hout : ∀ i (hi : i < runs.length), runs[i].outcome = outcomes past.length i := by
        intro i hi
        exact (outcome_of_current hvalid hfollows (by simp [hi])).2
      refine ⟨hk, hcontinues, iff_of_true rfl fun i hi ↦ ?_, fun _ ↦ ?_⟩
      · rw [← hout i (hlength ▸ hi)]
        exact hclean.err_eq_none _ (List.getElem_mem _)
      · rw [hclean.result_iff, List.exists_mem_iff_getElem]
        constructor
        · rintro ⟨i, hi, hevent⟩
          exact ⟨i, hlength ▸ hi, hout i hi ▸ hevent⟩
        · rintro ⟨i, hi, hevent⟩
          rw [← hlength] at hi
          exact ⟨i, hi, (hout i hi).symm ▸ hevent⟩
    | failed hfailed =>
      obtain ⟨r, e, hr, he⟩ := hfailed.exists_error
      obtain ⟨i, hi⟩ := List.getElem?_of_mem hr
      obtain ⟨hlt, hout⟩ := outcome_of_current hvalid hfollows hi
      refine ⟨hk, hcontinues, iff_of_false nofun fun hnone ↦ ?_, nofun⟩
      have hne := hnone i hlt
      rw [← hout, he] at hne
      cases hne

/-- The step at which an execution with these outcomes stops, or the length of the order if it
runs to the end. -/
structure EndsAt (order : OperandOrder) (outcomes : ℕ → ℕ → Outcome Event Err) (m : ℕ) : Prop where
  le_length : m ≤ order.length
  continues : ∀ j < m, Continues (order.getD j []) (outcomes j)
  not_continues : m < order.length → ¬Continues (order.getD m []) (outcomes m)

omit [ErrorValues Err] in
theorem EndsAt.le {order : OperandOrder} {m m' : ℕ} (h : EndsAt order outcomes m)
    (h' : EndsAt order outcomes m') : m ≤ m' := by
  by_contra hlt
  exact h'.not_continues (Nat.lt_of_lt_of_le (Nat.lt_of_not_le hlt) h.le_length)
    (h.continues m' (Nat.lt_of_not_le hlt))

/-- What an execution returns, in terms of what the operands return. -/
structure ReturnSpec (x : Execution Obj Event Err) (outcomes : ℕ → ℕ → Outcome Event Err)
    (s : ExecState Obj Event Err) (result : Result) (err : Option Err) (m : ℕ) : Prop where
  endsAt : EndsAt x.order outcomes m
  passes : x.Passes m s
  result_eq : result = if m < x.order.length then { requeue := true } else {}
  err_eq_none_iff : err = none ↔ ∀ i < (x.step m).length, (outcomes m i).err = none

theorem returned_spec (hknown : ∀ value, x.strategy ≠ .unknown value) (h : x.Reaches s)
    {result : Result} {err : Option Err} (hs : s.control = .returned result err)
    (hfollows : Follows outcomes s.log) : ∃ m, ReturnSpec x outcomes s result err m := by
  rcases ReflTransGen.cases_tail h with rfl | ⟨u, hu, hstep⟩
  · cases hs
  have hpasses {m : ℕ} (hm : u.control.step? = some m) : x.Passes m s := by
    obtain ⟨w, hw, hloop, hwu⟩ := Execution.Reaches.passes hu hm (Nat.le_refl m)
    exact ⟨w, hw, hloop, hwu.tail hstep⟩
  cases hstep with
  | @loopEnd k _ _ hk =>
    cases hs
    obtain ⟨hle, hcontinues⟩ := loop_spec hu hfollows
    have hstep : x.step k = [] := by
      rw [Execution.step, List.getD_eq_getElem?_getD, List.getElem?_eq_none hk, Option.getD_none]
    refine ⟨k, ⟨hle, hcontinues, fun hlt ↦ by omega⟩, hpasses rfl, (if_neg (by omega)).symm, ?_⟩
    simp [hstep]
  | unknownStrategy _ hvalue => exact absurd hvalue (hknown _)
  | @stepFailed k res err =>
    cases hs
    have hspec := stepDone_spec hu hfollows
    refine ⟨k, ⟨Nat.le_of_lt hspec.lt_length, hspec.continues, fun _ hcontinues ↦ ?_⟩, hpasses rfl,
      (if_pos hspec.lt_length).symm, hspec.err_eq_none_iff⟩
    cases hspec.err_eq_none_iff.mpr hcontinues.1
  | @stepChanged k res _ _ hres halways =>
    cases hs
    have hspec := stepDone_spec hu hfollows
    refine ⟨k, ⟨Nat.le_of_lt hspec.lt_length, hspec.continues, fun _ hcontinues ↦ ?_⟩, hpasses rfl,
      (if_pos hspec.lt_length).symm, hspec.err_eq_none_iff⟩
    exact hcontinues.2 ⟨halways, (hspec.res_isSome_iff rfl).mp hres⟩
  | _ => cases hs

end Spec

/-! ## What the recorder is handed -/

/-- The event that a run in the log has returned. -/
def loggedEvent : Staged.Event (OperandRun Obj Event Err) → Option Event
  | .started _ _ => none
  | .finished _ _ r => r.outcome.event

def loggedEvents (log : List (Staged.Event (OperandRun Obj Event Err))) : Multiset Event :=
  log.filterMap loggedEvent

@[simp] theorem loggedEvents_append (log log' : List (Staged.Event (OperandRun Obj Event Err))) :
    loggedEvents (log ++ log') = loggedEvents log + loggedEvents log' := by
  simp [loggedEvents]

theorem loggedEvents_started (k i : ℕ) :
    loggedEvents [(.started k i : Staged.Event (OperandRun Obj Event Err))] = 0 := rfl

@[simp] theorem loggedEvents_finished (k i : ℕ) (r : OperandRun Obj Event Err) :
    loggedEvents [.finished k i r] = r.outcome.event.toList := by
  cases hevent : r.outcome.event <;> simp [loggedEvents, loggedEvent, hevent]

/-- The event that a goroutine has got and not recorded yet. -/
def Goroutine.pending : Goroutine Obj Event Err → Multiset Event
  | .returned r | .errorSent r => r.outcome.event.toList
  | _ => 0

def Control.pending : Control Obj Event Err → Multiset Event
  | .concurrent _ c => (c.goroutines.map Goroutine.pending).sum
  | _ => 0

/-- The recorder has been handed the events of the runs in the log, except those that are pending;
nothing is said about a step that has failed. -/
def Recorded (s : ExecState Obj Event Err) : Prop :=
  match s.control with
  | .stepDone _ _ (some _) | .returned _ _ => True
  | c => (s.recorded : Multiset Event) + c.pending = loggedEvents s.log

section Recorder

variable [ErrorValues Err]

omit [ErrorValues Err] in
/-- A goroutine moves on: it has got some events and handed some to the recorder. -/
theorem Recorded.move {pre post : List (Goroutine Obj Event Err)} {g g' : Goroutine Obj Event Err}
    {wg wg' : ℕ} {errs errs' : List Err} {ress ress' : List Result}
    {log' : List (Staged.Event (OperandRun Obj Event Err))} (got : Multiset Event)
    (handed : List Event)
    (h : Recorded ⟨.concurrent k ⟨pre ++ g :: post, wg, errs, ress⟩, log, rec⟩)
    (hlog : loggedEvents log' = loggedEvents log + got)
    (hpending : handed + g'.pending = g.pending + got) :
    Recorded ⟨.concurrent k ⟨pre ++ g' :: post, wg', errs', ress'⟩, log', rec ++ handed⟩ := by
  have hold : (rec : Multiset Event) + ((pre.map Goroutine.pending).sum +
      (g.pending + (post.map Goroutine.pending).sum)) = loggedEvents log := by
    simpa [Recorded, Control.pending] using h
  simp only [Recorded, Control.pending, List.map_append, List.map_cons, List.sum_append,
    List.sum_cons, ← Multiset.coe_add, hlog]
  calc (rec + handed : Multiset Event) + ((pre.map Goroutine.pending).sum +
        (g'.pending + (post.map Goroutine.pending).sum))
      = rec + ((pre.map Goroutine.pending).sum + (handed + g'.pending +
        (post.map Goroutine.pending).sum)) := by ac_rfl
    _ = rec + ((pre.map Goroutine.pending).sum + (g.pending + got +
        (post.map Goroutine.pending).sum)) := by rw [hpending]
    _ = rec + ((pre.map Goroutine.pending).sum + (g.pending +
        (post.map Goroutine.pending).sum)) + got := by ac_rfl
    _ = loggedEvents log + got := by rw [hold]

omit [ErrorValues Err] in
/-- A goroutine moves on without having got or recorded an event. -/
theorem Recorded.move_same {pre post : List (Goroutine Obj Event Err)}
    {g g' : Goroutine Obj Event Err} {wg wg' : ℕ} {errs errs' : List Err} {ress ress' : List Result}
    {log' : List (Staged.Event (OperandRun Obj Event Err))}
    (h : Recorded ⟨.concurrent k ⟨pre ++ g :: post, wg, errs, ress⟩, log, rec⟩)
    (hlog : loggedEvents log' = loggedEvents log) (hpending : g'.pending = g.pending) :
    Recorded ⟨.concurrent k ⟨pre ++ g' :: post, wg', errs', ress'⟩, log', rec⟩ := by
  rw [← List.append_nil rec]
  exact h.move 0 [] (by simpa using hlog) (by simpa using hpending)

theorem ExecStep.recorded {s' : ExecState Obj Event Err} (hstep : ExecStep x s s')
    (hreach : x.Reaches s) (h : Recorded s) : Recorded s' := by
  cases hstep with
  | loopEnd | unknownStrategy | stepFailed | stepChanged => trivial
  | serialEnter | serialEnd | stepNext => exact h
  | serialStart => simpa [Recorded, Control.pending, loggedEvents_started] using h
  | @serialFail _ _ _ _ _ _ _ err =>
    obtain ⟨agg, hagg⟩ := newAggregate_isSome err [none, some err] (by simp)
    simp [Recorded, hagg]
  | @serialNext _ _ _ log rec _ r =>
    have hold : (rec : Multiset Event) = loggedEvents log := by
      simpa [Recorded, Control.pending] using h
    simp [Recorded, Control.pending, ← Multiset.coe_add, hold]
  | concurrentEnter => simpa [Recorded, Control.pending] using h
  | spawn => simpa [Recorded, Control.pending, Goroutine.pending] using h
  | callStart => exact h.move_same (by simp [loggedEvents_started]) rfl
  | @callReturn _ _ _ _ _ _ _ rec _ r =>
    rw [← List.append_nil rec]
    exact h.move r.outcome.event.toList [] (by simp) (by simp [Goroutine.pending])
  | noError | sendError => exact h.move_same rfl rfl
  | noEvent hevent => exact h.move_same rfl (by simp [Goroutine.pending, hevent])
  | record hevent => exact h.move 0 _ (by simp) (by simp [Goroutine.pending, hevent])
  | sendResult | waitGroupDone => exact h.move_same rfl rfl
  | @join _ gs errs _ _ _ hlength =>
    obtain ⟨a, -, -, href⟩ := hreach.refines
    cases href with
    | concurrent _ _ hok =>
      obtain ⟨runs, rfl⟩ := hok.exists_exited hlength
      have hpending : ((runs.map Goroutine.exited).map Goroutine.pending).sum = 0 :=
        List.sum_eq_zero (by simp [Goroutine.pending])
      cases hcollect : collectErrors errs with
      | some err => trivial
      | none => simpa only [Recorded, Control.pending, hpending, add_zero] using h

theorem Execution.Reaches.recorded (h : x.Reaches s) : Recorded s := by
  induction h with
  | refl => rfl
  | tail hreach hstep ih => exact hstep.recorded hreach ih

theorem ExecStep.grows {s' : ExecState Obj Event Err} (h : ExecStep x s s') :
    s.log <+: s'.log ∧ s.recorded <+: s'.recorded := by
  cases h <;> simp

theorem grows_of_steps {s' : ExecState Obj Event Err} (h : ReflTransGen (ExecStep x) s s') :
    s.log <+: s'.log ∧ s.recorded <+: s'.recorded := by
  induction h with
  | refl => exact ⟨List.prefix_rfl, List.prefix_rfl⟩
  | tail _ hstep ih => exact ⟨ih.1.trans hstep.grows.1, ih.2.trans hstep.grows.2⟩

omit [ErrorValues Err] in
theorem Follows.of_grows {log' : List (Staged.Event (OperandRun Obj Event Err))}
    (h : Follows outcomes log') (hgrows : log <+: log') : Follows outcomes log :=
  fun k i r hr ↦ h k i r (hgrows.subset hr)

/-! ## One step of the order -/

/-- What the recorder was handed in step `k`, on the way to the state. -/
def Execution.Records (x : Execution Obj Event Err) (k : ℕ) (s : ExecState Obj Event Err)
    (events : List Event) : Prop :=
  ∃ u v res execErr, x.Reaches u ∧ u.control = .loop k ∧ ReflTransGen (ExecStep x) u v ∧
    v.control = .stepDone k res execErr ∧ ReflTransGen (ExecStep x) v s ∧
    v.recorded = u.recorded ++ events

/-- The events that the operands of a step return. -/
def stepEvents (ops : List Operand) (outcome : ℕ → Outcome Event Err) : Multiset Event :=
  (List.range ops.length).filterMap fun i ↦ (outcome i).event

theorem mem_finishes_loop (h : x.Reaches s) (hs : s.control = .loop k) {j i : ℕ} :
    (j, i) ∈ finishes s.log ↔ j < k ∧ i < (x.step j).length := by
  obtain ⟨a, hreach, hlog, href⟩ := h.refines
  have hvalid := hreach.valid
  rw [hs] at href
  rw [← hlog]
  cases href with
  | @loop past log hle =>
    rcases Nat.lt_trichotomy j past.length with hlt | rfl | hgt
    · exact (hvalid.mem_finishes_past hlt).trans (by simp [hlt])
    · refine hvalid.mem_finishes_current.trans (iff_of_false ?_ (by simp))
      rintro ⟨out, hout⟩
      cases List.eq_of_mem_replicate (List.mem_of_getElem? hout)
    · exact iff_of_false (hvalid.not_mem_finishes hgt) (by omega)

theorem mem_finishes_stepDone (h : x.Reaches s) {res : Option Result}
    (hs : s.control = .stepDone k res none) {j i : ℕ} :
    (j, i) ∈ finishes s.log ↔ j ≤ k ∧ i < (x.step j).length := by
  obtain ⟨a, hreach, hlog, href⟩ := h.refines
  have hvalid := hreach.valid
  rw [hs] at href
  rw [← hlog]
  cases href with
  | @stepDone past current log _ _ hk hreports =>
    rcases Nat.lt_trichotomy j past.length with hlt | rfl | hgt
    · exact (hvalid.mem_finishes_past hlt).trans (by simp [Nat.le_of_lt hlt])
    · cases hreports with
      | @clean runs _ hcurrent hclean =>
        subst hcurrent
        have hlength : runs.length = (x.step past.length).length := by
          simpa using hvalid.current_length
        refine hvalid.mem_finishes_current.trans ?_
        simp [List.getElem?_eq_some_iff, hlength]
    · exact iff_of_false (hvalid.not_mem_finishes hgt) (by omega)

omit [ErrorValues Err] in
theorem loggedEvents_eq_of_follows (h : Follows outcomes log) :
    loggedEvents log =
      ((finishes log).filterMap fun p ↦ (outcomes p.1 p.2).event : List Event) := by
  rw [loggedEvents, finishes, List.filterMap_filterMap]
  congr 1
  refine List.filterMap_congr fun e he ↦ ?_
  cases e with
  | started => rfl
  | finished k i r => simp [loggedEvent, Staged.Event.finish?, h k i r he]

/-- Between the beginning and the end of a step without errors the runs of its operands end, each
of them once. -/
theorem finishes_of_step {u v : ExecState Obj Event Err} (hu : x.Reaches u) (hv : x.Reaches v)
    (hloop : u.control = .loop k) {res : Option Result} (hdone : v.control = .stepDone k res none)
    {new : List (Staged.Event (OperandRun Obj Event Err))} (hnew : u.log ++ new = v.log) :
    (finishes new).Perm ((List.range (x.step k).length).map (Prod.mk k)) := by
  obtain ⟨a, hreach, hlog, -⟩ := hv.refines
  have hnodup : (finishes u.log ++ finishes new).Nodup := by
    rw [← finishes_append, hnew, ← hlog]
    exact hreach.valid.nodup_finishes
  refine (List.perm_ext_iff_of_nodup hnodup.of_append_right
    (List.nodup_range.map (Prod.mk_right_injective k))).mpr fun ⟨j, i⟩ ↦ ?_
  have hmem : (j, i) ∈ finishes u.log ∨ (j, i) ∈ finishes new ↔
      j ≤ k ∧ i < (x.step j).length := by
    rw [← mem_finishes_stepDone hv hdone, ← hnew, finishes_append, List.mem_append]
  have hdisjoint : (j, i) ∈ finishes u.log → (j, i) ∉ finishes new :=
    fun hold ↦ List.disjoint_of_nodup_append hnodup hold
  rw [mem_finishes_loop hu hloop] at hmem hdisjoint
  have hthis : (j, i) ∈ finishes new ↔ j = k ∧ i < (x.step k).length := by
    constructor
    · intro hnew
      have hle := hmem.mp (.inr hnew)
      have hnot : ¬(j < k ∧ i < (x.step j).length) := fun hold ↦ hdisjoint hold hnew
      obtain rfl : j = k := by omega
      exact ⟨rfl, hle.2⟩
    · rintro ⟨rfl, hi⟩
      exact (hmem.mpr ⟨Nat.le_refl j, hi⟩).resolve_left fun hold ↦ Nat.lt_irrefl j hold.1
  rw [hthis]
  simp [eq_comm, and_comm]

theorem stepDone_clean {v : ExecState Obj Event Err} (hv : x.Reaches v) {res : Option Result}
    {execErr : Option Err} (hdone : v.control = .stepDone k res execErr)
    (hfollows : Follows outcomes v.log)
    (herr : ∀ i < (x.step k).length, (outcomes k i).err = none) : execErr = none := by
  obtain ⟨control, log, rec⟩ := v
  subst hdone
  exact (stepDone_spec hv hfollows).err_eq_none_iff.mpr herr

/-- In a step without errors the recorder is handed the events of its operands. -/
theorem Execution.Records.eq_stepEvents {events : List Event} (h : x.Records k s events)
    (hfollows : Follows outcomes s.log)
    (herr : ∀ i < (x.step k).length, (outcomes k i).err = none) :
    (events : Multiset Event) = stepEvents (x.step k) (outcomes k) := by
  obtain ⟨u, v, res, execErr, hu, hloop, huv, hdone, hvs, hrecorded⟩ := h
  have hv : x.Reaches v := ReflTransGen.trans hu huv
  have hfollows : Follows outcomes v.log := hfollows.of_grows (grows_of_steps hvs).1
  obtain rfl := stepDone_clean hv hdone hfollows herr
  obtain ⟨new, hnew⟩ := (grows_of_steps huv).1
  have hperm := finishes_of_step hu hv hloop hdone hnew
  have hbefore : (u.recorded : Multiset Event) = loggedEvents u.log := by
    simpa [Recorded, hloop, Control.pending] using hu.recorded
  have hafter : (v.recorded : Multiset Event) = loggedEvents v.log := by
    simpa [Recorded, hdone, Control.pending] using hv.recorded
  have hevents : (events : Multiset Event) = loggedEvents new := by
    rw [hrecorded, ← hnew, ← Multiset.coe_add, loggedEvents_append, hbefore] at hafter
    exact add_left_cancel hafter
  calc (events : Multiset Event) = loggedEvents new := hevents
    _ = ((finishes new).filterMap fun p ↦ (outcomes p.1 p.2).event : List Event) :=
      loggedEvents_eq_of_follows fun j i r hr ↦
        hfollows j i r (hnew ▸ List.mem_append_right _ hr)
    _ = (((List.range (x.step k).length).map (Prod.mk k)).filterMap fun p ↦
        (outcomes p.1 p.2).event : List Event) := Multiset.coe_eq_coe.mpr (hperm.filterMap _)
    _ = stepEvents (x.step k) (outcomes k) := by rw [List.filterMap_map]; rfl

/-! ## Agreement -/

/-- Step `k` of the order has been executed on the way to the state. -/
def Execution.Executes (x : Execution Obj Event Err) (k : ℕ) (s : ExecState Obj Event Err) : Prop :=
  k < x.order.length ∧ x.Passes k s

theorem ReturnSpec.executes_iff {result : Result} {err : Option Err} {m : ℕ}
    (h : ReturnSpec x outcomes s result err m) (hfollows : Follows outcomes s.log) :
    x.Executes k s ↔ k < x.order.length ∧ k ≤ m := by
  refine and_congr_right fun hk ↦ ⟨?_, fun hle ↦ ?_⟩
  · rintro ⟨⟨control, log, rec⟩, hu, hloop, hus⟩
    by_contra hlt
    subst hloop
    have hcontinues := (loop_spec hu (hfollows.of_grows (grows_of_steps hus).1)).2 m (by omega)
    exact h.endsAt.not_continues (by omega) hcontinues
  · obtain ⟨u, hu, hloop, hus⟩ := h.passes
    obtain ⟨w, hw, hwk, hwu⟩ := hu.passes (by rw [hloop]; rfl) hle
    exact ⟨w, hw, hwk, hwu.trans hus⟩

section Executed

variable (hknown : ∀ value, x.strategy ≠ .unknown value) {result : Result} {err : Option Err}
  (hs : s.control = .returned result err) (h : x.Executes k s)

include hknown hs h

theorem Execution.Executes.exists_records : ∃ events, x.Records k s events := by
  obtain ⟨hk, u, hu, hloop, hus⟩ := h
  obtain ⟨v, res, execErr, huv, hdone, hvs⟩ :=
    exists_stepDone hk hknown hs hus (by rw [hloop]; rfl)
  obtain ⟨events, hevents⟩ := (grows_of_steps huv).2
  exact ⟨events, u, v, res, execErr, hu, hloop, huv, hdone, hvs, hevents.symm⟩

/-- Every operand of an executed step without errors has been called exactly once. -/
theorem Execution.Executes.startCount_eq_one (hreach : x.Reaches s)
    (hfollows : Follows outcomes s.log)
    (herr : ∀ i < (x.step k).length, (outcomes k i).err = none) {i : ℕ}
    (hi : i < (x.step k).length) : startCount s.log k i = 1 := by
  obtain ⟨hk, u, hu, hloop, hus⟩ := h
  obtain ⟨v, res, execErr, huv, hdone, hvs⟩ :=
    exists_stepDone hk hknown hs hus (by rw [hloop]; rfl)
  have hv : x.Reaches v := ReflTransGen.trans hu huv
  have hgrows := (grows_of_steps hvs).1
  obtain rfl := stepDone_clean hv hdone (hfollows.of_grows hgrows) herr
  have hmem := (mem_finishes_stepDone hv hdone).mpr ⟨Nat.le_refl k, hi⟩
  obtain ⟨r, hr⟩ := mem_finishes_iff.mp hmem
  obtain ⟨a, hvalid, hlog, -⟩ := hreach.refines
  have hstatus := hvalid.valid.mem_finished_iff.mp (hlog ▸ hgrows.subset hr)
  exact hlog ▸ (hvalid.valid.counts_of_finished hstatus).1

end Executed

/-- Both executions have called every operand of the step once, and have handed the same events to
the recorder. -/
structure SameStep (x y : Execution Obj Event Err) (k : ℕ) (s t : ExecState Obj Event Err) :
    Prop where
  called : ∀ i < (x.step k).length, startCount s.log k i = 1
  called' : ∀ i < (y.step k).length, startCount t.log k i = 1
  exists_records : ∃ events, x.Records k s events
  exists_records' : ∃ events, y.Records k t events
  events_eq : ∀ events events', x.Records k s events → y.Records k t events' →
    (events : Multiset Event) = events'

/-- **Serial and parallel execution.** For given outcomes of the run calls both strategies return,
in every interleaving; they return the same result, agree on whether there is an error, execute the
same steps, and do the same in every step without errors. -/
theorem strategies_agree {Recorder : Type} (recorder : Recorder) (order : OperandOrder)
    (call : OperandRunCall Obj Event Err) (obj : Obj) (ownerRef : OwnerReference)
    (outcomes : ℕ → ℕ → Outcome Event Err) :
    let x := (newExecutor .serial recorder).executeOperands order call obj ownerRef
    let y := (newExecutor .parallel recorder).executeOperands order call obj ownerRef
    x.Allows outcomes →
      x.Returns outcomes ∧ y.Returns outcomes ∧
      ∀ s t result result' err err', x.Reaches s → y.Reaches t →
        Follows outcomes s.log → Follows outcomes t.log →
        s.control = .returned result err → t.control = .returned result' err' →
        result = result' ∧ (err = none ↔ err' = none) ∧
          (∀ k, x.Executes k s ↔ y.Executes k t) ∧
          ∀ k, x.Executes k s → (∀ i < (x.step k).length, (outcomes k i).err = none) →
            SameStep x y k s t := by
  intro x y hallows
  refine ⟨hallows.returns, Execution.Allows.returns hallows, ?_⟩
  intro s t result result' err err' hreach hreach' hfollows hfollows' hs ht
  have hserial : ∀ value, x.strategy ≠ .unknown value := fun _ ↦ ExecutionStrategy.noConfusion
  have hparallel : ∀ value, y.strategy ≠ .unknown value := fun _ ↦ ExecutionStrategy.noConfusion
  obtain ⟨m, hspec⟩ := returned_spec hserial hreach hs hfollows
  obtain ⟨m', hspec'⟩ := returned_spec hparallel hreach' ht hfollows'
  obtain rfl : m = m' := Nat.le_antisymm (hspec.endsAt.le hspec'.endsAt)
    (hspec'.endsAt.le hspec.endsAt)
  have hexecutes (k : ℕ) : x.Executes k s ↔ y.Executes k t :=
    (hspec.executes_iff hfollows).trans (hspec'.executes_iff hfollows').symm
  refine ⟨hspec.result_eq.trans hspec'.result_eq.symm,
    hspec.err_eq_none_iff.trans hspec'.err_eq_none_iff.symm, hexecutes, fun k hk herr ↦ ?_⟩
  have hk' : y.Executes k t := (hexecutes k).mp hk
  exact {
    called := fun i hi ↦ hk.startCount_eq_one hserial hs hreach hfollows herr hi
    called' := fun i hi ↦ hk'.startCount_eq_one hparallel ht hreach' hfollows' herr hi
    exists_records := hk.exists_records hserial hs
    exists_records' := hk'.exists_records hparallel ht
    events_eq := fun events events' hrecords hrecords' ↦
      (hrecords.eq_stepEvents hfollows herr).trans (hrecords'.eq_stepEvents hfollows' herr).symm }

end Recorder

/-- `Delete` reports a change of every operand, and an error along with it for the last one. -/
def cleanupOutcomes (k i : ℕ) : Outcome String GoError :=
  ⟨some "deleted", if k = 1 ∧ i = 1 then some ⟨["still in use"]⟩ else none⟩

def cleanupOrder : OperandOrder :=
  [[⟨"A", [], .requeueOnError⟩, ⟨"B", [], .requeueOnError⟩],
    [⟨"C", ["A"], .requeueAlways⟩, ⟨"D", ["B"], .requeueOnError⟩]]

theorem strategies_agree_cleanup :
    ∃ s t result err err',
      ((newExecutor .serial ()).executeOperands cleanupOrder callCleanup () {}).Reaches s ∧
      ((newExecutor .parallel ()).executeOperands cleanupOrder callCleanup () {}).Reaches t ∧
      Follows cleanupOutcomes s.log ∧ Follows cleanupOutcomes t.log ∧
      s.control = .returned result err ∧ t.control = .returned result err' ∧
      (err = none ↔ err' = none) := by
  have hallows : ((newExecutor .serial ()).executeOperands cleanupOrder callCleanup () {} :
      Execution Unit String GoError).Allows cleanupOutcomes := fun k i op _ ↦
    ⟨⟨[⟨.delete op (), cleanupOutcomes k i⟩], cleanupOutcomes k i⟩, .call (.done _), rfl⟩
  obtain ⟨hserial, hparallel, hagree⟩ :=
    strategies_agree () cleanupOrder callCleanup () {} cleanupOutcomes hallows
  obtain ⟨s, hreach, hfollows, result, err, hs⟩ := hserial.exists_returned
  obtain ⟨t, hreach', hfollows', result', err', ht⟩ := hparallel.exists_returned
  obtain ⟨rfl, herr, -⟩ :=
    hagree s t result result' err err' hreach hreach' hfollows hfollows' hs ht
  exact ⟨s, t, result, err, err', hreach, hreach', hfollows, hfollows', hs, ht, herr⟩

end OperatorToolkit.Operator
