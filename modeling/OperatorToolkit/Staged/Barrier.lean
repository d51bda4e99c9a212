import Mathlib.Data.List.Forall2
import Mathlib.Data.List.Nodup
import Mathlib.Logic.Relation
import Mathlib.Tactic.Common

/-!
# Staged execution with a barrier

Tasks are given in stages. The tasks of the current stage may start and finish in any order and may
overlap; the next stage opens only when all tasks of the current one have finished with outputs
that permit to proceed. Implementations that differ in how they schedule the tasks of a stage can
be related to this one machine, and inherit what holds of its log: a task starts at most once, and
a start is preceded by the end of every task of every earlier stage.
-/

namespace OperatorToolkit.Staged

variable {Task Out : Type}

inductive Status (Out : Type) where
  | idle
  | running
  | finished (out : Out)

/-- Starts and ends are logged with the stage and the position of the task in it. -/
inductive Event (Out : Type) where
  | started (stage task : ℕ)
  | finished (stage task : ℕ) (out : Out)

structure Plan (Task Out : Type) where
  stages : List (List Task)
  /-- The outputs a task can end with. -/
  Produces : Task → Out → Prop
  /-- Whether the stage after these tasks may open. -/
  Proceed : List Task → List Out → Prop

def Plan.stage (plan : Plan Task Out) (k : ℕ) : List Task := plan.stages.getD k []

/-- The outputs of the completed stages, the tasks of the current one, and the log. -/
structure State (Out : Type) where
  past : List (List Out)
  current : List (Status Out)
  log : List (Event Out)

def Plan.init (plan : Plan Task Out) : State Out :=
  ⟨[], List.replicate (plan.stage 0).length .idle, []⟩

inductive Step (plan : Plan Task Out) : State Out → State Out → Prop where
  | start {past : List (List Out)} {pre post : List (Status Out)} {log : List (Event Out)} :
      Step plan ⟨past, pre ++ .idle :: post, log⟩
        ⟨past, pre ++ .running :: post, log ++ [.started past.length pre.length]⟩
  | finish {past : List (List Out)} {pre post : List (Status Out)} {log : List (Event Out)}
      {task : Task} {out : Out} :
      (plan.stage past.length)[pre.length]? = some task → plan.Produces task out →
      Step plan ⟨past, pre ++ .running :: post, log⟩
        ⟨past, pre ++ .finished out :: post, log ++ [.finished past.length pre.length out]⟩
  | advance {past : List (List Out)} {outs : List Out} {log : List (Event Out)} :
      past.length < plan.stages.length → plan.Proceed (plan.stage past.length) outs →
      Step plan ⟨past, outs.map .finished, log⟩
        ⟨past ++ [outs], List.replicate (plan.stage (past.length + 1)).length .idle, log⟩

def Reachable (plan : Plan Task Out) : State Out → Prop :=
  Relation.ReflTransGen (Step plan) plan.init

/-! ## What the log says about one task -/

def Event.isAt (k i : ℕ) : Event Out → Bool
  | .started k' i' => k' = k ∧ i' = i
  | .finished k' i' _ => k' = k ∧ i' = i

theorem Event.started_isAt_iff {k i k' i' : ℕ} :
    (Event.started k' i' : Event Out).isAt k i = true ↔ k = k' ∧ i = i' := by
  rw [isAt, decide_eq_true_eq]
  exact and_congr eq_comm eq_comm

theorem Event.finished_isAt_iff {k i k' i' : ℕ} {out : Out} :
    (Event.finished k' i' out).isAt k i = true ↔ k = k' ∧ i = i' := by
  rw [isAt, decide_eq_true_eq]
  exact and_congr eq_comm eq_comm

def Event.isStart (k i : ℕ) : Event Out → Bool
  | .started k' i' => k' = k ∧ i' = i
  | .finished _ _ _ => false

def Event.isFinish (k i : ℕ) : Event Out → Bool
  | .started _ _ => false
  | .finished k' i' _ => k' = k ∧ i' = i

/-- How often a task has been started. -/
def startCount (log : List (Event Out)) (k i : ℕ) : ℕ := log.countP (Event.isStart k i)

/-- How often a task has ended. -/
def finishCount (log : List (Event Out)) (k i : ℕ) : ℕ := log.countP (Event.isFinish k i)

def statusEvents (k i : ℕ) : Status Out → List (Event Out)
  | .idle => []
  | .running => [.started k i]
  | .finished out => [.started k i, .finished k i out]

/-- Where a task stands: finished in a past stage, as listed in the current one, or still idle. -/
def State.statusAt (s : State Out) (k i : ℕ) : Status Out :=
  if k < s.past.length then (((s.past.getD k [])[i]?).map .finished).getD .idle
  else if k = s.past.length then (s.current[i]?).getD .idle
  else .idle

theorem statusAt_current {past : List (List Out)} {current : List (Status Out)}
    {log : List (Event Out)} {i : ℕ} :
    (State.mk past current log).statusAt past.length i = (current[i]?).getD .idle := by
  simp [State.statusAt]

/-- A finished task belongs to a completed stage or to the current one. -/
theorem statusAt_eq_finished {s : State Out} {k i : ℕ} {out : Out}
    (h : s.statusAt k i = .finished out) :
    (∃ outs, s.past[k]? = some outs ∧ outs[i]? = some out) ∨
      (k = s.past.length ∧ s.current[i]? = some (.finished out)) := by
  unfold State.statusAt at h
  split at h
  next hlt =>
    refine .inl ⟨s.past[k], List.getElem?_eq_getElem hlt, ?_⟩
    rw [List.getD_eq_getElem?_getD, List.getElem?_eq_getElem hlt, Option.getD_some] at h
    cases hout : s.past[k][i]? with
    | none => simp [hout] at h
    | some out' => simpa [hout] using h
  next =>
    split at h
    next heq =>
      refine .inr ⟨heq, ?_⟩
      cases hcur : s.current[i]? with
      | none => simp [hcur] at h
      | some st => simpa [hcur] using h
    · cases h

theorem getElem?_middle_of_ne {α : Type} {pre post : List α} {i : ℕ} (a b : α)
    (h : i ≠ pre.length) : (pre ++ a :: post)[i]? = (pre ++ b :: post)[i]? := by
  have hset : pre ++ b :: post = (pre ++ a :: post).set pre.length b := by simp
  rw [hset, List.getElem?_set_ne h.symm]

theorem statusAt_middle_of_ne {past : List (List Out)} {pre post : List (Status Out)}
    (st st' : Status Out) (log log' : List (Event Out)) {k i : ℕ}
    (h : ¬ (k = past.length ∧ i = pre.length)) :
    (State.mk past (pre ++ st :: post) log).statusAt k i =
      (State.mk past (pre ++ st' :: post) log').statusAt k i := by
  unfold State.statusAt
  split
  · rfl
  · split
    next hk => rw [getElem?_middle_of_ne st st' fun hi ↦ h ⟨hk, hi⟩]
    · rfl

/-- Opening the next stage moves no task. -/
theorem statusAt_advance {past : List (List Out)} {outs : List Out} {log : List (Event Out)}
    {n k i : ℕ} :
    (State.mk (past ++ [outs]) (List.replicate n .idle) log).statusAt k i =
      (State.mk past (outs.map .finished) log).statusAt k i := by
  have hidle : ((List.replicate n (Status.idle : Status Out))[i]?).getD .idle = .idle := by
    rw [List.getElem?_replicate]
    split <;> rfl
  simp only [State.statusAt, List.length_append, List.length_singleton, hidle, ite_self]
  rcases Nat.lt_trichotomy k past.length with hlt | rfl | hgt
  · simp [hlt, show k < past.length + 1 by omega]
  · simp
  · simp [show ¬ k < past.length + 1 by omega, show ¬ k < past.length by omega,
      show k ≠ past.length by omega]

/-! ## Invariants -/

/-- The tasks of stage `k` have all ended, with outputs that permit to proceed, in this log. -/
def Closed (plan : Plan Task Out) (log : List (Event Out)) (k : ℕ) : Prop :=
  ∃ outs, List.Forall₂ plan.Produces (plan.stage k) outs ∧ plan.Proceed (plan.stage k) outs ∧
    ∀ (j : ℕ) (out : Out), .finished k j out ∈ log ↔ outs[j]? = some out

/-- What holds of every reachable state. -/
structure Valid (plan : Plan Task Out) (s : State Out) : Prop where
  past_le : s.past.length ≤ plan.stages.length
  past_ok : ∀ (k : ℕ) (outs : List Out), s.past[k]? = some outs →
    List.Forall₂ plan.Produces (plan.stage k) outs ∧ plan.Proceed (plan.stage k) outs
  current_length : s.current.length = (plan.stage s.past.length).length
  current_ok : ∀ (i : ℕ) (out : Out), s.current[i]? = some (.finished out) →
    ∃ task, (plan.stage s.past.length)[i]? = some task ∧ plan.Produces task out
  profile : ∀ k i, s.log.filter (Event.isAt k i) = statusEvents k i (s.statusAt k i)
  barrier : ∀ pre k i post, s.log = pre ++ .started k i :: post → ∀ k' < k, Closed plan pre k'

theorem mem_of_profile {s : State Out} {k i : ℕ} {out : Out}
    (hprofile : s.log.filter (Event.isAt k i) = statusEvents k i (s.statusAt k i)) :
    Event.finished k i out ∈ s.log ↔ s.statusAt k i = .finished out := by
  have hmem : Event.finished k i out ∈ s.log ↔
      Event.finished k i out ∈ s.log.filter (Event.isAt k i) := by
    simp [Event.isAt]
  rw [hmem, hprofile]
  cases s.statusAt k i <;> simp [statusEvents, eq_comm]

theorem Valid.mem_finished_iff {plan : Plan Task Out} {s : State Out} (h : Valid plan s) {k i : ℕ}
    {out : Out} : Event.finished k i out ∈ s.log ↔ s.statusAt k i = .finished out :=
  mem_of_profile (h.profile k i)

theorem Valid.mem_started_iff {plan : Plan Task Out} {s : State Out} (h : Valid plan s) {k i : ℕ} :
    Event.started k i ∈ s.log ↔ s.statusAt k i ≠ .idle := by
  have hmem : Event.started k i ∈ s.log ↔ Event.started k i ∈ s.log.filter (Event.isAt k i) := by
    simp [Event.isAt]
  rw [hmem, h.profile k i]
  cases s.statusAt k i <;> simp [statusEvents]

theorem Valid.startCount_eq {plan : Plan Task Out} {s : State Out} (h : Valid plan s) (k i : ℕ) :
    startCount s.log k i = (statusEvents k i (s.statusAt k i)).countP (Event.isStart k i) := by
  rw [← h.profile, List.countP_filter, startCount]
  congr 1
  funext e
  cases e <;> simp [Event.isStart, Event.isAt]

theorem Valid.finishCount_eq {plan : Plan Task Out} {s : State Out} (h : Valid plan s) (k i : ℕ) :
    finishCount s.log k i = (statusEvents k i (s.statusAt k i)).countP (Event.isFinish k i) := by
  rw [← h.profile, List.countP_filter, finishCount]
  congr 1
  funext e
  cases e <;> simp [Event.isFinish, Event.isAt]

/-- No task is started twice. -/
theorem Valid.startCount_le {plan : Plan Task Out} {s : State Out} (h : Valid plan s) (k i : ℕ) :
    startCount s.log k i ≤ 1 := by
  rw [h.startCount_eq]
  cases s.statusAt k i <;> simp [statusEvents, Event.isStart]

/-- A finished task was started once and ended once. -/
theorem Valid.counts_of_finished {plan : Plan Task Out} {s : State Out} (h : Valid plan s)
    {k i : ℕ} {out : Out} (hfin : s.statusAt k i = .finished out) :
    startCount s.log k i = 1 ∧ finishCount s.log k i = 1 := by
  rw [h.startCount_eq, h.finishCount_eq, hfin]
  simp [statusEvents, Event.isStart, Event.isFinish]

theorem Valid.statusAt_past {plan : Plan Task Out} {s : State Out} (h : Valid plan s) {k : ℕ}
    (hk : k < s.past.length) :
    ∃ outs, s.past[k]? = some outs ∧ List.Forall₂ plan.Produces (plan.stage k) outs ∧
      plan.Proceed (plan.stage k) outs ∧
      ∀ i, s.statusAt k i = ((outs[i]?).map .finished).getD .idle := by
  have hget : s.past[k]? = some s.past[k] := List.getElem?_eq_getElem hk
  obtain ⟨hproduced, hproceed⟩ := h.past_ok k _ hget
  exact ⟨_, hget, hproduced, hproceed, fun i ↦ by simp [State.statusAt, hk]⟩

/-- A finished task has an output it can produce. -/
theorem Valid.produces {plan : Plan Task Out} {s : State Out} (h : Valid plan s) {k i : ℕ}
    {out : Out} (hfin : s.statusAt k i = .finished out) :
    ∃ task, (plan.stage k)[i]? = some task ∧ plan.Produces task out := by
  rcases statusAt_eq_finished hfin with ⟨outs, hpast, hout⟩ | ⟨rfl, hcurrent⟩
  · have hproduced := (h.past_ok k outs hpast).1
    obtain ⟨hi, hget⟩ := List.getElem?_eq_some_iff.mp hout
    have hi' : i < (plan.stage k).length := hproduced.length_eq ▸ hi
    exact ⟨_, List.getElem?_eq_getElem hi', hget ▸ hproduced.get hi' hi⟩
  · exact h.current_ok i out hcurrent

/-- In a reachable state the stages before the current one are closed. -/
theorem Valid.closed {plan : Plan Task Out} {s : State Out} (h : Valid plan s) {k : ℕ}
    (hk : k < s.past.length) : Closed plan s.log k := by
  obtain ⟨outs, -, hproduced, hproceed, hstatus⟩ := h.statusAt_past hk
  refine ⟨outs, hproduced, hproceed, fun j out ↦ ?_⟩
  rw [h.mem_finished_iff, hstatus]
  cases outs[j]? <;> simp

/-! ## The tasks that have ended -/

def Event.finish? : Event Out → Option (ℕ × ℕ)
  | .started _ _ => none
  | .finished k i _ => some (k, i)

/-- The tasks that have ended, by stage and position. -/
def finishes (log : List (Event Out)) : List (ℕ × ℕ) := log.filterMap Event.finish?

theorem finishes_append (log log' : List (Event Out)) :
    finishes (log ++ log') = finishes log ++ finishes log' :=
  List.filterMap_append

theorem mem_finishes_iff {log : List (Event Out)} {k i : ℕ} :
    (k, i) ∈ finishes log ↔ ∃ out, .finished k i out ∈ log := by
  rw [finishes, List.mem_filterMap]
  constructor
  · rintro ⟨e, he, hat⟩
    cases e with
    | started => cases hat
    | finished _ _ out =>
      cases hat
      exact ⟨out, he⟩
  · rintro ⟨out, hout⟩
    exact ⟨_, hout, rfl⟩

theorem count_finishes (log : List (Event Out)) (k i : ℕ) :
    (finishes log).count (k, i) = finishCount log k i := by
  induction log with
  | nil => rfl
  | cons e rest ih =>
    rw [finishCount, List.countP_cons, ← finishCount, ← ih]
    cases e with
    | started => simp [finishes, List.filterMap_cons, Event.finish?, Event.isFinish]
    | finished => simp [finishes, Event.finish?, Event.isFinish, List.count_cons]

/-- No task ends twice. -/
theorem Valid.nodup_finishes {plan : Plan Task Out} {s : State Out} (h : Valid plan s) :
    (finishes s.log).Nodup := by
  refine List.nodup_iff_count_le_one.mpr fun ⟨k, i⟩ ↦ ?_
  rw [count_finishes, h.finishCount_eq]
  cases s.statusAt k i <;> simp [statusEvents, Event.isFinish]

theorem Valid.mem_finishes_past {plan : Plan Task Out} {s : State Out} (h : Valid plan s)
    {k i : ℕ} (hk : k < s.past.length) :
    (k, i) ∈ finishes s.log ↔ i < (plan.stage k).length := by
  obtain ⟨outs, hproduced, -, hmem⟩ := h.closed hk
  rw [mem_finishes_iff, hproduced.length_eq]
  constructor
  · rintro ⟨out, hout⟩
    exact (List.getElem?_eq_some_iff.mp ((hmem i out).mp hout)).1
  · intro hi
    exact ⟨outs[i], (hmem i _).mpr (List.getElem?_eq_getElem hi)⟩

theorem Valid.mem_finishes_current {plan : Plan Task Out} {s : State Out} (h : Valid plan s)
    {i : ℕ} :
    (s.past.length, i) ∈ finishes s.log ↔ ∃ out, s.current[i]? = some (.finished out) := by
  rw [mem_finishes_iff]
  refine exists_congr fun out ↦ ?_
  rw [h.mem_finished_iff, statusAt_current]
  cases s.current[i]? <;> simp

theorem Valid.not_mem_finishes {plan : Plan Task Out} {s : State Out} (h : Valid plan s)
    {k i : ℕ} (hk : s.past.length < k) : (k, i) ∉ finishes s.log := by
  rw [mem_finishes_iff]
  rintro ⟨out, hout⟩
  have hstatus := h.mem_finished_iff.mp hout
  rw [State.statusAt, if_neg (by omega), if_neg (by omega)] at hstatus
  cases hstatus

/-! ## Every step keeps the invariants -/

theorem append_singleton_eq {α : Type} {l pre post : List α} {x e : α}
    (h : l ++ [e] = pre ++ x :: post) :
    (pre = l ∧ x = e) ∨ ∃ rest, l = pre ++ x :: rest := by
  rcases List.eq_nil_or_concat post with rfl | ⟨rest, last, rfl⟩
  · obtain ⟨hl, he⟩ := List.append_inj' h rfl
    exact .inl ⟨hl.symm, (List.singleton_inj.mp he).symm⟩
  · have hassoc : l ++ [e] = (pre ++ x :: rest) ++ [last] := by simpa using h
    exact .inr ⟨rest, (List.append_inj' hassoc rfl).1⟩

theorem valid_init (plan : Plan Task Out) : Valid plan plan.init where
  past_le := Nat.zero_le _
  past_ok k outs h := by simp [Plan.init] at h
  current_length := by simp [Plan.init]
  current_ok i out h := by
    have hidle : Status.finished out = .idle :=
      List.eq_of_mem_replicate (List.mem_of_getElem? h)
    cases hidle
  profile k i := by
    have hidle : plan.init.statusAt k i = .idle := by
      simp only [State.statusAt, Plan.init, List.length_nil, Nat.not_lt_zero, if_false,
        List.getElem?_replicate]
      split
      · split <;> rfl
      · rfl
    rw [hidle]
    rfl
  barrier pre k i post h := by simp [Plan.init] at h

/-- A step that moves one task of the current stage and logs the move. -/
theorem Valid.move {plan : Plan Task Out} {past : List (List Out)} {pre post : List (Status Out)}
    {log : List (Event Out)} {st st' : Status Out} {e : Event Out}
    (h : Valid plan ⟨past, pre ++ st :: post, log⟩)
    (hat : ∀ k i, e.isAt k i = true ↔ k = past.length ∧ i = pre.length)
    (hevents : statusEvents past.length pre.length st' =
      statusEvents past.length pre.length st ++ [e])
    (hout : ∀ out, st' = .finished out →
      ∃ task, (plan.stage past.length)[pre.length]? = some task ∧ plan.Produces task out) :
    Valid plan ⟨past, pre ++ st' :: post, log ++ [e]⟩ where
  past_le := h.past_le
  past_ok := h.past_ok
  current_length := by simpa using h.current_length
  current_ok i out hi := by
    by_cases hpre : i = pre.length
    · subst hpre
      exact hout out (by simpa using hi)
    · exact h.current_ok i out ((getElem?_middle_of_ne st st' hpre).trans hi)
  profile k i := by
    have hold := h.profile k i
    by_cases hki : k = past.length ∧ i = pre.length
    · have he : e.isAt k i = true := (hat k i).mpr hki
      obtain ⟨rfl, rfl⟩ := hki
      simp only [statusAt_current] at hold ⊢
      simpa [List.filter_append, he, hevents] using hold
    · have he : e.isAt k i = false := by
        rw [← Bool.not_eq_true, hat]
        exact hki
      rw [statusAt_middle_of_ne st' st (log ++ [e]) log hki, ← hold]
      simp [List.filter_append, he]
  barrier pre' k i post' hlog k' hk' := by
    rcases append_singleton_eq hlog with ⟨rfl, he⟩ | ⟨rest, hrest⟩
    · have hk : k = past.length := ((hat k i).mp (by simp [← he, Event.isAt])).1
      exact h.closed (hk ▸ hk')
    · exact h.barrier pre' k i rest hrest k' hk'

theorem Valid.step {plan : Plan Task Out} {s s' : State Out} (h : Valid plan s)
    (hstep : Step plan s s') : Valid plan s' := by
  cases hstep with
  | start => exact h.move (fun k i ↦ Event.started_isAt_iff) rfl (by simp)
  | finish htask hproduces =>
    refine h.move (fun k i ↦ Event.finished_isAt_iff) rfl ?_
    rintro out ⟨⟩
    exact ⟨_, htask, hproduces⟩
  | @advance past outs log hlt hproceed =>
    have hproduced : List.Forall₂ plan.Produces (plan.stage past.length) outs := by
      refine List.forall₂_iff_get.mpr ⟨?_, fun i hi hi' ↦ ?_⟩
      · simpa using h.current_length.symm
      · obtain ⟨task, htask, hout⟩ :=
          h.current_ok i outs[i] (by simp [List.getElem?_eq_getElem hi'])
        rw [List.getElem?_eq_getElem hi] at htask
        cases htask
        exact hout
    refine ⟨by simpa using Nat.succ_le_of_lt hlt, fun k outs' hk ↦ ?_, by simp,
      fun i out hi ↦ ?_, fun k i ↦ ?_, h.barrier⟩
    · rcases Nat.lt_or_ge k past.length with hk' | hk'
      · exact h.past_ok k outs' (by simpa [List.getElem?_append_left hk'] using hk)
      · have hkeq : k = past.length := by
          have := (List.getElem?_eq_some_iff.mp hk).1
          simp at this
          omega
        subst hkeq
        have houts : outs = outs' := by simpa using hk
        exact houts ▸ ⟨hproduced, hproceed⟩
    · have hidle : Status.finished out = .idle :=
        List.eq_of_mem_replicate (List.mem_of_getElem? hi)
      cases hidle
    · rw [statusAt_advance]
      exact h.profile k i

theorem Reachable.valid {plan : Plan Task Out} {s : State Out} (h : Reachable plan s) :
    Valid plan s := by
  induction h with
  | refl => exact valid_init plan
  | tail _ hstep ih => exact ih.step hstep

end OperatorToolkit.Staged
