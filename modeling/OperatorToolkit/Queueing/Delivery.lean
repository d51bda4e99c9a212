import Mathlib.Data.Finset.Card
import Mathlib.Data.Prod.Lex
import Mathlib.Logic.Relation
import OperatorToolkit.Queueing.WorkQueue

/-!
# Delivery of notifications

A store changes and sends notifications. These are buffered, and a handler turns each of them into
keys that it adds to a work queue one after the other, while workers get keys, look at the store and
finish. If each change of what a key stands for comes with a notification that the handler turns
into the key, then no change is missed: a key whose last worker has not seen the present state is on
its way to the queue or waits in it.
-/

namespace OperatorToolkit.Queueing

open Relation

/-- What `view` shows of a store cannot change for a key without a notification that leads to the
key. -/
structure Delivery (Store Notification κ View : Type) where
  change : Store → List Notification → Store → Prop
  handle : Notification → List κ
  view : Store → κ → View
  noticed : ∀ {s ns s'}, change s ns s' → ∀ k, view s' k ≠ view s k → ∃ n ∈ ns, k ∈ handle n

variable {Store Notification κ View : Type} [DecidableEq κ]

namespace Delivery

/-- The notifications that have not been delivered, the keys that the handler is about to add, the
queue, and what the worker that got a key last found. -/
structure State (_ : Delivery Store Notification κ View) (Q : KeyQueue κ) where
  store : Store
  buffer : List Notification
  adding : List κ
  queue : Q.Queue
  taken : κ → View

variable {D : Delivery Store Notification κ View} {Q : KeyQueue κ}

/-- A step of the handler or of a worker. -/
inductive WorkStep : D.State Q → D.State Q → Prop where
  | deliver {store n buffer queue taken} :
      WorkStep ⟨store, n :: buffer, [], queue, taken⟩ ⟨store, buffer, D.handle n, queue, taken⟩
  | add {store buffer k adding queue taken} :
      WorkStep ⟨store, buffer, k :: adding, queue, taken⟩
        ⟨store, buffer, adding, Q.add queue k, taken⟩
  | get {store buffer adding queue taken k queue'} : Q.Gets queue k queue' →
      WorkStep ⟨store, buffer, adding, queue, taken⟩
        ⟨store, buffer, adding, queue', Function.update taken k (D.view store k)⟩
  | done {store buffer adding queue taken k} : k ∈ Q.processing queue →
      WorkStep ⟨store, buffer, adding, queue, taken⟩
        ⟨store, buffer, adding, Q.done queue k, taken⟩

/-- A step of the whole system: the store may change, and any key may be added by somebody else. -/
inductive Step : D.State Q → D.State Q → Prop where
  | work {s s'} : WorkStep s s' → Step s s'
  | change {store ns store' buffer adding queue taken} : D.change store ns store' →
      Step ⟨store, buffer, adding, queue, taken⟩ ⟨store', buffer ++ ns, adding, queue, taken⟩
  | requeue {store buffer adding queue taken} (k : κ) :
      Step ⟨store, buffer, adding, queue, taken⟩ ⟨store, buffer, adding, Q.add queue k, taken⟩

/-- At the beginning no worker has got a key, and there is a notification for what is there. -/
structure Initial (absent : View) (s : D.State Q) : Prop where
  adding : s.adding = []
  taken : ∀ k, s.taken k = absent
  buffer : ∀ k, D.view s.store k ≠ absent → ∃ n ∈ s.buffer, k ∈ D.handle n

/-- The key is on its way to a worker. -/
def State.Pending (s : D.State Q) (k : κ) : Prop :=
  k ∈ Q.dirty s.queue ∨ k ∈ s.adding ∨ ∃ n ∈ s.buffer, k ∈ D.handle n

/-- The worker that got the key last has found what is there now. -/
def State.Current (s : D.State Q) (k : κ) : Prop :=
  s.taken k = D.view s.store k

/-- No change is missed. -/
def State.Covered (s : D.State Q) : Prop :=
  ∀ k, s.Pending k ∨ s.Current k

theorem Initial.covered {absent : View} {s : D.State Q} (h : Initial absent s) : s.Covered := by
  intro k
  by_cases hview : D.view s.store k = absent
  · exact .inr ((h.taken k).trans hview.symm)
  · exact .inl (.inr (.inr (h.buffer k hview)))

theorem WorkStep.covered {s s' : D.State Q} (hstep : WorkStep s s') (h : s.Covered) :
    s'.Covered := by
  intro k
  cases hstep with
  | deliver =>
    -- The notification that leads to the key may be the one that is delivered.
    refine (h k).imp_left ?_
    rintro (hdirty | hadding | ⟨n, hn, hk⟩)
    · exact .inl hdirty
    · cases hadding
    · rcases List.mem_cons.mp hn with rfl | hn
      · exact .inr (.inl hk)
      · exact .inr (.inr ⟨n, hn, hk⟩)
  | add =>
    refine (h k).imp_left ?_
    rintro (hdirty | hadding | hbuffer)
    · exact .inl (Q.mem_dirty_add_of_mem hdirty)
    · rcases List.mem_cons.mp hadding with rfl | hadding
      · exact .inl (Q.mem_dirty_add_self _ _)
      · exact .inr (.inl hadding)
    · exact .inr (.inr hbuffer)
  | @get store _ _ _ taken j _ hget =>
    by_cases hj : k = j
    · subst hj
      exact .inr (Function.update_self ..)
    · refine (h k).imp ?_ fun hcurrent ↦ (Function.update_of_ne hj ..).trans hcurrent
      refine Or.imp_left fun hdirty ↦ ?_
      rw [Q.dirty_of_gets hget]
      exact Finset.mem_erase.mpr ⟨hj, hdirty⟩
  | done =>
    refine (h k).imp_left (Or.imp_left fun hdirty ↦ ?_)
    rwa [Q.dirty_done]

theorem Step.covered {s s' : D.State Q} (hstep : Step s s') (h : s.Covered) : s'.Covered := by
  cases hstep with
  | work hwork => exact hwork.covered h
  | @change store ns store' _ _ _ _ hchange =>
    intro k
    by_cases hview : D.view store' k = D.view store k
    · refine (h k).imp (Or.imp_right (Or.imp_right ?_)) fun hcurrent ↦ hcurrent.trans hview.symm
      rintro ⟨n, hn, hk⟩
      exact ⟨n, List.mem_append_left _ hn, hk⟩
    · obtain ⟨n, hn, hk⟩ := D.noticed hchange k hview
      exact .inl (.inr (.inr ⟨n, List.mem_append_right _ hn, hk⟩))
  | requeue =>
    exact fun k ↦ (h k).imp_left (Or.imp_left Q.mem_dirty_add_of_mem)

theorem covered_of_steps {absent : View} {s s' : D.State Q} (h : Initial absent s)
    (hsteps : ReflTransGen Step s s') : s'.Covered := by
  induction hsteps with
  | refl => exact h.covered
  | tail _ hstep ih => exact hstep.covered ih

/-! ## Coming to rest -/

/-- Nothing is under way. -/
structure State.Idle (s : D.State Q) : Prop where
  buffer : s.buffer = []
  adding : s.adding = []
  dirty : Q.dirty s.queue = ∅
  processing : Q.processing s.queue = ∅

theorem State.Covered.current {s : D.State Q} (h : s.Covered) (hidle : s.Idle) (k : κ) :
    s.Current k := by
  refine (h k).resolve_left ?_
  rintro (hdirty | hadding | ⟨n, hn, -⟩)
  · simp [hidle.dirty] at hdirty
  · simp [hidle.adding] at hadding
  · simp [hidle.buffer] at hn

/-- What is left to do, in the order in which it turns into something else. -/
def State.work (s : D.State Q) : ℕ ×ₗ ℕ ×ₗ ℕ ×ₗ ℕ :=
  toLex (s.buffer.length, toLex (s.adding.length,
    toLex ((Q.dirty s.queue).card, (Q.processing s.queue).card)))

theorem WorkStep.work_lt {s s' : D.State Q} (hstep : WorkStep s s') : s'.work < s.work := by
  cases hstep with
  | deliver => exact Prod.Lex.left _ _ (Nat.lt_succ_self _)
  | add => exact Prod.Lex.right _ (Prod.Lex.left _ _ (Nat.lt_succ_self _))
  | get hget =>
    refine Prod.Lex.right _ (Prod.Lex.right _ (Prod.Lex.left _ _ ?_))
    rw [Q.dirty_of_gets hget]
    exact Finset.card_erase_lt_of_mem (Q.mem_dirty_of_gets hget)
  | done hprocessing =>
    refine Prod.Lex.right _ (Prod.Lex.right _ ?_)
    rw [Q.dirty_done, Q.processing_done]
    exact Prod.Lex.right _ (Finset.card_erase_lt_of_mem hprocessing)

/-- Unless nothing is under way, the handler or a worker can go on. -/
theorem exists_workStep {s : D.State Q} (h : ¬ s.Idle) : ∃ s', WorkStep s s' := by
  obtain ⟨store, buffer, adding, queue, taken⟩ := s
  cases adding with
  | cons k adding => exact ⟨_, .add⟩
  | nil =>
    cases buffer with
    | cons n buffer => exact ⟨_, .deliver⟩
    | nil =>
      rcases (Q.processing queue).eq_empty_or_nonempty with hprocessing | ⟨k, hk⟩
      · rcases (Q.dirty queue).eq_empty_or_nonempty with hdirty | ⟨k, hk⟩
        · exact absurd ⟨rfl, rfl, hdirty, hprocessing⟩ h
        · obtain ⟨j, queue', hget⟩ := Q.exists_gets hk (by simp [hprocessing])
          exact ⟨_, .get hget⟩
      · exact ⟨_, .done hk⟩

/-- Once the store stays as it is, every run of the handler and the workers comes to a state with
the property. -/
inductive Settles (P : D.State Q → Prop) : D.State Q → Prop where
  | now {s} : P s → Settles P s
  | later {s} : (∃ s', WorkStep s s') → (∀ s', WorkStep s s' → Settles P s') → Settles P s

/-- In the end each key has been got by a worker that found what is there. -/
theorem State.Covered.settles {s : D.State Q} (h : s.Covered) :
    Settles (fun t ↦ t.Idle ∧ ∀ k, t.Current k) s := by
  have hwf : WellFounded fun s' s : D.State Q ↦ s'.work < s.work := InvImage.wf _ wellFounded_lt
  induction s using hwf.induction with
  | _ s ih =>
    by_cases hidle : s.Idle
    · exact .now ⟨hidle, h.current hidle⟩
    · exact .later (exists_workStep hidle) fun s' hstep ↦ ih s' hstep.work_lt (hstep.covered h)

end Delivery

end OperatorToolkit.Queueing
