import Mathlib.Data.Finset.Basic

/-!
# Work queues

A queue of keys that hands a key to one worker at a time. A key is dirty from the moment it is added
until a worker gets it. `KeyQueue` says what is asked of a queue, and `WorkQueue` is one: a key that
is added while a worker processes it stays out of the list until the worker is done with it.
-/

namespace OperatorToolkit.Queueing

/-- A queue that keeps the keys that are added until a worker gets them, and has a key for a worker
if one is dirty that no worker processes. -/
structure KeyQueue (κ : Type) [DecidableEq κ] where
  Queue : Type
  dirty : Queue → Finset κ
  processing : Queue → Finset κ
  add : Queue → κ → Queue
  /-- A worker can get the key, and this is the queue afterwards. -/
  Gets : Queue → κ → Queue → Prop
  done : Queue → κ → Queue
  dirty_add : ∀ q k, dirty (add q k) = insert k (dirty q)
  mem_dirty_of_gets : ∀ {q k q'}, Gets q k q' → k ∈ dirty q
  dirty_of_gets : ∀ {q k q'}, Gets q k q' → dirty q' = (dirty q).erase k
  exists_gets : ∀ {q k}, k ∈ dirty q → k ∉ processing q → ∃ j q', Gets q j q'
  dirty_done : ∀ q k, dirty (done q k) = dirty q
  processing_done : ∀ q k, processing (done q k) = (processing q).erase k

namespace KeyQueue

variable {κ : Type} [DecidableEq κ] (Q : KeyQueue κ)

theorem mem_dirty_add_self (q : Q.Queue) (k : κ) : k ∈ Q.dirty (Q.add q k) := by
  rw [Q.dirty_add]
  exact Finset.mem_insert_self k _

theorem mem_dirty_add_of_mem {q : Q.Queue} {j k : κ} (h : j ∈ Q.dirty q) :
    j ∈ Q.dirty (Q.add q k) := by
  rw [Q.dirty_add]
  exact Finset.mem_insert_of_mem h

end KeyQueue

/-- The keys that wait for a worker are those that are dirty and that no worker processes. -/
structure WorkQueue (κ : Type) [DecidableEq κ] where
  queue : List κ
  dirty : Finset κ
  processing : Finset κ
  nodup : queue.Nodup
  mem_queue : ∀ k, k ∈ queue ↔ k ∈ dirty ∧ k ∉ processing

namespace WorkQueue

variable {κ : Type} [DecidableEq κ]

def empty : WorkQueue κ where
  queue := []
  dirty := ∅
  processing := ∅
  nodup := List.nodup_nil
  mem_queue := by simp

variable (q : WorkQueue κ) (k : κ)

/-- Adds a key, unless it is waiting already. -/
def add : WorkQueue κ where
  queue := if k ∈ q.dirty ∨ k ∈ q.processing then q.queue else q.queue ++ [k]
  dirty := insert k q.dirty
  processing := q.processing
  nodup := by
    split
    · exact q.nodup
    · next hk =>
      have hnew : k ∉ q.queue := fun hmem ↦ hk (.inl ((q.mem_queue k).mp hmem).1)
      exact List.nodup_append.mpr ⟨q.nodup, List.nodup_singleton k, by grind⟩
  mem_queue j := by
    have hj := q.mem_queue j
    have hk := q.mem_queue k
    split <;> grind

/-- The key at the head of the queue goes to a worker. -/
def get : Option (κ × WorkQueue κ) :=
  match hqueue : q.queue with
  | [] => none
  | k :: rest => some (k, {
      queue := rest
      dirty := q.dirty.erase k
      processing := insert k q.processing
      nodup := (hqueue ▸ q.nodup).of_cons
      mem_queue := by
        intro j
        have hj := q.mem_queue j
        have hnodup := q.nodup
        rw [hqueue] at hj hnodup
        grind })

/-- A worker is done with the key. -/
def done : WorkQueue κ where
  queue := if k ∈ q.processing ∧ k ∈ q.dirty then q.queue ++ [k] else q.queue
  dirty := q.dirty
  processing := q.processing.erase k
  nodup := by
    have hk := q.mem_queue k
    have hnodup := q.nodup
    split <;> grind
  mem_queue j := by
    have hj := q.mem_queue j
    have hk := q.mem_queue k
    split <;> grind

variable {q k}

theorem get_spec {q' : WorkQueue κ} (h : q.get = some (k, q')) :
    k ∈ q.dirty ∧ q'.dirty = q.dirty.erase k := by
  unfold get at h
  split at h
  · cases h
  · next rest hqueue =>
    cases h
    exact ⟨((q.mem_queue _).mp (hqueue ▸ List.mem_cons_self)).1, rfl⟩

/-- A key that waits for its turn is not kept waiting by the keys that are being processed. -/
theorem exists_get (hdirty : k ∈ q.dirty) (hprocessing : k ∉ q.processing) :
    ∃ j q', q.get = some (j, q') := by
  have hmem := (q.mem_queue k).mpr ⟨hdirty, hprocessing⟩
  unfold get
  split
  · next hqueue => simp [hqueue] at hmem
  · exact ⟨_, _, rfl⟩

/-- Keys are handed out in the order of the list. -/
def keyQueue (κ : Type) [DecidableEq κ] : KeyQueue κ where
  Queue := WorkQueue κ
  dirty := dirty
  processing := processing
  add := add
  Gets q k q' := q.get = some (k, q')
  done := done
  dirty_add _ _ := rfl
  mem_dirty_of_gets h := (get_spec h).1
  dirty_of_gets h := (get_spec h).2
  exists_gets := exists_get
  dirty_done _ _ := rfl
  processing_done _ _ := rfl

end WorkQueue

end OperatorToolkit.Queueing
