import OperatorToolkit.Operator.CompositeOperator
import OperatorToolkit.Operator.ExecutorBarrier
import Mathlib.Algebra.Ring.Parity

/-!
# Cleanup of an operand DAG

`Cleanup` runs `Delete` over the reversed order. The barrier between the steps carries over to the
operands as far as the reversed order does: an operand that joined the step of an operand it
requires is deleted together with it, and the middle step of an odd number of steps is not deleted
at all. Apart from these two cases `Cleanup` deletes dependents first and every operand once.
-/

namespace OperatorToolkit.Operator

open Interaction Layering Staged

variable {Ctx Obj Recorder Event Err : Type}

/-! ## The calls of Delete in a log -/

def eventCalls : Staged.Event (OperandRun Obj Event Err) → List (operandCalls Obj Event Err).Call
  | .started _ _ => []
  | .finished _ _ r => r.calls

def isDeleteOf (op : Operand) : (operandCalls Obj Event Err).Call → Bool
  | ⟨.delete op' _, _⟩ => op' = op
  | _ => false

/-- How often `Delete` has been called on the operand. -/
def deleteCount (log : List (Staged.Event (OperandRun Obj Event Err))) (op : Operand) : ℕ :=
  (log.flatMap eventCalls).countP (isDeleteOf op)

/-- Nothing is deleted before `Delete` has returned without error for all operands that require
it, directly or through others. -/
def DependentsFirst (operands : List Operand) (x : Execution Obj Event Err)
    (log : List (Staged.Event (OperandRun Obj Event Err))) : Prop :=
  ∀ pre k i post, log = pre ++ .started k i :: post → ∀ op, (x.step k)[i]? = some op →
    ∀ dependent ∈ operands, Relation.TransGen (RequiredBy operands) op.name dependent.name →
      ∃ k' j r, (x.step k')[j]? = some dependent ∧ .finished k' j r ∈ pre ∧ r.outcome.err = none

/-- What `Cleanup` owes to its caller at every point of its execution. -/
structure CleanupSound (operands : List Operand) (x : Execution Obj Event Err)
    (s : ExecState Obj Event Err) : Prop where
  dependents_first : DependentsFirst operands x s.log
  deleted_once : ∀ result, s.control = .returned result none → result.requeue = false →
    ∀ op ∈ operands, deleteCount s.log op = 1

section Execution

variable {D : DagLib Err Operand} {co : CompositeOperator Ctx Obj Recorder D} {obj : Obj}

theorem cleanupExecution_step (k : ℕ) :
    (co.cleanupExecution obj : Execution Obj Event Err).step k =
      if k < co.order.length ∧ 2 * k + 1 ≠ co.order.length then
        co.order.getD (co.order.length - 1 - k) []
      else [] :=
  OperandOrder.getD_reverse co.order k

/-! ## The place of an operand in the reversed order -/

section Places

variable {operands : List Operand} {h : ProperDAG operands} (horder : Orders h co.order)

include horder

theorem mem_cleanup_step {op : Operand} {k : ℕ} :
    op ∈ (co.cleanupExecution obj : Execution Obj Event Err).step k ↔
      (k < co.order.length ∧ 2 * k + 1 ≠ co.order.length) ∧ op ∈ operands ∧
        (requirementGraph operands h).Placed op.name (co.order.length - 1 - k) := by
  rw [cleanupExecution_step]
  split
  next hk => rw [horder.mem_iff, and_iff_right hk]
  next hk => simp [hk]

theorem cleanup_step_nodup (k : ℕ) :
    ((co.cleanupExecution obj : Execution Obj Event Err).step k).Nodup := by
  rw [cleanupExecution_step]
  split
  · exact (horder.perm _).nodup_iff.mpr ((h.names_nodup.of_map _).filter _)
  · exact List.nodup_nil

/-- The middle step of an odd number of steps is lost. -/
theorem not_mem_cleanup_step {op : Operand} {t : ℕ} (hop : op ∈ co.order.getD t [])
    (hmiddle : 2 * t + 1 = co.order.length) (k : ℕ) :
    op ∉ (co.cleanupExecution obj : Execution Obj Event Err).step k := by
  intro hmem
  obtain ⟨⟨hk, hne⟩, -, hplaced⟩ := (mem_cleanup_step horder).mp hmem
  have := hplaced.unique (horder.mem_iff.mp hop).2
  omega

/-- An operand of any other step stands in the mirrored step. -/
theorem exists_mirrored_place {op : Operand} {t : ℕ} (hop : op ∈ co.order.getD t [])
    (hmiddle : 2 * t + 1 ≠ co.order.length) :
    ∃ i : ℕ, ((co.cleanupExecution obj : Execution Obj Event Err).step
      (co.order.length - 1 - t))[i]? = some op := by
  obtain ⟨hmem, hplaced⟩ := horder.mem_iff.mp hop
  have hlt : t < co.order.length := horder.length_eq ▸ lt_height_of_placed h hplaced
  apply List.getElem?_of_mem
  refine (mem_cleanup_step horder).mpr ⟨by omega, hmem, ?_⟩
  rwa [show co.order.length - 1 - (co.order.length - 1 - t) = t by omega]

/-- With an even number of steps every operand has one place in the reversed order. -/
theorem exists_cleanup_place (heven : Even co.order.length) {op : Operand} (hop : op ∈ operands) :
    ∃ k i : ℕ, ∀ k' i' : ℕ,
      ((co.cleanupExecution obj : Execution Obj Event Err).step k')[i']? = some op ↔
        k' = k ∧ i' = i := by
  obtain ⟨t, ht, -⟩ := horder.placed_once hop
  have hplaced := (horder.mem_iff.mp ht).2
  obtain ⟨m, hm⟩ := heven
  obtain ⟨i, hi⟩ : ∃ i : ℕ, ((co.cleanupExecution obj : Execution Obj Event Err).step
      (co.order.length - 1 - t))[i]? = some op := exists_mirrored_place horder ht (by omega)
  refine ⟨co.order.length - 1 - t, i, fun k' i' ↦ ⟨fun hget ↦ ?_, ?_⟩⟩
  · obtain ⟨hk', -, hplaced'⟩ := (mem_cleanup_step horder).mp (List.mem_of_getElem? hget)
    have hkeq : k' = co.order.length - 1 - t := by
      have := hplaced'.unique hplaced
      omega
    subst hkeq
    obtain ⟨hi₁, hget₁⟩ := List.getElem?_eq_some_iff.mp hget
    obtain ⟨hi₂, hget₂⟩ := List.getElem?_eq_some_iff.mp hi
    exact ⟨rfl, (List.Nodup.getElem_inj_iff (cleanup_step_nodup horder _)).mp
      (hget₁.trans hget₂.symm)⟩
  · rintro ⟨rfl, rfl⟩
    exact hi

end Places

/-! ## Counting the calls -/

/-- Whether a log entry is the end of `Delete` on the operand. -/
def isEndOf (x : Execution Obj Event Err) (op : Operand) :
    Staged.Event (OperandRun Obj Event Err) → Bool
  | .started _ _ => false
  | .finished k i _ => (x.step k)[i]? = some op

variable [ErrorValues Err]

/-- Every run of a cleanup is one call of `Delete` on the operand at its place. -/
theorem deleteCount_eq {s : ExecState Obj Event Err} (h : (co.cleanupExecution obj).Reaches s)
    (op : Operand) :
    deleteCount s.log op = s.log.countP (isEndOf (co.cleanupExecution obj) op) := by
  have hcalls : ∀ k i r, .finished k i r ∈ s.log →
      r.calls.countP (isDeleteOf op) =
        if ((co.cleanupExecution obj : Execution Obj Event Err).step k)[i]? = some op then 1
        else 0 := by
    intro k i r hr
    obtain ⟨op', hop', hproduces⟩ := h.produces hr
    have hrun : r.calls = [⟨.delete op' obj, r.outcome⟩] := runs_delete_iff.mp hproduces
    rw [hrun, hop']
    simp [isDeleteOf, List.countP_cons]
  unfold deleteCount
  generalize s.log = log at hcalls
  induction log with
  | nil => rfl
  | cons e rest ih =>
    rw [List.flatMap_cons, List.countP_append, List.countP_cons,
      ih fun k i r hr ↦ hcalls k i r (List.mem_cons_of_mem _ hr)]
    cases e with
    | started k i => simp [eventCalls, isEndOf]
    | finished k i r => simp [eventCalls, isEndOf, hcalls k i r List.mem_cons_self, Nat.add_comm]

/-- An operand that stands in no step is never deleted. -/
theorem deleteCount_eq_zero {s : ExecState Obj Event Err}
    (h : (co.cleanupExecution obj).Reaches s) {op : Operand}
    (hlost : ∀ k, op ∉ (co.cleanupExecution obj : Execution Obj Event Err).step k) :
    deleteCount s.log op = 0 := by
  rw [deleteCount_eq h, List.countP_eq_zero]
  rintro (⟨k, i⟩ | ⟨k, i, r⟩) - hend
  · cases hend
  · exact hlost k (List.mem_of_getElem? (of_decide_eq_true hend))

/-- An operand that stands in one place is deleted as often as that place has ended. -/
theorem deleteCount_eq_finishCount {s : ExecState Obj Event Err}
    (h : (co.cleanupExecution obj).Reaches s) {op : Operand} {k i : ℕ}
    (hplace : ∀ k' i',
      ((co.cleanupExecution obj : Execution Obj Event Err).step k')[i']? = some op ↔
      k' = k ∧ i' = i) :
    deleteCount s.log op = finishCount s.log k i := by
  rw [deleteCount_eq h, finishCount]
  congr 1
  funext e
  cases e with
  | started k' i' => rfl
  | finished k' i' r => simp [isEndOf, Staged.Event.isFinish, hplace]

/-! ## When Cleanup is sound -/

variable {operands : List Operand} {h : ProperDAG operands} (horder : Orders h co.order)

omit [ErrorValues Err] in
theorem depth_lt_of_requires (h : ProperDAG operands) {a b : String}
    (hab : Relation.TransGen (RequiredBy operands) a b) :
    (requirementGraph operands h).depth a < (requirementGraph operands h).depth b := by
  have hstep {u v : String} (huv : RequiredBy operands u v) :
      (requirementGraph operands h).depth u < (requirementGraph operands h).depth v :=
    (requirementGraph_acyclic h).depth_lt_of_mem_pred
      ((requirementGraph operands h).mem_pred_iff.mpr ((requirementGraph_edge h).mpr huv))
  induction hab with
  | single hb => exact hstep hb
  | tail _ hc ih => exact ih.trans (hstep hc)

include horder

/-- Where no operand overtakes, every operand is placed at its depth. -/
theorem dependentsFirst_of_even
    (hnone : ∀ op ∈ operands, ¬ (requirementGraph operands h).Overtakes op.name)
    (heven : Even co.order.length) {s : ExecState Obj Event Err}
    (hreach : (co.cleanupExecution obj).Reaches s) :
    DependentsFirst operands (co.cleanupExecution obj) s.log := by
  intro pre k i post hsplit op hop dependent hdependent hrequires
  have hdepth {o : Operand} (ho : o ∈ operands) : (requirementGraph operands h).Placed o.name
      ((requirementGraph operands h).depth o.name) :=
    (requirementGraph_acyclic h).placed_depth (by simpa [requirementGraph] using hnone)
      (List.mem_map_of_mem ho)
  obtain ⟨hk, hop', hplaced⟩ := (mem_cleanup_step horder).mp (List.mem_of_getElem? hop)
  have hk_eq := hplaced.unique (hdepth hop')
  have hlt := depth_lt_of_requires h hrequires
  obtain ⟨k', j, hplace⟩ : ∃ k i : ℕ, ∀ k' i' : ℕ,
      ((co.cleanupExecution obj : Execution Obj Event Err).step k')[i']? = some dependent ↔
        k' = k ∧ i' = i := exists_cleanup_place horder heven hdependent
  have hget := (hplace k' j).mpr ⟨rfl, rfl⟩
  obtain ⟨hk', -, hplaced'⟩ := (mem_cleanup_step horder).mp (List.mem_of_getElem? hget)
  have hk'_eq := hplaced'.unique (hdepth hdependent)
  have hpassed := hreach.stepPassed hsplit (show k' < k by omega)
  obtain ⟨r, hr⟩ := hpassed.all_finished j (List.getElem?_eq_some_iff.mp hget).1
  exact ⟨k', j, r, hget, hr, hpassed.err_eq_none j r hr⟩

theorem cleanupSound_of_even
    (hnone : ∀ op ∈ operands, ¬ (requirementGraph operands h).Overtakes op.name)
    (heven : Even co.order.length) {s : ExecState Obj Event Err}
    (hreach : (co.cleanupExecution obj).Reaches s) :
    CleanupSound operands (co.cleanupExecution obj) s := by
  refine ⟨dependentsFirst_of_even horder hnone heven hreach, fun result hs hrequeue op hop ↦ ?_⟩
  obtain ⟨k, i, hplace⟩ : ∃ k i : ℕ, ∀ k' i' : ℕ,
      ((co.cleanupExecution obj : Execution Obj Event Err).step k')[i']? = some op ↔
        k' = k ∧ i' = i := exists_cleanup_place horder heven hop
  have hi := (List.getElem?_eq_some_iff.mp ((hplace k i).mpr ⟨rfl, rfl⟩)).1
  rw [deleteCount_eq_finishCount hreach hplace]
  exact (hreach.counts_of_returned hs hrequeue hi).2

/-- A run that loses the middle step. -/
theorem exists_not_sound_of_middle {op : Operand} {t : ℕ} (hop : op ∈ co.order.getD t [])
    (hmiddle : 2 * t + 1 = co.order.length)
    (hstrategy : co.executor.execStrategy = .serial ∨ co.executor.execStrategy = .parallel) :
    ∃ s : ExecState Obj Event Err, (co.cleanupExecution obj).Reaches s ∧
      ¬ CleanupSound operands (co.cleanupExecution obj) s := by
  obtain ⟨log, hreach⟩ := quiet_complete (x := (co.cleanupExecution obj : Execution Obj Event Err))
    hstrategy (cleanup_quiet _ _ _ _)
  refine ⟨_, hreach, fun hsound ↦ ?_⟩
  have hone := hsound.deleted_once {} rfl rfl op (horder.mem_iff.mp hop).1
  rw [deleteCount_eq_zero hreach (not_mem_cleanup_step horder hop hmiddle)] at hone
  cases hone

/-- A parallel run that deletes an operand together with one that requires it. -/
theorem exists_not_sound_of_same_step {op dependent : Operand} {t : ℕ}
    (hop : op ∈ co.order.getD t []) (hdependent : dependent ∈ co.order.getD t [])
    (hrequires : RequiredBy operands op.name dependent.name)
    (hmiddle : 2 * t + 1 ≠ co.order.length) (hparallel : co.executor.execStrategy = .parallel) :
    ∃ s : ExecState Obj Event Err, (co.cleanupExecution obj).Reaches s ∧
      ¬ CleanupSound operands (co.cleanupExecution obj) s := by
  obtain ⟨i, hi⟩ : ∃ i : ℕ, ((co.cleanupExecution obj : Execution Obj Event Err).step
      (co.order.length - 1 - t))[i]? = some op := exists_mirrored_place horder hop hmiddle
  obtain ⟨log, hreach, hlog⟩ :=
    quiet_steps (x := (co.cleanupExecution obj : Execution Obj Event Err))
    (.inr hparallel) (cleanup_quiet _ _ _ _)
    (Nat.le_of_lt (lt_length_of_lt_step (List.getElem?_eq_some_iff.mp hi).1))
  obtain ⟨control, hstart⟩ := parallel_start hparallel (List.getElem?_eq_some_iff.mp hi).1 log []
  refine ⟨_, hreach.trans hstart, fun hsound ↦ ?_⟩
  obtain ⟨k', j, r, hget, hr, -⟩ := hsound.dependents_first log _ i [] rfl op hi dependent
    (horder.mem_iff.mp hdependent).1 (.single hrequires)
  obtain ⟨hk', -, hplaced'⟩ := (mem_cleanup_step horder).mp (List.mem_of_getElem? hget)
  have hunique := hplaced'.unique (horder.mem_iff.mp hdependent).2
  have hearlier := hlog k' j r hr
  omega

section Sound

variable (hparallel : co.executor.execStrategy = .parallel)
  (hsound : ∀ s : ExecState Obj Event Err, (co.cleanupExecution obj).Reaches s →
    CleanupSound operands (co.cleanupExecution obj) s)

include hparallel hsound

/-- If every parallel cleanup is sound, no step holds an operand together with one that requires
it. -/
theorem not_requiredBy_of_sound {t : ℕ} {op dependent : Operand} (hop : op ∈ co.order.getD t [])
    (hdependent : dependent ∈ co.order.getD t []) :
    ¬ RequiredBy operands op.name dependent.name := by
  intro hrequires
  obtain ⟨s, hs, hbad⟩ : ∃ s : ExecState Obj Event Err, (co.cleanupExecution obj).Reaches s ∧
      ¬ CleanupSound operands (co.cleanupExecution obj) s := by
    by_cases hmiddle : 2 * t + 1 = co.order.length
    · exact exists_not_sound_of_middle horder hop hmiddle (.inr hparallel)
    · exact exists_not_sound_of_same_step horder hop hdependent hrequires hmiddle hparallel
  exact hbad (hsound s hs)

theorem not_overtakes_of_sound :
    ∀ op ∈ operands, ¬ (requirementGraph operands h).Overtakes op.name := by
  refine horder.respectsRequires_iff.mp
    ⟨fun op hop ↦ horder.placed_once hop, fun op hop dep hdep hrequires i j hi hj ↦ ?_⟩
  obtain ⟨t, hle, ht⟩ :=
    (horder.mem_iff.mp hi).2.pred ((mem_requirementGraph_pred h hop).mpr hrequires)
  obtain rfl := ht.unique (horder.mem_iff.mp hj).2
  refine lt_of_le_of_ne hle ?_
  rintro rfl
  exact not_requiredBy_of_sound horder hparallel hsound hj hi
    (mem_requirementPairs.mpr ⟨op, hop, rfl, hrequires⟩)

/-- The middle step of an odd number of steps would hold an operand that is never deleted. -/
theorem even_height_of_sound : Even (requirementGraph operands h).height := by
  have hnone := not_overtakes_of_sound horder hparallel hsound
  by_contra hodd
  obtain ⟨m, hm⟩ := Nat.not_even_iff_odd.mp hodd
  obtain ⟨v, hv, hdepth⟩ := (requirementGraph_acyclic h).exists_depth_eq (show m < _ by omega)
  obtain ⟨op, hop, rfl⟩ := List.mem_map.mp hv
  have hplaced := (requirementGraph_acyclic h).placed_depth
    (by simpa [requirementGraph] using hnone) hv
  have hmem : op ∈ co.order.getD m [] := horder.mem_iff.mpr ⟨hop, hdepth ▸ hplaced⟩
  obtain ⟨s, hs, hbad⟩ : ∃ s : ExecState Obj Event Err, (co.cleanupExecution obj).Reaches s ∧
      ¬ CleanupSound operands (co.cleanupExecution obj) s :=
    exists_not_sound_of_middle horder hmem (by rw [horder.length_eq, hm]) (.inr hparallel)
  exact hbad (hsound s hs)

end Sound

end Execution

section Built

variable [ErrorValues Err] {operands : List Operand}

/-- The default options build an operator from a proper DAG. -/
theorem exists_default_operator [Inhabited Recorder] (D : DagLib Err Operand)
    (h : ProperDAG operands) :
    ∃ fuel, ∃ co : CompositeOperator Ctx Obj Recorder D,
      newCompositeOperator D (.stored _) [withEventRecorder default, withOperands operands] fuel =
        some (.ok co) := by
  refine (succeeds_iff rfl).mpr ?_
  rcases operandOrder_cases D (.stored _) h (requirementGraph operands h).height with
    ⟨-, order, hrun, -⟩ | ⟨hlt, -⟩
  · exact ⟨_, order, hrun⟩
  · exact absurd hlt (lt_irrefl _)

/-- Operators built from these operands delete soundly, whatever the strategy, the iteration order
and the behaviour of the operands. -/
def CleansUpSoundly (Ctx Obj Recorder Event : Type) (D : DagLib Err Operand)
    (operands : List Operand) : Prop :=
  ∀ (range : MapRange ((_ : String) × ℕ)) (opts : List (CompositeOperatorOption Ctx Obj Recorder))
    (fuel : ℕ) (co : CompositeOperator Ctx Obj Recorder D) (ctx : Ctx) (obj : Obj)
    (s : ExecState Obj Event Err),
    (configure opts).operands = operands →
    ((configure opts).executionStrategy = .serial ∨
      (configure opts).executionStrategy = .parallel) →
    newCompositeOperator D range opts fuel = some (.ok co) → co.isSuspended ctx obj = false →
    co.CleanupReaches ctx obj s → CleanupSound operands (co.cleanupExecution obj) s

/-- **Sound cleanup.** Cleanup of a proper DAG deletes dependents first and everything once exactly
when no operand overtakes and the longest requirement chain has an even number of operands. -/
theorem cleansUpSoundly_iff [Inhabited Ctx] [Inhabited Obj] [Inhabited Recorder]
    (D : DagLib Err Operand) (h : ProperDAG operands) :
    CleansUpSoundly Ctx Obj Recorder Event D operands ↔
      (∀ op ∈ operands, ¬ (requirementGraph operands h).Overtakes op.name) ∧
        Even (requirementGraph operands h).height := by
  constructor
  · intro hsound
    obtain ⟨fuel, co, hnew⟩ := @exists_default_operator Ctx Obj Recorder _ _ _ _ D h
    obtain ⟨hrun, -, hsuspended, hstrategy, -⟩ := newCompositeOperator_eq_ok hnew
    have horder := orders_of_operandOrder h hrun
    have hactive : co.isSuspended default default = false := by
      rw [hsuspended]
      rfl
    have hreaches (s : ExecState Obj Event Err) (hs : (co.cleanupExecution default).Reaches s) :
        CleanupSound operands (co.cleanupExecution default) s :=
      hsound _ _ _ co default default s rfl (.inr rfl) hnew hactive (.executing hactive hs)
    exact ⟨not_overtakes_of_sound horder hstrategy hreaches,
      even_height_of_sound horder hstrategy hreaches⟩
  · rintro ⟨hnone, heven⟩ range opts fuel co ctx obj s rfl hstrategy hnew hactive hreaches
    obtain ⟨hrun, -⟩ := newCompositeOperator_eq_ok hnew
    have horder := orders_of_operandOrder h hrun
    cases hreaches with
    | suspended hsuspended => simp [hactive] at hsuspended
    | executing _ hreach =>
      exact cleanupSound_of_even horder hnone (horder.length_eq ▸ heven) hreach

end Built

theorem cleansUpSoundly_requiringPair :
    CleansUpSoundly Unit Unit Unit String (orderedDag GoError Operand) requiringPair :=
  (cleansUpSoundly_iff _ properDAG_requiringPair).mpr ⟨by decide, by decide⟩

/-- With a single operand there is one step, and `Cleanup` succeeds without deleting anything. -/
theorem cleanup_single_deletes_nothing :
    ProperDAG [⟨"A", [], .requeueOnError⟩] ∧
      ∃ (co : CompositeOperator Unit Unit Unit (orderedDag GoError Operand))
        (log : List (Staged.Event (OperandRun Unit String GoError))),
        newCompositeOperator _ (.stored _)
          [withEventRecorder (), withOperands [⟨"A", [], .requeueOnError⟩]] 1 = some (.ok co) ∧
        co.isSuspended () () = false ∧
        co.CleanupReaches () () ⟨.returned {} none, log, []⟩ ∧
        deleteCount log ⟨"A", [], .requeueOnError⟩ = 0 := by
  refine ⟨⟨by decide, by decide, by decide, acyclic_of_rank (fun _ ↦ 0) (by decide)⟩, ?_⟩
  obtain ⟨co, hnew, horder, hstrategy, hactive⟩ :
      ∃ co : CompositeOperator Unit Unit Unit (orderedDag GoError Operand),
        newCompositeOperator _ (.stored _)
          [withEventRecorder (), withOperands [⟨"A", [], .requeueOnError⟩]] 1 = some (.ok co) ∧
        co.order = [[⟨"A", [], .requeueOnError⟩]] ∧ co.executor.execStrategy = .parallel ∧
        co.isSuspended () () = false := ⟨_, rfl, rfl, rfl, rfl⟩
  obtain ⟨log, hreach⟩ := quiet_complete
    (x := (co.cleanupExecution () : Execution Unit String GoError)) (.inr hstrategy)
    (cleanup_quiet _ _ _ _)
  refine ⟨co, log, hnew, hactive, .executing hactive hreach, deleteCount_eq_zero hreach fun k ↦ ?_⟩
  rw [cleanupExecution_step, horder, if_neg (by simp)]
  exact List.not_mem_nil

end OperatorToolkit.Operator
