import OperatorToolkit.Operator.Cleanup

/-!
# Operands that a successful Cleanup skips

`Cleanup` can return a nil error and leave operands alone: when it is suspended, when an operand
stands in the middle one of an odd number of steps, and when an earlier step produced an event and
has an operand that asks to be requeued always. In every other case the operand is deleted.
-/

namespace OperatorToolkit.Operator

open Interaction Program Layering Staged

variable {Ctx Obj Recorder Event Err : Type}

/-- `Delete` on the operand returned a nil error. -/
def isDeletedCall (op : Operand) : (operandCalls Obj Event Err).Call → Bool
  | ⟨.delete op' _, outcome⟩ => op' = op && (Outcome.err outcome).isNone
  | _ => false

def Deleted (log : List (Staged.Event (OperandRun Obj Event Err))) (op : Operand) : Prop :=
  ∃ call ∈ log.flatMap eventCalls, isDeletedCall op call

/-- The step has an operand that asks to be requeued always, and produced an event. -/
def StopsAt (x : Execution Obj Event Err) (log : List (Staged.Event (OperandRun Obj Event Err)))
    (k : ℕ) : Prop :=
  (∃ op ∈ x.step k, op.requeueStrategy = .requeueAlways) ∧
    ∃ j r, .finished k j r ∈ log ∧ r.outcome.event.isSome

/-- Why a `Cleanup` that returns a nil error leaves the operand alone. -/
inductive Skips {D : DagLib Err Operand} (co : CompositeOperator Ctx Obj Recorder D) (ctx : Ctx)
    (obj : Obj) (log : List (Staged.Event (OperandRun Obj Event Err))) (op : Operand) : Prop where
  | suspended : co.isSuspended ctx obj = true → Skips co ctx obj log op
  | middle (t : ℕ) : 2 * t + 1 = co.order.length → op ∈ co.order.getD t [] →
      Skips co ctx obj log op
  | stopped (k k' : ℕ) : k < k' → StopsAt (co.cleanupExecution obj) log k →
      op ∈ (co.cleanupExecution obj : Execution Obj Event Err).step k' → Skips co ctx obj log op

variable [ErrorValues Err]

/-- An execution that returns no error has run exactly the operands that come after no stop. -/
theorem finished_iff_of_returned {x : Execution Obj Event Err} {s : ExecState Obj Event Err}
    (h : x.Reaches s) {result : Result} (hs : s.control = .returned result none) {k i : ℕ}
    (hi : i < (x.step k).length) :
    (∃ r, .finished k i r ∈ s.log) ↔ ∀ k' < k, ¬ StopsAt x s.log k' := by
  obtain ⟨a, hreach, hlog, href⟩ := h.refines
  have hvalid := hreach.valid
  have hpassed {k' : ℕ} (hk' : k' < a.past.length) : StepPassed x s.log k' :=
    hlog ▸ stepPassed_of_closed (hvalid.closed hk')
  rw [hs] at href
  constructor
  · rintro ⟨r, hr⟩ k' hk'
    rw [← hlog, hvalid.mem_finished_iff] at hr
    have hle : k ≤ a.past.length := by
      rcases statusAt_eq_finished hr with ⟨outs, hpast, -⟩ | ⟨rfl, -⟩
      · exact Nat.le_of_lt (List.getElem?_eq_some_iff.mp hpast).1
      · exact Nat.le_refl _
    exact (hpassed (Nat.lt_of_lt_of_le hk' hle)).no_requeue
  · intro hnone
    cases href with
    | complete hpast =>
      exact (hpassed (hpast ▸ lt_length_of_lt_step hi)).all_finished i hi
    | @changed _ runs res _ hcurrent hclean hres halways =>
      rcases Nat.lt_trichotomy k a.past.length with hlt | rfl | hgt
      · exact (hpassed hlt).all_finished i hi
      · have hlength := hvalid.current_length
        rw [hcurrent, List.length_map, x.plan_stage] at hlength
        refine ⟨runs[i], ?_⟩
        rw [← hlog, hvalid.mem_finished_iff]
        simp [State.statusAt, hcurrent, hlength ▸ hi]
      · refine absurd ⟨(stepRequeueStrategy_eq_always_iff _).mp halways, ?_⟩ (hnone _ hgt)
        obtain ⟨r, hr, hevent⟩ := hclean.result_iff.mp hres
        obtain ⟨j, hj⟩ := mem_log_of_mem_current hvalid (hcurrent ▸ List.mem_map_of_mem hr)
        exact ⟨j, r, hlog ▸ hj, hevent⟩

variable {D : DagLib Err Operand} {co : CompositeOperator Ctx Obj Recorder D} {ctx : Ctx}
  {obj : Obj}
  {operands : List Operand} {h : ProperDAG operands}

/-- The deleted operands are those whose place in the reversed order has been run. -/
theorem deleted_iff {s : ExecState Obj Event Err} (hreach : (co.cleanupExecution obj).Reaches s)
    {result : Result} (hs : s.control = .returned result none) {op : Operand} :
    Deleted s.log op ↔ ∃ k i r, .finished k i r ∈ s.log ∧
      ((co.cleanupExecution obj : Execution Obj Event Err).step k)[i]? = some op := by
  have hcalls {k i : ℕ} {r : OperandRun Obj Event Err} (hr : .finished k i r ∈ s.log) :
      ∃ op', ((co.cleanupExecution obj : Execution Obj Event Err).step k)[i]? = some op' ∧
        r.calls = [⟨.delete op' obj, r.outcome⟩] := by
    obtain ⟨op', hop', hproduces⟩ := hreach.produces hr
    exact ⟨op', hop', runs_delete_iff.mp hproduces⟩
  constructor
  · rintro ⟨call, hcall, hdeleted⟩
    obtain ⟨e, he, hcall⟩ := List.mem_flatMap.mp hcall
    cases e with
    | started k i => cases hcall
    | finished k i r =>
      obtain ⟨op', hop', hrun⟩ := hcalls he
      obtain rfl : call = ⟨.delete op' obj, r.outcome⟩ := by simpa [eventCalls, hrun] using hcall
      simp only [isDeletedCall, Bool.and_eq_true, decide_eq_true_eq] at hdeleted
      exact ⟨k, i, r, he, hdeleted.1 ▸ hop'⟩
  · rintro ⟨k, i, r, hr, hop⟩
    obtain ⟨op', hop', hrun⟩ := hcalls hr
    obtain rfl : op' = op := Option.some.inj (hop'.symm.trans hop)
    refine ⟨⟨.delete op' obj, r.outcome⟩, List.mem_flatMap.mpr ⟨_, hr, ?_⟩, ?_⟩
    · simp [eventCalls, hrun]
    · simp [isDeletedCall, err_eq_none_of_returned hreach hs hr]

/-- A `Cleanup` that returns a nil error deletes exactly the operands that it does not skip. -/
theorem deleted_iff_not_skips (horder : Orders h co.order) {result : Result}
    {log : List (Staged.Event (OperandRun Obj Event Err))} {recorded : List Event}
    (hreach : co.CleanupReaches ctx obj ⟨.returned result none, log, recorded⟩) {op : Operand}
    (hop : op ∈ operands) : Deleted log op ↔ ¬ Skips co ctx obj log op := by
  cases hreach with
  | suspended hsuspended =>
    refine iff_of_false ?_ fun hskips ↦ hskips (.suspended hsuspended)
    rintro ⟨call, hcall, -⟩
    cases hcall
  | executing hactive hreach =>
    rw [deleted_iff hreach rfl]
    constructor
    · rintro ⟨k, i, r, hr, hget⟩ hskips
      cases hskips with
      | suspended hsuspended => simp [hactive] at hsuspended
      | middle t hmiddle hmem =>
        exact not_mem_cleanup_step horder hmem hmiddle k (List.mem_of_getElem? hget)
      | stopped k' k'' hlt hstops hmem =>
        have hi := (List.getElem?_eq_some_iff.mp hget).1
        refine (finished_iff_of_returned hreach rfl hi).mp ⟨r, hr⟩ k' ?_ hstops
        obtain ⟨hk, -, hplaced⟩ := (mem_cleanup_step horder).mp (List.mem_of_getElem? hget)
        obtain ⟨hk'', -, hplaced''⟩ := (mem_cleanup_step horder).mp hmem
        have := hplaced.unique hplaced''
        omega
    · intro hskips
      obtain ⟨t, ht, -⟩ := horder.placed_once hop
      have hne : 2 * t + 1 ≠ co.order.length := fun hmiddle ↦ hskips (.middle t hmiddle ht)
      obtain ⟨i, hi⟩ : ∃ i : ℕ, ((co.cleanupExecution obj : Execution Obj Event Err).step
          (co.order.length - 1 - t))[i]? = some op := exists_mirrored_place horder ht hne
      obtain ⟨r, hr⟩ := (finished_iff_of_returned hreach rfl
        (List.getElem?_eq_some_iff.mp hi).1).mpr
          fun k hk hstops ↦ hskips (.stopped k _ hk hstops (List.mem_of_getElem? hi))
      exact ⟨_, i, r, hr, hi⟩

end OperatorToolkit.Operator
