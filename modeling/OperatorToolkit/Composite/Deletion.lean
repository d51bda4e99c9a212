import OperatorToolkit.Composite.Finalizer
import OperatorToolkit.Operator.Skipped

/-!
# Deleting the operands before the finalizer is removed

A controller whose `Cleanup` delegates to a composite operator, under a reconciler with the
finalizer strategy. The reconciler removes its finalizer after any cleanup that returns a nil error,
and an operator's cleanup can return a nil error without having deleted everything. The finalizer
outlives the operands in every run in which no such cleanup skips an operand.
-/

namespace OperatorToolkit.Composite

open Interaction Operator

variable {Ctx Recorder Event Spec Status Err Work : Type}

/-- The part of the world that a call of the operator's `Cleanup` sees and leaves behind. -/
structure CleanupWork (Ctx Obj Event Err : Type) where
  ctx : Ctx
  log : List (Staged.Event (OperandRun Obj Event Err))
  recorded : List Event

/-- `Controller.Cleanup` returns what `CompositeOperator.Cleanup` returns. -/
def Delegates [ErrorValues Err] {D : DagLib Err Operand}
    (ctrl : Controller Spec Status Err (CleanupWork Ctx (TargetObject Spec Status) Event Err))
    (co : CompositeOperator Ctx (TargetObject Spec Status) Recorder D) : Prop :=
  ∀ (obj obj' : TargetObject Spec Status) (result : Result) (reterr : Option Err) work,
    ctrl.Behaves ⟨.cleanup obj, (obj', result, reterr)⟩ work →
      co.CleanupReaches work.ctx obj ⟨.returned result reterr, work.log, work.recorded⟩

/-- The entry is a call of `Cleanup` during which `Delete` on the operand returned a nil error. -/
def Entry.Deletes (op : Operand) :
    Entry Spec Status Err (CleanupWork Ctx (TargetObject Spec Status) Event Err) → Prop
  | .called ⟨.cleanup _, _⟩ work => Deleted work.log op
  | _ => False

/-- Since the object was marked for deletion, every operand has been deleted. -/
def DeletedSinceMarked (operands : List Operand)
    (history :
      List (Entry Spec Status Err (CleanupWork Ctx (TargetObject Spec Status) Event Err))) :
    Prop :=
  ∃ later earlier, history = later ++ .marked :: earlier ∧
    ∀ op ∈ operands, ∃ entry ∈ later, entry.Deletes op

section Removal

variable {ctrl : Controller Spec Status Err Work} [ErrorValues Err]
  {c : CompositeReconciler Spec Status Err}
  {cfg cfg' : Config (reconcileCalls Spec Status Err) (Result × Option Err)
    (World Spec Status Err Work)}

/-- The step takes the reconciler's finalizer off the object in the API. -/
structure Removes (c : CompositeReconciler Spec Status Err) (ctrl : Controller Spec Status Err Work)
    (cfg cfg' : Config (reconcileCalls Spec Status Err) (Result × Option Err)
      (World Spec Status Err Work)) : Prop where
  step : SerialStep (service ctrl c.finalizerName) c.reconcile cfg cfg'
  before : cfg.state.Carries c.finalizerName
  after : ¬ cfg'.state.Carries c.finalizerName

/-- Only an update by the reconciler removes the finalizer, and only after a cleanup. -/
theorem Removes.cleanedSinceMarked (h : Removes c ctrl cfg cfg')
    (hstrategy : c.cleanupStrategy = .finalizerCleanup) (hreach : Reconciling c ctrl cfg) :
    CleanedSinceMarked cfg.state.history := by
  have hverified := hreach.verified hstrategy
  obtain ⟨hstep, hbefore, hafter⟩ := h
  cases hstep with
  | start | finish | abandon => exact absurd hbefore hafter
  | interrupt hbreak =>
    cases hbreak with
    | method _ => exact absurd hbefore hafter
  | environment hrely => exact absurd ((Interferes.carries_iff hrely).mpr hbefore) hafter
  | call hanswer =>
    cases hanswer with
    | found | notFound | getFailed | updateFailed | statusUpdateFailed | method =>
      exact absurd hbefore hafter
    | updated hstored _ =>
      exact hverified.guard fun hmem ↦ hafter (World.carries_store_iff.mpr hmem)
    | statusUpdated hstored _ =>
      refine absurd (World.carries_store_iff.mpr ?_) hafter
      exact (World.carries_iff_of_stored hstored).mp hbefore

end Removal

/-- The calls of `Cleanup` in the history that returned a nil error. -/
def SuccessfulCleanup
    (history : List (Entry Spec Status Err (CleanupWork Ctx (TargetObject Spec Status) Event Err)))
    (obj : TargetObject Spec Status)
    (work : CleanupWork Ctx (TargetObject Spec Status) Event Err) : Prop :=
  ∃ (obj' : TargetObject Spec Status) (result : Result),
    Entry.called ⟨.cleanup obj, (obj', result, none)⟩ work ∈ history

theorem exists_successfulCleanup
    {history : List (Entry Spec Status Err (CleanupWork Ctx (TargetObject Spec Status) Event Err))}
    {entry : Entry Spec Status Err (CleanupWork Ctx (TargetObject Spec Status) Event Err)}
    (hentry : entry ∈ history) (hcleaned : entry.isCleaned) :
    ∃ obj work, SuccessfulCleanup history obj work ∧
      ∀ op, entry.Deletes op ↔ Deleted work.log op := by
  cases entry with
  | read | interrupted | marked => cases hcleaned
  | called call work =>
    obtain ⟨request, reply⟩ := call
    cases request with
    | get | default | validate | initializeObject | updateStatus | operate | update
    | statusUpdate => cases hcleaned
    | cleanup obj =>
      obtain ⟨(obj' : TargetObject Spec Status), (result : Result), (reterr : Option Err)⟩ := reply
      obtain rfl : reterr = none := Option.isNone_iff_eq_none.mp hcleaned
      exact ⟨obj, work, ⟨obj', result, hentry⟩, fun op ↦ Iff.rfl⟩

/-- **Deletion before removal.** In every run of a reconciler whose controller delegates its cleanup
to an operator over a proper DAG: a cleanup that returns a nil error deletes exactly the operands it
does not skip; and if no such cleanup has skipped an operand, then the finalizer is removed only
after every operand has been deleted since the object was marked for deletion. -/
theorem finalizer_removed_after_deletion [ErrorValues Err] {D : DagLib Err Operand}
    {range : MapRange ((_ : String) × ℕ)}
    {opts : List (CompositeOperatorOption Ctx (TargetObject Spec Status) Recorder)} {fuel : ℕ}
    {co : CompositeOperator Ctx (TargetObject Spec Status) Recorder D}
    {ctrl : Controller Spec Status Err (CleanupWork Ctx (TargetObject Spec Status) Event Err)}
    {c : CompositeReconciler Spec Status Err}
    {cfg : Config (reconcileCalls Spec Status Err) (Result × Option Err)
      (World Spec Status Err (CleanupWork Ctx (TargetObject Spec Status) Event Err))}
    (hdag : ProperDAG (configure opts).operands)
    (hnew : newCompositeOperator D range opts fuel = some (.ok co)) (hdelegates : Delegates ctrl co)
    (hstrategy : c.cleanupStrategy = .finalizerCleanup) (h : Reconciling c ctrl cfg) :
    (∀ obj work, SuccessfulCleanup cfg.state.history obj work → ∀ op ∈ (configure opts).operands,
      (Deleted work.log op ↔ ¬ Skips co work.ctx obj work.log op)) ∧
    ((∀ obj work, SuccessfulCleanup cfg.state.history obj work →
        ∀ op ∈ (configure opts).operands, ¬ Skips co work.ctx obj work.log op) →
      ∀ cfg', Removes c ctrl cfg cfg' →
        DeletedSinceMarked (configure opts).operands cfg.state.history) := by
  have horder := orders_of_operandOrder hdag (newCompositeOperator_eq_ok hnew).1
  have hdeleted : ∀ obj work, SuccessfulCleanup cfg.state.history obj work →
      ∀ op ∈ (configure opts).operands,
        (Deleted work.log op ↔ ¬ Skips co work.ctx obj work.log op) := by
    rintro obj work ⟨obj', result, hcall⟩ op hop
    have hbehaves := (h.verified hstrategy).inv.behaves _ work hcall
    exact deleted_iff_not_skips horder (hdelegates obj obj' result none work hbehaves) hop
  refine ⟨hdeleted, fun hnone cfg' hremoves ↦ ?_⟩
  obtain ⟨later, earlier, hhistory, entry, hentry, hcleaned⟩ :=
    hremoves.cleanedSinceMarked hstrategy h
  obtain ⟨obj, work, hcleanup, hdeletes⟩ := exists_successfulCleanup
    (hhistory ▸ List.mem_append_left _ hentry : entry ∈ cfg.state.history) hcleaned
  exact ⟨later, earlier, hhistory, fun op hop ↦ ⟨entry, hentry, (hdeletes op).mpr
    ((hdeleted obj work hcleanup op hop).mpr (hnone obj work hcleanup op hop))⟩⟩

/-! ## Two operators -/

abbrev WebappOperator :=
  CompositeOperator Unit (TargetObject Unit (List String)) Unit (orderedDag GoError Operand)

abbrev WebappWork := CleanupWork Unit (TargetObject Unit (List String)) String GoError

/-- A controller that delegates its cleanup, and whose other methods may reply anything. -/
def delegatingController (co : WebappOperator) :
    Controller Unit (List String) GoError WebappWork where
  Behaves call work := KeepsMetadata call ∧
    ∀ (obj obj' : TargetObject Unit (List String)) (result : Result) (reterr : Option GoError),
      call = ⟨.cleanup obj, (obj', result, reterr)⟩ →
        co.CleanupReaches work.ctx obj ⟨.returned result reterr, work.log, work.recorded⟩
  keeps h := h.1

theorem delegates_delegatingController (co : WebappOperator) :
    Delegates (delegatingController co) co :=
  fun obj obj' result reterr _ h ↦ h.2 obj obj' result reterr rfl

/-- The history of the first reconciliation of a deleted object, up to its cleanup. -/
def removalHistory (work : WebappWork) : List (Entry Unit (List String) GoError WebappWork) :=
  [.called ⟨.cleanup deletedWebapp, (deletedWebapp, {}, none)⟩ work,
    .called ⟨.validate deletedWebapp, (deletedWebapp, none)⟩ work,
    .called ⟨.default deletedWebapp, deletedWebapp⟩ work, .read deletedWebapp, .marked]

/-- A cleanup that returns a nil error is followed by the removal of the finalizer. -/
theorem exists_removal {co : WebappOperator} {work : WebappWork}
    (h : co.CleanupReaches work.ctx deletedWebapp ⟨.returned {} none, work.log, work.recorded⟩) :
    ∃ cfg cfg', Reconciling webappReconciler (delegatingController co) cfg ∧
      Removes webappReconciler (delegatingController co) cfg cfg' ∧
      cfg.state.history = removalHistory work := by
  have hstart : Reconciling webappReconciler (delegatingController co)
      ⟨some webappReconciler.reconcile, ⟨some deletedWebapp, [.marked]⟩⟩ :=
    SerialReachable.step ⟨_, ⟨deletedWebapp, rfl, rfl⟩, .refl⟩ .start
  have hfound := hstart.step (.call (.found rfl))
  have hdefault := hfound.step (.call (@Answers.method _ _ _ _ (delegatingController co) _
    (.default deletedWebapp) deletedWebapp work rfl ⟨⟨rfl, rfl⟩, nofun⟩))
  have hvalid := hdefault.step (.call (@Answers.method _ _ _ _ (delegatingController co) _
    (.validate deletedWebapp) (deletedWebapp, none) work rfl ⟨⟨rfl, rfl⟩, nofun⟩))
  have hcleanup := hvalid.step (.call (@Answers.method _ _ _ _ (delegatingController co) _
    (.cleanup deletedWebapp) (deletedWebapp, {}, none) work rfl ⟨⟨rfl, rfl⟩, by
      rintro obj obj' result reterr ⟨⟩
      exact h⟩))
  refine ⟨_, _, hcleanup,
    ⟨.call (@Answers.updated _ _ _ _ _ _ deletedWebapp _ none rfl rfl), ?_, ?_⟩,
    rfl⟩
  · exact ⟨deletedWebapp, rfl, by decide⟩
  · rintro ⟨obj, hstored, -⟩
    cases hstored

theorem deleted_of_mem_removalHistory {work : WebappWork} {op : Operand}
    {entry : Entry Unit (List String) GoError WebappWork} (hentry : entry ∈ removalHistory work)
    (hdeletes : entry.Deletes op) : Deleted work.log op := by
  simp only [removalHistory, List.mem_cons, List.not_mem_nil, or_false] at hentry
  rcases hentry with rfl | rfl | rfl | rfl | rfl
  · exact hdeletes
  all_goals exact hdeletes.elim

theorem eq_of_successfulCleanup {work work' : WebappWork} {obj : TargetObject Unit (List String)}
    (h : SuccessfulCleanup (removalHistory work) obj work') :
    obj = deletedWebapp ∧ work' = work := by
  obtain ⟨obj', result, hcall⟩ := h
  simp only [removalHistory, List.mem_cons, List.not_mem_nil, or_false] at hcall
  rcases hcall with hcall | hcall | hcall | hcall | hcall <;> cases hcall
  exact ⟨rfl, rfl⟩

/-- With two operands, one of which requires the other, both are deleted first. -/
theorem finalizer_removed_after_requiringPair :
    ∃ (co : WebappOperator) (cfg cfg' : _),
      newCompositeOperator _ (.stored _) [withEventRecorder (), withOperands requiringPair] 2 =
        some (.ok co) ∧
      Reconciling webappReconciler (delegatingController co) cfg ∧
      Removes webappReconciler (delegatingController co) cfg cfg' ∧
      DeletedSinceMarked requiringPair cfg.state.history := by
  obtain ⟨co, hnew, horder, hstrategy, hactive⟩ :
      ∃ co : WebappOperator,
        newCompositeOperator _ (.stored _) [withEventRecorder (), withOperands requiringPair] 2 =
          some (.ok co) ∧ co.order.length = 2 ∧ co.executor.execStrategy = .parallel ∧
        co.isSuspended () deletedWebapp = false := ⟨_, rfl, rfl, rfl, rfl⟩
  obtain ⟨log, hreach⟩ := quiet_complete
    (x := (co.cleanupExecution deletedWebapp : Execution _ String GoError)) (.inr hstrategy)
    (cleanup_quiet _ _ _ _)
  obtain ⟨cfg, cfg', hcfg, hremoves, hhistory⟩ :=
    @exists_removal co ⟨(), log, []⟩ (.executing hactive hreach)
  refine ⟨co, cfg, cfg', hnew, hcfg, hremoves, (finalizer_removed_after_deletion ?_ hnew
    (delegates_delegatingController co) rfl hcfg).2 ?_ cfg' hremoves⟩
  · exact properDAG_requiringPair
  intro obj work hcleanup op hop hskips
  obtain ⟨rfl, rfl⟩ := eq_of_successfulCleanup (hhistory ▸ hcleanup)
  cases hskips with
  | suspended hsuspended => simp [hactive] at hsuspended
  | middle t hmiddle _ => omega
  | stopped k k' _ hstops _ =>
    obtain ⟨⟨op', hop', halways⟩, -⟩ := hstops
    have hmem := ((mem_cleanup_step (orders_of_operandOrder properDAG_requiringPair
      (newCompositeOperator_eq_ok hnew).1)).mp hop').2.1
    simp only [requiringPair, List.mem_cons, List.not_mem_nil, or_false] at hmem
    rcases hmem with rfl | rfl <;> cases halways

/-- With a single operand the finalizer is removed and nothing has been deleted. -/
theorem finalizer_removed_before_deletion :
    ProperDAG [⟨"A", [], .requeueOnError⟩] ∧
      ∃ (co : WebappOperator) (cfg cfg' : _),
        newCompositeOperator _ (.stored _)
          [withEventRecorder (), withOperands [⟨"A", [], .requeueOnError⟩]] 1 = some (.ok co) ∧
        Reconciling webappReconciler (delegatingController co) cfg ∧
        Removes webappReconciler (delegatingController co) cfg cfg' ∧
        ¬ DeletedSinceMarked [⟨"A", [], .requeueOnError⟩] cfg.state.history := by
  have hdag : ProperDAG [⟨"A", [], .requeueOnError⟩] :=
    ⟨by decide, by decide, by decide, acyclic_of_rank (fun _ ↦ 0) (by decide)⟩
  obtain ⟨co, hnew, horder, hstrategy, hactive⟩ :
      ∃ co : WebappOperator,
        newCompositeOperator _ (.stored _)
          [withEventRecorder (), withOperands [⟨"A", [], .requeueOnError⟩]] 1 = some (.ok co) ∧
        co.order = [[⟨"A", [], .requeueOnError⟩]] ∧ co.executor.execStrategy = .parallel ∧
        co.isSuspended () deletedWebapp = false := ⟨_, rfl, rfl, rfl, rfl⟩
  obtain ⟨log, hreach⟩ := quiet_complete
    (x := (co.cleanupExecution deletedWebapp : Execution _ String GoError)) (.inr hstrategy)
    (cleanup_quiet _ _ _ _)
  obtain ⟨cfg, cfg', hcfg, hremoves, hhistory⟩ :=
    @exists_removal co ⟨(), log, []⟩ (.executing hactive hreach)
  refine ⟨hdag, co, cfg, cfg', hnew, hcfg, hremoves, ?_⟩
  rintro ⟨later, earlier, heq, hdeletes⟩
  obtain ⟨entry, hentry, hdeletes⟩ := hdeletes _ List.mem_cons_self
  have hdeleted := deleted_of_mem_removalHistory
    (hhistory ▸ heq ▸ List.mem_append_left _ hentry) hdeletes
  refine (deleted_iff_not_skips (orders_of_operandOrder hdag (newCompositeOperator_eq_ok hnew).1)
    (.executing hactive hreach) List.mem_cons_self).mp hdeleted (.middle 0 ?_ ?_)
  · rw [horder]
    rfl
  · rw [horder]
    exact List.mem_cons_self

end OperatorToolkit.Composite
