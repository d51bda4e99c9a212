import OperatorToolkit.Composite.Runs

/-!
# Failures during Reconcile

A failed call matters when nothing is left that would make the controller runtime try again: the
reconciliation returned no error and a result that does not requeue. The only failures that end
so are those of the two updates of the finalizers, whose errors are logged and dropped; the removal
of the finalizer is still saved when the cleanup itself asked for another reconciliation.
-/

namespace OperatorToolkit.Composite

open Interaction Program Object

variable {Spec Status Err : Type}

/-- The error of a controller method or of a write to the API. -/
def callError : (reconcileCalls Spec Status Err).Call → Option Err
  | ⟨.validate _, reply⟩ => Prod.snd reply
  | ⟨.initializeObject _ _, reply⟩ => Prod.snd reply
  | ⟨.updateStatus _, reply⟩ => Prod.snd reply
  | ⟨.operate _, reply⟩ => (Prod.snd reply).2
  | ⟨.cleanup _, reply⟩ => (Prod.snd reply).2
  | ⟨.update _, err⟩ => err
  | ⟨.statusUpdate _, err⟩ => err
  | ⟨.get, _⟩ | ⟨.default _, _⟩ => none

/-- The object after a successful validation, which is the one that is saved. -/
def validated : (reconcileCalls Spec Status Err).Call → Option (TargetObject Spec Status)
  | ⟨.validate _, reply⟩ => some (Prod.fst reply)
  | _ => none

/-- The object with its new status. -/
def newStatus : (reconcileCalls Spec Status Err).Call → Option (TargetObject Spec Status)
  | ⟨.updateStatus _, reply⟩ => some (Prod.fst reply)
  | _ => none

def isUpdate : (reconcileCalls Spec Status Err).Call → Bool
  | ⟨.update _, _⟩ => true
  | _ => false

/-- A cleanup that asks for another reconciliation. -/
def isRequeuingCleanup : (reconcileCalls Spec Status Err).Call → Bool
  | ⟨.cleanup _, reply⟩ => (Prod.snd reply).1.requeues
  | _ => false

/-- The comparison of an old status with the new one fails. -/
def ComparisonFailed [ErrorValues Err] (c : CompositeReconciler Spec Status Err)
    (oldInstance : TargetObject Spec Status)
    (calls : List (reconcileCalls Spec Status Err).Call) : Prop :=
  ∃ call ∈ calls, ∃ obj err, newStatus call = some obj ∧
    statusChanged c.scheme oldInstance obj = .error err

def CallFailed (calls : List (reconcileCalls Spec Status Err).Call) : Prop :=
  ∃ call ∈ calls, (callError call).isSome

/-- Something failed after the object was read. -/
def Failed [ErrorValues Err] (c : CompositeReconciler Spec Status Err)
    (calls : List (reconcileCalls Spec Status Err).Call) : Prop :=
  CallFailed calls ∨
    ∃ call ∈ calls, ∃ oldInstance, validated call = some oldInstance ∧
      ComparisonFailed c oldInstance calls

/-- The controller runtime will try again. -/
def Retried (out : Result × Option Err) : Prop := out.2.isSome ∨ out.1.requeues

/-- An update of the finalizers failed, and no cleanup asked for another reconciliation. -/
def DroppedUpdate (calls : List (reconcileCalls Spec Status Err).Call) : Prop :=
  (∃ call ∈ calls, isUpdate call ∧ (callError call).isSome) ∧
    ∀ call ∈ calls, ¬ isRequeuingCleanup call

theorem not_droppedUpdate {calls : List (reconcileCalls Spec Status Err).Call}
    (h : ∀ call ∈ calls, isUpdate call = false) : ¬ DroppedUpdate calls := by
  rintro ⟨⟨call, hcall, hupdate, _⟩, _⟩
  rw [h call hcall] at hupdate
  cases hupdate

theorem callFailed_cons {call : (reconcileCalls Spec Status Err).Call}
    {calls : List (reconcileCalls Spec Status Err).Call} :
    CallFailed (call :: calls) ↔ (callError call).isSome ∨ CallFailed calls :=
  List.exists_mem_cons_iff _ _ _

variable [ErrorValues Err] {c : CompositeReconciler Spec Status Err}
  {oldInstance inst : TargetObject Spec Status} {result : Result} {reterr : Option Err}
  {calls : List (reconcileCalls Spec Status Err).Call} {out : Result × Option Err}

theorem comparisonFailed_cons {call : (reconcileCalls Spec Status Err).Call} :
    ComparisonFailed c oldInstance (call :: calls) ↔
      (∃ obj err, newStatus call = some obj ∧
        statusChanged c.scheme oldInstance obj = .error err) ∨
      ComparisonFailed c oldInstance calls :=
  List.exists_mem_cons_iff _ _ _

/-- The failures of a run that got past the validation are those of the calls after it. -/
theorem failed_valid_iff {read obj : TargetObject Spec Status}
    (hcalls : ∀ call ∈ calls, validated call = none) :
    Failed c (⟨.get, GetReply.found read⟩ :: ⟨.default read, obj⟩ ::
      ⟨.validate obj, (inst, none)⟩ :: calls) ↔
        CallFailed calls ∨ ComparisonFailed c inst calls := by
  have hcomparison (oldInstance : TargetObject Spec Status) :
      ComparisonFailed c oldInstance (⟨.get, GetReply.found read⟩ :: ⟨.default read, obj⟩ ::
        ⟨.validate obj, (inst, none)⟩ :: calls) ↔ ComparisonFailed c oldInstance calls := by
    simp only [comparisonFailed_cons]
    simp [newStatus]
  simp only [Failed, hcomparison, callFailed_cons]
  refine or_congr (by simp [callError]) ⟨?_, fun h ↦
    ⟨⟨.validate obj, (inst, none)⟩, by simp, inst, rfl, h⟩⟩
  rintro ⟨call, hcall, oldInstance, hvalid, hfailed⟩
  simp only [List.mem_cons] at hcall
  rcases hcall with rfl | rfl | rfl | hcall
  · cases hvalid
  · cases hvalid
  · cases hvalid
    exact hfailed
  · rw [hcalls call hcall] at hvalid
    cases hvalid

theorem newAggregate_pair_isSome (err : Err) :
    (newAggregate [reterr, some err]).isSome := by
  obtain ⟨agg, hagg⟩ := newAggregate_isSome err [reterr, some err] (by simp)
  simp [hagg]

/-- The deferred function keeps an error and adds its own. -/
theorem PatchRun.isSome (h : PatchRun c oldInstance inst result reterr calls out)
    (hfailed : reterr.isSome ∨ CallFailed calls ∨ ComparisonFailed c oldInstance calls) :
    out.2.isSome := by
  cases h with
  | updateStatusFailed | comparisonFailed _ | patchFailed _ => exact newAggregate_pair_isSome _
  | unchanged hchanged | patched hchanged =>
    simpa [CallFailed, ComparisonFailed, callError, newStatus, hchanged] using hfailed

theorem PatchRun.not_isUpdate (h : PatchRun c oldInstance inst result reterr calls out) {call}
    (hcall : call ∈ calls) : isUpdate call = false ∧ validated call = none := by
  cases h <;> simp only [List.mem_cons, List.not_mem_nil, or_false] at hcall <;>
    rcases hcall with rfl | rfl <;> exact ⟨rfl, rfl⟩

/-- On an initialized object only the dropped updates lose a failure. -/
theorem BodyRun.retried_iff (h : BodyRun c inst calls out) :
    (CallFailed calls ∨ ComparisonFailed c inst calls → Retried out) ↔ ¬ DroppedUpdate calls := by
  cases h with
  | @finalizerAdded reply _ _ _ =>
    cases reply <;> simp [CallFailed, ComparisonFailed, DroppedUpdate, Retried, callError,
      newStatus, isUpdate, isRequeuingCleanup, Result.requeues]
  | @cleanedUp obj result reply _ _ _ =>
    cases reply <;> simp [CallFailed, ComparisonFailed, DroppedUpdate, Retried, callError,
      newStatus, isUpdate, isRequeuingCleanup]
  | @cleanupFailed obj result err rest _ _ _ _ hpatch =>
    refine iff_of_true (fun _ ↦ .inl (hpatch.isSome (.inl rfl)))
      (not_droppedUpdate fun call hcall ↦ ?_)
    rcases List.mem_cons.mp hcall with rfl | hcall
    · rfl
    · exact (hpatch.not_isUpdate hcall).1
  | finalizerGone _ _ _ hpatch =>
    exact iff_of_true (fun hfailed ↦ .inl (hpatch.isSome (.inr hfailed)))
      (not_droppedUpdate fun call hcall ↦ (hpatch.not_isUpdate hcall).1)
  | @operated obj result reterr rest _ _ hpatch =>
    refine iff_of_true (fun hfailed ↦ .inl (hpatch.isSome ?_))
      (not_droppedUpdate fun call hcall ↦ ?_)
    · simpa [CallFailed, ComparisonFailed, callError, newStatus, or_assoc] using hfailed
    · rcases List.mem_cons.mp hcall with rfl | hcall
      · rfl
      · exact (hpatch.not_isUpdate hcall).1

theorem BodyRun.not_validated (h : BodyRun c inst calls out) {call} (hcall : call ∈ calls) :
    validated call = none := by
  cases h with
  | finalizerAdded _ _ _ | cleanedUp _ _ _ =>
    simp only [List.mem_cons, List.not_mem_nil, or_false] at hcall
    rcases hcall with rfl | rfl <;> rfl
  | cleanupFailed _ _ _ hpatch | operated _ hpatch =>
    rcases List.mem_cons.mp hcall with rfl | hcall
    · rfl
    · exact (hpatch.not_isUpdate hcall).2
  | finalizerGone _ _ _ hpatch => exact (hpatch.not_isUpdate hcall).2

/-- **No failure is dropped, except that of an update of the finalizers.** In every run of
`Reconcile`, whatever the stored object, the controller and the API answer: a failure after the
object was read leads to an error or a requeue if and only if it is not the case that an
update of the finalizers failed while no cleanup asked for another reconciliation. -/
theorem reconcile_retries_iff (h : Runs c.reconcile calls out) :
    (Failed c calls → Retried out) ↔ ¬ DroppedUpdate calls := by
  cases reconcile_cases h with
  | notFound =>
    simp [Failed, CallFailed, ComparisonFailed, DroppedUpdate, callError, newStatus, isUpdate]
  | getFailed | invalid | unreadable _ | initFailed _ | initialized _ =>
    simp [Retried, DroppedUpdate, Result.requeues, isUpdate]
  | @body read obj inst rest out hinit hbody =>
    have hdropped : DroppedUpdate (⟨.get, GetReply.found read⟩ :: ⟨.default read, obj⟩ ::
        ⟨.validate obj, (inst, none)⟩ :: rest) ↔ DroppedUpdate rest := by
      simp [DroppedUpdate, isUpdate, isRequeuingCleanup]
    rw [failed_valid_iff fun call ↦ hbody.not_validated, hdropped]
    exact hbody.retried_iff

/-- The removal of the finalizer fails after a cleanup with the given result. -/
def failedRemoval (result : Result) : List (reconcileCalls Unit (List String) GoError).Call :=
  [⟨.get, GetReply.found deletedWebapp⟩, ⟨.default deletedWebapp, deletedWebapp⟩,
    ⟨.validate deletedWebapp, (deletedWebapp, none)⟩,
    ⟨.cleanup deletedWebapp, (deletedWebapp, result, none)⟩,
    ⟨.update (removeFinalizer deletedWebapp "webapp-controller"), some (errorf "conflict")⟩]

theorem runs_failedRemoval (result : Result) :
    Runs webappReconciler.reconcile (failedRemoval result) (result, none) :=
  (ReconcileRun.body rfl (.cleanedUp rfl (by decide) (by decide))).runs

theorem failed_failedRemoval (result : Result) : Failed webappReconciler (failedRemoval result) :=
  .inl ⟨_, List.mem_of_getLast? rfl, rfl⟩

/-- A cleanup that asked for another reconciliation saves the failed removal. -/
theorem reconcile_retries_requeuingCleanup :
    Runs webappReconciler.reconcile (failedRemoval { requeue := true })
        ({ requeue := true }, none) ∧
      Retried (({ requeue := true }, none) : Result × Option GoError) := by
  refine ⟨runs_failedRemoval _, (reconcile_retries_iff (runs_failedRemoval _)).mpr ?_
    (failed_failedRemoval _)⟩
  rintro ⟨_, hquiet⟩
  exact hquiet ⟨.cleanup deletedWebapp, (deletedWebapp, { requeue := true }, none)⟩
    (by simp [failedRemoval]) rfl

/-- A cleanup that is done leaves nothing behind that would retry the failed removal: the object
keeps its finalizer and is never deleted. -/
theorem reconcile_drops_failedRemoval :
    Runs webappReconciler.reconcile (failedRemoval {}) ({}, none) ∧
      Failed webappReconciler (failedRemoval {}) ∧
      ¬ Retried (({}, none) : Result × Option GoError) := by
  refine ⟨runs_failedRemoval _, failed_failedRemoval _, ?_⟩
  rintro (herr | hrequeue)
  · cases herr
  · cases hrequeue

end OperatorToolkit.Composite
