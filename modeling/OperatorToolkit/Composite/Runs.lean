import OperatorToolkit.Composite.Reconcile

/-!
# The runs of Reconcile

A complete description of what one call of `Reconcile` can do: which calls it makes, in which
order, which replies lead where, and what it returns. Everything that is proved about single
reconciliations is read off from `ReconcileRun`.
-/

namespace OperatorToolkit.Composite

open Interaction Program Object

variable {Spec Status Err : Type} [ErrorValues Err]

/-- The runs of the deferred function. -/
inductive PatchRun (c : CompositeReconciler Spec Status Err)
    (oldInstance inst : TargetObject Spec Status) (result : Result) (reterr : Option Err) :
    List (reconcileCalls Spec Status Err).Call → Result × Option Err → Prop where
  | updateStatusFailed {obj : TargetObject Spec Status} {err : Err} :
      PatchRun c oldInstance inst result reterr [⟨.updateStatus inst, (obj, some err)⟩]
        ({ requeue := true }, newAggregate
          [reterr, some (errorf ("error while updating status: " ++ message err))])
  | comparisonFailed {obj : TargetObject Spec Status} {err : Err} :
      statusChanged c.scheme oldInstance obj = .error err →
      PatchRun c oldInstance inst result reterr [⟨.updateStatus inst, (obj, none)⟩]
        (result, newAggregate
          [reterr, some (errorf ("error while checking for changed status: " ++ message err))])
  | unchanged {obj : TargetObject Spec Status} :
      statusChanged c.scheme oldInstance obj = .ok false →
      PatchRun c oldInstance inst result reterr [⟨.updateStatus inst, (obj, none)⟩]
        (result, reterr)
  | patched {obj : TargetObject Spec Status} : statusChanged c.scheme oldInstance obj = .ok true →
      PatchRun c oldInstance inst result reterr
        [⟨.updateStatus inst, (obj, none)⟩, ⟨.statusUpdate obj, none⟩] (result, reterr)
  | patchFailed {obj : TargetObject Spec Status} {err : Err} :
      statusChanged c.scheme oldInstance obj = .ok true →
      PatchRun c oldInstance inst result reterr
        [⟨.updateStatus inst, (obj, none)⟩, ⟨.statusUpdate obj, some err⟩]
        (result, newAggregate
          [reterr, some (errorf ("error while patching status: " ++ message err))])

/-- The runs of `Reconcile` on an initialized object. -/
inductive BodyRun (c : CompositeReconciler Spec Status Err) (inst : TargetObject Spec Status) :
    List (reconcileCalls Spec Status Err).Call → Result × Option Err → Prop where
  | finalizerAdded {reply : Option Err} : c.cleanupStrategy = .finalizerCleanup →
      inst.deletionTimestamp.isNone → c.finalizerName ∉ inst.finalizers →
      BodyRun c inst [⟨.update (addFinalizer inst c.finalizerName), reply⟩] ({}, none)
  | cleanupFailed {obj : TargetObject Spec Status} {result err calls out} :
      c.cleanupStrategy = .finalizerCleanup →
      ¬ inst.deletionTimestamp.isNone → c.finalizerName ∈ inst.finalizers →
      PatchRun c inst obj result (some err) calls out →
      BodyRun c inst (⟨.cleanup inst, (obj, result, some err)⟩ :: calls) out
  | cleanedUp {obj : TargetObject Spec Status} {result : Result} {reply : Option Err} :
      c.cleanupStrategy = .finalizerCleanup →
      ¬ inst.deletionTimestamp.isNone → c.finalizerName ∈ inst.finalizers →
      BodyRun c inst [⟨.cleanup inst, (obj, result, none)⟩,
        ⟨.update (removeFinalizer obj c.finalizerName), reply⟩] (result, none)
  | finalizerGone {calls out} : c.cleanupStrategy = .finalizerCleanup →
      ¬ inst.deletionTimestamp.isNone → c.finalizerName ∉ inst.finalizers →
      PatchRun c inst inst {} none calls out → BodyRun c inst calls out
  | operated {obj : TargetObject Spec Status} {result reterr calls out} :
      (c.cleanupStrategy = .finalizerCleanup →
        inst.deletionTimestamp.isNone ∧ c.finalizerName ∈ inst.finalizers) →
      PatchRun c inst obj result reterr calls out →
      BodyRun c inst (⟨.operate inst, (obj, result, reterr)⟩ :: calls) out

/-- The runs of `Reconcile`. -/
inductive ReconcileRun (c : CompositeReconciler Spec Status Err) :
    List (reconcileCalls Spec Status Err).Call → Result × Option Err → Prop where
  | notFound : ReconcileRun c [⟨.get, GetReply.notFound⟩] ({}, none)
  | getFailed {err} : ReconcileRun c [⟨.get, GetReply.failed err⟩] ({}, some err)
  | invalid {read obj inst : TargetObject Spec Status} {err : Err} :
      ReconcileRun c [⟨.get, GetReply.found read⟩, ⟨.default read, obj⟩,
        ⟨.validate obj, (inst, some err)⟩] ({}, some err)
  | unreadable {read obj inst : TargetObject Spec Status} {err : Err} :
      isInitialized c.scheme inst = .error err →
      ReconcileRun c [⟨.get, GetReply.found read⟩, ⟨.default read, obj⟩,
        ⟨.validate obj, (inst, none)⟩] ({}, some err)
  | initFailed {read obj inst obj' : TargetObject Spec Status} {err : Err} :
      isInitialized c.scheme inst = .ok false →
      ReconcileRun c [⟨.get, GetReply.found read⟩, ⟨.default read, obj⟩,
        ⟨.validate obj, (inst, none)⟩,
        ⟨.initializeObject inst c.initCondition, (obj', some err)⟩] ({}, some err)
  | initialized {read obj inst obj' : TargetObject Spec Status} {reply : Option Err} :
      isInitialized c.scheme inst = .ok false →
      ReconcileRun c [⟨.get, GetReply.found read⟩, ⟨.default read, obj⟩,
        ⟨.validate obj, (inst, none)⟩, ⟨.initializeObject inst c.initCondition, (obj', none)⟩,
        ⟨.statusUpdate obj', reply⟩] ({ requeue := true }, none)
  | body {read obj inst : TargetObject Spec Status} {calls out} :
      isInitialized c.scheme inst = .ok true →
      BodyRun c inst calls out →
      ReconcileRun c (⟨.get, GetReply.found read⟩ :: ⟨.default read, obj⟩ ::
        ⟨.validate obj, (inst, none)⟩ :: calls) out

variable {c : CompositeReconciler Spec Status Err} {oldInstance inst : TargetObject Spec Status}
  {result : Result} {reterr : Option Err} {calls : List (reconcileCalls Spec Status Err).Call}
  {out : Result × Option Err}

theorem patchStatus_cases (h : Runs (c.patchStatus oldInstance inst result reterr) calls out) :
    PatchRun c oldInstance inst result reterr calls out := by
  obtain ⟨⟨(obj : TargetObject Spec Status), (updateErr : Option Err)⟩, rest, rfl, hrest⟩ :=
    runs_call_iff.mp h
  cases updateErr with
  | some err =>
    obtain ⟨rfl, rfl⟩ := runs_done_iff.mp hrest
    exact .updateStatusFailed
  | none =>
    have hpatch : Runs (c.patchChanged oldInstance obj result reterr) rest out := hrest
    unfold CompositeReconciler.patchChanged at hpatch
    split at hpatch
    next err hchanged =>
      obtain ⟨rfl, rfl⟩ := runs_done_iff.mp hpatch
      exact .comparisonFailed hchanged
    next hchanged =>
      obtain ⟨rfl, rfl⟩ := runs_done_iff.mp hpatch
      exact .unchanged hchanged
    next hchanged =>
      obtain ⟨(statusErr : Option Err), rest, rfl, hlast⟩ := runs_call_iff.mp hpatch
      cases statusErr with
      | none =>
        obtain ⟨rfl, rfl⟩ := runs_done_iff.mp hlast
        exact .patched hchanged
      | some err =>
        obtain ⟨rfl, rfl⟩ := runs_done_iff.mp hlast
        exact .patchFailed hchanged

theorem runOperate_cases (h : Runs (c.runOperate inst inst) calls out)
    (hguard : c.cleanupStrategy = .finalizerCleanup →
      inst.deletionTimestamp.isNone ∧ c.finalizerName ∈ inst.finalizers) :
    BodyRun c inst calls out := by
  obtain ⟨⟨(obj : TargetObject Spec Status), (result : Result), (reterr : Option Err)⟩, rest, rfl,
    hpatch⟩ := runs_call_iff.mp h
  exact .operated hguard (patchStatus_cases hpatch)

theorem reconcileInitialized_cases (h : Runs (c.reconcileInitialized inst) calls out) :
    BodyRun c inst calls out := by
  unfold CompositeReconciler.reconcileInitialized at h
  by_cases hstrategy : c.cleanupStrategy = .finalizerCleanup
  case neg =>
    simp only [hstrategy, if_false] at h
    exact runOperate_cases h fun hfin ↦ absurd hfin hstrategy
  simp only [hstrategy, if_true, CompositeReconciler.cleanupHandler] at h
  by_cases hdeleted : inst.deletionTimestamp.isNone = true <;>
    by_cases hfinalizer : c.finalizerName ∈ inst.finalizers <;>
    simp only [hdeleted, hfinalizer, if_true, if_false, not_true, not_false_eq_true] at h
  · exact runOperate_cases h fun _ ↦ ⟨hdeleted, hfinalizer⟩
  · obtain ⟨reply, rest, rfl, hlast⟩ := runs_call_iff.mp h
    obtain ⟨rfl, rfl⟩ := runs_done_iff.mp hlast
    exact .finalizerAdded hstrategy hdeleted hfinalizer
  · obtain ⟨⟨(obj : TargetObject Spec Status), (result : Result), (reterr : Option Err)⟩, rest,
      rfl, hrest⟩ := runs_call_iff.mp h
    cases reterr with
    | some err => exact .cleanupFailed hstrategy hdeleted hfinalizer (patchStatus_cases hrest)
    | none =>
      obtain ⟨reply, rest, rfl, hlast⟩ := runs_call_iff.mp hrest
      obtain ⟨rfl, rfl⟩ := runs_done_iff.mp hlast
      exact .cleanedUp hstrategy hdeleted hfinalizer
  · exact .finalizerGone hstrategy hdeleted hfinalizer (patchStatus_cases h)

theorem runInitialize_cases {read obj : TargetObject Spec Status}
    (hinit : isInitialized c.scheme inst = .ok false)
    (h : Runs (c.runInitialize inst) calls out) :
    ReconcileRun c (⟨.get, GetReply.found read⟩ :: ⟨.default read, obj⟩ ::
      ⟨.validate obj, (inst, none)⟩ :: calls) out := by
  obtain ⟨⟨(obj' : TargetObject Spec Status), (initErr : Option Err)⟩, rest, rfl, hrest⟩ :=
    runs_call_iff.mp h
  cases initErr with
  | some err =>
    obtain ⟨rfl, rfl⟩ := runs_done_iff.mp hrest
    exact .initFailed hinit
  | none =>
    obtain ⟨reply, rest, rfl, hlast⟩ := runs_call_iff.mp hrest
    obtain ⟨rfl, rfl⟩ := runs_done_iff.mp hlast
    exact .initialized hinit

/-- `ReconcileRun` misses no run. -/
theorem reconcile_cases (h : Runs c.reconcile calls out) : ReconcileRun c calls out := by
  obtain ⟨(read : GetReply (TargetObject Spec Status) Err), rest, rfl, hread⟩ := runs_call_iff.mp h
  cases read with
  | notFound =>
    obtain ⟨rfl, rfl⟩ := runs_done_iff.mp hread
    exact .notFound
  | failed err =>
    obtain ⟨rfl, rfl⟩ := runs_done_iff.mp hread
    exact .getFailed
  | found read =>
    obtain ⟨(obj : TargetObject Spec Status), rest, rfl, hdefault⟩ := runs_call_iff.mp hread
    obtain ⟨⟨(inst : TargetObject Spec Status), (valErr : Option Err)⟩, rest, rfl, hvalid⟩ :=
      runs_call_iff.mp hdefault
    cases valErr with
    | some err =>
      obtain ⟨rfl, rfl⟩ := runs_done_iff.mp hvalid
      exact .invalid
    | none =>
      have hbody : Runs (c.reconcileValid inst) rest out := hvalid
      unfold CompositeReconciler.reconcileValid at hbody
      split at hbody
      next err hinit =>
        obtain ⟨rfl, rfl⟩ := runs_done_iff.mp hbody
        exact .unreadable hinit
      next hinit => exact runInitialize_cases hinit hbody
      next hinit => exact .body hinit (reconcileInitialized_cases hbody)

/-! ## Every described run exists -/

theorem PatchRun.runs (h : PatchRun c oldInstance inst result reterr calls out) :
    Runs (c.patchStatus oldInstance inst result reterr) calls out := by
  have hpatch {obj : TargetObject Spec Status} {rest}
      (h : Runs (c.patchChanged oldInstance obj result reterr) rest out) :
      Runs (c.patchStatus oldInstance inst result reterr)
        (⟨.updateStatus inst, (obj, none)⟩ :: rest) out := .call h
  unfold CompositeReconciler.patchChanged at hpatch
  cases h with
  | updateStatusFailed => exact .call (.done _)
  | comparisonFailed hchanged =>
    apply hpatch
    rw [hchanged]
    exact .done _
  | unchanged hchanged =>
    apply hpatch
    rw [hchanged]
    exact .done _
  | patched hchanged | patchFailed hchanged =>
    apply hpatch
    rw [hchanged]
    exact .call (.done _)

theorem BodyRun.runs (h : BodyRun c inst calls out) :
    Runs (c.reconcileInitialized inst) calls out := by
  unfold CompositeReconciler.reconcileInitialized CompositeReconciler.cleanupHandler
  cases h with
  | finalizerAdded hstrategy hdeleted hfinalizer =>
    simp only [hstrategy, hdeleted, hfinalizer, if_true, not_false_eq_true]
    exact .call (.done _)
  | cleanupFailed hstrategy hdeleted hfinalizer hpatch =>
    simp only [hstrategy, hdeleted, hfinalizer, if_true]
    exact .call hpatch.runs
  | cleanedUp hstrategy hdeleted hfinalizer =>
    simp only [hstrategy, hdeleted, hfinalizer, if_true]
    exact .call (.call (.done _))
  | finalizerGone hstrategy hdeleted hfinalizer hpatch =>
    simp only [hstrategy, hdeleted, hfinalizer, if_true, if_false]
    exact hpatch.runs
  | operated hguard hpatch =>
    by_cases hstrategy : c.cleanupStrategy = .finalizerCleanup
    · obtain ⟨hdeleted, hfinalizer⟩ := hguard hstrategy
      simp only [hstrategy, hdeleted, hfinalizer, if_true, if_false, not_true]
      exact .call hpatch.runs
    · simp only [hstrategy, if_false]
      exact .call hpatch.runs

theorem ReconcileRun.runs (h : ReconcileRun c calls out) : Runs c.reconcile calls out := by
  have hvalid {read obj inst : TargetObject Spec Status} {rest}
      (h : Runs (c.reconcileValid inst) rest out) :
      Runs c.reconcile (⟨.get, GetReply.found read⟩ :: ⟨.default read, obj⟩ ::
        ⟨.validate obj, (inst, none)⟩ :: rest) out := .call (.call (.call h))
  unfold CompositeReconciler.reconcileValid at hvalid
  cases h with
  | notFound | getFailed => exact .call (.done _)
  | invalid => exact .call (.call (.call (.done _)))
  | unreadable hinit =>
    apply hvalid
    rw [hinit]
    exact .done _
  | initFailed hinit =>
    apply hvalid
    rw [hinit]
    exact .call (.done _)
  | initialized hinit =>
    apply hvalid
    rw [hinit]
    exact .call (.call (.done _))
  | body hinit hbody =>
    apply hvalid
    rw [hinit]
    exact hbody.runs

end OperatorToolkit.Composite
