import OperatorToolkit.Composite.World

/-!
# What Reconcile writes to the API

The same copy of the object is handed to one controller method after the other, and every one of
them may change it in any way. Two kinds of writes follow. `Status().Update` reaches the status
only. `Update` of the finalizers carries the whole object, and with it whatever `Default`,
`Validate` and `Cleanup` have made of it, although the documentation of `Controller` says that all
updates other than those of the status are discarded. The finalizers are updated under the finalizer
strategy only, so it depends on the strategy and on these three methods whether anything else of
the stored object ever changes.

`spec` stands for all of the object besides its status and the metadata that is listed.
-/

namespace OperatorToolkit.Composite

open Interaction Object

variable {Spec Status Err : Type}

/-- The object as a write leaves it, if the API server accepts the write. -/
def TargetObject.write (old : TargetObject Spec Status) :
    ReconcileRequest Spec Status → Option (TargetObject Spec Status)
  | .update obj =>
    if old.resourceVersion = obj.resourceVersion then some (old.updated obj) else none
  | .statusUpdate obj =>
    if old.resourceVersion = obj.resourceVersion then some (old.statusUpdated obj) else none
  | _ => none

/-- The API server does not keep an object that is marked for deletion and has no finalizer. -/
def TargetObject.kept (obj : TargetObject Spec Status) : Option (TargetObject Spec Status) :=
  if obj.deletionTimestamp.isSome ∧ obj.finalizers = [] then none else some obj

/-- How the calls of `Reconcile` are answered, with the object in the API as the state. The methods
of the controller reply as they like within `Behaves`. -/
inductive OpenAnswers (Behaves : (reconcileCalls Spec Status Err).Call → Prop) :
    Option (TargetObject Spec Status) → (request : ReconcileRequest Spec Status) →
      (reconcileCalls Spec Status Err).Reply request → Option (TargetObject Spec Status) →
      Prop where
  | found {obj} : OpenAnswers Behaves (some obj) .get (GetReply.found obj) (some obj)
  | notFound : OpenAnswers Behaves none .get GetReply.notFound none
  | getFailed {s err} : OpenAnswers Behaves s .get (GetReply.failed err) s
  | updated {old obj new} {reply : Option Err} : old.write (.update obj) = some new →
      OpenAnswers Behaves (some old) (.update obj) reply new.kept
  | updateFailed {s obj} {err : Err} : OpenAnswers Behaves s (.update obj) (some err) s
  | statusUpdated {old obj new} {reply : Option Err} : old.write (.statusUpdate obj) = some new →
      OpenAnswers Behaves (some old) (.statusUpdate obj) reply new.kept
  | statusUpdateFailed {s obj} {err : Err} :
      OpenAnswers Behaves s (.statusUpdate obj) (some err) s
  | method {s request reply} : request.isMethod → Behaves ⟨request, reply⟩ →
      OpenAnswers Behaves s request reply s

/-- A reconciliation may also be abandoned at any point. -/
def openService (Behaves : (reconcileCalls Spec Status Err).Call → Prop) :
    Service (reconcileCalls Spec Status Err) (Option (TargetObject Spec Status)) where
  Handles := OpenAnswers Behaves
  Breaks s _ s' := s' = s
  Rely _ _ := False

/-- The two objects differ at most in the status, the version and the finalizer. -/
structure SameRest (finalizer : String) (old new : TargetObject Spec Status) : Prop where
  spec : new.spec = old.spec
  deletionTimestamp : new.deletionTimestamp = old.deletionTimestamp
  finalizers : new.finalizers.filter (· ≠ finalizer) = old.finalizers.filter (· ≠ finalizer)

/-- The copy in memory has the spec and the other finalizers of the object that was read. -/
structure Untouched (finalizer : String) (read inst : TargetObject Spec Status) : Prop where
  spec : inst.spec = read.spec
  finalizers : inst.finalizers.filter (· ≠ finalizer) = read.finalizers.filter (· ≠ finalizer)

section Untouched

variable {finalizer : String} {read obj : TargetObject Spec Status}

theorem sameRest_updated_iff : SameRest finalizer read (read.updated obj) ↔
    Untouched finalizer read obj :=
  ⟨fun h ↦ ⟨h.spec, h.finalizers⟩, fun h ↦ ⟨h.spec, rfl, h.finalizers⟩⟩

theorem sameRest_statusUpdated : SameRest finalizer read (read.statusUpdated obj) :=
  ⟨rfl, rfl, rfl⟩

theorem untouched_addFinalizer_iff : Untouched finalizer read (addFinalizer obj finalizer) ↔
    Untouched finalizer read obj := by
  have hspec : (addFinalizer obj finalizer).spec = obj.spec := by
    unfold addFinalizer
    split <;> rfl
  have hfinalizers : (addFinalizer obj finalizer).finalizers.filter (· ≠ finalizer) =
      obj.finalizers.filter (· ≠ finalizer) := by
    unfold addFinalizer
    split <;> simp
  constructor
  · intro h
    exact ⟨hspec ▸ h.spec, hfinalizers ▸ h.finalizers⟩
  · intro h
    exact ⟨hspec.trans h.spec, hfinalizers.trans h.finalizers⟩

theorem untouched_removeFinalizer_iff : Untouched finalizer read (removeFinalizer obj finalizer) ↔
    Untouched finalizer read obj := by
  have hfinalizers : (removeFinalizer obj finalizer).finalizers.filter (· ≠ finalizer) =
      obj.finalizers.filter (· ≠ finalizer) := by
    simp [removeFinalizer]
  constructor
  · intro h
    exact ⟨h.spec, hfinalizers ▸ h.finalizers⟩
  · intro h
    exact ⟨h.spec, hfinalizers.trans h.finalizers⟩

theorem addFinalizer_resourceVersion :
    (addFinalizer obj finalizer).resourceVersion = obj.resourceVersion := by
  unfold addFinalizer
  split <;> rfl

end Untouched

section Keeping

variable [ErrorValues Err]

/-- What `Default` and `Validate` make of an object that then counts as initialized. -/
structure Prepares (c : CompositeReconciler Spec Status Err)
    (Behaves : (reconcileCalls Spec Status Err).Call → Prop)
    (read inst : TargetObject Spec Status) : Prop where
  behaves : ∃ obj : TargetObject Spec Status, Behaves ⟨.default read, obj⟩ ∧
    Behaves ⟨.validate obj, (inst, none)⟩
  initialized : isInitialized c.scheme inst = .ok true

/-- The methods in front of an update of the finalizers leave alone what is not theirs. -/
structure KeepsRest (c : CompositeReconciler Spec Status Err)
    (Behaves : (reconcileCalls Spec Status Err).Call → Prop) : Prop where
  beforeAdding : ∀ read inst, Prepares c Behaves read inst → inst.deletionTimestamp = none →
    c.finalizerName ∉ inst.finalizers → read.resourceVersion = inst.resourceVersion →
    Untouched c.finalizerName read inst
  beforeRemoving : ∀ read inst obj result, Prepares c Behaves read inst →
    inst.deletionTimestamp ≠ none → c.finalizerName ∈ inst.finalizers →
    Behaves ⟨.cleanup inst, (obj, result, none)⟩ →
    read.resourceVersion = obj.resourceVersion → Untouched c.finalizerName read obj

end Keeping

/-! ## The writes of a reconciler that keeps the rest -/

/-- A write that the API server accepts changes nothing but the status and the finalizer. -/
def WriteKeepsRest (finalizer : String) (s : Option (TargetObject Spec Status))
    (request : ReconcileRequest Spec Status) : Prop :=
  ∀ old new, s = some old → old.write request = some new → SameRest finalizer old new

theorem write_of_isMethod {old : TargetObject Spec Status} {request : ReconcileRequest Spec Status}
    (h : request.isMethod) : old.write request = none := by
  cases request <;> first | rfl | cases h

section Rules

variable {Behaves : (reconcileCalls Spec Status Err).Call → Prop} {finalizer : String}
  {P : Option (TargetObject Spec Status) → Prop} {α : Type}
  {read inst obj : TargetObject Spec Status}

/-- All writes of the program keep the rest. -/
abbrev Keeping (Behaves : (reconcileCalls Spec Status Err).Call → Prop) (finalizer : String)
    (P : Option (TargetObject Spec Status) → Prop)
    (program : Program (reconcileCalls Spec Status Err) α) : Prop :=
  Safe (openService Behaves) (fun _ ↦ True) (WriteKeepsRest finalizer) P program fun _ _ ↦ True

theorem stable_openService : (openService Behaves).Stable P := fun _ _ _ h ↦ h.elim

theorem keeping_done {value : α} : Keeping Behaves finalizer P (.done value) :=
  .done stable_openService fun _ _ ↦ ⟨trivial, trivial⟩

/-- A controller method does not write. -/
theorem keeping_method {request : ReconcileRequest Spec Status}
    {next : (reconcileCalls Spec Status Err).Reply request →
      Program (reconcileCalls Spec Status Err) α} (hmethod : request.isMethod)
    (hnext : ∀ reply, Behaves ⟨request, reply⟩ → Keeping Behaves finalizer P (next reply)) :
    Keeping Behaves finalizer P (.call request next) := by
  refine .call (fun reply s ↦ Behaves ⟨request, reply⟩ ∧ P s) stable_openService ?_ ?_ ?_ ?_
  · intro s _
    refine ⟨trivial, fun old new _ hwrite ↦ ?_⟩
    rw [write_of_isMethod hmethod] at hwrite
    cases hwrite
  · exact fun _ _ _ _ ↦ trivial
  · intro s reply s' hs hanswer
    cases hanswer with
    | method _ hbehaves => exact ⟨hbehaves, hs⟩
    | found | notFound | getFailed | updated | updateFailed | statusUpdated | statusUpdateFailed =>
      cases hmethod
  · intro reply
    refine Safe.assume (fun s hs ↦ hs.1) fun hbehaves ↦ ?_
    exact (hnext reply hbehaves).strengthen stable_openService fun s hs ↦ hs.2

theorem keeping_statusUpdate
    {next : Option Err → Program (reconcileCalls Spec Status Err) α}
    (hnext : ∀ reply, Keeping Behaves finalizer (fun _ ↦ True) (next reply)) :
    Keeping Behaves finalizer P (Call.statusUpdate obj >>= next) := by
  refine .call (fun _ _ ↦ True) stable_openService ?_ (fun _ _ _ _ ↦ trivial)
    (fun _ _ _ _ _ ↦ trivial) hnext
  intro s _
  refine ⟨trivial, fun old new _ hwrite ↦ ?_⟩
  simp only [TargetObject.write] at hwrite
  split at hwrite
  · cases hwrite
    exact sameRest_statusUpdated
  · cases hwrite

/-- An update of the object that was read. -/
theorem keeping_update {next : Option Err → Program (reconcileCalls Spec Status Err) α}
    (hobj : read.resourceVersion = obj.resourceVersion → Untouched finalizer read obj)
    (hnext : ∀ reply, Keeping Behaves finalizer (fun _ ↦ True) (next reply)) :
    Keeping Behaves finalizer (· = some read) (Call.update obj >>= next) := by
  refine .call (fun _ _ ↦ True) stable_openService ?_ (fun _ _ _ _ ↦ trivial)
    (fun _ _ _ _ _ ↦ trivial) hnext
  rintro _ rfl
  refine ⟨trivial, fun old new hold hwrite ↦ ?_⟩
  cases hold
  simp only [TargetObject.write] at hwrite
  split at hwrite
  next hversion =>
    cases hwrite
    exact sameRest_updated_iff.mpr (hobj hversion)
  next => cases hwrite

variable {c : CompositeReconciler Spec Status Err} {oldInstance : TargetObject Spec Status}
  {result : Result} {reterr : Option Err}

theorem keeping_runInitialize : Keeping Behaves finalizer P (c.runInitialize inst) := by
  refine keeping_method rfl ?_
  rintro ⟨(obj : TargetObject Spec Status), (initErr : Option Err)⟩ -
  cases initErr with
  | some err => exact keeping_done
  | none => exact keeping_statusUpdate fun _ ↦ keeping_done

variable [ErrorValues Err]

theorem keeping_patchStatus :
    Keeping Behaves finalizer P (c.patchStatus oldInstance inst result reterr) := by
  refine keeping_method rfl ?_
  rintro ⟨(obj : TargetObject Spec Status), (updateErr : Option Err)⟩ -
  cases updateErr with
  | some err => exact keeping_done
  | none =>
    change Keeping Behaves finalizer P (c.patchChanged oldInstance obj result reterr)
    unfold CompositeReconciler.patchChanged
    split
    · exact keeping_done
    · exact keeping_done
    · refine keeping_statusUpdate fun reply ↦ ?_
      cases reply <;> exact keeping_done

theorem keeping_runOperate :
    Keeping Behaves finalizer P (c.runOperate oldInstance inst) :=
  keeping_method rfl fun _ _ ↦ keeping_patchStatus

theorem keeping_reconcileInitialized
    (hkeeps : c.cleanupStrategy = .finalizerCleanup → KeepsRest c Behaves)
    (hprepares : Prepares c Behaves read inst) :
    Keeping Behaves c.finalizerName (· = some read) (c.reconcileInitialized inst) := by
  unfold CompositeReconciler.reconcileInitialized
  by_cases hstrategy : c.cleanupStrategy = .finalizerCleanup
  case neg =>
    simp only [hstrategy, if_false]
    exact keeping_runOperate
  have hrest := hkeeps hstrategy
  simp only [hstrategy, if_true, CompositeReconciler.cleanupHandler]
  by_cases hdeleted : inst.deletionTimestamp.isNone = true <;>
    by_cases hfinalizer : c.finalizerName ∈ inst.finalizers <;>
    simp only [hdeleted, hfinalizer, if_true, if_false, not_true, not_false_eq_true]
  · exact keeping_runOperate
  · refine keeping_update (fun hversion ↦ ?_) fun _ ↦ keeping_done
    rw [addFinalizer_resourceVersion] at hversion
    exact untouched_addFinalizer_iff.mpr
      (hrest.beforeAdding read inst hprepares (Option.isNone_iff_eq_none.mp hdeleted) hfinalizer
        hversion)
  · refine keeping_method rfl ?_
    rintro ⟨(obj : TargetObject Spec Status), (result : Result), (reterr : Option Err)⟩ hcleanup
    cases reterr with
    | some err => exact keeping_patchStatus
    | none =>
      refine keeping_update (fun hversion ↦ ?_) fun _ ↦ keeping_done
      exact untouched_removeFinalizer_iff.mpr
        (hrest.beforeRemoving read inst obj result hprepares
          (fun hnone ↦ hdeleted (Option.isNone_iff_eq_none.mpr hnone)) hfinalizer hcleanup hversion)
  · exact keeping_patchStatus

theorem keeping_reconcile (hkeeps : c.cleanupStrategy = .finalizerCleanup → KeepsRest c Behaves) :
    Keeping Behaves c.finalizerName (fun _ ↦ True) c.reconcile := by
  refine .call (fun reply s ↦ ∀ read, reply = GetReply.found read → s = some read)
    stable_openService ?_ (fun _ _ _ _ ↦ trivial) ?_ ?_
  · exact fun _ _ ↦ ⟨trivial, fun old new _ hwrite ↦ by cases hwrite⟩
  · intro s reply s' _ hanswer read hread
    subst hread
    cases hanswer with
    | found => rfl
    | method hmethod => cases hmethod
  · rintro (read | _ | err)
    · refine Safe.strengthen ?_ stable_openService fun s hs ↦ hs read rfl
      refine keeping_method rfl fun obj hdefault ↦ keeping_method rfl ?_
      rintro ⟨(inst : TargetObject Spec Status), (valErr : Option Err)⟩ hvalidate
      cases valErr with
      | some err => exact keeping_done
      | none =>
        change Keeping Behaves c.finalizerName (· = some read) (c.reconcileValid inst)
        unfold CompositeReconciler.reconcileValid
        split
        next => exact keeping_done
        next => exact keeping_runInitialize
        next hinit =>
          exact keeping_reconcileInitialized hkeeps ⟨⟨obj, hdefault, hvalidate⟩, hinit⟩
    · exact keeping_done
    · exact keeping_done

end Rules

/-! ## The runs that reach an update of the finalizers -/

section Reach

variable [ErrorValues Err] {Behaves : (reconcileCalls Spec Status Err).Call → Prop}
  {c : CompositeReconciler Spec Status Err} {read inst obj : TargetObject Spec Status}

/-- Any object may be the stored one, and any number of reconciliations have started on it. -/
abbrev Reconciles (c : CompositeReconciler Spec Status Err)
    (Behaves : (reconcileCalls Spec Status Err).Call → Prop)
    (cfg : Config (reconcileCalls Spec Status Err) (Result × Option Err)
      (Option (TargetObject Spec Status))) : Prop :=
  SerialReachable (openService Behaves) c.reconcile (fun _ ↦ True) cfg

theorem Prepares.reconciles (h : Prepares c Behaves read inst) :
    Reconciles c Behaves ⟨some (c.reconcileInitialized inst), some read⟩ := by
  obtain ⟨obj, hdefault, hvalidate⟩ := h.behaves
  have hstart : Reconciles c Behaves ⟨some c.reconcile, some read⟩ :=
    SerialReachable.step ⟨some read, trivial, .refl⟩ .start
  have hfound := hstart.step (.call .found)
  have hdefaulted := hfound.step (.call (.method rfl hdefault))
  have hvalidated := hdefaulted.step (.call (.method rfl hvalidate))
  have hvalid : Reconciles c Behaves ⟨some (c.reconcileValid inst), some read⟩ := hvalidated
  unfold CompositeReconciler.reconcileValid at hvalid
  rw [h.initialized] at hvalid
  exact hvalid

theorem exists_reconcileInitialized_adding (hstrategy : c.cleanupStrategy = .finalizerCleanup)
    (hdeleted : inst.deletionTimestamp = none) (hfinalizer : c.finalizerName ∉ inst.finalizers) :
    ∃ next, c.reconcileInitialized inst =
      .call (.update (addFinalizer inst c.finalizerName)) next := by
  simp only [CompositeReconciler.reconcileInitialized, CompositeReconciler.cleanupHandler,
    hstrategy, hdeleted, hfinalizer, if_true, Option.isNone_none, not_false_eq_true]
  exact ⟨_, rfl⟩

theorem exists_reconcileInitialized_cleanup (hstrategy : c.cleanupStrategy = .finalizerCleanup)
    (hdeleted : inst.deletionTimestamp ≠ none) (hfinalizer : c.finalizerName ∈ inst.finalizers) :
    ∃ next, c.reconcileInitialized inst = .call (.cleanup inst) next ∧ ∀ obj result,
      ∃ next', next (obj, result, none) =
        .call (.update (removeFinalizer obj c.finalizerName)) next' := by
  have hsome : inst.deletionTimestamp.isNone = false := by
    simpa [Option.isNone_eq_false_iff, Option.isSome_iff_ne_none] using hdeleted
  simp only [CompositeReconciler.reconcileInitialized, CompositeReconciler.cleanupHandler,
    hstrategy, hsome, hfinalizer, if_true, Bool.false_eq_true, if_false]
  exact ⟨_, rfl, fun obj result ↦ ⟨_, rfl⟩⟩

/-- Every write of the reconciler keeps the rest of the object that it is made on. -/
def WritesKeepRest (c : CompositeReconciler Spec Status Err)
    (Behaves : (reconcileCalls Spec Status Err).Call → Prop) : Prop :=
  ∀ cfg, Reconciles c Behaves cfg → ∀ request next, cfg.program = some (.call request next) →
    WriteKeepsRest c.finalizerName cfg.state request

theorem WritesKeepRest.untouched (h : WritesKeepRest c Behaves)
    {next : Option Err → Program (reconcileCalls Spec Status Err) (Result × Option Err)}
    (hreach : Reconciles c Behaves ⟨some (.call (.update obj) next), some read⟩)
    (hversion : read.resourceVersion = obj.resourceVersion) :
    Untouched c.finalizerName read obj := by
  have hwrite : read.write (.update obj) = some (read.updated obj) := by
    simp only [TargetObject.write, hversion, if_true]
  exact sameRest_updated_iff.mp (h _ hreach _ _ rfl _ _ rfl hwrite)

theorem WritesKeepRest.keepsRest (h : WritesKeepRest c Behaves)
    (hstrategy : c.cleanupStrategy = .finalizerCleanup) : KeepsRest c Behaves where
  beforeAdding read inst hprepares hdeleted hfinalizer hversion := by
    obtain ⟨next, hprogram⟩ := exists_reconcileInitialized_adding hstrategy hdeleted hfinalizer
    have hreach := hprepares.reconciles
    rw [hprogram] at hreach
    have huntouched := h.untouched hreach (hversion.trans addFinalizer_resourceVersion.symm)
    exact untouched_addFinalizer_iff.mp huntouched
  beforeRemoving read inst obj result hprepares hdeleted hfinalizer hcleanup hversion := by
    obtain ⟨next, hprogram, hnext⟩ :=
      exists_reconcileInitialized_cleanup hstrategy hdeleted hfinalizer
    obtain ⟨next', hupdate⟩ := hnext obj result
    have hreach := hprepares.reconciles
    rw [hprogram] at hreach
    have hcleaned := hreach.step (.call (.method rfl hcleanup))
    rw [hupdate] at hcleaned
    exact untouched_removeFinalizer_iff.mp (h.untouched hcleaned hversion)

/-- **Writes.** The writes of a composite reconciler change nothing but the status and its own
finalizer, whatever object they are made on and however often it is reconciled, exactly if it does
not clean up with a finalizer or the methods in front of an update of the finalizers change nothing
else of the object that was read. -/
theorem reconcile_writes_keep_rest_iff (c : CompositeReconciler Spec Status Err)
    (Behaves : (reconcileCalls Spec Status Err).Call → Prop) :
    (∀ cfg, SerialReachable (openService Behaves) c.reconcile (fun _ ↦ True) cfg →
      ∀ request next old new, cfg.program = some (.call request next) → cfg.state = some old →
        old.write request = some new → SameRest c.finalizerName old new) ↔
    (c.cleanupStrategy = .finalizerCleanup → KeepsRest c Behaves) := by
  constructor
  · intro h hstrategy
    have hwrites : WritesKeepRest c Behaves :=
      fun cfg hreach request next hprogram old new hold hwrite ↦
        h cfg hreach request next old new hprogram hold hwrite
    exact hwrites.keepsRest hstrategy
  · intro hkeeps cfg hreach request next old new hprogram hold hwrite
    have hverified := SerialReachable.verified stable_openService (keeping_reconcile hkeeps)
      (fun _ h ↦ h) hreach
    obtain ⟨program, s⟩ := cfg
    cases hprogram
    exact hverified.guard old new hold hwrite

end Reach

/-- The scheme of `webapp`, for objects with a number of replicas. -/
def replicaScheme : Scheme (TargetObject ℕ (List String)) GoError where
  convert obj := conditionScheme.convert { obj with spec := () }

def replicaReconciler : CompositeReconciler ℕ (List String) GoError :=
  CompositeReconciler.init { scheme := replicaScheme }
    [.withName "webapp-controller", .withCleanupStrategy .finalizerCleanup]

/-- An initialized object without replicas, which the reconciler has not put its finalizer on. -/
def replicaWebapp : TargetObject ℕ (List String) where
  finalizers := []
  deletionTimestamp := none
  resourceVersion := 1
  spec := 0
  status := ["Progressing"]

/-- A controller that sets three replicas by default and does nothing else. -/
def DefaultsReplicas : (reconcileCalls ℕ (List String) GoError).Call → Prop
  | ⟨.default obj, reply⟩ => reply = { obj with spec := 3 }
  | ⟨.validate obj, reply⟩ => reply = (obj, none)
  | ⟨.initializeObject obj _, reply⟩ => reply = (obj, none)
  | ⟨.updateStatus obj, reply⟩ => reply = (obj, none)
  | ⟨.operate obj, reply⟩ => reply = (obj, {}, none)
  | ⟨.cleanup obj, reply⟩ => reply = (obj, {}, none)
  | _ => True

/-- The replicas that `Default` sets in memory are stored along with the new finalizer. -/
theorem replicaReconciler_stores_default : ∃ cfg,
    SerialReachable (openService DefaultsReplicas) replicaReconciler.reconcile (fun _ ↦ True) cfg ∧
    ∃ request next new, cfg.program = some (.call request next) ∧
      cfg.state = some replicaWebapp ∧ replicaWebapp.write request = some new ∧
      new.spec = 3 ∧ replicaWebapp.spec = 0 ∧
      ¬ SameRest replicaReconciler.finalizerName replicaWebapp new := by
  have hprepares : Prepares replicaReconciler DefaultsReplicas replicaWebapp
      { replicaWebapp with spec := 3 } := ⟨⟨_, rfl, rfl⟩, by rfl⟩
  have hadding : ∃ next, replicaReconciler.reconcileInitialized { replicaWebapp with spec := 3 } =
      .call (.update _) next := exists_reconcileInitialized_adding rfl rfl (by decide)
  obtain ⟨next, hprogram⟩ := hadding
  have hreach := hprepares.reconciles
  rw [hprogram] at hreach
  refine ⟨_, hreach, _, _, _, rfl, rfl, rfl, rfl, rfl, fun h ↦ ?_⟩
  have hspec := h.spec
  cases hspec

end OperatorToolkit.Composite
