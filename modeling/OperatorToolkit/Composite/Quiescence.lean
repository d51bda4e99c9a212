import OperatorToolkit.Composite.World
import OperatorToolkit.Interaction.Execution

/-!
# Reconciliation comes to rest

Every write of `Reconcile` leads to another reconciliation, so a path that writes without need is a
loop. Here the API accepts every write, nobody else changes the object, and the controller's methods
are functions of what they are given. An object that is not being deleted is initialized, gets its
finalizer, and is operated on once more while its status is brought up to date; after that no call
writes anything. This needs that the methods do not feed on what the reconciler writes: with a
controller whose operation or defaults depend on the status, or whose status depends on the resource
version, every call may write.
-/

namespace OperatorToolkit.Composite

open Interaction Object

variable {Spec Status Err Work : Type}

/-! ## The status as the scheme represents it -/

/-- `IsInitialized`, asked of a status. -/
def hasConditions (status : Fields) : Bool :=
  match status.lookup "conditions" with
  | some (.list _) => true
  | _ => false

section Scheme

variable [ErrorValues Err]

/-- The scheme converts every object, and renders its status as a map. -/
def Represents (scheme : Scheme (TargetObject Spec Status) Err) (represent : Status → Fields) :
    Prop :=
  ∀ obj, ∃ u, scheme.convert obj = .ok u ∧
    (getObjectStatus u.object : Except Err Fields) = .ok (represent obj.status)

variable {scheme : Scheme (TargetObject Spec Status) Err} {represent : Status → Fields}

theorem Represents.isInitialized_eq (h : Represents scheme represent)
    (obj : TargetObject Spec Status) :
    isInitialized scheme obj = .ok (hasConditions (represent obj.status)) := by
  obtain ⟨u, hconvert, hstatus⟩ := h obj
  simp only [isInitialized, getUnstructuredObject, hconvert, annotate, Except.mapError, bind,
    Except.bind, hstatus, hasConditions]
  generalize (represent obj.status).lookup "conditions" = conditions
  rcases conditions with _ | value
  · rfl
  · cases value <;> rfl

theorem Represents.statusChanged_eq (h : Represents scheme represent)
    (oldo newo : TargetObject Spec Status) :
    statusChanged scheme oldo newo =
      .ok (decide (represent oldo.status ≠ represent newo.status)) := by
  obtain ⟨u, hconvert, hstatus⟩ := h oldo
  obtain ⟨v, hconvert', hstatus'⟩ := h newo
  simp only [statusChanged, getUnstructuredObject, hconvert, hconvert', annotate, Except.mapError,
    bind, Except.bind, hstatus, hstatus']

end Scheme

/-! ## A controller whose methods are functions -/

/-- A write to the API. -/
def isWrite : (reconcileCalls Spec Status Err).Call → Bool
  | ⟨.update _, _⟩ | ⟨.statusUpdate _, _⟩ => true
  | _ => false

/-- What is in the API, and what the operation works on. -/
structure Cluster (Spec Status Work : Type) where
  stored : TargetObject Spec Status
  work : Work

/-- What the methods of the controller compute: `Default` the spec, `Initialize` and `UpdateStatus`
the status, `Operate` the work. -/
structure Behaviour (Spec Status Work : Type) where
  default : TargetObject Spec Status → Spec
  initializeObject : TargetObject Spec Status → Condition → Status
  operate : Work → TargetObject Spec Status → Work
  updateStatus : Work → TargetObject Spec Status → Status

namespace Behaviour

variable (beh : Behaviour Spec Status Work)

/-- The API accepts every write, and no method fails. -/
def respond (s : Cluster Spec Status Work) (request : ReconcileRequest Spec Status) :
    (reconcileCalls Spec Status Err).Reply request × Cluster Spec Status Work :=
  match request with
  | .get => (GetReply.found s.stored, s)
  | .default obj => ({ obj with spec := beh.default obj }, s)
  | .validate obj => ((obj, none), s)
  | .initializeObject obj cndn => (({ obj with status := beh.initializeObject obj cndn }, none), s)
  | .updateStatus obj => (({ obj with status := beh.updateStatus s.work obj }, none), s)
  | .operate obj => ((obj, {}, none), { s with work := beh.operate s.work obj })
  | .cleanup obj => ((obj, {}, none), s)
  | .update obj => ((none : Option Err), { s with stored := s.stored.updated obj })
  | .statusUpdate obj => ((none : Option Err), { s with stored := s.stored.statusUpdated obj })

variable [ErrorValues Err] (c : CompositeReconciler Spec Status Err)

/-- One call of `Reconcile`. -/
def reconcile (s : Cluster Spec Status Work) :
    List (reconcileCalls Spec Status Err).Call × (Result × Option Err) × Cluster Spec Status Work :=
  c.reconcile.interpret beh.respond s

/-- The state after a number of calls. -/
def after (s : Cluster Spec Status Work) : ℕ → Cluster Spec Status Work
  | 0 => s
  | n + 1 => (beh.reconcile c (after s n)).2.2

/-- The stored object with its defaults. -/
def prepared (s : Cluster Spec Status Work) : TargetObject Spec Status :=
  { s.stored with spec := beh.default s.stored }

/-- The status that `UpdateStatus` computes in a call on an object that is set up. -/
def computedStatus (s : Cluster Spec Status Work) : Status :=
  beh.updateStatus (beh.operate s.work (beh.prepared s)) (beh.prepared s)

theorem reconcile_eq (s : Cluster Spec Status Work) :
    beh.reconcile c s =
      let rest := (c.reconcileValid (beh.prepared s)).interpret beh.respond s
      (⟨.get, GetReply.found s.stored⟩ :: ⟨.default s.stored, beh.prepared s⟩ ::
        ⟨.validate (beh.prepared s), (beh.prepared s, none)⟩ :: rest.1, rest.2) :=
  rfl

/-- What the methods are supposed to do. -/
structure Lawful (represent : Status → Fields) : Prop where
  default_idem : ∀ obj, beh.default { obj with spec := beh.default obj } = beh.default obj
  initializeObject_conditions : ∀ obj cndn,
    hasConditions (represent (beh.initializeObject obj cndn))
  operate_idem : ∀ work obj, beh.operate (beh.operate work obj) obj = beh.operate work obj
  updateStatus_idem : ∀ work obj,
    beh.updateStatus work { obj with status := beh.updateStatus work obj } =
      beh.updateStatus work obj
  updateStatus_conditions : ∀ work obj, hasConditions (represent obj.status) →
    hasConditions (represent (beh.updateStatus work obj))

/-- The methods do not look at what the reconciler writes: the status does not matter to `Default`
and `Operate`, nor the resource version to any of them. -/
structure Unaffected : Prop where
  default_eq : ∀ obj status version,
    beh.default { obj with status := status, resourceVersion := version } = beh.default obj
  operate_eq : ∀ work obj status version,
    beh.operate work { obj with status := status, resourceVersion := version } =
      beh.operate work obj
  updateStatus_eq : ∀ work obj version,
    beh.updateStatus work { obj with resourceVersion := version } = beh.updateStatus work obj

/-! ## The phases of a call -/

section Phases

variable {beh c} {represent : Status → Fields} {s : Cluster Spec Status Work}
  (hrep : Represents c.scheme represent)

include hrep

theorem reconcile_uninitialized (h : hasConditions (represent s.stored.status) = false) :
    (beh.reconcile c s).2.2 =
      ⟨s.stored.statusUpdated { beh.prepared s with
        status := beh.initializeObject (beh.prepared s) c.initCondition }, s.work⟩ := by
  have hinit : isInitialized c.scheme (beh.prepared s) = .ok false := by
    rw [hrep.isInitialized_eq]
    exact congrArg Except.ok h
  rw [reconcile_eq, CompositeReconciler.reconcileValid, hinit]
  rfl

theorem reconcile_initialized (h : hasConditions (represent s.stored.status)) :
    beh.reconcile c s =
      let rest := (c.reconcileInitialized (beh.prepared s)).interpret beh.respond s
      (⟨.get, GetReply.found s.stored⟩ :: ⟨.default s.stored, beh.prepared s⟩ ::
        ⟨.validate (beh.prepared s), (beh.prepared s, none)⟩ :: rest.1, rest.2) := by
  have hinit : isInitialized c.scheme (beh.prepared s) = .ok true := by
    rw [hrep.isInitialized_eq]
    exact congrArg Except.ok h
  rw [reconcile_eq, CompositeReconciler.reconcileValid, hinit]

theorem reconcile_addsFinalizer (h : hasConditions (represent s.stored.status))
    (hlive : s.stored.deletionTimestamp = none)
    (hcleanup : c.cleanupStrategy = .finalizerCleanup)
    (hfinalizer : c.finalizerName ∉ s.stored.finalizers) :
    (beh.reconcile c s).2.2 =
      ⟨s.stored.updated (addFinalizer (beh.prepared s) c.finalizerName), s.work⟩ := by
  have hlive' : (beh.prepared s).deletionTimestamp.isNone := by
    rw [prepared, hlive]
    rfl
  have hfinalizer' : c.finalizerName ∉ (beh.prepared s).finalizers := hfinalizer
  rw [reconcile_initialized hrep h, CompositeReconciler.reconcileInitialized, if_pos hcleanup,
    CompositeReconciler.cleanupHandler, if_pos hlive', if_pos hfinalizer']
  rfl

/-- The finalizer is in place if it is needed. -/
def FinalizerSet (c : CompositeReconciler Spec Status Err) (obj : TargetObject Spec Status) :
    Prop :=
  c.cleanupStrategy = .finalizerCleanup → c.finalizerName ∈ obj.finalizers

/-- An object that is set up is operated on, and its status is brought up to date. -/
theorem reconcile_operates (h : hasConditions (represent s.stored.status))
    (hlive : s.stored.deletionTimestamp = none) (hfinalizer : FinalizerSet c s.stored) :
    beh.reconcile c s =
      let computed := { beh.prepared s with status := beh.computedStatus s }
      let rest := (c.patchChanged (beh.prepared s) computed {} none).interpret beh.respond
        ⟨s.stored, beh.operate s.work (beh.prepared s)⟩
      (⟨.get, GetReply.found s.stored⟩ :: ⟨.default s.stored, beh.prepared s⟩ ::
        ⟨.validate (beh.prepared s), (beh.prepared s, none)⟩ ::
        ⟨.operate (beh.prepared s), (beh.prepared s, {}, none)⟩ ::
        ⟨.updateStatus (beh.prepared s), (computed, none)⟩ :: rest.1, rest.2) := by
  rw [reconcile_initialized hrep h, CompositeReconciler.reconcileInitialized]
  by_cases hcleanup : c.cleanupStrategy = .finalizerCleanup
  · have hlive' : (beh.prepared s).deletionTimestamp.isNone := by
      rw [prepared, hlive]
      rfl
    have hfinalizer' : ¬c.finalizerName ∉ (beh.prepared s).finalizers :=
      not_not.mpr (hfinalizer hcleanup)
    rw [if_pos hcleanup, CompositeReconciler.cleanupHandler, if_pos hlive', if_neg hfinalizer']
    rfl
  · rw [if_neg hcleanup]
    rfl

theorem reconcile_unchanged (h : hasConditions (represent s.stored.status))
    (hlive : s.stored.deletionTimestamp = none) (hfinalizer : FinalizerSet c s.stored)
    (hsame : represent s.stored.status = represent (beh.computedStatus s)) :
    (beh.reconcile c s).1.any isWrite = false ∧
      (beh.reconcile c s).2 = (({}, none), ⟨s.stored, beh.operate s.work (beh.prepared s)⟩) := by
  have hchanged : statusChanged c.scheme (beh.prepared s)
      { beh.prepared s with status := beh.computedStatus s } = .ok false := by
    rw [hrep.statusChanged_eq]
    exact congrArg Except.ok (decide_eq_false (not_not.mpr hsame))
  rw [reconcile_operates hrep h hlive hfinalizer]
  simp only [CompositeReconciler.patchChanged, hchanged]
  exact ⟨rfl, rfl⟩

theorem reconcile_changed (h : hasConditions (represent s.stored.status))
    (hlive : s.stored.deletionTimestamp = none) (hfinalizer : FinalizerSet c s.stored)
    (hdiff : represent s.stored.status ≠ represent (beh.computedStatus s)) :
    (beh.reconcile c s).1.any isWrite = true ∧
      (beh.reconcile c s).2.2 = ⟨{ s.stored with
        status := beh.computedStatus s, resourceVersion := s.stored.resourceVersion + 1 },
        beh.operate s.work (beh.prepared s)⟩ := by
  have hchanged : statusChanged c.scheme (beh.prepared s)
      { beh.prepared s with status := beh.computedStatus s } = .ok true := by
    rw [hrep.statusChanged_eq]
    exact congrArg Except.ok (decide_eq_true hdiff)
  rw [reconcile_operates hrep h hlive hfinalizer]
  simp only [CompositeReconciler.patchChanged, hchanged]
  exact ⟨rfl, rfl⟩

end Phases

/-! ## Coming to rest -/

/-- A state in which a call of `Reconcile` has nothing to write. -/
structure Settled (c : CompositeReconciler Spec Status Err) (represent : Status → Fields)
    (s : Cluster Spec Status Work) : Prop where
  conditions : hasConditions (represent s.stored.status)
  live : s.stored.deletionTimestamp = none
  finalizer : FinalizerSet c s.stored
  status_eq : represent s.stored.status = represent (beh.computedStatus s)

variable {beh c} {represent : Status → Fields} {s : Cluster Spec Status Work}

theorem Settled.next (hrep : Represents c.scheme represent) (hlaw : beh.Lawful represent)
    (h : beh.Settled c represent s) :
    beh.Settled c represent (beh.reconcile c s).2.2 ∧
      (beh.reconcile c s).2.2.stored = s.stored := by
  obtain ⟨-, hnext⟩ := reconcile_unchanged hrep h.conditions h.live h.finalizer h.status_eq
  rw [hnext]
  refine ⟨⟨h.conditions, h.live, h.finalizer, ?_⟩, rfl⟩
  calc represent s.stored.status = represent (beh.computedStatus s) := h.status_eq
    _ = represent (beh.updateStatus (beh.operate (beh.operate s.work (beh.prepared s))
        (beh.prepared s)) (beh.prepared s)) := by rw [hlaw.operate_idem]; rfl

/-- Writing the computed status changes nothing about it. -/
theorem computedStatus_written (hlaw : beh.Lawful represent) (hunaffected : beh.Unaffected)
    (s : Cluster Spec Status Work) (version : ℕ) :
    beh.computedStatus ⟨{ s.stored with
        status := beh.computedStatus s, resourceVersion := version },
      beh.operate s.work (beh.prepared s)⟩ = beh.computedStatus s := by
  let work := beh.operate s.work (beh.prepared s)
  let written : TargetObject Spec Status :=
    { beh.prepared s with status := beh.computedStatus s, resourceVersion := version }
  have hprepared : beh.prepared ⟨{ s.stored with
      status := beh.computedStatus s, resourceVersion := version }, work⟩ = written := by
    simp only [prepared, hunaffected.default_eq, written]
  have hwork : beh.operate work written = work :=
    (hunaffected.operate_eq work (beh.prepared s) _ _).trans (hlaw.operate_idem ..)
  calc beh.computedStatus _ = beh.updateStatus (beh.operate work written) written := by
        rw [computedStatus, hprepared]
    _ = beh.updateStatus work written := by rw [hwork]
    _ = beh.updateStatus work { beh.prepared s with status := beh.computedStatus s } :=
        hunaffected.updateStatus_eq work
          { beh.prepared s with status := beh.computedStatus s } version
    _ = beh.computedStatus s := hlaw.updateStatus_idem work (beh.prepared s)

/-- A call on an object that is set up settles it. -/
theorem settled_of_ready (hrep : Represents c.scheme represent) (hlaw : beh.Lawful represent)
    (hunaffected : beh.Unaffected) (hconditions : hasConditions (represent s.stored.status))
    (hlive : s.stored.deletionTimestamp = none) (hfinalizer : FinalizerSet c s.stored) :
    beh.Settled c represent (beh.reconcile c s).2.2 := by
  by_cases hsame : represent s.stored.status = represent (beh.computedStatus s)
  · have hsettled : beh.Settled c represent s := ⟨hconditions, hlive, hfinalizer, hsame⟩
    exact (hsettled.next hrep hlaw).1
  · obtain ⟨-, hnext⟩ := reconcile_changed hrep hconditions hlive hfinalizer hsame
    rw [hnext]
    exact ⟨hlaw.updateStatus_conditions _ _ hconditions, hlive, hfinalizer,
      congrArg represent (computedStatus_written hlaw hunaffected s _).symm⟩

theorem after_succ (s : Cluster Spec Status Work) (n : ℕ) :
    beh.after c s (n + 1) = beh.after c (beh.reconcile c s).2.2 n := by
  induction n with
  | zero => rfl
  | succ n ih => rw [after, ih, after]

section Start

variable (hrep : Represents c.scheme represent) (hlaw : beh.Lawful represent)
  (hunaffected : beh.Unaffected) (hlive : s.stored.deletionTimestamp = none)

include hrep hlaw hunaffected hlive

/-- An object that is initialized gets its finalizer if needed, and is settled. -/
theorem settled_of_initialized (hconditions : hasConditions (represent s.stored.status)) :
    ∃ n ≤ 2, beh.Settled c represent (beh.after c s n) := by
  by_cases hfinalizer : FinalizerSet c s.stored
  · exact ⟨1, by omega, settled_of_ready hrep hlaw hunaffected hconditions hlive hfinalizer⟩
  · obtain ⟨hcleanup, hmissing⟩ := Classical.not_imp.mp hfinalizer
    have hnext : (beh.reconcile c s).2.2 = _ :=
      reconcile_addsFinalizer hrep hconditions hlive hcleanup hmissing
    have hadded : FinalizerSet c (beh.reconcile c s).2.2.stored := fun _ ↦ by
      rw [hnext]
      exact mem_addFinalizer (beh.prepared s) c.finalizerName
    refine ⟨2, by omega, settled_of_ready hrep hlaw hunaffected ?_ ?_ hadded⟩
    · rw [after, after, hnext]
      exact hconditions
    · rw [after, after, hnext]
      exact hlive

theorem exists_settled : ∃ n ≤ 3, beh.Settled c represent (beh.after c s n) := by
  cases hconditions : hasConditions (represent s.stored.status) with
  | true =>
    obtain ⟨n, hn, hsettled⟩ := settled_of_initialized hrep hlaw hunaffected hlive hconditions
    exact ⟨n, by omega, hsettled⟩
  | false =>
    have hnext : (beh.reconcile c s).2.2 = _ := reconcile_uninitialized hrep hconditions
    have hlive' : (beh.reconcile c s).2.2.stored.deletionTimestamp = none := by
      rw [hnext]
      exact hlive
    have hconditions' : hasConditions (represent (beh.reconcile c s).2.2.stored.status) := by
      rw [hnext]
      exact hlaw.initializeObject_conditions ..
    obtain ⟨n, hn, hsettled⟩ := settled_of_initialized hrep hlaw hunaffected hlive' hconditions'
    refine ⟨n + 1, by omega, ?_⟩
    rw [after_succ]
    exact hsettled

end Start

theorem Settled.after (hrep : Represents c.scheme represent) (hlaw : beh.Lawful represent)
    (h : beh.Settled c represent s) (m : ℕ) :
    beh.Settled c represent (beh.after c s m) ∧ (beh.after c s m).stored = s.stored := by
  induction m with
  | zero => exact ⟨h, rfl⟩
  | succ m ih =>
    obtain ⟨hsettled, hstored⟩ := ih.1.next hrep hlaw
    exact ⟨hsettled, hstored.trans ih.2⟩

end Behaviour

/-- **Quiescence.** After at most three calls the stored object stays as it is: every further call
returns an empty result and no error without a write, the object has its finalizer if there is to be
one, and its status is the one that `UpdateStatus` computes. -/
theorem reconcile_settles [ErrorValues Err] {beh : Behaviour Spec Status Work}
    {c : CompositeReconciler Spec Status Err} {represent : Status → Fields}
    (hrep : Represents c.scheme represent) (hlaw : beh.Lawful represent)
    (hunaffected : beh.Unaffected) (s : Cluster Spec Status Work)
    (hlive : s.stored.deletionTimestamp = none) :
    ∃ n ≤ 3, ∀ m, let t := beh.after c (beh.after c s n) m
      (beh.reconcile c t).1.any isWrite = false ∧ (beh.reconcile c t).2.1 = ({}, none) ∧
        t.stored = (beh.after c s n).stored ∧
        (c.cleanupStrategy = .finalizerCleanup → c.finalizerName ∈ t.stored.finalizers) ∧
        represent t.stored.status = represent (beh.computedStatus t) := by
  obtain ⟨n, hn, hsettled⟩ := Behaviour.exists_settled hrep hlaw hunaffected hlive
  refine ⟨n, hn, fun m ↦ ?_⟩
  obtain ⟨hm, hstored⟩ := hsettled.after hrep hlaw m
  obtain ⟨hwrites, hout⟩ :=
    Behaviour.reconcile_unchanged hrep hm.conditions hm.live hm.finalizer hm.status_eq
  exact ⟨hwrites, congrArg Prod.fst hout, hstored, hm.finalizer, hm.status_eq⟩

/-! ## Controllers that read what is written -/

section Feedback

/-- A status with one condition, which is a number. -/
def countFields (count : ℕ) : Fields :=
  .cons "conditions" (.list (.cons (.int64 count) .nil)) .nil

theorem countFields_injective : Function.Injective countFields :=
  fun _ _ h ↦ Int.ofNat.inj (by simpa [countFields] using h)

def countScheme : Scheme (TargetObject ℕ ℕ) GoError where
  convert obj := .ok
    { object := .cons "status" (.map (countFields obj.status)) .nil
      ordered := by
        simp [countFields, Fields.ordered, Value.ordered, Items.ordered, Fields.above] }

theorem represents_countScheme : Represents countScheme countFields :=
  fun _ ↦ ⟨_, rfl, rfl⟩

def countReconciler (cleanupStrat : CleanupStrategy) : CompositeReconciler ℕ ℕ GoError :=
  CompositeReconciler.init { scheme := countScheme }
    [.withName "count-controller", .withCleanupStrategy cleanupStrat]

def countStart : Cluster ℕ ℕ ℕ where
  stored := ⟨[], none, 1, 0, 0⟩
  work := 0

/-- The status says what the operation has done for the spec. -/
def obedient : Behaviour ℕ ℕ ℕ where
  default obj := max obj.spec 1
  initializeObject obj _ := obj.status
  operate _ obj := obj.spec
  updateStatus work _ := work

theorem obedient_settles : ∃ n ≤ 3, ∀ m,
    (obedient.reconcile (countReconciler .finalizerCleanup)
      (obedient.after (countReconciler .finalizerCleanup)
        (obedient.after (countReconciler .finalizerCleanup) countStart n) m)).1.any isWrite =
      false := by
  have hlaw : obedient.Lawful countFields :=
    ⟨fun obj ↦ by simp [obedient], fun _ _ ↦ rfl, fun _ _ ↦ rfl, fun _ _ ↦ rfl, fun _ _ _ ↦ rfl⟩
  have hunaffected : obedient.Unaffected :=
    ⟨fun _ _ _ ↦ rfl, fun _ _ _ _ ↦ rfl, fun _ _ _ ↦ rfl⟩
  obtain ⟨n, hn, hrest⟩ := reconcile_settles (c := countReconciler .finalizerCleanup)
    represents_countScheme hlaw hunaffected countStart rfl
  exact ⟨n, hn, fun m ↦ (hrest m).1⟩

/-- The operation depends on the status, and the status on what the operation has done. -/
def operatesOnStatus : Behaviour ℕ ℕ ℕ where
  default obj := obj.spec
  initializeObject obj _ := obj.status
  operate _ obj := obj.status + 1
  updateStatus work _ := work

/-- The defaults depend on the status, and the status on the defaults. -/
def defaultsOnStatus : Behaviour ℕ ℕ ℕ where
  default obj := obj.status + 1
  initializeObject obj _ := obj.status
  operate work _ := work
  updateStatus _ obj := obj.spec

/-- The status holds the resource version. -/
def reportsVersion : Behaviour ℕ ℕ ℕ where
  default obj := obj.spec
  initializeObject obj _ := obj.status
  operate work _ := work
  updateStatus _ obj := obj.resourceVersion

/-- If the computed status is never the stored one while that differs from the resource version, and
is not the next resource version either, then every call writes. -/
theorem writes_forever {beh : Behaviour ℕ ℕ ℕ}
    (hdiff : ∀ s, s.stored.status ≠ s.stored.resourceVersion →
      s.stored.status ≠ beh.computedStatus s ∧
        beh.computedStatus s ≠ s.stored.resourceVersion + 1) (n : ℕ) :
    (beh.reconcile (countReconciler .ownerReferenceCleanup)
      (beh.after (countReconciler .ownerReferenceCleanup) countStart n)).1.any isWrite = true := by
  let c := countReconciler .ownerReferenceCleanup
  have hcall (s : Cluster ℕ ℕ ℕ) (hlive : s.stored.deletionTimestamp = none)
      (hversion : s.stored.status ≠ s.stored.resourceVersion) :=
    Behaviour.reconcile_changed (c := c) represents_countScheme rfl hlive nofun
      (countFields_injective.ne (hdiff s hversion).1)
  have hinv : (beh.after c countStart n).stored.deletionTimestamp = none ∧
      (beh.after c countStart n).stored.status ≠
        (beh.after c countStart n).stored.resourceVersion := by
    induction n with
    | zero => exact ⟨rfl, Nat.zero_ne_one⟩
    | succ n ih =>
      rw [Behaviour.after, (hcall _ ih.1 ih.2).2]
      exact ⟨ih.1, (hdiff _ ih.2).2⟩
  exact (hcall _ hinv.1 hinv.2).1

/-- The methods of each of these controllers do what they are supposed to do, and yet every call of
`Reconcile` writes. -/
theorem feedback_never_settles : countStart.stored.deletionTimestamp = none ∧
    Represents (countReconciler .ownerReferenceCleanup).scheme countFields ∧
    ∀ beh ∈ [operatesOnStatus, defaultsOnStatus, reportsVersion],
      beh.Lawful countFields ∧
        ∀ n, (beh.reconcile (countReconciler .ownerReferenceCleanup)
          (beh.after (countReconciler .ownerReferenceCleanup) countStart n)).1.any isWrite =
            true := by
  refine ⟨rfl, represents_countScheme, fun beh hbeh ↦ ?_⟩
  simp only [List.mem_cons, List.not_mem_nil, or_false] at hbeh
  have hlaw : beh.Lawful countFields := by
    rcases hbeh with rfl | rfl | rfl <;>
      exact ⟨fun _ ↦ rfl, fun _ _ ↦ rfl, fun _ _ ↦ rfl, fun _ _ ↦ rfl, fun _ _ _ ↦ rfl⟩
  refine ⟨hlaw, writes_forever fun s hversion ↦ ?_⟩
  rcases hbeh with rfl | rfl | rfl
  · change s.stored.status ≠ s.stored.status + 1 ∧ s.stored.status + 1 ≠ _
    omega
  · change s.stored.status ≠ s.stored.status + 1 ∧ s.stored.status + 1 ≠ _
    omega
  · exact ⟨hversion, Nat.ne_of_lt (Nat.lt_succ_self s.stored.resourceVersion)⟩

end Feedback

end OperatorToolkit.Composite
