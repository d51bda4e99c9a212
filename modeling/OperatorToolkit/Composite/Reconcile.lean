import OperatorToolkit.Interaction.Program
import OperatorToolkit.Object.Status

/-!
# The composite reconciler

`Reconcile` of the composite controller reads the target object, defaults, validates and
initializes it, keeps its finalizer, and runs the controller's operation or cleanup; a deferred
function then brings the status up to date. The controller's methods and the API client are the
calls of the signature `reconcileCalls`. A controller method may change the object it is handed, so
its reply carries the object as the method leaves it.
-/

namespace OperatorToolkit.Composite

open Interaction Object

/-- The target object: the metadata that the reconciler looks at, its spec and its status. -/
structure TargetObject (Spec Status : Type) where
  finalizers : List String
  deletionTimestamp : Option ℕ
  resourceVersion : ℕ
  spec : Spec
  status : Status
  deriving DecidableEq, Repr

/-- `metav1.Condition`. -/
structure Condition where
  type : String := ""
  status : String := ""
  reason : String := ""
  message : String := ""
  deriving DecidableEq, Repr

def defaultInitCondition : Condition where
  type := "Progressing"
  status := "True"
  reason := "Initializing"
  message := "Component initializing"

inductive CleanupStrategy where
  | ownerReferenceCleanup
  | finalizerCleanup
  deriving DecidableEq, Repr

structure CompositeReconciler (Spec Status Err : Type) where
  name : String := ""
  initCondition : Condition := {}
  finalizerName : String := ""
  cleanupStrategy : CleanupStrategy := .ownerReferenceCleanup
  scheme : Scheme (TargetObject Spec Status) Err

/-- The options that set a field the reconciler reads. -/
inductive CompositeReconcilerOption (Spec Status Err : Type) where
  | withName (name : String)
  | withInitCondition (cndn : Condition)
  | withFinalizer (finalizer : String)
  | withCleanupStrategy (cleanupStrat : CleanupStrategy)
  | withScheme (scheme : Scheme (TargetObject Spec Status) Err)

section Init

variable {Spec Status Err : Type}

def CompositeReconcilerOption.apply (c : CompositeReconciler Spec Status Err) :
    CompositeReconcilerOption Spec Status Err → CompositeReconciler Spec Status Err
  | withName name => { c with name := name }
  | withInitCondition cndn => { c with initCondition := cndn }
  | withFinalizer finalizer => { c with finalizerName := finalizer }
  | withCleanupStrategy cleanupStrat => { c with cleanupStrategy := cleanupStrat }
  | withScheme scheme => { c with scheme := scheme }

/-- Defaults first, then the options, then the controller's name for a missing finalizer name. -/
def CompositeReconciler.init (c : CompositeReconciler Spec Status Err)
    (opts : List (CompositeReconcilerOption Spec Status Err)) :
    CompositeReconciler Spec Status Err :=
  let c := { c with
    initCondition := defaultInitCondition, cleanupStrategy := .ownerReferenceCleanup }
  let c := opts.foldl CompositeReconcilerOption.apply c
  if c.finalizerName = "" then { c with finalizerName := c.name } else c

end Init

/-! ## Calls -/

inductive ReconcileRequest (Spec Status : Type) where
  | get
  | default (obj : TargetObject Spec Status)
  | validate (obj : TargetObject Spec Status)
  | initializeObject (obj : TargetObject Spec Status) (cndn : Condition)
  | updateStatus (obj : TargetObject Spec Status)
  | operate (obj : TargetObject Spec Status)
  | cleanup (obj : TargetObject Spec Status)
  | update (obj : TargetObject Spec Status)
  | statusUpdate (obj : TargetObject Spec Status)

def reconcileCalls (Spec Status Err : Type) : Signature where
  Request := ReconcileRequest Spec Status
  Reply
    | .get => GetReply (TargetObject Spec Status) Err
    | .default _ => TargetObject Spec Status
    | .validate _ => TargetObject Spec Status × Option Err
    | .initializeObject _ _ => TargetObject Spec Status × Option Err
    | .updateStatus _ => TargetObject Spec Status × Option Err
    | .operate _ => TargetObject Spec Status × Result × Option Err
    | .cleanup _ => TargetObject Spec Status × Result × Option Err
    | .update _ => Option Err
    | .statusUpdate _ => Option Err

variable {Spec Status Err : Type}

namespace Call

def get : Program (reconcileCalls Spec Status Err) (GetReply (TargetObject Spec Status) Err) :=
  Program.request (S := reconcileCalls Spec Status Err) ReconcileRequest.get

def default (obj : TargetObject Spec Status) :
    Program (reconcileCalls Spec Status Err) (TargetObject Spec Status) :=
  Program.request (S := reconcileCalls Spec Status Err) (.default obj)

def validate (obj : TargetObject Spec Status) :
    Program (reconcileCalls Spec Status Err) (TargetObject Spec Status × Option Err) :=
  Program.request (S := reconcileCalls Spec Status Err) (.validate obj)

def initializeObject (obj : TargetObject Spec Status) (cndn : Condition) :
    Program (reconcileCalls Spec Status Err) (TargetObject Spec Status × Option Err) :=
  Program.request (S := reconcileCalls Spec Status Err) (.initializeObject obj cndn)

def updateStatus (obj : TargetObject Spec Status) :
    Program (reconcileCalls Spec Status Err) (TargetObject Spec Status × Option Err) :=
  Program.request (S := reconcileCalls Spec Status Err) (.updateStatus obj)

def operate (obj : TargetObject Spec Status) :
    Program (reconcileCalls Spec Status Err) (TargetObject Spec Status × Result × Option Err) :=
  Program.request (S := reconcileCalls Spec Status Err) (.operate obj)

def cleanup (obj : TargetObject Spec Status) :
    Program (reconcileCalls Spec Status Err) (TargetObject Spec Status × Result × Option Err) :=
  Program.request (S := reconcileCalls Spec Status Err) (.cleanup obj)

/-- `client.Update`. -/
def update (obj : TargetObject Spec Status) :
    Program (reconcileCalls Spec Status Err) (Option Err) :=
  Program.request (S := reconcileCalls Spec Status Err) (.update obj)

/-- `client.Status().Update`. -/
def statusUpdate (obj : TargetObject Spec Status) :
    Program (reconcileCalls Spec Status Err) (Option Err) :=
  Program.request (S := reconcileCalls Spec Status Err) (.statusUpdate obj)

end Call

/-! ## Finalizers -/

/-- `controllerutil.AddFinalizer`. -/
def addFinalizer (obj : TargetObject Spec Status) (finalizer : String) :
    TargetObject Spec Status :=
  if finalizer ∈ obj.finalizers then obj
  else { obj with finalizers := obj.finalizers ++ [finalizer] }

/-- `controllerutil.RemoveFinalizer`. -/
def removeFinalizer (obj : TargetObject Spec Status) (finalizer : String) :
    TargetObject Spec Status :=
  { obj with finalizers := obj.finalizers.filter (· ≠ finalizer) }

theorem mem_addFinalizer (obj : TargetObject Spec Status) (finalizer : String) :
    finalizer ∈ (addFinalizer obj finalizer).finalizers := by
  unfold addFinalizer
  split
  · assumption
  · simp

/-! ## Reconcile -/

/-- The results of `cleanupHandler`, with the object as it leaves it. -/
structure Handled (Spec Status Err : Type) where
  obj : TargetObject Spec Status
  delEnabled : Bool := false
  updated : Bool := false
  result : Result := {}
  reterr : Option Err := none

namespace CompositeReconciler

variable (c : CompositeReconciler Spec Status Err)

/-- Adds the finalizer to an object that is not being deleted; otherwise runs the cleanup and, if
it succeeds, removes the finalizer. The errors of both updates are only logged. -/
def cleanupHandler (obj : TargetObject Spec Status) :
    Program (reconcileCalls Spec Status Err) (Handled Spec Status Err) :=
  if obj.deletionTimestamp.isNone then
    if c.finalizerName ∉ obj.finalizers then do
      let obj := addFinalizer obj c.finalizerName
      let _updateErr ← Call.update obj
      return { obj := obj, updated := true }
    else
      return { obj := obj }
  else
    if c.finalizerName ∈ obj.finalizers then do
      let (obj, result, reterr) ← Call.cleanup obj
      if reterr.isSome then
        return { obj := obj, delEnabled := true, result := result, reterr := reterr }
      else
        let obj := removeFinalizer obj c.finalizerName
        let _updateErr ← Call.update obj
        return { obj := obj, delEnabled := true, updated := true, result := result }
    else
      return { obj := obj, delEnabled := true }

variable [ErrorValues Err]

/-- The comparison of the statuses and the status update in the deferred function. -/
def patchChanged (oldInstance inst : TargetObject Spec Status) (result : Result)
    (reterr : Option Err) : Program (reconcileCalls Spec Status Err) (Result × Option Err) :=
  match statusChanged c.scheme oldInstance inst with
  | .error statusChngErr =>
    return (result, newAggregate
      [reterr, some (errorf ("error while checking for changed status: " ++
        message statusChngErr))])
  | .ok false => return (result, reterr)
  | .ok true => do
    let statusErr ← Call.statusUpdate inst
    match statusErr with
    | none => return (result, reterr)
    | some statusErr =>
      return (result, newAggregate
        [reterr, some (errorf ("error while patching status: " ++ message statusErr))])

/-- The deferred function, run on the results of the body. -/
def patchStatus (oldInstance inst : TargetObject Spec Status) (result : Result)
    (reterr : Option Err) : Program (reconcileCalls Spec Status Err) (Result × Option Err) := do
  let (inst, updateErr) ← Call.updateStatus inst
  match updateErr with
  | some updateErr =>
    return ({ requeue := true }, newAggregate
      [reterr, some (errorf ("error while updating status: " ++ message updateErr))])
  | none => c.patchChanged oldInstance inst result reterr

/-- The operation, followed by the deferred status update. -/
def runOperate (oldInstance inst : TargetObject Spec Status) :
    Program (reconcileCalls Spec Status Err) (Result × Option Err) := do
  let (inst, result, reterr) ← Call.operate inst
  c.patchStatus oldInstance inst result reterr

/-- The part of `Reconcile` after the object is known to be initialized: a return from here runs
the deferred function unless the finalizers were updated. -/
def reconcileInitialized (inst : TargetObject Spec Status) :
    Program (reconcileCalls Spec Status Err) (Result × Option Err) :=
  let oldInstance := inst
  if c.cleanupStrategy = .finalizerCleanup then do
    let handled ← c.cleanupHandler inst
    if handled.updated then
      return (handled.result, handled.reterr)
    else if handled.delEnabled || handled.reterr.isSome then
      c.patchStatus oldInstance handled.obj handled.result handled.reterr
    else
      c.runOperate oldInstance handled.obj
  else
    c.runOperate oldInstance inst

/-- Sets the initial condition and asks for another reconciliation. -/
def runInitialize (inst : TargetObject Spec Status) :
    Program (reconcileCalls Spec Status Err) (Result × Option Err) := do
  let (inst, initErr) ← Call.initializeObject inst c.initCondition
  if initErr.isSome then
    return ({}, initErr)
  else
    let _updateErr ← Call.statusUpdate inst
    return ({ requeue := true }, none)

/-- The part of `Reconcile` after the object was found valid. -/
def reconcileValid (inst : TargetObject Spec Status) :
    Program (reconcileCalls Spec Status Err) (Result × Option Err) :=
  match isInitialized c.scheme inst with
  | .error initErr => return ({}, some initErr)
  | .ok false => c.runInitialize inst
  | .ok true => c.reconcileInitialized inst

/-- The part of `Reconcile` after the object was read. -/
def reconcileFound (inst : TargetObject Spec Status) :
    Program (reconcileCalls Spec Status Err) (Result × Option Err) := do
  let inst ← Call.default inst
  let (inst, valErr) ← Call.validate inst
  if valErr.isSome then
    return ({}, valErr)
  else
    c.reconcileValid inst

def reconcile : Program (reconcileCalls Spec Status Err) (Result × Option Err) := do
  match ← Call.get with
  | .notFound => return ({}, none)
  | .failed getErr => return ({}, some getErr)
  | .found inst => c.reconcileFound inst

end CompositeReconciler

/-! ## An example reconciler -/

/-- The status of an object whose conditions are given by their types. -/
def conditionFields : List String → Fields
  | [] => .nil
  | types => .cons "conditions" (.list (types.foldr (fun text ↦ .cons (.string text)) .nil)) .nil

theorem conditionItems_ordered (types : List String) :
    Items.ordered (types.foldr (fun text ↦ .cons (.string text)) .nil) = true := by
  induction types with
  | nil => simp [Items.ordered]
  | cons text rest ih => simpa [Items.ordered, Value.ordered] using ih

/-- A scheme for objects whose status holds nothing but conditions. -/
def conditionScheme : Scheme (TargetObject Unit (List String)) GoError where
  convert obj := .ok
    { object := .cons "status" (.map (conditionFields obj.status)) .nil
      ordered := by
        cases hstatus : obj.status with
        | nil => simp [conditionFields, Fields.ordered, Value.ordered, Fields.above]
        | cons text rest =>
          have hitems := conditionItems_ordered (text :: rest)
          simpa [conditionFields, Fields.ordered, Value.ordered, Fields.above] using hitems }

def webappReconciler : CompositeReconciler Unit (List String) GoError :=
  CompositeReconciler.init { scheme := conditionScheme }
    [.withName "webapp-controller", .withCleanupStrategy .finalizerCleanup]

/-- An object that the reconciler has set up. -/
def webapp : TargetObject Unit (List String) where
  finalizers := ["webapp-controller"]
  deletionTimestamp := none
  resourceVersion := 1
  spec := ()
  status := ["Progressing"]

/-- The same object, marked for deletion. -/
def deletedWebapp : TargetObject Unit (List String) :=
  { webapp with deletionTimestamp := some 0, resourceVersion := 2 }

end OperatorToolkit.Composite
