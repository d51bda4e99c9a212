import OperatorToolkit.Composite.Reconcile
import OperatorToolkit.Interaction.Serial

/-!
# The world of a composite reconciler

One API object, reconciled again and again, never twice at a time. Writes to the API fail at will,
with or without having taken effect, and never take effect when they are made from an outdated
read. The API server removes an object that is marked for deletion as soon as its list of
finalizers is empty. A user may delete the object at any moment, and other parties may change
everything but the reconciler's own finalizer. What the controller's methods do is left open, up to
the object's finalizers and deletion timestamp, which they do not touch.
-/

namespace OperatorToolkit.Composite

open Interaction

variable {Spec Status Err Work : Type}

/-- The metadata that a controller method must not touch. -/
structure SameMetadata (obj obj' : TargetObject Spec Status) : Prop where
  finalizers : obj'.finalizers = obj.finalizers
  deletionTimestamp : obj'.deletionTimestamp = obj.deletionTimestamp

theorem SameMetadata.trans {obj obj' obj'' : TargetObject Spec Status} (h : SameMetadata obj obj')
    (h' : SameMetadata obj' obj'') : SameMetadata obj obj'' :=
  ⟨h'.finalizers.trans h.finalizers, h'.deletionTimestamp.trans h.deletionTimestamp⟩

def KeepsMetadata : (reconcileCalls Spec Status Err).Call → Prop
  | ⟨.default obj, reply⟩ => SameMetadata obj reply
  | ⟨.validate obj, reply⟩ => SameMetadata obj (Prod.fst reply)
  | ⟨.initializeObject obj _, reply⟩ => SameMetadata obj (Prod.fst reply)
  | ⟨.updateStatus obj, reply⟩ => SameMetadata obj (Prod.fst reply)
  | ⟨.operate obj, reply⟩ => SameMetadata obj (Prod.fst reply)
  | ⟨.cleanup obj, reply⟩ => SameMetadata obj (Prod.fst reply)
  | ⟨.get, _⟩ | ⟨.update _, _⟩ | ⟨.statusUpdate _, _⟩ => True

/-- What the methods of a controller may reply, and the work that they do meanwhile. -/
structure Controller (Spec Status Err Work : Type) where
  Behaves : (reconcileCalls Spec Status Err).Call → Work → Prop
  keeps : ∀ {call work}, Behaves call work → KeepsMetadata call

def ReconcileRequest.isMethod : ReconcileRequest Spec Status → Bool
  | .get | .update _ | .statusUpdate _ => false
  | _ => true

def ReconcileRequest.isOperate : ReconcileRequest Spec Status → Bool
  | .operate _ => true
  | _ => false

/-- What happened: the object was read, a controller method was called and replied, one was called
and never replied, or the object was marked for deletion. -/
inductive Entry (Spec Status Err Work : Type) where
  | read (obj : TargetObject Spec Status)
  | called (call : (reconcileCalls Spec Status Err).Call) (work : Work)
  | interrupted (request : ReconcileRequest Spec Status)
  | marked

/-- A call of `Operate`, whether it replied or not. -/
def Entry.isOperate : Entry Spec Status Err Work → Bool
  | .called call _ => ReconcileRequest.isOperate call.1
  | .interrupted request => request.isOperate
  | _ => false

/-- A cleanup that returned a nil error. -/
def Entry.isCleaned : Entry Spec Status Err Work → Bool
  | .called ⟨.cleanup _, reply⟩ _ => (Prod.snd reply).2.isNone
  | _ => false

/-- The object in the API, and what happened so far, latest first. -/
structure World (Spec Status Err Work : Type) where
  stored : Option (TargetObject Spec Status)
  history : List (Entry Spec Status Err Work)

namespace World

def record (s : World Spec Status Err Work) (entry : Entry Spec Status Err Work) :
    World Spec Status Err Work :=
  { s with history := entry :: s.history }

/-- The API server stores the object, unless nothing keeps it from being deleted. -/
def store (s : World Spec Status Err Work) (obj : TargetObject Spec Status) :
    World Spec Status Err Work :=
  { s with stored := if obj.deletionTimestamp.isSome ∧ obj.finalizers = [] then none else some obj }

/-- A new object, or one that a user deleted before it was ever reconciled. -/
def Initial (s : World Spec Status Err Work) : Prop :=
  ∃ obj, s.stored = some obj ∧
    s.history = if obj.deletionTimestamp.isSome then [.marked] else []

end World

/-- The object as an accepted `Update` leaves it. -/
def TargetObject.updated (old obj : TargetObject Spec Status) : TargetObject Spec Status :=
  { old with finalizers := obj.finalizers, spec := obj.spec,
             resourceVersion := old.resourceVersion + 1 }

/-- The object as an accepted `Status().Update` leaves it. -/
def TargetObject.statusUpdated (old obj : TargetObject Spec Status) : TargetObject Spec Status :=
  { old with status := obj.status, resourceVersion := old.resourceVersion + 1 }

/-- How the calls of `Reconcile` are answered. -/
inductive Answers (ctrl : Controller Spec Status Err Work) :
    World Spec Status Err Work → (request : ReconcileRequest Spec Status) →
      (reconcileCalls Spec Status Err).Reply request → World Spec Status Err Work → Prop where
  | found {s obj} : s.stored = some obj →
      Answers ctrl s .get (GetReply.found obj) (s.record (.read obj))
  | notFound {s} : s.stored = none → Answers ctrl s .get GetReply.notFound s
  | getFailed {s err} : Answers ctrl s .get (GetReply.failed err) s
  | updated {s old obj} {reply : Option Err} : s.stored = some old →
      old.resourceVersion = obj.resourceVersion →
      Answers ctrl s (.update obj) reply (s.store (old.updated obj))
  | updateFailed {s obj} {err : Err} : Answers ctrl s (.update obj) (some err) s
  | statusUpdated {s old obj} {reply : Option Err} : s.stored = some old →
      old.resourceVersion = obj.resourceVersion →
      Answers ctrl s (.statusUpdate obj) reply (s.store (old.statusUpdated obj))
  | statusUpdateFailed {s obj} {err : Err} : Answers ctrl s (.statusUpdate obj) (some err) s
  | method {s request reply work} : request.isMethod → ctrl.Behaves ⟨request, reply⟩ work →
      Answers ctrl s request reply (s.record (.called ⟨request, reply⟩ work))

/-- A reconciliation that is abandoned may have called a method before. -/
inductive Interrupts :
    World Spec Status Err Work → ReconcileRequest Spec Status → World Spec Status Err Work →
      Prop where
  | method {s request} : request.isMethod → Interrupts s request (s.record (.interrupted request))

/-- What the user and other parties can do. -/
inductive Interferes (finalizer : String) :
    World Spec Status Err Work → World Spec Status Err Work → Prop where
  | deleted {s obj} (time : ℕ) : s.stored = some obj → obj.deletionTimestamp = none →
      Interferes finalizer s ((s.store { obj with
        deletionTimestamp := some time,
        resourceVersion := obj.resourceVersion + 1 }).record .marked)
  | changed {s} {obj obj' : TargetObject Spec Status} : s.stored = some obj →
      (finalizer ∈ obj'.finalizers ↔ finalizer ∈ obj.finalizers) →
      obj'.deletionTimestamp = obj.deletionTimestamp →
      Interferes finalizer s (s.store { obj' with resourceVersion := obj.resourceVersion + 1 })

def service (ctrl : Controller Spec Status Err Work) (finalizer : String) :
    Service (reconcileCalls Spec Status Err) (World Spec Status Err Work) where
  Handles := Answers ctrl
  Breaks := Interrupts
  Rely := Interferes finalizer

/-- The configurations that any number of serialised reconciliations pass through. -/
def Reconciling [ErrorValues Err] (c : CompositeReconciler Spec Status Err)
    (ctrl : Controller Spec Status Err Work)
    (cfg : Config (reconcileCalls Spec Status Err) (Result × Option Err)
      (World Spec Status Err Work)) : Prop :=
  SerialReachable (service ctrl c.finalizerName) c.reconcile World.Initial cfg

end OperatorToolkit.Composite
