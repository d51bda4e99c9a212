import OperatorToolkit.Interaction.Program
import OperatorToolkit.Object.Names

/-!
# Syncing objects to an external system

`Reconcile` of the sync controller ensures or deletes the external object of one k8s object, after a
single read. `collectGarbage` of the external-object-sync controller lists both systems, k8s
first, and deletes the external objects without a k8s object. Both are programs over the calls of
the API client and of the controller.
-/

namespace OperatorToolkit.Sync

open Interaction Object

/-- The fields of the sync reconcilers that are read here. -/
structure Reconciler (Content Err : Type) where
  prototype : NamedObject Content
  apiMeta : ApiMeta Content Err

/-- The prototype under the given name, as it is handed to `Delete`. -/
def Reconciler.named {Content Err : Type} (r : Reconciler Content Err) (n : NamespacedName) :
    NamedObject Content :=
  { r.prototype with namespacedName := n }

/-! ## Reconcile -/

inductive SyncRequest (Content : Type) where
  | get (n : NamespacedName)
  | ensure (obj : NamedObject Content)
  | delete (obj : NamedObject Content)

def syncCalls (Content Err : Type) : Signature where
  Request := SyncRequest Content
  Reply
    | .get _ => GetReply (NamedObject Content) Err
    | .ensure _ => Option Err
    | .delete _ => Option Err

variable {Content Err : Type}

namespace Call

def get (n : NamespacedName) :
    Program (syncCalls Content Err) (GetReply (NamedObject Content) Err) :=
  Program.request (S := syncCalls Content Err) (.get n)

def ensure (obj : NamedObject Content) : Program (syncCalls Content Err) (Option Err) :=
  Program.request (S := syncCalls Content Err) (.ensure obj)

def delete (obj : NamedObject Content) : Program (syncCalls Content Err) (Option Err) :=
  Program.request (S := syncCalls Content Err) (.delete obj)

end Call

/-- What a failed call to the external system makes of the result. -/
def syncResult [ErrorValues Err] (text : String) : Option Err → Result × Option Err
  | none => ({}, none)
  | some err => ({ requeue := true }, some (wrap text err))

def Reconciler.reconcile [ErrorValues Err] (r : Reconciler Content Err) (req : NamespacedName) :
    Program (syncCalls Content Err) (Result × Option Err) := do
  match ← Call.get req with
  | .notFound =>
    let delErr ← Call.delete (r.named req)
    return syncResult ("failed to delete " ++ req.format ++ " from external system") delErr
  | .failed getErr => return ({}, some getErr)
  | .found obj =>
    let ensureErr ← Call.ensure obj
    return syncResult ("failed to ensure " ++ req.format ++ " in the external system") ensureErr

/-! ## Garbage collection -/

inductive CollectorRequest (Content : Type) where
  | list
  | listExternal
  | delete (obj : NamedObject Content)

def collectorCalls (Content Err : Type) : Signature where
  Request := CollectorRequest Content
  Reply
    | .list => Except Err (List (NamedObject Content))
    | .listExternal => Except Err (List NamespacedName)
    | .delete _ => Option Err

namespace Call

/-- `client.List` of the prototype's kind. -/
def list : Program (collectorCalls Content Err) (Except Err (List (NamedObject Content))) :=
  Program.request (S := collectorCalls Content Err) CollectorRequest.list

/-- `Controller.List`. -/
def listExternal : Program (collectorCalls Content Err) (Except Err (List NamespacedName)) :=
  Program.request (S := collectorCalls Content Err) CollectorRequest.listExternal

def collect (obj : NamedObject Content) : Program (collectorCalls Content Err) (Option Err) :=
  Program.request (S := collectorCalls Content Err) (.delete obj)

end Call

namespace Reconciler

variable (r : Reconciler Content Err)

/-- The loop over the orphans; a failed deletion is logged. -/
def deleteAll : List NamespacedName → Program (collectorCalls Content Err) Unit
  | [] => return ()
  | obj :: delObjs => do
    let _err ← Call.collect (r.named obj)
    deleteAll delObjs

/-- The part of `collectGarbage` after the k8s objects are known. -/
def collectUnlisted (kObjList : List NamespacedName) :
    Program (collectorCalls Content Err) Unit := do
  match ← Call.listExternal with
  | .error _ => return ()
  | .ok extObjList => r.deleteAll (namespacedNamesDiff extObjList kObjList)

variable [ErrorValues Err]

/-- The part of `collectGarbage` after the k8s objects were listed. -/
def collectListed (instances : List (NamedObject Content)) :
    Program (collectorCalls Content Err) Unit :=
  match namespacedNames r.apiMeta instances with
  | .error _ => return ()
  | .ok kObjList => r.collectUnlisted kObjList

/-- Every failure of a listing is logged and ends the collection. -/
def collectGarbage : Program (collectorCalls Content Err) Unit := do
  match ← Call.list with
  | .error _ => return ()
  | .ok instances => r.collectListed instances

end Reconciler

/-! ## An example reconciler -/

/-- Accessors that never fail. -/
def plainMeta : ApiMeta Unit GoError where
  extractList instances := .ok instances
  accessor obj := .ok obj.namespacedName
  formatList instances := " ".intercalate (instances.map (·.namespacedName.format))
  formatObject obj := obj.namespacedName.format
  extractList_ok h := by
    cases h
    rfl
  accessor_ok h := by
    cases h
    rfl

def gameReconciler : Reconciler Unit GoError where
  prototype := ⟨⟨"", ""⟩, ()⟩
  apiMeta := plainMeta

def game : NamedObject Unit := ⟨⟨"test-ns", "test-game"⟩, ()⟩

end OperatorToolkit.Sync
