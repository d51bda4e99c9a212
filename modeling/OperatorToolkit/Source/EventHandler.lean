import Mathlib.Data.Int.Notation
import OperatorToolkit.Object.Names

/-!
# Event handlers of the sources

`EventHandler` of package `source/internal` is what a `Kind` source registers with an informer. It
takes the object out of what the informer hands over, asks the predicates, and calls the handler of
the controller, which adds keys to the queue. A predicate or a handler only looks at its event here.
The keys that are added to the queue are the result.

`FinalizerChangedPredicate` is meant to be used together with the `GenerationChangedPredicate` of
controller-runtime: an update passes if either of them notices a change.
-/

namespace OperatorToolkit.Source

open Object

/-- An object with the metadata that the predicates read; `none` is a nil slice of finalizers. -/
structure WatchedObject (Content : Type) extends NamedObject Content where
  generation : ℤ
  finalizers : Option (List String)
  deriving DecidableEq, Repr

variable {Content : Type}

/-- `event.CreateEvent`; `none` is a nil object, here and below. -/
structure CreateEvent (Content : Type) where
  object : Option (WatchedObject Content)

structure UpdateEvent (Content : Type) where
  objectOld : Option (WatchedObject Content)
  objectNew : Option (WatchedObject Content)

structure DeleteEvent (Content : Type) where
  object : Option (WatchedObject Content)

/-! ## Predicates -/

/-- `predicate.Predicate`, without generic events: an informer has none. -/
structure Predicate (Content : Type) where
  create : CreateEvent Content → Bool
  update : UpdateEvent Content → Bool
  delete : DeleteEvent Content → Bool

namespace Predicate

/-- `predicate.Funcs` with no function set. -/
def funcs : Predicate Content where
  create _ := true
  update _ := true
  delete _ := true

end Predicate

/-- What is used of the predicates of controller-runtime: `predicate.Or`, which passes what one of
its predicates passes, and `predicate.GenerationChangedPredicate`, which passes an update that
changes the generation. -/
structure PredicateLib (Content : Type) where
  or : List (Predicate Content) → Predicate Content
  generationChanged : Predicate Content
  or_create : ∀ predicates e, (or predicates).create e = predicates.any (·.create e)
  or_update : ∀ predicates e, (or predicates).update e = predicates.any (·.update e)
  or_delete : ∀ predicates e, (or predicates).delete e = predicates.any (·.delete e)
  generationChanged_update : ∀ old new,
    generationChanged.update ⟨some old, some new⟩ = (new.generation != old.generation)

/-- The predicates as controller-runtime has them. -/
def controllerRuntime : PredicateLib Content where
  or predicates :=
    { create := fun e ↦ predicates.any (·.create e)
      update := fun e ↦ predicates.any (·.update e)
      delete := fun e ↦ predicates.any (·.delete e) }
  generationChanged :=
    { Predicate.funcs with
      update := fun e ↦
        match e.objectOld, e.objectNew with
        | none, _ => false
        | some _, none => false
        | some old, some new => new.generation != old.generation }
  or_create _ _ := rfl
  or_update _ _ := rfl
  or_delete _ _ := rfl
  generationChanged_update _ _ := rfl

/-- `FinalizerChangedPredicate`; `reflect.DeepEqual` distinguishes a nil slice from an empty one. -/
def finalizerChangedPredicate : Predicate Content where
  __ := Predicate.funcs
  update e :=
    match e.objectOld, e.objectNew with
    | none, _ => false
    | some _, none => false
    | some old, some new => !(new.finalizers == old.finalizers)

/-- What `FinalizerChangedPredicate` is documented to be used as. -/
def generationOrFinalizerChanged (lib : PredicateLib Content) : Predicate Content :=
  lib.or [lib.generationChanged, finalizerChangedPredicate]

/-! ## Handlers -/

/-- `handler.EventHandler`: the keys that it adds to the queue, in their order. -/
structure Handler (Content : Type) where
  create : CreateEvent Content → List NamespacedName
  update : UpdateEvent Content → List NamespacedName
  delete : DeleteEvent Content → List NamespacedName

/-- A handler that adds the key of the object of an event, and possibly others. -/
structure Handler.EnqueuesObject (handler : Handler Content) : Prop where
  create : ∀ obj, obj.namespacedName ∈ handler.create ⟨some obj⟩
  update : ∀ old new, new.namespacedName ∈ handler.update ⟨some old, some new⟩
  delete : ∀ obj, obj.namespacedName ∈ handler.delete ⟨some obj⟩

/-- `handler.EnqueueRequestForObject` of controller-runtime. -/
def enqueueRequestForObject : Handler Content where
  create e := (e.object.map (·.namespacedName)).toList
  update e := (e.objectOld.map (·.namespacedName)).toList ++
    (e.objectNew.map (·.namespacedName)).toList
  delete e := (e.object.map (·.namespacedName)).toList

theorem enqueueRequestForObject_enqueuesObject :
    (enqueueRequestForObject : Handler Content).EnqueuesObject where
  create := by simp [enqueueRequestForObject]
  update := by simp [enqueueRequestForObject]
  delete := by simp [enqueueRequestForObject]

/-! ## The event handler -/

/-- A value that an informer hands over. -/
inductive Handed (Content : Type) where
  /-- A `client.Object`. -/
  | object (obj : WatchedObject Content)
  /-- A `cache.DeletedFinalStateUnknown`; its `Obj` may be of any type. -/
  | tombstone (obj : Option (WatchedObject Content))
  | other

/-- The type assertion `obj.(client.Object)`. -/
def Handed.object? : Handed Content → Option (WatchedObject Content)
  | .object obj => some obj
  | .tombstone _ | .other => none

structure EventHandler (Content : Type) where
  eventHandler : Handler Content
  predicates : List (Predicate Content)

namespace EventHandler

variable (e : EventHandler Content)

/-- `OnAdd`. -/
def onAdd (obj : Handed Content) : List NamespacedName :=
  match obj.object? with
  | none => []
  | some o =>
    let c : CreateEvent Content := ⟨some o⟩
    if e.predicates.all (·.create c) then e.eventHandler.create c else []

/-- `OnUpdate`. -/
def onUpdate (oldObj newObj : Handed Content) : List NamespacedName :=
  match oldObj.object?, newObj.object? with
  | none, _ => []
  | some _, none => []
  | some old, some new =>
    let u : UpdateEvent Content := ⟨some old, some new⟩
    if e.predicates.all (·.update u) then e.eventHandler.update u else []

/-- The object of a deletion: the one in the tombstone if what is handed over is none. -/
def deletedObject? : Handed Content → Option (WatchedObject Content)
  | .object obj => some obj
  | .tombstone obj => obj
  | .other => none

/-- `OnDelete`. -/
def onDelete (obj : Handed Content) : List NamespacedName :=
  match deletedObject? obj with
  | none => []
  | some o =>
    let d : DeleteEvent Content := ⟨some o⟩
    if e.predicates.all (·.delete d) then e.eventHandler.delete d else []

end EventHandler

/-- A notification of an informer. -/
inductive Notification (Content : Type) where
  | add (obj : Handed Content)
  | update (oldObj newObj : Handed Content)
  | delete (obj : Handed Content)

/-- The keys that the queue gets for a notification. -/
def EventHandler.handle (e : EventHandler Content) : Notification Content → List NamespacedName
  | .add obj => e.onAdd obj
  | .update oldObj newObj => e.onUpdate oldObj newObj
  | .delete obj => e.onDelete obj

end OperatorToolkit.Source
