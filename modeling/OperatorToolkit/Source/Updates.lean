import OperatorToolkit.Queueing.Delivery
import OperatorToolkit.Source.EventHandler

/-!
# Updates that lead to a reconciliation

Between a change of an object and the reconciliation of its key lie the store of the informer, the
buffer of its notifications, the event handler with its predicates, the queue, and the workers. With
the predicate that `FinalizerChangedPredicate` is documented for, no change of the existence, the
generation or the finalizers of an object gets lost there, in whatever order these parts run.
-/

namespace OperatorToolkit.Source

open Object Queueing Relation

variable {Content : Type}

/-- What the informer knows of the objects. -/
abbrev Store (Content : Type) := NamespacedName → Option (WatchedObject Content)

/-- A change of the store of an informer, with the notifications that go to the handlers. An update
also comes from a resync or a new listing; an object that is missing from a new listing is handed
over in a tombstone. -/
inductive InformerChange : Store Content → List (Notification Content) → Store Content → Prop where
  | added {store : Store Content} {obj : WatchedObject Content} :
      store obj.namespacedName = none →
      InformerChange store [.add (.object obj)]
        (Function.update store obj.namespacedName (some obj))
  | updated {store : Store Content} {old new : WatchedObject Content} :
      store new.namespacedName = some old →
      InformerChange store [.update (.object old) (.object new)]
        (Function.update store new.namespacedName (some new))
  | deleted {store : Store Content} (last : WatchedObject Content) :
      InformerChange store [.delete (.object last)]
        (Function.update store last.namespacedName none)
  | missing {store : Store Content} {known : WatchedObject Content} :
      store known.namespacedName = some known →
      InformerChange store [.delete (.tombstone (some known))]
        (Function.update store known.namespacedName none)

/-- What a reconciliation is to react to: existence, generation and finalizers. -/
def version (store : Store Content) (k : NamespacedName) : Option (ℤ × Option (List String)) :=
  (store k).map fun obj ↦ (obj.generation, obj.finalizers)

/-- Only the object that is written has another version. -/
theorem eq_of_version_update_ne {store : Store Content} {j k : NamespacedName}
    {written : Option (WatchedObject Content)}
    (h : version (Function.update store j written) k ≠ version store k) : k = j := by
  by_contra hne
  exact h (congrArg (Option.map _) (Function.update_of_ne hne written store))

section Predicates

variable (lib : PredicateLib Content)

theorem generationOrFinalizerChanged_create (e : CreateEvent Content) :
    (generationOrFinalizerChanged lib).create e = true := by
  simp [generationOrFinalizerChanged, lib.or_create, finalizerChangedPredicate, Predicate.funcs]

theorem generationOrFinalizerChanged_delete (e : DeleteEvent Content) :
    (generationOrFinalizerChanged lib).delete e = true := by
  simp [generationOrFinalizerChanged, lib.or_delete, finalizerChangedPredicate, Predicate.funcs]

theorem generationOrFinalizerChanged_update {old new : WatchedObject Content} :
    (generationOrFinalizerChanged lib).update ⟨some old, some new⟩ = true ↔
      (new.generation, new.finalizers) ≠ (old.generation, old.finalizers) := by
  simp [generationOrFinalizerChanged, lib.or_update, lib.generationChanged_update,
    finalizerChangedPredicate, imp_iff_not_or]

end Predicates

/-- The event handler that a source registers for a controller. -/
def EventHandler.ofHandler (lib : PredicateLib Content) (handler : Handler Content) :
    EventHandler Content :=
  ⟨handler, [generationOrFinalizerChanged lib]⟩

section Handled

variable (lib : PredicateLib Content) {handler : Handler Content} (h : handler.EnqueuesObject)

include h

theorem mem_handle_add (obj : WatchedObject Content) :
    obj.namespacedName ∈ (EventHandler.ofHandler lib handler).handle (.add (.object obj)) := by
  simpa [EventHandler.handle, EventHandler.onAdd, EventHandler.ofHandler, Handed.object?,
    generationOrFinalizerChanged_create] using h.create obj

theorem mem_handle_update {old new : WatchedObject Content}
    (hchanged : (new.generation, new.finalizers) ≠ (old.generation, old.finalizers)) :
    new.namespacedName ∈
      (EventHandler.ofHandler lib handler).handle (.update (.object old) (.object new)) := by
  have hpasses := (generationOrFinalizerChanged_update lib).mpr hchanged
  simpa [EventHandler.handle, EventHandler.onUpdate, EventHandler.ofHandler, Handed.object?,
    hpasses] using h.update old new

theorem mem_handle_delete {handed : Handed Content} {obj : WatchedObject Content}
    (hobj : EventHandler.deletedObject? handed = some obj) :
    obj.namespacedName ∈ (EventHandler.ofHandler lib handler).handle (.delete handed) := by
  simpa [EventHandler.handle, EventHandler.onDelete, hobj, EventHandler.ofHandler,
    generationOrFinalizerChanged_delete] using h.delete obj

/-- A change of the version of an object is noticed. -/
theorem InformerChange.noticed {store store' : Store Content} {ns : List (Notification Content)}
    (hchange : InformerChange store ns store') (k : NamespacedName)
    (hk : version store' k ≠ version store k) :
    ∃ n ∈ ns, k ∈ (EventHandler.ofHandler lib handler).handle n := by
  cases hchange with
  | added =>
    obtain rfl := eq_of_version_update_ne hk
    exact ⟨_, List.mem_singleton_self _, mem_handle_add lib h _⟩
  | updated hold =>
    obtain rfl := eq_of_version_update_ne hk
    refine ⟨_, List.mem_singleton_self _, mem_handle_update lib h fun hsame ↦ hk ?_⟩
    rw [version, version, Function.update_self, hold, Option.map_some, Option.map_some, hsame]
  | deleted =>
    obtain rfl := eq_of_version_update_ne hk
    exact ⟨_, List.mem_singleton_self _, mem_handle_delete lib h rfl⟩
  | missing =>
    obtain rfl := eq_of_version_update_ne hk
    exact ⟨_, List.mem_singleton_self _, mem_handle_delete lib h rfl⟩

end Handled

/-- The way of a change to the workers. -/
def delivery (lib : PredicateLib Content) {handler : Handler Content}
    (h : handler.EnqueuesObject) :
    Delivery (Store Content) (Notification Content) NamespacedName
      (Option (ℤ × Option (List String))) where
  change := InformerChange
  handle := (EventHandler.ofHandler lib handler).handle
  view := version
  noticed := InformerChange.noticed lib h

/-- When the source is started, the informer hands over what it has as additions. -/
def started (lib : PredicateLib Content) {handler : Handler Content} (h : handler.EnqueuesObject)
    {Q : KeyQueue NamespacedName} (queue : Q.Queue) (store : Store Content)
    (objs : List (WatchedObject Content)) : (delivery lib h).State Q :=
  ⟨store, objs.map fun obj ↦ .add (.object obj), [], queue, fun _ ↦ none⟩

/-- In every interleaving of the informer, the event handler and the workers: a key whose last
reconciliation started from another version of its object than the present one is on its way to the
queue or waits in it. When the informer has no more changes, every run of the event handler and the
workers ends, and then the last reconciliation of each key started from the present version. -/
theorem updates_reconciled (lib : PredicateLib Content) {handler : Handler Content}
    (h : handler.EnqueuesObject) {Q : KeyQueue NamespacedName} (queue : Q.Queue)
    (store : Store Content) (objs : List (WatchedObject Content))
    (hobjs : ∀ k obj, store k = some obj → obj ∈ objs ∧ obj.namespacedName = k)
    (s : (delivery lib h).State Q)
    (hs : ReflTransGen Delivery.Step (started lib h queue store objs) s) :
    (∀ k, s.Pending k ∨ s.taken k = version s.store k) ∧
      Delivery.Settles (fun t ↦ t.Idle ∧ ∀ k, t.taken k = version t.store k) s := by
  have hinitial : Delivery.Initial none (started lib h queue store objs) := by
    refine ⟨rfl, fun _ ↦ rfl, fun k hk ↦ ?_⟩
    obtain ⟨v, hv⟩ := Option.ne_none_iff_exists'.mp hk
    obtain ⟨obj, hobj, -⟩ := Option.map_eq_some_iff.mp hv
    obtain ⟨hmem, rfl⟩ := hobjs k obj hobj
    exact ⟨_, List.mem_map_of_mem hmem, mem_handle_add lib h obj⟩
  have hcovered := Delivery.covered_of_steps hinitial hs
  exact ⟨hcovered, hcovered.settles⟩

def gameKey : NamespacedName := ⟨"default", "chess"⟩

def game (finalizers : Option (List String)) : WatchedObject Unit :=
  ⟨⟨gameKey, ()⟩, 1, finalizers⟩

def gameStore : Store Unit := fun k ↦
  if k = gameKey then some (game (some ["toolkit"])) else none

/-- The finalizer of a game is removed while a worker reconciles it. The generation stays the same,
but the key is on its way to the queue again. -/
theorem updates_reconciled_game :
    ∃ s : (delivery controllerRuntime (@enqueueRequestForObject_enqueuesObject Unit)).State
        (WorkQueue.keyQueue NamespacedName),
      s.taken gameKey = some (1, some ["toolkit"]) ∧ version s.store gameKey = some (1, none) ∧
        s.Pending gameKey ∧
        Delivery.Settles (fun t ↦ t.Idle ∧ ∀ k, t.taken k = version t.store k) s := by
  have hobjs (k : NamespacedName) (obj : WatchedObject Unit) (hobj : gameStore k = some obj) :
      obj ∈ [game (some ["toolkit"])] ∧ obj.namespacedName = k := by
    unfold gameStore at hobj
    split at hobj
    · next hk =>
      cases hobj
      exact ⟨List.mem_singleton_self _, hk.symm⟩
    · cases hobj
  let Q := WorkQueue.keyQueue NamespacedName
  let queue : WorkQueue NamespacedName := WorkQueue.empty.add gameKey
  obtain ⟨j, queue', hget⟩ := WorkQueue.exists_get (q := queue) (k := gameKey) (by decide)
    (by decide)
  obtain rfl : j = gameKey := by
    simpa [queue, WorkQueue.empty, WorkQueue.add] using (WorkQueue.get_spec hget).1
  have hgets : Q.Gets queue gameKey queue' := hget
  have hupdated : InformerChange gameStore _ _ :=
    @InformerChange.updated Unit gameStore (game (some ["toolkit"])) (game none) rfl
  have hreach : ReflTransGen Delivery.Step
      (started controllerRuntime enqueueRequestForObject_enqueuesObject (Q := Q)
        WorkQueue.empty gameStore [game (some ["toolkit"])]) _ :=
    .tail (.tail (.tail (.tail .refl (.work .deliver)) (.work .add)) (.work (.get hgets)))
      (.change hupdated)
  obtain ⟨hcovered, hsettles⟩ := updates_reconciled controllerRuntime _ _ gameStore _ hobjs _ hreach
  have htaken : Function.update (fun _ : NamespacedName ↦ none) gameKey (version gameStore gameKey)
      gameKey = some (1, some ["toolkit"]) := Function.update_self ..
  have hversion : version (Function.update gameStore gameKey (some (game none))) gameKey =
      some (1, none) := by simp [version, game]
  refine ⟨_, htaken, hversion, (hcovered gameKey).resolve_right fun hcurrent ↦ ?_, hsettles⟩
  have hstale : some ((1 : ℤ), some ["toolkit"]) = some (1, none) :=
    htaken.symm.trans (hcurrent.trans hversion)
  cases hstale

end OperatorToolkit.Source
