import OperatorToolkit.Grouping.OrderedMap
import OperatorToolkit.Informer.Reader
import OperatorToolkit.Interaction.Pool

/-!
# The map of informers

An `InformersMap` keeps one informer for each kind that somebody has asked for. `Get` looks the kind
up under the read lock and, if it is not there, looks again under the write lock before it creates
the informer; `Start` runs the informers that are there, and those added later are run when they are
added. Each section under the lock is one step on the map. The informers of client-go are numbered
in the order of their creation, and what is done to them is recorded beside the map.
-/

namespace OperatorToolkit.Informer

open Object Grouping Interaction

structure MapEntry (Rest Err : Type) where
  informer : Nat
  reader : CacheReader Rest Err

/-- The map with its started flag and stop channel. `created` lists the kinds for which
`NewSharedIndexInformer` was called, `runs` the calls of `Run` with the stop channel they got. -/
structure InformersMap (Rest Err : Type) where
  informersByGVK : OrderedMap GroupVersionKind (MapEntry Rest Err)
  stop : Option Nat
  started : Bool
  ns : String
  created : List GroupVersionKind
  runs : List (Nat × Option Nat)

variable {Rest Err : Type}

def newInformersMap (ns : String) : InformersMap Rest Err :=
  ⟨.empty, none, false, ns, [], []⟩

/-- An entry for a new informer. The scope is based on the cache namespace. -/
def newMapEntry (indexerOf : Nat → Indexer Rest Err) (ns : String) (gvk : GroupVersionKind)
    (informer : Nat) : MapEntry Rest Err :=
  ⟨informer, ⟨indexerOf informer, gvk, if ns = "" then .root else .namespaced⟩⟩

/-- `addInformerToMap`, where `createListWatcher` returns the given error or nil. It returns the
entry, which is nil with an error, and the started flag. -/
def InformersMap.addInformerToMap (indexerOf : Nat → Indexer Rest Err) (m : InformersMap Rest Err)
    (gvk : GroupVersionKind) (createListWatcher : Option Err) :
    (Except Err (MapEntry Rest Err) × Bool) × InformersMap Rest Err :=
  match m.informersByGVK.lookup gvk with
  | some i => ((.ok i, m.started), m)
  | none =>
    match createListWatcher with
    | some err => ((.error err, false), m)
    | none =>
      let i := newMapEntry indexerOf m.ns gvk m.created.length
      let m' : InformersMap Rest Err :=
        { m with
          informersByGVK := m.informersByGVK.upsert gvk fun _ ↦ i
          created := m.created ++ [gvk]
          runs := if m.started then m.runs ++ [(i.informer, m.stop)] else m.runs }
      ((.ok i, m'.started), m')

/-- The section of `Start`. Go ranges over the map in some order, here `order`. -/
def InformersMap.startSection (m : InformersMap Rest Err) (stop : Nat)
    (order : List GroupVersionKind) : InformersMap Rest Err :=
  { m with
    stop := some stop
    runs := m.runs ++
      (order.filterMap m.informersByGVK.lookup).map fun i ↦ (i.informer, some stop)
    started := true }

/-! ## The calls as programs over the sections -/

/-- The steps of `Get` and `Start`: their sections under the lock, and the questions to an
informer. -/
inductive Request where
  | read (gvk : GroupVersionKind)
  | add (gvk : GroupVersionKind)
  | start (stop : Nat)
  | hasSynced (informer : Nat)
  | waitForCacheSync (informer : Nat)
  deriving DecidableEq

abbrev Reply (Rest Err : Type) : Request → Type
  | .read _ => Option (MapEntry Rest Err) × Bool
  | .add _ => Except Err (MapEntry Rest Err) × Bool
  | .start _ => Unit
  | .hasSynced _ => Bool
  | .waitForCacheSync _ => Bool

abbrev sections (Rest Err : Type) : Signature := ⟨Request, Reply Rest Err⟩

/-- The started flag and the entry, which is nil with an error. -/
abbrev GetReturn (Rest Err : Type) := Bool × Except Err (MapEntry Rest Err)

/-- The end of `Get`: a started informer must have synced. -/
def awaitSync [ApiErrors Err] (objType : String) (started : Bool) (i : MapEntry Rest Err) :
    Program (sections Rest Err) (GetReturn Rest Err) :=
  if started then
    .call (.hasSynced i.informer) fun synced ↦
      if synced then .done (started, .ok i)
      else .call (.waitForCacheSync i.informer) fun synced ↦
        if synced then .done (started, .ok i)
        else .done (started, .error
          (newTimeoutError ("failed waiting for " ++ objType ++ " Informer to sync") 0))
  else .done (started, .ok i)

/-- `InformersMap.Get` for an object whose Go type is `objType`. -/
def get [ApiErrors Err] (gvk : GroupVersionKind) (objType : String) :
    Program (sections Rest Err) (GetReturn Rest Err) :=
  .call (.read gvk) fun
    | (some i, started) => awaitSync objType started i
    | (none, _) =>
      .call (.add gvk) fun
        | (.error err, started) => .done (started, .error err)
        | (.ok i, started) => awaitSync objType started i

/-- How the sections act on the map. The informers may answer anything. -/
def mapService (indexerOf : Nat → Indexer Rest Err) :
    Service (sections Rest Err) (InformersMap Rest Err) where
  Handles m request reply m' := match request, reply with
    | .read gvk, reply => reply = (m.informersByGVK.lookup gvk, m.started) ∧ m' = m
    | .add gvk, reply =>
      ∃ createListWatcher, m.addInformerToMap indexerOf gvk createListWatcher = (reply, m')
    | .start stop, _ => ∃ order, order.Perm m.informersByGVK.order ∧ m' = m.startSection stop order
    | .hasSynced _, _ => m' = m
    | .waitForCacheSync _, _ => m' = m
  Breaks _ _ _ := False
  Rely m m' := m' = m

/-- What the goroutines of the pool return: `Get` its kind and values, and `Start`. -/
inductive Outcome (Rest Err : Type) where
  | got (gvk : GroupVersionKind) (values : GetReturn Rest Err)
  | startExecuted

/-- Any number of `Get` calls, given by their kinds and object types, with one `Start`. -/
def goroutines [ApiErrors Err] (ns : String) (stop : Nat)
    (gets : List (GroupVersionKind × String)) :
    Pool (sections Rest Err) (Outcome Rest Err) (InformersMap Rest Err) where
  members := .call (.start stop) (fun _ ↦ .done .startExecuted) ::
    gets.map fun call ↦ (get call.1 call.2 >>= fun values ↦ .done (.got call.1 values))
  state := newInformersMap ns

end OperatorToolkit.Informer
