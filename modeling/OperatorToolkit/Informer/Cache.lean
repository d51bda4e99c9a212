import OperatorToolkit.Files.Paths
import OperatorToolkit.Informer.Coherence
import OperatorToolkit.Interaction.Lifting
import OperatorToolkit.Interaction.Sum

/-!
# The informer cache

An informer cache serves reads from the informers of an informers map. `Get` and `List` ask the map
for the entry of the kind and read from its indexer; a source of a controller asks for the informer
of its kind when it is started, and then waits for the caches to sync. Meanwhile the cache may be
started or not, and every informer that runs receives its first listing and later changes in its own
time.

Each step keeps the map consistent, lets it only grow, and leaves informers synced that have synced.
-/

namespace OperatorToolkit.Informer

open Object Grouping Interaction

class CacheErrors (Err : Type) extends ApiErrors Err where
  /-- `ErrCacheNotStarted`. -/
  errCacheNotStarted : Err

export CacheErrors (errCacheNotStarted)

instance : CacheErrors GoError where
  errCacheNotStarted := ⟨["the cache is not started, can not read objects"]⟩

variable {Rest Err : Type}

/-! ## The cache and the steps on it -/

/-- The map, the informers that have synced, and what the indexers of the informers hold now. -/
structure Cache (Rest Err : Type) where
  informersMap : InformersMap Rest Err
  synced : List Nat
  indexers : Nat → Indexer Rest Err

/-- The reader of an entry, as it reads now. -/
def Cache.reader (c : Cache Rest Err) (entry : MapEntry Rest Err) : CacheReader Rest Err :=
  { entry.reader with indexer := c.indexers entry.informer }

/-- What happens to a running informer: it has received its first listing, or its indexer has
changed. -/
inductive InformerEvent (Rest Err : Type) where
  | synced (informer : Nat)
  | changed (informer : Nat) (indexer : Indexer Rest Err)

/-- The steps beside those of `InformersMap.Get` and `Start`. -/
inductive CacheRequest (Rest Err : Type) where
  | hasSyncedFuncs
  | waitForStarted
  | waitForCacheSync (informers : List Nat)
  | readerGet (entry : MapEntry Rest Err) (key : NamespacedName) (outType : String)
  | readerList (entry : MapEntry Rest Err) (setList : List (CachedObject Rest) → Option Err)
      (opts : ListOptions)
  | addEventHandler (informer : Nat)
  | event (event : InformerEvent Rest Err)

abbrev CacheReply : CacheRequest Rest Err → Type
  | .hasSyncedFuncs => List Nat
  | .waitForStarted => Bool
  | .waitForCacheSync _ => Bool
  | .readerGet _ _ _ => Except Err (CachedObject Rest)
  | .readerList _ _ _ => Except Err (List (CachedObject Rest))
  | .addEventHandler _ => Unit
  | .event _ => Unit

abbrev cacheSteps (Rest Err : Type) : Signature := ⟨CacheRequest Rest Err, CacheReply⟩

abbrev cacheCalls (Rest Err : Type) : Signature := (sections Rest Err).sum (cacheSteps Rest Err)

def step (request : CacheRequest Rest Err) : Program (cacheCalls Rest Err) (CacheReply request) :=
  .call (S := cacheCalls Rest Err) (.inr request) .done

/-! ## The calls -/

/-- `String` of a kind. -/
def formatGVK (gvk : GroupVersionKind) : String :=
  gvk.group ++ "/" ++ gvk.version ++ ", Kind=" ++ gvk.kind

/-- The element type of the items of a list, and whether a pointer to it is a `runtime.Object`. -/
structure ElemType where
  goType : String
  isPtr : Bool
  isObject : Bool

inductive ListItems (Err : Type) where
  | unstructured
  | typed (itemsPtr : Except Err ElemType)

/-- A list object: its Go type, its kind according to the scheme, and its items. -/
structure ListObject (Err : Type) where
  goType : String
  gvkForObject : Except Err GroupVersionKind
  items : ListItems Err

/-- The kind and the Go type of a single object of the list. -/
def objectTypeForListObject [ErrorValues Err] (quote : String → String) (list : ListObject Err) :
    Except Err (GroupVersionKind × String) := do
  let gvk ← list.gvkForObject
  if Files.hasSuffix gvk.kind "List" then
    let gvk := { gvk with kind := String.ofList (gvk.kind.toList.take (gvk.kind.length - 4)) }
    match list.items with
    | .unstructured => return (gvk, "*unstructured.Unstructured")
    | .typed itemsPtr =>
      let elem ← itemsPtr
      let elemType := if elem.isPtr then elem.goType else "*" ++ elem.goType
      if elem.isObject then return (gvk, elemType)
      else throw (errorf ("cannot get cache for " ++ list.goType ++ ", its element " ++ elemType ++
        " is not a runtime.Object"))
  else
    throw (errorf ("non-list type " ++ list.goType ++ " (kind " ++ quote (formatGVK gvk) ++
      ") passed as output"))

section Calls

variable [CacheErrors Err]

/-- What `Get` and `List` do before they read: the entry of a cache that has been started. -/
def startedEntry (gvk : GroupVersionKind) (objType : String) :
    Program (cacheCalls Rest Err) (Except Err (MapEntry Rest Err)) := do
  match ← (get gvk objType : Program (sections Rest Err) _).inl with
  | (_, .error err) => return .error err
  | (started, .ok entry) => if started then return .ok entry else return .error errCacheNotStarted

/-- `informerCache.Get` into an object whose kind the scheme knows or not. -/
def cacheGet (gvkForObject : Except Err GroupVersionKind) (key : NamespacedName)
    (outType : String) : Program (cacheCalls Rest Err) (Except Err (CachedObject Rest)) := do
  match gvkForObject with
  | .error err => return .error err
  | .ok gvk =>
    match ← startedEntry gvk outType with
    | .error err => return .error err
    | .ok entry => step (.readerGet entry key outType)

/-- `informerCache.List`. -/
def cacheList (quote : String → String) (out : ListObject Err)
    (setList : List (CachedObject Rest) → Option Err) (opts : ListOptions) :
    Program (cacheCalls Rest Err) (Except Err (List (CachedObject Rest))) := do
  match objectTypeForListObject quote out with
  | .error err => return .error err
  | .ok (gvk, objType) =>
    match ← startedEntry gvk objType with
    | .error err => return .error err
    | .ok entry => step (.readerList entry setList opts)

/-- `informerCache.GetInformer`. -/
def getInformer (gvkForObject : Except Err GroupVersionKind) (objType : String) :
    Program (cacheCalls Rest Err) (Except Err Nat) := do
  match gvkForObject with
  | .error err => return .error err
  | .ok gvk =>
    let (_, entry) ← (get gvk objType : Program (sections Rest Err) _).inl
    return entry.map (·.informer)

/-- `informerCache.GetInformerForKind`; `newObject` is the Go type of what the scheme makes for the
kind. -/
def getInformerForKind (gvk : GroupVersionKind) (newObject : Except Err String) :
    Program (cacheCalls Rest Err) (Except Err Nat) := do
  match newObject with
  | .error err => return .error err
  | .ok objType => getInformer (.ok gvk) objType

/-- `InformersMap.WaitForCacheSync`. -/
def waitForCacheSync : Program (cacheCalls Rest Err) Bool := do
  let syncedFuncs ← step .hasSyncedFuncs
  let started ← step .waitForStarted
  if started then step (.waitForCacheSync syncedFuncs) else return false

/-- A source of events; `type` is the kind of its objects according to the scheme, with their Go
type. -/
structure Kind (Err : Type) where
  type : Option (Except Err GroupVersionKind × String)
  hasCache : Bool

/-- The kind of the objects, if the scheme knows it. -/
def Kind.groupVersionKind (ks : Kind Err) : Option GroupVersionKind :=
  ks.type.bind fun type ↦ type.1.toOption

def Kind.start (ks : Kind Err) : Program (cacheCalls Rest Err) (Option Err) := do
  match ks.type with
  | none => return some (errorf "must specify Kind.Type")
  | some (gvkForObject, objType) =>
    if ks.hasCache then
      match ← getInformer gvkForObject objType with
      | .error err => return some err
      | .ok informer =>
        step (.addEventHandler informer)
        return none
    else return some (errorf "must call CacheInto on Kind before calling Start")

def waitForSync : Program (cacheCalls Rest Err) (Option Err) := do
  if ← waitForCacheSync then return none else return some (errorf "cache did not sync")

/-- What a controller does with a source before it starts its workers. -/
def Kind.watch (ks : Kind Err) : Program (cacheCalls Rest Err) (Option Err) := do
  match ← ks.start with
  | some err => return some err
  | none => waitForSync

inductive CacheCall (Rest Err : Type) where
  | get (gvkForObject : Except Err GroupVersionKind) (key : NamespacedName) (outType : String)
  | list (quote : String → String) (out : ListObject Err)
      (setList : List (CachedObject Rest) → Option Err) (opts : ListOptions)
  | getInformer (gvkForObject : Except Err GroupVersionKind) (objType : String)
  | getInformerForKind (gvk : GroupVersionKind) (newObject : Except Err String)
  | waitForCacheSync
  | watch (ks : Kind Err)

inductive CacheOutcome (Rest Err : Type) where
  | got (result : Except Err (CachedObject Rest))
  | listed (result : Except Err (List (CachedObject Rest)))
  | informer (result : Except Err Nat)
  | waited (synced : Bool)
  | watched (err : Option Err)
  | executed

def CacheCall.program : CacheCall Rest Err → Program (cacheCalls Rest Err) (CacheOutcome Rest Err)
  | .get gvkForObject key outType => (cacheGet gvkForObject key outType).map .got
  | .list quote out setList opts => (cacheList quote out setList opts).map .listed
  | .getInformer gvkForObject objType => (Informer.getInformer gvkForObject objType).map .informer
  | .getInformerForKind gvk newObject =>
    (Informer.getInformerForKind gvk newObject).map .informer
  | .waitForCacheSync => Informer.waitForCacheSync.map .waited
  | .watch ks => ks.watch.map .watched

/-- The kind whose informer the call reads from, or waits for. -/
def CacheCall.kind : CacheCall Rest Err → Option GroupVersionKind
  | .get gvkForObject _ _ => gvkForObject.toOption
  | .list quote out _ _ => (objectTypeForListObject quote out).toOption.map Prod.fst
  | .getInformer _ _ => none
  | .getInformerForKind _ _ => none
  | .waitForCacheSync => none
  | .watch ks => ks.groupVersionKind

/-- One `Start`, any number of calls of the cache, and any number of events. -/
def cachePool (ns : String) (stop : Nat) (indexers : Nat → Indexer Rest Err)
    (calls : List (CacheCall Rest Err)) (events : List (InformerEvent Rest Err)) :
    Pool (cacheCalls Rest Err) (CacheOutcome Rest Err) (Cache Rest Err) where
  members := .call (S := cacheCalls Rest Err) (.inl (.start stop)) (fun _ ↦ .done .executed) ::
    (calls.map CacheCall.program ++
      events.map fun event ↦ (step (.event event)).map fun _ ↦ .executed)
  state := ⟨newInformersMap ns, [], indexers⟩

end Calls

/-! ## How the steps are answered -/

/-- What an informer answers when it is asked whether it has synced. -/
def Answers (c : Cache Rest Err) : (request : Request) → Reply Rest Err request → Prop
  | .hasSynced informer, synced => synced = decide (informer ∈ c.synced)
  | .waitForCacheSync informer, synced => synced = true → informer ∈ c.synced
  | .read _, _ => True
  | .add _, _ => True
  | .start _, _ => True

/-- The sections of the map. The indexer of an entry is the one of its informer. -/
def sectionService (indexerOf : Nat → Indexer Rest Err) :
    Service (sections Rest Err) (Cache Rest Err) where
  Handles c request reply c' :=
    (mapService indexerOf).Handles c.informersMap request reply c'.informersMap ∧
      Answers c request reply ∧ c' = { c with informersMap := c'.informersMap }
  Breaks _ _ _ := False
  Rely c c' := c' = c

/-- A wait may end early when its context is done. An informer makes steps only while it runs. -/
def stepService [ApiErrors Err] : Service (cacheSteps Rest Err) (Cache Rest Err) where
  Handles c request reply c' := match request, reply with
    | .hasSyncedFuncs, reply =>
      (∃ order : List GroupVersionKind, order.Perm c.informersMap.informersByGVK.order ∧
        reply = (order.filterMap c.informersMap.informersByGVK.lookup).map (·.informer)) ∧ c' = c
    | .waitForStarted, reply => (reply = true → c.informersMap.started = true) ∧ c' = c
    | .waitForCacheSync informers, reply =>
      (reply = true → ∀ informer ∈ informers, informer ∈ c.synced) ∧ c' = c
    | .readerGet entry key outType, reply =>
      reply = (c.reader entry).get key outType ∧ c' = c
    | .readerList entry setList opts, reply =>
      reply = (c.reader entry).list setList opts ∧ c' = c
    | .addEventHandler _, _ => c' = c
    | .event (.synced informer), _ =>
      informer ∈ c.informersMap.runs.map Prod.fst ∧
        c' = { c with synced := informer :: c.synced }
    | .event (.changed informer indexer), _ =>
      informer ∈ c.informersMap.runs.map Prod.fst ∧
        c' = { c with indexers := Function.update c.indexers informer indexer }
  Breaks _ _ _ := False
  Rely c c' := c' = c

/-! ## What the steps keep -/

/-- Only informers that have been run have synced. -/
structure CacheInv (c : Cache Rest Err) : Prop where
  consistent : Consistent c.informersMap
  synced_run : ∀ informer ∈ c.synced, informer ∈ c.informersMap.runs.map Prod.fst

/-- What a call relies on: entries stay, and what has been started or has synced stays so. -/
structure Grows (c c' : Cache Rest Err) : Prop where
  inv : CacheInv c'
  extends_map : Extends c.informersMap c'.informersMap
  started : c.informersMap.started = true → c'.informersMap.started = true
  synced : c.synced ⊆ c'.synced

variable {c c' : Cache Rest Err} {indexerOf : Nat → Indexer Rest Err}

theorem CacheInv.grows_refl (h : CacheInv c) : Grows c c :=
  ⟨h, fun _ _ ↦ id, id, fun _ ↦ id⟩

/-- An informer of the map that has been run is still there, and has been run. -/
theorem Consistent.runs_subset {m m' : InformersMap Rest Err} (h : Consistent m)
    (h' : Consistent m') (hextends : Extends m m')
    (hstarted : m.started = true → m'.started = true) :
    m.runs.map Prod.fst ⊆ m'.runs.map Prod.fst := by
  intro informer hrun
  have hold := (h.mem_runs_iff informer).mp hrun
  obtain ⟨gvk, entry, hentry, hinformer⟩ := (h.lt_created_iff informer).mp hold.2
  have hnew := (h'.lt_created_iff informer).mpr ⟨gvk, entry, hextends gvk entry hentry, hinformer⟩
  exact (h'.mem_runs_iff informer).mpr ⟨hstarted hold.1, hnew⟩

/-- A step on the map alone. -/
theorem CacheInv.grows_of_extends (h : CacheInv c) {m : InformersMap Rest Err}
    (hm : Consistent m) (hextends : Extends c.informersMap m)
    (hstarted : c.informersMap.started = true → m.started = true) :
    Grows c { c with informersMap := m } where
  inv :=
    { consistent := hm
      synced_run := fun informer hsynced ↦
        h.consistent.runs_subset hm hextends hstarted (h.synced_run informer hsynced) }
  extends_map := hextends
  started := hstarted
  synced := fun _ ↦ id

theorem CacheInv.sections (h : CacheInv c) {request : Request} {reply : Reply Rest Err request}
    (hrequest : ∀ stop, request ≠ .start stop)
    (hhandles : (sectionService indexerOf).Handles c request reply c') :
    Grows c c' ∧ c'.informersMap.started = c.informersMap.started := by
  obtain ⟨hmap, -, hc'⟩ := hhandles
  obtain ⟨hm, hextends, hstarted⟩ := h.consistent.handles hrequest hmap
  refine ⟨?_, hstarted⟩
  rw [hc']
  exact h.grows_of_extends hm hextends fun hold ↦ hstarted.trans hold

theorem CacheInv.start (h : CacheInv c) (hstarted : c.informersMap.started = false) {stop : Nat}
    {reply : Unit} (hhandles : (sectionService indexerOf).Handles c (.start stop) reply c') :
    Grows c c' ∧ c'.informersMap.started = true := by
  obtain ⟨⟨order, horder, hmap⟩, -, hc'⟩ := hhandles
  have hm := h.consistent.startSection hstarted stop horder
  refine ⟨?_, by rw [hmap]; rfl⟩
  rw [hc', hmap]
  exact h.grows_of_extends hm (fun _ _ ↦ id) fun _ ↦ rfl

section Steps

variable [ApiErrors Err]

theorem CacheInv.steps (h : CacheInv c) {request : CacheRequest Rest Err}
    {reply : CacheReply request} (hhandles : stepService.Handles c request reply c') :
    Grows c c' ∧ c'.informersMap.started = c.informersMap.started := by
  have hsame (hc' : c' = c) : Grows c c' ∧ c'.informersMap.started = c.informersMap.started := by
    rw [hc']
    exact ⟨h.grows_refl, rfl⟩
  cases request with
  | hasSyncedFuncs => exact hsame hhandles.2
  | waitForStarted => exact hsame hhandles.2
  | waitForCacheSync informers => exact hsame hhandles.2
  | readerGet entry key outType => exact hsame hhandles.2
  | readerList entry setList opts => exact hsame hhandles.2
  | addEventHandler informer => exact hsame hhandles
  | event event =>
    cases event with
    | synced informer =>
      obtain ⟨hrun, hc'⟩ := hhandles
      rw [hc']
      have hinv : CacheInv { c with synced := informer :: c.synced } :=
        ⟨h.consistent, List.forall_mem_cons.mpr ⟨hrun, h.synced_run⟩⟩
      exact ⟨⟨hinv, fun _ _ ↦ id, id, List.subset_cons_self _ _⟩, rfl⟩
    | changed informer indexer =>
      obtain ⟨-, hc'⟩ := hhandles
      rw [hc']
      have hinv : CacheInv { c with indexers := Function.update c.indexers informer indexer } :=
        ⟨h.consistent, h.synced_run⟩
      exact ⟨⟨hinv, fun _ _ ↦ id, id, fun _ ↦ id⟩, rfl⟩

/-- How the steps act on the cache. -/
def cacheService (indexerOf : Nat → Indexer Rest Err) :
    Service (cacheCalls Rest Err) (Cache Rest Err) :=
  (sectionService indexerOf).sum stepService Grows

end Steps

end OperatorToolkit.Informer
