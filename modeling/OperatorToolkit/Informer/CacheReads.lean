import OperatorToolkit.Informer.Cache

/-!
# Reading from informers that have synced

Nobody reads from an informer before it has synced, and a source is ready only when the informer of
its kind has synced, however the calls of the cache, its start and the events of the informers
interleave. The entry that `InformersMap.Get` returns is the one of the kind, by what is known about
the map alone; that it has synced is a second, separate argument about the same program.
-/

namespace OperatorToolkit.Informer

open Object Grouping Interaction

variable {Rest Err : Type} {indexerOf : Nat → Indexer Rest Err}

/-- A property that nobody takes away. -/
def Lasting (P : Cache Rest Err → Prop) : Prop := ∀ c c', Grows c c' → P c → P c'

/-- The map has an entry for the kind, with the property. -/
def HasEntry (gvk : GroupVersionKind) (P : MapEntry Rest Err → Prop) (c : Cache Rest Err) : Prop :=
  ∃ entry, c.informersMap.informersByGVK.lookup gvk = some entry ∧ P entry

/-- The map has an entry for the kind, and its informer has synced. -/
def HasSynced (gvk : GroupVersionKind) (P : MapEntry Rest Err → Prop) (c : Cache Rest Err) : Prop :=
  HasEntry gvk (fun entry ↦ P entry ∧ entry.informer ∈ c.synced) c

theorem lasting_hasEntry (gvk : GroupVersionKind) (P : MapEntry Rest Err → Prop) :
    Lasting (HasEntry gvk P) := by
  intro c c' hgrows h
  obtain ⟨entry, hentry, hP⟩ := h
  exact ⟨entry, hgrows.extends_map gvk entry hentry, hP⟩

theorem lasting_hasSynced (gvk : GroupVersionKind) (P : MapEntry Rest Err → Prop) :
    Lasting (HasSynced gvk P) := by
  intro c c' hgrows h
  obtain ⟨entry, hentry, hP, hsynced⟩ := h
  exact ⟨entry, hgrows.extends_map gvk entry hentry, hP, hgrows.synced hsynced⟩

/-- The entry that the step reads from. -/
def CacheRequest.readsFrom : CacheRequest Rest Err → Option (MapEntry Rest Err)
  | .readerGet entry _ _ => some entry
  | .readerList entry _ _ => some entry
  | .hasSyncedFuncs | .waitForStarted | .waitForCacheSync _ | .addEventHandler _ | .event _ => none

/-- If the step reads, then from the entry of the kind, whose informer has synced. -/
def ReadsSynced (kind : Option GroupVersionKind) (c : Cache Rest Err)
    (request : CacheRequest Rest Err) : Prop :=
  ∀ entry, request.readsFrom = some entry → ∃ gvk, kind = some gvk ∧ HasSynced gvk (· = entry) c

/-- The guard of every call of the cache. -/
def callGuard (kind : Option GroupVersionKind) (c : Cache Rest Err) :
    (cacheCalls Rest Err).Request → Prop :=
  Sum.elim (NoStart c.informersMap) (ReadsSynced kind c)

theorem lasting_const (φ : Prop) : Lasting fun _ : Cache Rest Err ↦ φ := fun _ _ _ ↦ id

theorem lasting_synced (informer : Nat) : Lasting fun c : Cache Rest Err ↦ informer ∈ c.synced :=
  fun _ _ hgrows h ↦ hgrows.synced h

theorem lasting_started : Lasting fun c : Cache Rest Err ↦ c.informersMap.started = true :=
  fun _ _ hgrows ↦ hgrows.started

theorem Lasting.imp {P : Cache Rest Err → Prop} (h : Lasting P) (φ : Prop) :
    Lasting fun c ↦ φ → P c :=
  fun c c' hgrows himp hφ ↦ h c c' hgrows (himp hφ)

theorem Lasting.and {P Q : Cache Rest Err → Prop} (hP : Lasting P) (hQ : Lasting Q) :
    Lasting fun c ↦ P c ∧ Q c :=
  fun c c' hgrows h ↦ ⟨hP c c' hgrows h.1, hQ c c' hgrows h.2⟩

/-- Something lasting about each of some kinds. -/
theorem lasting_forall (known : GroupVersionKind → Prop)
    {P : GroupVersionKind → Cache Rest Err → Prop} (h : ∀ gvk, Lasting (P gvk)) :
    Lasting fun c ↦ ∀ gvk, known gvk → P gvk c :=
  fun c c' hgrows hall gvk hgvk ↦ h gvk c c' hgrows (hall gvk hgvk)

/-- A step that does not read. -/
theorem readsSynced_of_none {request : CacheRequest Rest Err} (kind : Option GroupVersionKind)
    (h : request.readsFrom = none) (c : Cache Rest Err) : ReadsSynced kind c request := by
  intro entry hentry
  rw [h] at hentry
  cases hentry

/-- A read from the entry that has been obtained. -/
theorem readsSynced_of_obtained {request : CacheRequest Rest Err} {entry : MapEntry Rest Err}
    {gvk : GroupVersionKind} {c : Cache Rest Err} (hreads : request.readsFrom = some entry)
    (hsynced : HasSynced gvk (· = entry) c) : ReadsSynced (some gvk) c request := by
  intro found hfound
  have hsame : entry = found := Option.some.inj (hreads.symm.trans hfound)
  rw [← hsame]
  exact ⟨gvk, rfl, hsynced⟩

/-- The functions of all entries are listed, in whatever order the map is ranged over. -/
theorem mem_hasSyncedFuncs {m : InformersMap Rest Err} {order : List GroupVersionKind}
    {gvk : GroupVersionKind} {entry : MapEntry Rest Err}
    (horder : order.Perm m.informersByGVK.order)
    (hentry : m.informersByGVK.lookup gvk = some entry) :
    entry.informer ∈ (order.filterMap m.informersByGVK.lookup).map (·.informer) := by
  have hgvk : gvk ∈ order := by
    rw [horder.mem_iff, m.informersByGVK.mem_order_iff, hentry]
    rfl
  exact List.mem_map_of_mem (List.mem_filterMap.mpr ⟨gvk, hgvk, hentry⟩)

/-! ## Getting an entry -/

/-- The sections of the map, for a call that relies on the cache to grow. -/
abbrev growingSections (indexerOf : Nat → Indexer Rest Err) :
    Service (sections Rest Err) (Cache Rest Err) :=
  { sectionService indexerOf with Rely := Grows }

theorem safe_section {α : Type} {request : Request} (hrequest : ∀ stop, request ≠ .start stop)
    {P : Cache Rest Err → Prop} {Q : Reply Rest Err request → Cache Rest Err → Prop}
    {next : Reply Rest Err request → Program (sections Rest Err) α}
    {R : α → Cache Rest Err → Prop} (hP : Lasting P)
    (hpost : ∀ c reply c', P c → (sectionService indexerOf).Handles c request reply c' →
      Q reply c')
    (hnext : ∀ reply, Safe (growingSections indexerOf) CacheInv (fun c ↦ NoStart c.informersMap)
      (fun c ↦ CacheInv c ∧ Q reply c) (next reply) R) :
    Safe (growingSections indexerOf) CacheInv (fun c ↦ NoStart c.informersMap)
      (fun c ↦ CacheInv c ∧ P c) (.call request next) R := by
  refine .call (fun reply c ↦ CacheInv c ∧ Q reply c) ?_ ?_ (fun _ _ _ hbreak ↦ hbreak.elim) ?_
    hnext
  · exact fun c c' hc hgrows ↦ ⟨hgrows.inv, hP c c' hgrows hc.2⟩
  · exact fun c hc ↦ ⟨hc.1, hrequest⟩
  · exact fun c reply c' hc hhandles ↦
      ⟨(hc.1.sections hrequest hhandles).1.inv, hpost c reply c' hc.2 hhandles⟩

/-- A started informer is returned only if it has synced. -/
def ReturnsSynced (values : GetReturn Rest Err) (c : Cache Rest Err) : Prop :=
  CacheInv c ∧ (values.1 = true → ∀ entry, values.2 = .ok entry → entry.informer ∈ c.synced)

theorem safe_section_return {values : GetReturn Rest Err} {P : Cache Rest Err → Prop}
    (hP : Lasting P)
    (hpost : ∀ c, P c → values.1 = true → ∀ entry, values.2 = .ok entry →
      entry.informer ∈ c.synced) :
    Safe (growingSections indexerOf) CacheInv (fun c ↦ NoStart c.informersMap)
      (fun c ↦ CacheInv c ∧ P c) (.done values) ReturnsSynced :=
  .done (fun c c' hc hgrows ↦ ⟨hgrows.inv, hP c c' hgrows hc.2⟩)
    fun c hc ↦ ⟨hc.1, hc.1, hpost c hc.2⟩

section Get

variable [ApiErrors Err] {gvk : GroupVersionKind} {objType : String}

theorem safe_awaitSync_synced (started : Bool) (entry : MapEntry Rest Err) :
    Safe (growingSections indexerOf) CacheInv (fun c ↦ NoStart c.informersMap)
      (fun c ↦ CacheInv c ∧ True) (awaitSync objType started entry) ReturnsSynced := by
  have hok (synced : Bool) (hsynced : synced = true) :
      Safe (growingSections indexerOf) CacheInv (fun c ↦ NoStart c.informersMap)
        (fun c ↦ CacheInv c ∧ (synced = true → entry.informer ∈ c.synced))
        (.done (started, .ok entry)) ReturnsSynced := by
    refine safe_section_return ((lasting_synced _).imp _) fun c hc _ found hfound ↦ ?_
    rw [← Except.ok.inj hfound]
    exact hc hsynced
  unfold awaitSync
  split
  · refine safe_section (fun _ ↦ Request.noConfusion)
      (Q := fun (synced : Bool) c ↦ synced = true → entry.informer ∈ c.synced)
      (lasting_const True) ?_ fun synced ↦ ?_
    · intro c synced c' _ hhandles hsynced
      obtain ⟨-, hanswer, hc'⟩ := hhandles
      rw [hc']
      exact of_decide_eq_true (hanswer.symm.trans hsynced)
    split
    next hsynced => exact hok synced hsynced
    next =>
      refine safe_section (fun _ ↦ Request.noConfusion)
        (Q := fun (synced : Bool) c ↦ synced = true → entry.informer ∈ c.synced)
        ((lasting_synced _).imp _) ?_ fun synced ↦ ?_
      · intro c synced c' _ hhandles hsynced
        obtain ⟨-, hanswer, hc'⟩ := hhandles
        rw [hc']
        exact hanswer hsynced
      split
      next hsynced => exact hok synced hsynced
      next => exact safe_section_return ((lasting_synced _).imp _) fun _ _ _ _ h ↦ by cases h
  · next hstarted =>
    exact safe_section_return (lasting_const True) fun _ _ h ↦ absurd h hstarted

theorem safe_get_synced :
    Safe (growingSections indexerOf) CacheInv (fun c ↦ NoStart c.informersMap)
      (fun c ↦ CacheInv c ∧ True) (get gvk objType) ReturnsSynced := by
  refine safe_section (fun _ ↦ Request.noConfusion) (Q := fun _ _ ↦ True) (lasting_const True)
    (fun _ _ _ _ _ ↦ trivial) fun (reply : Option (MapEntry Rest Err) × Bool) ↦ ?_
  obtain ⟨found, started⟩ := reply
  cases found with
  | some entry => exact safe_awaitSync_synced started entry
  | none =>
    refine safe_section (fun _ ↦ Request.noConfusion) (Q := fun _ _ ↦ True) (lasting_const True)
      (fun _ _ _ _ _ ↦ trivial) fun (reply : Except Err (MapEntry Rest Err) × Bool) ↦ ?_
    obtain ⟨added, started⟩ := reply
    cases added with
    | error err => exact safe_section_return (lasting_const True) fun _ _ _ _ h ↦ by cases h
    | ok entry => exact safe_awaitSync_synced started entry

/-- What is known about the map alone. -/
theorem safe_get_lookup :
    Safe (growingSections indexerOf) (fun c ↦ Consistent c.informersMap)
      (fun c ↦ NoStart c.informersMap) (fun c ↦ Found gvk (fun _ ↦ False) c.informersMap)
      (get gvk objType) fun values c ↦ Succeeds gvk values c.informersMap := by
  have hget : Safe (getService indexerOf) Consistent NoStart (Found gvk fun _ ↦ False)
      (get gvk objType) (Succeeds gvk) := safe_get objType
  refine hget.comap Cache.informersMap ?_ ?_ ?_
  · exact fun c c' hgrows ↦ ⟨hgrows.inv.consistent, hgrows.extends_map⟩
  · exact fun c request c' hbreak ↦ hbreak
  · exact fun c request reply c' hhandles ↦ hhandles.1

/-- The entry that `InformersMap.Get` returns is the one of the kind, and its informer has synced if
the map has been started. -/
def Obtained (gvk : GroupVersionKind) (values : GetReturn Rest Err) (c : Cache Rest Err) : Prop :=
  ∀ entry, values.2 = .ok entry → HasEntry gvk (· = entry) c ∧
    (values.1 = true → HasSynced gvk (· = entry) c)

theorem safe_get_obtained (kind : Option GroupVersionKind) :
    Safe (cacheService indexerOf) CacheInv (callGuard kind) (fun c ↦ CacheInv c ∧ True)
      (get gvk objType).inl fun values c ↦ CacheInv c ∧ Obtained gvk values c := by
  have hboth : Safe (growingSections indexerOf) CacheInv (fun c ↦ NoStart c.informersMap) _
      (get gvk objType) _ :=
    safe_get_lookup.both (fun c _ hinv ↦ hinv) (fun c request hguard _ ↦ hguard) safe_get_synced
  apply Safe.inl
  apply Safe.weaken
  · apply hboth.strengthen
    · exact fun c c' _ hgrows ↦ ⟨hgrows.inv, trivial⟩
    · exact fun c hc ↦ ⟨⟨hc.1.consistent, fun _ h ↦ h.elim⟩, hc⟩
  · intro values c hvalues
    obtain ⟨⟨-, hlookup⟩, hinv, hsynced⟩ := hvalues
    refine ⟨hinv, fun entry hentry ↦ ⟨⟨entry, hlookup entry hentry, rfl⟩, fun hstarted ↦ ?_⟩⟩
    exact ⟨entry, hlookup entry hentry, rfl, hsynced hstarted entry hentry⟩

/-! ## The calls -/

theorem stable_lasting {P : Cache Rest Err → Prop} (h : Lasting P) :
    (cacheService indexerOf).Stable fun c ↦ CacheInv c ∧ P c :=
  fun c c' hc hgrows ↦ ⟨hgrows.inv, h c c' hgrows hc.2⟩

variable {kind : Option GroupVersionKind}

theorem safe_step {request : CacheRequest Rest Err} {P : Cache Rest Err → Prop}
    {Q : CacheReply request → Cache Rest Err → Prop}
    (hstable : (cacheService indexerOf).Stable P) (hQ : ∀ reply, Lasting (Q reply))
    (hreads : ∀ c, P c → CacheInv c ∧ ReadsSynced kind c request)
    (hpost : ∀ c reply c', P c → stepService.Handles c request reply c' → Q reply c') :
    Safe (cacheService indexerOf) CacheInv (callGuard kind) P (step request)
      fun reply c ↦ CacheInv c ∧ Q reply c := by
  refine .call (S := cacheCalls Rest Err) (fun reply c ↦ CacheInv c ∧ Q reply c) hstable hreads
    (fun _ _ _ hbreak ↦ hbreak.elim) ?_ fun reply ↦ ?_
  · intro c reply c' hc hhandles
    exact ⟨((hreads c hc).1.steps hhandles).1.inv, hpost c reply c' hc hhandles⟩
  · exact .done (stable_lasting (hQ reply)) fun c hc ↦ ⟨hc.1, hc⟩

theorem safe_return {α : Type} {value : α} {P : Cache Rest Err → Prop}
    {Q : α → Cache Rest Err → Prop} (hstable : (cacheService indexerOf).Stable P)
    (hpost : ∀ c, P c → CacheInv c ∧ Q value c) :
    Safe (cacheService indexerOf) CacheInv (callGuard kind) P (.done value)
      fun value c ↦ CacheInv c ∧ Q value c :=
  .done hstable fun c hc ↦ ⟨(hpost c hc).1, hpost c hc⟩

end Get

section Calls

variable [CacheErrors Err] {kind : Option GroupVersionKind} {gvk : GroupVersionKind}
  {objType : String}

theorem safe_startedEntry :
    Safe (cacheService indexerOf) CacheInv (callGuard kind) (fun c ↦ CacheInv c ∧ True)
      (startedEntry gvk objType) fun result c ↦
        CacheInv c ∧ ∀ entry, result = .ok entry → HasSynced gvk (· = entry) c := by
  refine (safe_get_obtained kind).bind fun values P hP hvalues ↦ ?_
  obtain ⟨started, result⟩ := values
  cases result with
  | error err => exact safe_return hP fun c hc ↦ ⟨(hvalues c hc).1, fun _ h ↦ by cases h⟩
  | ok entry =>
    cases started with
    | false => exact safe_return hP fun c hc ↦ ⟨(hvalues c hc).1, fun _ h ↦ by cases h⟩
    | true =>
      refine safe_return hP fun c hc ↦ ⟨(hvalues c hc).1, fun found hfound ↦ ?_⟩
      rw [← Except.ok.inj hfound]
      exact ((hvalues c hc).2 entry rfl).2 rfl

theorem safe_cacheGet (gvkForObject : Except Err GroupVersionKind) (key : NamespacedName) :
    Safe (cacheService indexerOf) CacheInv (callGuard gvkForObject.toOption)
      (fun c ↦ CacheInv c ∧ True) (cacheGet gvkForObject key objType)
      fun _ c ↦ CacheInv c ∧ True := by
  cases gvkForObject with
  | error err => exact safe_return (stable_lasting (lasting_const True)) fun c hc ↦ hc
  | ok gvk =>
    refine safe_startedEntry.bind fun result P hP hresult ↦ ?_
    cases result with
    | error err => exact safe_return hP fun c hc ↦ ⟨(hresult c hc).1, trivial⟩
    | ok entry =>
      refine safe_step hP (fun _ ↦ lasting_const True) (fun c hc ↦ ?_) fun _ _ _ _ _ ↦ trivial
      exact ⟨(hresult c hc).1, readsSynced_of_obtained rfl ((hresult c hc).2 entry rfl)⟩

theorem safe_cacheList (quote : String → String) (out : ListObject Err)
    (setList : List (CachedObject Rest) → Option Err) (opts : ListOptions) :
    Safe (cacheService indexerOf) CacheInv
      (callGuard ((objectTypeForListObject quote out).toOption.map Prod.fst))
      (fun c ↦ CacheInv c ∧ True) (cacheList quote out setList opts)
      fun _ c ↦ CacheInv c ∧ True := by
  unfold cacheList
  cases objectTypeForListObject quote out with
  | error err => exact safe_return (stable_lasting (lasting_const True)) fun c hc ↦ hc
  | ok type =>
    refine safe_startedEntry.bind fun result P hP hresult ↦ ?_
    cases result with
    | error err => exact safe_return hP fun c hc ↦ ⟨(hresult c hc).1, trivial⟩
    | ok entry =>
      refine safe_step hP (fun _ ↦ lasting_const True) (fun c hc ↦ ?_) fun _ _ _ _ _ ↦ trivial
      exact ⟨(hresult c hc).1, readsSynced_of_obtained rfl ((hresult c hc).2 entry rfl)⟩

theorem safe_getInformer (gvkForObject : Except Err GroupVersionKind) :
    Safe (cacheService indexerOf) CacheInv (callGuard kind) (fun c ↦ CacheInv c ∧ True)
      (getInformer gvkForObject objType) fun result c ↦ CacheInv c ∧
        ∀ informer, result = .ok informer →
          ∃ gvk, gvkForObject = .ok gvk ∧ HasEntry gvk (fun _ ↦ True) c := by
  cases gvkForObject with
  | error err =>
    exact safe_return (stable_lasting (lasting_const True)) fun c hc ↦ ⟨hc.1, fun _ h ↦ by cases h⟩
  | ok gvk =>
    refine (safe_get_obtained kind).bind fun values P hP hvalues ↦ ?_
    obtain ⟨started, result⟩ := values
    refine safe_return hP fun c hc ↦ ⟨(hvalues c hc).1, fun informer hinformer ↦ ⟨gvk, rfl, ?_⟩⟩
    cases result with
    | error err => cases hinformer
    | ok entry =>
      obtain ⟨found, hfound, -⟩ := ((hvalues c hc).2 entry rfl).1
      exact ⟨found, hfound, trivial⟩

/-- Waiting for the caches, where some kinds are known to have entries. -/
theorem safe_waitForCacheSync (known : GroupVersionKind → Prop) :
    Safe (cacheService indexerOf) CacheInv (callGuard kind)
      (fun c ↦ CacheInv c ∧ ∀ gvk, known gvk → HasEntry gvk (fun _ ↦ True) c)
      (waitForCacheSync : Program (cacheCalls Rest Err) Bool) fun synced c ↦ CacheInv c ∧
        (synced = true → c.informersMap.started = true ∧
          ∀ gvk, known gvk → HasSynced gvk (fun _ ↦ True) c) := by
  have hlisted (syncedFuncs : List Nat) : Lasting fun c : Cache Rest Err ↦
      ∀ gvk, known gvk → HasEntry gvk (·.informer ∈ syncedFuncs) c :=
    lasting_forall known fun gvk ↦ lasting_hasEntry gvk _
  have hfuncs : Safe (cacheService indexerOf) CacheInv (callGuard kind)
      (fun c ↦ CacheInv c ∧ ∀ gvk, known gvk → HasEntry gvk (fun _ ↦ True) c)
      (step .hasSyncedFuncs) fun (syncedFuncs : List Nat) c ↦ CacheInv c ∧
        ∀ gvk, known gvk → HasEntry gvk (·.informer ∈ syncedFuncs) c := by
    refine safe_step (stable_lasting (lasting_forall known fun gvk ↦ lasting_hasEntry gvk _))
      hlisted (fun c hc ↦ ⟨hc.1, readsSynced_of_none kind rfl c⟩) ?_
    intro c syncedFuncs c' hc hhandles gvk hgvk
    obtain ⟨⟨order, horder, rfl⟩, rfl⟩ := hhandles
    obtain ⟨entry, hentry, -⟩ := hc.2 gvk hgvk
    exact ⟨entry, hentry, mem_hasSyncedFuncs horder hentry⟩
  refine hfuncs.bind fun syncedFuncs P hP hlist ↦ ?_
  have hstart : Safe (cacheService indexerOf) CacheInv (callGuard kind) P
      (step .waitForStarted) fun (started : Bool) c ↦ CacheInv c ∧
        (started = true → c.informersMap.started = true) ∧
          ∀ gvk, known gvk → HasEntry gvk (·.informer ∈ syncedFuncs) c := by
    refine safe_step hP (fun started ↦ (lasting_started.imp _).and (hlisted syncedFuncs))
      (fun c hc ↦ ⟨(hlist c hc).1, readsSynced_of_none kind rfl c⟩) ?_
    intro c started c' hc hhandles
    obtain ⟨hstarted, rfl⟩ := hhandles
    exact ⟨hstarted, (hlist c' hc).2⟩
  refine hstart.bind fun started P hP hstarted ↦ ?_
  cases started with
  | false => exact safe_return hP fun c hc ↦ ⟨(hstarted c hc).1, fun h ↦ by cases h⟩
  | true =>
    refine safe_step hP (fun synced ↦ ?_)
      (fun c hc ↦ ⟨(hstarted c hc).1, readsSynced_of_none kind rfl c⟩) ?_
    · exact (lasting_started.and (lasting_forall known fun gvk ↦ lasting_hasSynced gvk _)).imp _
    · intro c synced c' hc hhandles hsynced
      obtain ⟨hall, rfl⟩ := hhandles
      obtain ⟨-, hmap, hlist⟩ := hstarted c' hc
      refine ⟨hmap rfl, fun gvk hgvk ↦ ?_⟩
      obtain ⟨entry, hentry, hmem⟩ := hlist gvk hgvk
      exact ⟨entry, hentry, trivial, hall hsynced _ hmem⟩

theorem safe_start (ks : Kind Err) :
    Safe (cacheService indexerOf) CacheInv (callGuard kind) (fun c ↦ CacheInv c ∧ True)
      (ks.start : Program (cacheCalls Rest Err) _) fun err c ↦ CacheInv c ∧
        (err = none → ∃ gvk, ks.groupVersionKind = some gvk ∧ HasEntry gvk (fun _ ↦ True) c) := by
  have hfail (err : Err) : Safe (cacheService indexerOf) CacheInv (callGuard kind)
      (fun c ↦ CacheInv c ∧ True) (.done (some err) : Program (cacheCalls Rest Err) _) fun err c ↦
        CacheInv c ∧
          (err = none → ∃ gvk, ks.groupVersionKind = some gvk ∧ HasEntry gvk (fun _ ↦ True) c) :=
    safe_return (stable_lasting (lasting_const True)) fun c hc ↦ ⟨hc.1, fun h ↦ by cases h⟩
  unfold Kind.start
  cases htype : ks.type with
  | none => exact hfail _
  | some type =>
    obtain ⟨gvkForObject, objType⟩ := type
    cases ks.hasCache with
    | false => exact hfail _
    | true =>
      refine (safe_getInformer gvkForObject).bind fun result P hP hresult ↦ ?_
      cases result with
      | error err => exact safe_return hP fun c hc ↦ ⟨(hresult c hc).1, fun h ↦ by cases h⟩
      | ok informer =>
        have hhandler : Safe (cacheService indexerOf) CacheInv (callGuard kind) P
            (step (.addEventHandler informer)) fun (_ : Unit) c ↦ CacheInv c ∧
              ∃ gvk, gvkForObject = .ok gvk ∧ HasEntry gvk (fun _ ↦ True) c := by
          refine safe_step hP (fun _ c c' hgrows h ↦ ?_)
            (fun c hc ↦ ⟨(hresult c hc).1, readsSynced_of_none kind rfl c⟩) ?_
          · obtain ⟨gvk, hgvk, hentry⟩ := h
            exact ⟨gvk, hgvk, lasting_hasEntry gvk _ c c' hgrows hentry⟩
          · intro c reply c' hc hhandles
            rw [show c' = c from hhandles]
            exact (hresult c hc).2 informer rfl
        refine hhandler.bind fun _ P hP hentry ↦ safe_return hP fun c hc ↦ ?_
        obtain ⟨hinv, gvk, hgvk, hhas⟩ := hentry c hc
        refine ⟨hinv, fun _ ↦ ⟨gvk, ?_, hhas⟩⟩
        rw [Kind.groupVersionKind, htype, hgvk]
        rfl

theorem safe_watch (ks : Kind Err) :
    Safe (cacheService indexerOf) CacheInv (callGuard kind) (fun c ↦ CacheInv c ∧ True)
      (ks.watch : Program (cacheCalls Rest Err) _) fun err c ↦ CacheInv c ∧
        (err = none → ∃ gvk, ks.groupVersionKind = some gvk ∧ HasSynced gvk (fun _ ↦ True) c) := by
  refine (safe_start ks).bind fun err P hP hstart ↦ ?_
  cases err with
  | some err => exact safe_return hP fun c hc ↦ ⟨(hstart c hc).1, fun h ↦ by cases h⟩
  | none =>
    have hsome : ∀ c, P c → ∃ gvk, ks.groupVersionKind = some gvk := by
      intro c hc
      obtain ⟨gvk, hgvk, -⟩ := (hstart c hc).2 rfl
      exact ⟨gvk, hgvk⟩
    refine Safe.assume hsome fun ⟨gvk, hgvk⟩ ↦ ?_
    have hwait : Safe (cacheService indexerOf) CacheInv (callGuard kind) P
        waitForCacheSync fun synced c ↦ CacheInv c ∧
          (synced = true → c.informersMap.started = true ∧
            ∀ known, known = gvk → HasSynced known (fun _ ↦ True) c) := by
      refine (safe_waitForCacheSync (· = gvk)).strengthen hP fun c hc ↦ ⟨(hstart c hc).1, ?_⟩
      intro known hknown
      obtain ⟨found, hfound, hentry⟩ := (hstart c hc).2 rfl
      have hsame : gvk = found := Option.some.inj (hgvk.symm.trans hfound)
      rw [hknown, hsame]
      exact hentry
    refine hwait.bind fun synced P hP hsynced ↦ ?_
    cases synced with
    | false => exact safe_return hP fun c hc ↦ ⟨(hsynced c hc).1, fun h ↦ by cases h⟩
    | true =>
      refine safe_return hP fun c hc ↦ ⟨(hsynced c hc).1, fun _ ↦ ⟨gvk, hgvk, ?_⟩⟩
      exact ((hsynced c hc).2 rfl).2 gvk rfl

/-- What a call has established when it returns: a source is ready only if the informer of its kind
has synced, and nobody stops waiting with success before the map has been started. -/
def Ready (kind : Option GroupVersionKind) (outcome : CacheOutcome Rest Err)
    (c : Cache Rest Err) : Prop :=
  (outcome = .watched none → ∃ gvk, kind = some gvk ∧ HasSynced gvk (fun _ ↦ True) c) ∧
    (outcome = .waited true → c.informersMap.started = true)

omit [CacheErrors Err] in
theorem ready_of_ne {kind : Option GroupVersionKind} {outcome : CacheOutcome Rest Err}
    (hwatched : outcome ≠ .watched none) (hwaited : outcome ≠ .waited true) (c : Cache Rest Err) :
    Ready kind outcome c :=
  ⟨fun h ↦ absurd h hwatched, fun h ↦ absurd h hwaited⟩

theorem safe_program (call : CacheCall Rest Err) :
    Safe (cacheService indexerOf) CacheInv (callGuard call.kind) (fun c ↦ CacheInv c ∧ True)
      call.program fun outcome c ↦ CacheInv c ∧ Ready call.kind outcome c := by
  cases call with
  | get gvkForObject key outType =>
    exact Safe.map ((safe_cacheGet gvkForObject key).weaken fun result c hc ↦
      ⟨hc.1, ready_of_ne (by nofun) (by nofun) c⟩)
  | list quote out setList opts =>
    exact Safe.map ((safe_cacheList quote out setList opts).weaken fun result c hc ↦
      ⟨hc.1, ready_of_ne (by nofun) (by nofun) c⟩)
  | getInformer gvkForObject objType =>
    exact Safe.map ((safe_getInformer gvkForObject).weaken fun result c hc ↦
      ⟨hc.1, ready_of_ne (by nofun) (by nofun) c⟩)
  | getInformerForKind gvk newObject =>
    apply Safe.map
    cases newObject with
    | error err =>
      exact safe_return (stable_lasting (lasting_const True)) fun c hc ↦
        ⟨hc.1, ready_of_ne (by nofun) (by nofun) c⟩
    | ok objType =>
      exact (safe_getInformer (.ok gvk)).weaken fun result c hc ↦
        ⟨hc.1, ready_of_ne (by nofun) (by nofun) c⟩
  | waitForCacheSync =>
    apply Safe.map
    apply Safe.weaken
    · apply (safe_waitForCacheSync fun _ ↦ False).strengthen
      · exact stable_lasting (lasting_const True)
      · exact fun c hc ↦ ⟨hc.1, fun _ h ↦ h.elim⟩
    · intro synced c hc
      refine ⟨hc.1, nofun, fun h ↦ ?_⟩
      exact (hc.2 (CacheOutcome.waited.inj h)).1
  | watch ks =>
    refine Safe.map ((safe_watch ks).weaken fun err c hc ↦ ⟨hc.1, fun h ↦ ?_, nofun⟩)
    exact hc.2 (CacheOutcome.watched.inj h)

end Calls

/-! ## Every interleaving -/

section Interleavings

variable [CacheErrors Err]

/-- A call of the cache, or an event, which reads nothing. -/
def callRole (kind : Option GroupVersionKind) :
    Role (cacheCalls Rest Err) (CacheOutcome Rest Err) (Cache Rest Err) where
  rely := Grows
  guard := callGuard kind
  post outcome c := CacheInv c ∧ Ready kind outcome c

/-- `Start` relies on nobody else to start the map. -/
def startCacheRole : Role (cacheCalls Rest Err) (CacheOutcome Rest Err) (Cache Rest Err) where
  rely c c' := CacheInv c' ∧ c'.informersMap.started = c.informersMap.started
  guard c request := (∃ stop, request = .inl (.start stop)) ∧ c.informersMap.started = false
  post _ _ := True

theorem CacheInv.called {c c' : Cache Rest Err} (h : CacheInv c)
    {kind : Option GroupVersionKind} {request : (cacheCalls Rest Err).Request}
    {reply : (cacheCalls Rest Err).Reply request} (hguard : callGuard kind c request)
    (hhandles : (cacheService indexerOf).Handles c request reply c') :
    Grows c c' ∧ c'.informersMap.started = c.informersMap.started := by
  cases request with
  | inl request => exact h.sections hguard hhandles
  | inr request => exact h.steps hhandles

theorem callRole_respects (kind kind' : Option GroupVersionKind) :
    (callRole kind : Role (cacheCalls Rest Err) _ _).Respects (cacheService indexerOf) CacheInv
      (callRole kind') :=
  fun _ _ _ _ hinv hguard hhandles ↦ (hinv.called hguard hhandles).1

theorem callRole_respects_startCacheRole (kind : Option GroupVersionKind) :
    (callRole kind : Role (cacheCalls Rest Err) _ _).Respects (cacheService indexerOf) CacheInv
      startCacheRole := by
  intro c request reply c' hinv hguard hhandles
  have hcalled := hinv.called hguard hhandles
  exact ⟨hcalled.1.inv, hcalled.2⟩

theorem startCacheRole_respects (kind : Option GroupVersionKind) :
    (startCacheRole : Role (cacheCalls Rest Err) _ _).Respects (cacheService indexerOf) CacheInv
      (callRole kind) := by
  intro c request reply c' hinv hguard hhandles
  obtain ⟨⟨stop, rfl⟩, hstarted⟩ := hguard
  exact (hinv.start hstarted hhandles).1

theorem startCacheRole_follows {c : Cache Rest Err} (hinv : CacheInv c)
    (hstarted : c.informersMap.started = false) (stop : Nat) :
    startCacheRole.Follows (cacheService indexerOf) CacheInv c
      (.call (S := cacheCalls Rest Err) (.inl (.start stop)) fun _ ↦ .done .executed) := by
  refine ⟨fun c ↦ CacheInv c ∧ c.informersMap.started = false, ?_, hinv, hstarted⟩
  refine .call (S := cacheCalls Rest Err) (fun _ ↦ CacheInv) ?_ ?_
    (fun _ _ _ hbreak ↦ hbreak.elim) ?_ fun _ ↦ ?_
  · exact fun c c' hc hrely ↦ ⟨hrely.1, hrely.2.trans hc.2⟩
  · exact fun c hc ↦ ⟨hc.1, ⟨stop, rfl⟩, hc.2⟩
  · exact fun c reply c' hc hhandles ↦ (hc.1.start hc.2 hhandles).1.inv
  · exact .done (fun c c' _ hrely ↦ hrely.1) fun c hc ↦ ⟨hc, trivial⟩

theorem callRole_follows {c : Cache Rest Err} (hinv : CacheInv c) (call : CacheCall Rest Err) :
    (callRole call.kind).Follows (cacheService indexerOf) CacheInv c call.program :=
  ⟨_, safe_program call, hinv, trivial⟩

theorem callRole_follows_event {c : Cache Rest Err} (hinv : CacheInv c)
    (event : InformerEvent Rest Err) :
    (callRole none).Follows (cacheService indexerOf) CacheInv c
      ((step (.event event)).map fun _ ↦ .executed) := by
  refine ⟨fun c ↦ CacheInv c ∧ True, Safe.map ?_, hinv, trivial⟩
  have hstep : Safe (cacheService indexerOf) CacheInv (callGuard none)
      (fun c ↦ CacheInv c ∧ True) (step (.event event)) fun _ c ↦ CacheInv c ∧ True :=
    safe_step (stable_lasting (lasting_const True)) (fun _ ↦ lasting_const True)
      (fun c hc ↦ ⟨hc.1, readsSynced_of_none none rfl c⟩) fun _ _ _ _ _ ↦ trivial
  exact hstep.weaken fun _ c hc ↦ ⟨hc.1, ready_of_ne (by nofun) (by nofun) c⟩

omit [CacheErrors Err] in
theorem cacheInv_cachePool (ns : String) (indexers : Nat → Indexer Rest Err) :
    CacheInv ⟨newInformersMap ns, [], indexers⟩ :=
  ⟨consistent_newInformersMap ns, fun _ h ↦ by cases h⟩

variable {ns : String} {stop : Nat} {indexers : Nat → Indexer Rest Err}
  {calls : List (CacheCall Rest Err)} {events : List (InformerEvent Rest Err)}
  {pool : Pool (cacheCalls Rest Err) (CacheOutcome Rest Err) (Cache Rest Err)}

/-- The roles of the goroutines, in their order. -/
def cacheRoles (calls : List (CacheCall Rest Err)) (events : List (InformerEvent Rest Err)) :
    List (Role (cacheCalls Rest Err) (CacheOutcome Rest Err) (Cache Rest Err)) :=
  startCacheRole :: (calls.map CacheCall.kind ++ events.map fun _ ↦ none).map callRole

theorem cachePool_follow
    (h : PoolReaches (cacheService indexerOf) (cachePool ns stop indexers calls events) pool) :
    List.Forall₂ (fun role ↦ role.Follows (cacheService indexerOf) CacheInv pool.state)
      (cacheRoles calls events) pool.members := by
  have hinv := cacheInv_cachePool ns indexers
  refine h.follow (List.pairwise_cons.mpr ⟨?_, ?_⟩) (.cons ?_ ?_)
  · intro role hrole
    obtain ⟨kind, -, rfl⟩ := List.mem_map.mp hrole
    exact ⟨startCacheRole_respects kind, callRole_respects_startCacheRole kind⟩
  · exact List.pairwise_map.mpr (List.pairwise_of_forall fun kind kind' ↦
      ⟨callRole_respects kind kind', callRole_respects kind' kind⟩)
  · exact startCacheRole_follows hinv rfl stop
  · rw [List.map_append, List.map_map, List.map_map]
    refine List.rel_append ?_ ?_
    · exact List.forall₂_map_left_iff.mpr (List.forall₂_map_right_iff.mpr
        (List.forall₂_same.mpr fun call _ ↦ callRole_follows hinv call))
    · exact List.forall₂_map_left_iff.mpr (List.forall₂_map_right_iff.mpr
        (List.forall₂_same.mpr fun event _ ↦ callRole_follows_event hinv event))

theorem follows_of_getElem?
    (h : PoolReaches (cacheService indexerOf) (cachePool ns stop indexers calls events) pool)
    {i : ℕ} {call : CacheCall Rest Err} (hcall : calls[i]? = some call)
    {member : Program (cacheCalls Rest Err) (CacheOutcome Rest Err)}
    (hmember : pool.members[i + 1]? = some member) :
    (callRole call.kind).Follows (cacheService indexerOf) CacheInv pool.state member := by
  have hroles : (cacheRoles calls events)[i + 1]? = some (callRole call.kind) := by
    obtain ⟨hlength, rfl⟩ := List.getElem?_eq_some_iff.mp hcall
    simp [cacheRoles, List.getElem?_append_left, hlength]
  obtain ⟨hi, hrole⟩ := List.getElem?_eq_some_iff.mp hroles
  obtain ⟨hi', hprogram⟩ := List.getElem?_eq_some_iff.mp hmember
  have hfollows := (List.forall₂_iff_get.mp (cachePool_follow h)).2 (i + 1) hi hi'
  rw [List.get_eq_getElem, List.get_eq_getElem, hrole, hprogram] at hfollows
  exact hfollows

/-- The entry is the one of the kind, and its informer has been run and has synced. A stop of the
informers is not followed here. -/
def Serves (c : Cache Rest Err) (kind : Option GroupVersionKind) (entry : MapEntry Rest Err) :
    Prop :=
  ∃ gvk, kind = some gvk ∧ c.informersMap.informersByGVK.lookup gvk = some entry ∧
    entry.informer ∈ c.informersMap.runs.map Prod.fst ∧ entry.informer ∈ c.synced

omit [CacheErrors Err] in
theorem CacheInv.serves {c : Cache Rest Err} (h : CacheInv c) {kind : Option GroupVersionKind}
    {P : MapEntry Rest Err → Prop} (hsynced : ∃ gvk, kind = some gvk ∧ HasSynced gvk P c) :
    ∃ entry, P entry ∧ Serves c kind entry := by
  obtain ⟨gvk, hgvk, entry, hentry, hP, hmem⟩ := hsynced
  exact ⟨entry, hP, gvk, hgvk, hentry, h.synced_run _ hmem, hmem⟩

/-- **Reads.** At any point of any interleaving of the calls with the start of the cache and with
the events of the informers: a call that is about to read does so from the informer of the kind it
was asked for, and that informer was run and has synced; a source is ready only if the same holds
of the informer of its kind; and waiting for the caches succeeds only after the start. -/
theorem cache_reads_synced (indexerOf : Nat → Indexer Rest Err) (ns : String) (stop : Nat)
    (indexers : Nat → Indexer Rest Err) (calls : List (CacheCall Rest Err))
    (events : List (InformerEvent Rest Err))
    (pool : Pool (cacheCalls Rest Err) (CacheOutcome Rest Err) (Cache Rest Err))
    (h : PoolReaches (cacheService indexerOf) (cachePool ns stop indexers calls events) pool)
    (i : ℕ) (call : CacheCall Rest Err) (hcall : calls[i]? = some call)
    (member : Program (cacheCalls Rest Err) (CacheOutcome Rest Err))
    (hmember : pool.members[i + 1]? = some member) :
    (∀ request next entry, member = .call (.inr request) next →
        request.readsFrom = some entry → Serves pool.state call.kind entry) ∧
      (member = .done (.watched none) → ∃ entry, Serves pool.state call.kind entry) ∧
      (member = .done (.waited true) → pool.state.informersMap.started = true) := by
  have hfollows := follows_of_getElem? h hcall hmember
  have hinv := hfollows.inv
  refine ⟨fun request next entry hread hentry ↦ ?_, fun hwatched ↦ ?_, fun hwaited ↦ ?_⟩
  · rw [hread] at hfollows
    obtain ⟨found, hfound, hserves⟩ := hinv.serves (hfollows.guarded entry hentry)
    rw [← hfound]
    exact hserves
  · rw [hwatched] at hfollows
    obtain ⟨found, -, hserves⟩ := hinv.serves (hfollows.returned.2.1 rfl)
    exact ⟨found, hserves⟩
  · rw [hwaited] at hfollows
    exact hfollows.returned.2.2 rfl

end Interleavings

/-- A pod is read, and a source of pods is watched. -/
def podCalls : List (CacheCall Unit GoError) :=
  [.get (.ok podKind) ⟨"", "web"⟩ "*v1.Pod", .watch ⟨some (.ok podKind, "*v1.Pod"), true⟩]

def startedCache : Cache Unit GoError :=
  ⟨(newInformersMap "").startSection 7 [], [], emptyIndexer⟩

/-- The started cache with the informer of pods, before or after it has synced. -/
def podCache (synced : List Nat) : Cache Unit GoError :=
  ⟨startedCache.informersMap.added emptyIndexer podKind, synced, emptyIndexer⟩

/-- The read misses the kind and adds its informer, which syncs while the read waits for it. The
source finds the informer. -/
theorem cache_reads_synced_pod :
    ∃ pool : Pool (cacheCalls Unit GoError) (CacheOutcome Unit GoError) (Cache Unit GoError),
      PoolReaches (cacheService emptyIndexer)
        (cachePool "" 7 emptyIndexer podCalls [.synced 0]) pool ∧
      (∃ next, pool.members[1]? =
        some (.call (.inr (.readerGet podEntry ⟨"", "web"⟩ "*v1.Pod")) next)) ∧
      Serves pool.state (some podKind) podEntry ∧
      pool.members[2]? = some (.done (.watched none)) := by
  have hstart : (cacheService emptyIndexer).Handles ⟨newInformersMap "", [], emptyIndexer⟩
      (.inl (.start 7)) () startedCache := ⟨⟨[], .refl _, rfl⟩, trivial, rfl⟩
  have hmiss : (cacheService emptyIndexer).Handles startedCache (.inl (.read podKind))
      (none, true) startedCache := ⟨⟨rfl, rfl⟩, trivial, rfl⟩
  have hadd : (cacheService emptyIndexer).Handles startedCache (.inl (.add podKind))
      (.ok podEntry, true) (podCache []) := ⟨⟨none, rfl⟩, trivial, rfl⟩
  have hnot : (cacheService emptyIndexer).Handles (podCache []) (.inl (.hasSynced 0)) false
      (podCache []) := ⟨rfl, rfl, rfl⟩
  have hrun : 0 ∈ (podCache []).informersMap.runs.map Prod.fst := List.mem_cons_self
  have hsync : (cacheService emptyIndexer).Handles (podCache []) (.inr (.event (.synced 0))) ()
      (podCache [0]) := ⟨hrun, rfl⟩
  have hwait : (cacheService emptyIndexer).Handles (podCache [0]) (.inl (.waitForCacheSync 0)) true
      (podCache [0]) := ⟨rfl, fun _ ↦ List.mem_cons_self, rfl⟩
  have hfind : (cacheService emptyIndexer).Handles (podCache [0]) (.inl (.read podKind))
      (some podEntry, true) (podCache [0]) := ⟨⟨rfl, rfl⟩, trivial, rfl⟩
  have hsynced : (cacheService emptyIndexer).Handles (podCache [0]) (.inl (.hasSynced 0)) true
      (podCache [0]) := ⟨rfl, rfl, rfl⟩
  have hwatch : Advances (cacheService emptyIndexer) (podCache [0])
      (CacheCall.program (.watch ⟨some (.ok podKind, "*v1.Pod"), true⟩)) (podCache [0])
      (.done (.watched none)) := by
    refine .call hfind (.call hsynced ?_)
    refine @Advances.call (cacheCalls _ _) _ _ _ _ (.inr (.addEventHandler 0)) () _ _ _ _ rfl ?_
    refine @Advances.call (cacheCalls _ _) _ _ _ _ (.inr .hasSyncedFuncs) [0] _ _ _ _
      ⟨⟨[podKind], .refl _, rfl⟩, rfl⟩ ?_
    refine @Advances.call (cacheCalls _ _) _ _ _ _ (.inr .waitForStarted) true _ _ _ _
      ⟨fun _ ↦ rfl, rfl⟩ ?_
    refine @Advances.call (cacheCalls _ _) _ _ _ _ (.inr (.waitForCacheSync [0])) true _ _ _ _
      ⟨fun _ informer h ↦ h, rfl⟩ ?_
    exact .refl
  have hreaches : PoolReaches (cacheService emptyIndexer)
      (cachePool "" 7 emptyIndexer podCalls [.synced 0])
      ⟨[.done .executed, .call (.inr (.readerGet podEntry ⟨"", "web"⟩ "*v1.Pod")) fun result ↦
        .done (.got result), .done (.watched none), .done .executed], podCache [0]⟩ := by
    refine .head (@PoolStep.call (cacheCalls _ _) _ _ _ [] [_, _, _] _ _ _ _ _ hstart) ?_
    refine .head (@PoolStep.call (cacheCalls _ _) _ _ _ [_] [_, _] _ _ _ _ _ hmiss) ?_
    refine .head (@PoolStep.call (cacheCalls _ _) _ _ _ [_] [_, _] _ _ _ _ _ hadd) ?_
    refine .head (@PoolStep.call (cacheCalls _ _) _ _ _ [_] [_, _] _ _ _ _ _ hnot) ?_
    refine .head (@PoolStep.call (cacheCalls _ _) _ _ _ [_, _, _] [] _ _ _ _ _ hsync) ?_
    refine .head (@PoolStep.call (cacheCalls _ _) _ _ _ [_] [_, _] _ _ _ _ _ hwait) ?_
    exact hwatch.poolReaches [_, _] [_]
  have hread := cache_reads_synced emptyIndexer "" 7 emptyIndexer podCalls [.synced 0] _ hreaches 0
    _ rfl _ rfl
  exact ⟨_, hreaches, ⟨_, rfl⟩, hread.1 _ _ podEntry rfl rfl, rfl⟩

end OperatorToolkit.Informer
