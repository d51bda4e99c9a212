import OperatorToolkit.Informer.InformersMap

/-!
# One informer for each kind

However the `Get` calls and the `Start` of an informers map interleave, a kind has one informer, and
every `Get` that succeeds returns its entry. An informer created before `Start` is run by it, one
created later is run when it is created, and none is run twice. The invariant says that the created
informers are those in the map and that the started flag decides which of them have been run; it
holds together with the roles of the goroutines, of which only `Start` changes the flag.
-/

namespace OperatorToolkit.Informer

open Object Grouping Interaction

variable {Rest Err : Type} {m m' : InformersMap Rest Err}

structure Consistent (m : InformersMap Rest Err) : Prop where
  created_nodup : m.created.Nodup
  mem_created_iff : ∀ gvk, gvk ∈ m.created ↔ (m.informersByGVK.lookup gvk).isSome
  created_informer : ∀ gvk i, m.informersByGVK.lookup gvk = some i →
    m.created[i.informer]? = some gvk
  runs_nodup : (m.runs.map Prod.fst).Nodup
  mem_runs_iff : ∀ n, n ∈ m.runs.map Prod.fst ↔ m.started ∧ n < m.created.length

/-- Entries stay in the map. -/
def Extends (m m' : InformersMap Rest Err) : Prop :=
  ∀ gvk i, m.informersByGVK.lookup gvk = some i → m'.informersByGVK.lookup gvk = some i

theorem consistent_newInformersMap (ns : String) :
    Consistent (newInformersMap ns : InformersMap Rest Err) where
  created_nodup := List.nodup_nil
  mem_created_iff gvk := by simp [newInformersMap, OrderedMap.empty]
  created_informer gvk i h := by simp [newInformersMap, OrderedMap.empty] at h
  runs_nodup := List.nodup_nil
  mem_runs_iff n := by simp [newInformersMap]

/-! ## The section that adds an informer -/

/-- The map with a new informer for the kind. -/
def InformersMap.added (indexerOf : Nat → Indexer Rest Err) (m : InformersMap Rest Err)
    (gvk : GroupVersionKind) : InformersMap Rest Err :=
  { m with
    informersByGVK := m.informersByGVK.upsert gvk fun _ ↦
      newMapEntry indexerOf m.ns gvk m.created.length
    created := m.created ++ [gvk]
    runs := if m.started then m.runs ++ [(m.created.length, m.stop)] else m.runs }

theorem addInformerToMap_cases {indexerOf : Nat → Indexer Rest Err} {gvk : GroupVersionKind}
    {createListWatcher : Option Err} {reply : Except Err (MapEntry Rest Err) × Bool}
    (h : m.addInformerToMap indexerOf gvk createListWatcher = (reply, m')) :
    (m' = m ∧ ∀ i, reply.1 = .ok i → m.informersByGVK.lookup gvk = some i) ∨
      (m.informersByGVK.lookup gvk = none ∧ m' = m.added indexerOf gvk ∧
        reply.1 = .ok (newMapEntry indexerOf m.ns gvk m.created.length)) := by
  unfold InformersMap.addInformerToMap at h
  split at h
  next i hi =>
    cases h
    exact .inl ⟨rfl, by simp [hi]⟩
  next hnone =>
    split at h
    next err =>
      cases h
      exact .inl ⟨rfl, by simp⟩
    next =>
      cases h
      exact .inr ⟨hnone, rfl, rfl⟩

theorem lookup_added (indexerOf : Nat → Indexer Rest Err) (gvk : GroupVersionKind) :
    (m.added indexerOf gvk).informersByGVK.lookup = Function.update m.informersByGVK.lookup gvk
      (some (newMapEntry indexerOf m.ns gvk m.created.length)) :=
  rfl

theorem extends_added {indexerOf : Nat → Indexer Rest Err} {gvk : GroupVersionKind}
    (hnone : m.informersByGVK.lookup gvk = none) : Extends m (m.added indexerOf gvk) := by
  intro gvk' i hi
  have hne : gvk' ≠ gvk := by
    rintro rfl
    rw [hnone] at hi
    cases hi
  rw [lookup_added, Function.update_of_ne hne, hi]

theorem runs_added (indexerOf : Nat → Indexer Rest Err) (gvk : GroupVersionKind) :
    (m.added indexerOf gvk).runs.map Prod.fst = m.runs.map Prod.fst ++
      if m.started then [m.created.length] else [] := by
  unfold InformersMap.added
  cases m.started <;> simp

theorem Consistent.added (h : Consistent m) {indexerOf : Nat → Indexer Rest Err}
    {gvk : GroupVersionKind} (hnone : m.informersByGVK.lookup gvk = none) :
    Consistent (m.added indexerOf gvk) := by
  have hnew : gvk ∉ m.created := by
    rw [h.mem_created_iff, hnone]
    simp
  refine ⟨?_, fun gvk' ↦ ?_, fun gvk' i hi ↦ ?_, ?_, fun n ↦ ?_⟩
  · exact h.created_nodup.append (List.nodup_singleton gvk) (by simpa using hnew)
  · rw [lookup_added, InformersMap.added, List.mem_append, h.mem_created_iff, List.mem_singleton]
    by_cases hgvk : gvk' = gvk
    · simp [hgvk]
    · simp [hgvk]
  · rw [lookup_added] at hi
    by_cases hgvk : gvk' = gvk
    · subst hgvk
      rw [Function.update_self, Option.some.injEq] at hi
      simp [← hi, newMapEntry, InformersMap.added]
    · rw [Function.update_of_ne hgvk] at hi
      have hold := h.created_informer gvk' i hi
      rw [InformersMap.added, List.getElem?_append_left, hold]
      exact (List.getElem?_eq_some_iff.mp hold).1
  · rw [runs_added]
    split
    next hstarted =>
      refine h.runs_nodup.append (List.nodup_singleton _) ?_
      simp [h.mem_runs_iff]
    next => simpa using h.runs_nodup
  · rw [runs_added]
    have hruns := h.mem_runs_iff n
    cases hstarted : m.started
    · simpa [hstarted, InformersMap.added] using hruns
    · simp only [hstarted, true_and, if_true, List.mem_append, List.mem_singleton,
        InformersMap.added, List.length_append, List.length_singleton] at hruns ⊢
      rw [hruns]
      omega

/-! ## The section of `Start` -/

theorem Consistent.informer_inj (h : Consistent m) {gvk gvk' : GroupVersionKind}
    {i i' : MapEntry Rest Err} (hi : m.informersByGVK.lookup gvk = some i)
    (hi' : m.informersByGVK.lookup gvk' = some i') (heq : i.informer = i'.informer) :
    gvk = gvk' := by
  have hgvk := h.created_informer gvk i hi
  rw [heq, h.created_informer gvk' i' hi'] at hgvk
  exact (Option.some.inj hgvk).symm

/-- The created informers are those in the map. -/
theorem Consistent.lt_created_iff (h : Consistent m) (n : Nat) :
    n < m.created.length ↔ ∃ gvk i, m.informersByGVK.lookup gvk = some i ∧ i.informer = n := by
  constructor
  · intro hn
    have hgvk : m.created[n] ∈ m.created := List.getElem_mem hn
    obtain ⟨i, hi⟩ := Option.isSome_iff_exists.mp ((h.mem_created_iff _).mp hgvk)
    have hinformer := h.created_informer _ i hi
    obtain ⟨hlt, heq⟩ := List.getElem?_eq_some_iff.mp hinformer
    exact ⟨_, i, hi, (h.created_nodup.getElem_inj_iff).mp heq⟩
  · rintro ⟨gvk, i, hi, rfl⟩
    exact (List.getElem?_eq_some_iff.mp (h.created_informer gvk i hi)).1

theorem Consistent.runs_eq_nil (h : Consistent m) (hstarted : m.started = false) : m.runs = [] := by
  have hnone : m.runs.map Prod.fst = [] :=
    List.eq_nil_iff_forall_not_mem.mpr fun n hn ↦ by simpa [hstarted] using (h.mem_runs_iff n).mp hn
  simpa using hnone

theorem runs_startSection (m : InformersMap Rest Err) (stop : Nat) (order : List GroupVersionKind) :
    (m.startSection stop order).runs.map Prod.fst = m.runs.map Prod.fst ++
      order.filterMap fun gvk ↦ (m.informersByGVK.lookup gvk).map (·.informer) := by
  simp [InformersMap.startSection, List.map_filterMap, Function.comp_def]

/-- Executed once, `Start` runs each informer of the map, in whatever order. -/
theorem Consistent.startSection (h : Consistent m) (hstarted : m.started = false) (stop : Nat)
    {order : List GroupVersionKind} (horder : order.Perm m.informersByGVK.order) :
    Consistent (m.startSection stop order) := by
  refine ⟨h.created_nodup, h.mem_created_iff, h.created_informer, ?_, fun n ↦ ?_⟩
  · rw [runs_startSection, h.runs_eq_nil hstarted, List.map_nil, List.nil_append]
    refine List.Nodup.filterMap (fun gvk gvk' n hn hn' ↦ ?_)
      (horder.nodup_iff.mpr m.informersByGVK.nodup_order)
    obtain ⟨i, hi, rfl⟩ := Option.map_eq_some_iff.mp hn
    obtain ⟨i', hi', heq⟩ := Option.map_eq_some_iff.mp hn'
    exact h.informer_inj hi hi' heq.symm
  · rw [runs_startSection, h.runs_eq_nil hstarted, List.map_nil, List.nil_append,
      List.mem_filterMap]
    have hlisted (gvk : GroupVersionKind) {i : MapEntry Rest Err}
        (hi : m.informersByGVK.lookup gvk = some i) : gvk ∈ order :=
      horder.mem_iff.mpr ((m.informersByGVK.mem_order_iff gvk).mpr (by rw [hi]; rfl))
    calc (∃ gvk, gvk ∈ order ∧ (m.informersByGVK.lookup gvk).map (·.informer) = some n)
        ↔ ∃ gvk i, m.informersByGVK.lookup gvk = some i ∧ i.informer = n := by
          simp only [Option.map_eq_some_iff]
          exact exists_congr fun gvk ↦
            ⟨fun hgvk ↦ hgvk.2, fun ⟨i, hi, hn⟩ ↦ ⟨hlisted gvk hi, i, hi, hn⟩⟩
      _ ↔ n < m.created.length := (h.lt_created_iff n).symm
      _ ↔ (m.startSection stop order).started ∧
            n < (m.startSection stop order).created.length := by
          simp [InformersMap.startSection]

/-! ## The roles of the goroutines -/

/-- The guard of every `Get`. -/
def NoStart (_ : InformersMap Rest Err) (request : Request) : Prop := ∀ stop, request ≠ .start stop

/-- A `Get` relies on the entries to stay, never starts the map, and succeeds with the entry of its
kind. -/
def getRole (gvk : GroupVersionKind) :
    Role (sections Rest Err) (Outcome Rest Err) (InformersMap Rest Err) where
  rely m m' := Consistent m' ∧ Extends m m'
  guard := NoStart
  post value m := Consistent m ∧ ∃ values, value = .got gvk values ∧
    ∀ i, values.2 = .ok i → m.informersByGVK.lookup gvk = some i

/-- `Start` relies on nobody else to start the map. -/
def startRole : Role (sections Rest Err) (Outcome Rest Err) (InformersMap Rest Err) where
  rely m m' := Consistent m' ∧ m'.started = m.started
  guard m request := (∃ stop, request = .start stop) ∧ m.started = false
  post value m := value = .startExecuted ∧ m.started = true

section Roles

variable {indexerOf : Nat → Indexer Rest Err}

/-- What the sections of `Get` do to the map. -/
theorem Consistent.handles (h : Consistent m) {request : Request} {reply : Reply Rest Err request}
    (hrequest : ∀ stop, request ≠ .start stop)
    (hhandles : (mapService indexerOf).Handles m request reply m') :
    Consistent m' ∧ Extends m m' ∧ m'.started = m.started := by
  have hsame : m' = m → Consistent m' ∧ Extends m m' ∧ m'.started = m.started := by
    rintro rfl
    exact ⟨h, fun _ _ ↦ id, rfl⟩
  cases request with
  | read gvk => exact hsame hhandles.2
  | add gvk =>
    obtain ⟨createListWatcher, hadd⟩ := hhandles
    rcases addInformerToMap_cases hadd with ⟨heq, -⟩ | ⟨hnone, rfl, -⟩
    · exact hsame heq
    · exact ⟨h.added hnone, extends_added hnone, rfl⟩
  | start stop => exact absurd rfl (hrequest stop)
  | hasSynced informer => exact hsame hhandles
  | waitForCacheSync informer => exact hsame hhandles

theorem startRole_respects_getRole (gvk : GroupVersionKind) :
    (startRole : Role (sections Rest Err) _ _).Respects (mapService indexerOf) Consistent
      (getRole gvk) := by
  rintro m request reply m' hm ⟨⟨stop, rfl⟩, hstarted⟩ ⟨order, horder, rfl⟩
  exact ⟨hm.startSection hstarted stop horder, fun _ _ ↦ id⟩

theorem getRole_respects_getRole (gvk gvk' : GroupVersionKind) :
    (getRole gvk : Role (sections Rest Err) _ _).Respects (mapService indexerOf) Consistent
      (getRole gvk') := by
  intro m request reply m' hm hguard hhandles
  obtain ⟨hm', hextends, -⟩ := hm.handles hguard hhandles
  exact ⟨hm', hextends⟩

theorem getRole_respects_startRole (gvk : GroupVersionKind) :
    (getRole gvk : Role (sections Rest Err) _ _).Respects (mapService indexerOf) Consistent
      startRole := by
  intro m request reply m' hm hguard hhandles
  obtain ⟨hm', -, hstarted⟩ := hm.handles hguard hhandles
  exact ⟨hm', hstarted⟩

/-- `Start` follows its role from a map that has not been started. -/
theorem startRole_follows (stop : Nat) (hm : Consistent m) (hstarted : m.started = false) :
    startRole.Follows (mapService indexerOf) Consistent m
      (.call (.start stop) fun _ ↦ .done .startExecuted) := by
  refine ⟨fun m ↦ Consistent m ∧ m.started = false, ?_, hm, hstarted⟩
  refine .call (fun _ m ↦ Consistent m ∧ m.started = true) ?_ ?_ ?_ ?_ fun _ ↦ ?_
  · exact fun m m' hm hrely ↦ ⟨hrely.1, hrely.2.trans hm.2⟩
  · exact fun m hm ↦ ⟨hm.1, ⟨stop, rfl⟩, hm.2⟩
  · exact fun _ _ _ hbreaks ↦ hbreaks.elim
  · rintro m reply m' ⟨hm, hstarted⟩ ⟨order, horder, rfl⟩
    exact ⟨hm.startSection hstarted stop horder, rfl⟩
  · exact .done (fun m m' hm hrely ↦ ⟨hrely.1, hrely.2.trans hm.2⟩) fun m hm ↦ ⟨hm.1, rfl, hm.2⟩

/-- A consistent map that holds what has been found for the kind. -/
def Found (gvk : GroupVersionKind) (found : MapEntry Rest Err → Prop) (m : InformersMap Rest Err) :
    Prop :=
  Consistent m ∧ ∀ i, found i → m.informersByGVK.lookup gvk = some i

/-- The sections for a `Get` among other goroutines. -/
def getService (indexerOf : Nat → Indexer Rest Err) :
    Service (sections Rest Err) (InformersMap Rest Err) :=
  { mapService indexerOf with Rely := fun m m' ↦ Consistent m' ∧ Extends m m' }

theorem stable_found (gvk : GroupVersionKind) (found : MapEntry Rest Err → Prop) :
    (getService indexerOf).Stable (Found gvk found) :=
  fun _ _ hm hrely ↦ ⟨hrely.1, fun i hi ↦ hrely.2 gvk i (hm.2 i hi)⟩

variable {α : Type} {gvk : GroupVersionKind} {Q : α → InformersMap Rest Err → Prop}

theorem safe_call {request : Request} (hrequest : ∀ stop, request ≠ .start stop)
    {found : MapEntry Rest Err → Prop} (found' : Reply Rest Err request → MapEntry Rest Err → Prop)
    (hfound : ∀ m reply m', Found gvk found m → (mapService indexerOf).Handles m request reply m' →
      ∀ i, found' reply i → m'.informersByGVK.lookup gvk = some i)
    {next : Reply Rest Err request → Program (sections Rest Err) α}
    (hnext : ∀ reply, Safe (getService indexerOf) Consistent NoStart (Found gvk (found' reply))
      (next reply) Q) :
    Safe (getService indexerOf) Consistent NoStart (Found gvk found) (.call request next) Q := by
  refine .call (fun reply ↦ Found gvk (found' reply)) (stable_found gvk found) ?_ ?_ ?_ hnext
  · exact fun m hm ↦ ⟨hm.1, hrequest⟩
  · exact fun _ _ _ hbreaks ↦ hbreaks.elim
  · exact fun m reply m' hm hhandles ↦
      ⟨(hm.1.handles hrequest hhandles).1, hfound m reply m' hm hhandles⟩

/-- The values of a `Get` that has succeeded hold the entry of the kind. -/
def Succeeds (gvk : GroupVersionKind) (values : GetReturn Rest Err) (m : InformersMap Rest Err) :
    Prop :=
  Found gvk (fun i ↦ values.2 = .ok i) m

theorem safe_done {found : MapEntry Rest Err → Prop} {values : GetReturn Rest Err}
    (hvalues : ∀ i, values.2 = .ok i → found i) :
    Safe (getService indexerOf) Consistent NoStart (Found gvk found) (.done values)
      (Succeeds gvk) :=
  .done (stable_found gvk found) fun _ hm ↦ ⟨hm.1, hm.1, fun i hi ↦ hm.2 i (hvalues i hi)⟩

variable [ApiErrors Err]

theorem safe_awaitSync (objType : String) (started : Bool) (i : MapEntry Rest Err) :
    Safe (getService indexerOf) Consistent NoStart (Found gvk (· = i)) (awaitSync objType started i)
      (Succeeds gvk) := by
  have hsame {request : Request} (hhandles : ∀ m reply m',
      (mapService indexerOf).Handles m request reply m' → m' = m) (m : InformersMap Rest Err)
      (reply : Reply Rest Err request) (m' : InformersMap Rest Err) (hm : Found gvk (· = i) m)
      (h : (mapService indexerOf).Handles m request reply m') (i' : MapEntry Rest Err)
      (hi' : i' = i) : m'.informersByGVK.lookup gvk = some i' := by
    rw [hhandles m reply m' h]
    exact hm.2 i' hi'
  have hdone : Safe (getService indexerOf) Consistent NoStart (Found gvk (· = i))
      (.done (started, .ok i)) (Succeeds gvk) :=
    safe_done fun i' hi' ↦ (Except.ok.inj hi').symm
  unfold awaitSync
  split
  · refine safe_call (fun _ ↦ Request.noConfusion) (fun _ ↦ (· = i))
      (hsame fun _ _ _ ↦ id) fun synced ↦ ?_
    split
    · exact hdone
    · refine safe_call (fun _ ↦ Request.noConfusion) (fun _ ↦ (· = i))
        (hsame fun _ _ _ ↦ id) fun synced ↦ ?_
      split
      · exact hdone
      · exact safe_done fun _ h ↦ by cases h
  · exact hdone

/-- Wherever the entry comes from, a successful `Get` returns the entry of the kind in the map. -/
theorem safe_get (objType : String) :
    Safe (getService indexerOf) Consistent NoStart (Found gvk fun _ ↦ False) (get gvk objType)
      (Succeeds gvk) := by
  refine safe_call (fun _ ↦ Request.noConfusion)
    (fun (reply : Option (MapEntry Rest Err) × Bool) i ↦ reply.1 = some i) ?_ fun reply ↦ ?_
  · rintro m reply m' hm ⟨rfl, rfl⟩ i hi
    exact hi
  obtain ⟨_ | i, started⟩ := reply
  · refine safe_call (fun _ ↦ Request.noConfusion)
      (fun (reply : Except Err (MapEntry Rest Err) × Bool) i ↦ reply.1 = .ok i) ?_ fun reply ↦ ?_
    · rintro m reply m' hm ⟨createListWatcher, hadd⟩ i hi
      rcases addInformerToMap_cases hadd with ⟨rfl, hlookup⟩ | ⟨-, rfl, hreply⟩
      · exact hlookup i hi
      · rw [lookup_added, Function.update_self, ← Except.ok.inj (hreply.symm.trans hi)]
    obtain ⟨err | i, started⟩ := reply
    · exact safe_done fun _ h ↦ by cases h
    · exact (safe_awaitSync objType started i).strengthen (stable_found gvk _)
        fun m hm ↦ ⟨hm.1, fun i' hi' ↦ hi' ▸ hm.2 i rfl⟩
  · exact (safe_awaitSync objType started i).strengthen (stable_found gvk _)
      fun m hm ↦ ⟨hm.1, fun i' hi' ↦ hi' ▸ hm.2 i rfl⟩

theorem getRole_follows (objType : String) (hm : Consistent m) :
    (getRole gvk).Follows (mapService indexerOf) Consistent m
      (get gvk objType >>= fun values ↦ .done (.got gvk values)) := by
  refine ⟨Found gvk fun _ ↦ False, (safe_get objType).bind fun values P hP hvalues ↦ ?_,
    hm, fun _ ↦ False.elim⟩
  exact .done hP fun m hm ↦ ⟨(hvalues m hm).1, (hvalues m hm).1, values, rfl, (hvalues m hm).2⟩

end Roles

/-! ## Every interleaving -/

section Interleavings

variable [ApiErrors Err] {indexerOf : Nat → Indexer Rest Err} {ns : String} {stop : Nat}
  {gets : List (GroupVersionKind × String)}
  {pool : Pool (sections Rest Err) (Outcome Rest Err) (InformersMap Rest Err)}

theorem goroutines_follow
    (h : PoolReaches (mapService indexerOf) (goroutines ns stop gets) pool) :
    List.Forall₂ (fun role ↦ role.Follows (mapService indexerOf) Consistent pool.state)
      (startRole :: gets.map fun call ↦ getRole call.1) pool.members := by
  have hnew : Consistent (newInformersMap ns : InformersMap Rest Err) :=
    consistent_newInformersMap ns
  refine h.follow (List.pairwise_cons.mpr ⟨?_, ?_⟩) (.cons ?_ ?_)
  · intro role hrole
    obtain ⟨call, -, rfl⟩ := List.mem_map.mp hrole
    exact ⟨startRole_respects_getRole call.1, getRole_respects_startRole call.1⟩
  · exact List.pairwise_map.mpr (List.pairwise_of_forall fun call call' ↦
      ⟨getRole_respects_getRole call.1 call'.1, getRole_respects_getRole call'.1 call.1⟩)
  · exact startRole_follows stop hnew rfl
  · exact List.forall₂_map_left_iff.mpr (List.forall₂_map_right_iff.mpr
      (List.forall₂_same.mpr fun call _ ↦ getRole_follows call.2 hnew))

theorem goroutines_consistent
    (h : PoolReaches (mapService indexerOf) (goroutines ns stop gets) pool) :
    Consistent pool.state := by
  obtain ⟨_, _, hfirst, -, -⟩ := List.forall₂_cons_left_iff.mp (goroutines_follow h)
  exact hfirst.inv

theorem lookup_of_got (h : PoolReaches (mapService indexerOf) (goroutines ns stop gets) pool)
    {gvk : GroupVersionKind} {started : Bool} {i : MapEntry Rest Err}
    (hgot : .done (.got gvk (started, .ok i)) ∈ pool.members) :
    pool.state.informersByGVK.lookup gvk = some i := by
  obtain ⟨role, hrole, hfollows⟩ := exists_left_of_forall₂ (goroutines_follow h) hgot
  have hpost := hfollows.returned
  rcases List.mem_cons.mp hrole with rfl | hrole
  · exact absurd hpost.1 (by simp)
  · obtain ⟨call, -, rfl⟩ := List.mem_map.mp hrole
    obtain ⟨-, values, hvalues, hlookup⟩ := hpost
    obtain ⟨rfl, rfl⟩ := Outcome.got.inj hvalues
    exact hlookup i rfl

theorem started_of_startExecuted
    (h : PoolReaches (mapService indexerOf) (goroutines ns stop gets) pool)
    (hstart : .done .startExecuted ∈ pool.members) : pool.state.started = true := by
  obtain ⟨role, hrole, hfollows⟩ := exists_left_of_forall₂ (goroutines_follow h) hstart
  have hpost := hfollows.returned
  rcases List.mem_cons.mp hrole with rfl | hrole
  · exact hpost.2
  · obtain ⟨call, -, rfl⟩ := List.mem_map.mp hrole
    obtain ⟨-, values, hvalues, -⟩ := hpost
    cases hvalues

/-- **Coherence.** At any point of any interleaving: no kind has got a second informer; the `Get`
calls for a kind agree; no informer has been run twice, and once `Start` has been executed all of
them have been run; and a list watcher that cannot be created leaves the map as it is. -/
theorem informers_coherent (indexerOf : Nat → Indexer Rest Err) (ns : String) (stop : Nat)
    (gets : List (GroupVersionKind × String))
    (pool : Pool (sections Rest Err) (Outcome Rest Err) (InformersMap Rest Err))
    (h : PoolReaches (mapService indexerOf) (goroutines ns stop gets) pool) :
    (∀ gvk, pool.state.created.count gvk ≤ 1) ∧
      (∀ gvk i, pool.state.informersByGVK.lookup gvk = some i →
        pool.state.created[i.informer]? = some gvk) ∧
      (∀ gvk started started' i i', .done (.got gvk (started, .ok i)) ∈ pool.members →
        .done (.got gvk (started', .ok i')) ∈ pool.members → i = i') ∧
      (∀ n, (pool.state.runs.map Prod.fst).count n ≤ 1) ∧
      (.done .startExecuted ∈ pool.members → ∀ gvk i,
        pool.state.informersByGVK.lookup gvk = some i →
        (pool.state.runs.map Prod.fst).count i.informer = 1) ∧
      (∀ gvk err, (pool.state.addInformerToMap indexerOf gvk (some err)).2 = pool.state) := by
  have hm := goroutines_consistent h
  refine ⟨List.nodup_iff_count_le_one.mp hm.created_nodup, hm.created_informer, ?_,
    List.nodup_iff_count_le_one.mp hm.runs_nodup, fun hstart gvk i hi ↦ ?_, fun gvk err ↦ ?_⟩
  · intro gvk started started' i i' hi hi'
    exact Option.some.inj ((lookup_of_got h hi).symm.trans (lookup_of_got h hi'))
  · refine List.count_eq_one_of_mem hm.runs_nodup ((hm.mem_runs_iff _).mpr ⟨?_, ?_⟩)
    · exact started_of_startExecuted h hstart
    · exact (hm.lt_created_iff _).mpr ⟨gvk, i, hi, rfl⟩
  · unfold InformersMap.addInformerToMap
    split <;> rfl

end Interleavings

/-- Informers that hold nothing yet. -/
def emptyIndexer (_ : Nat) : Indexer Unit GoError := Indexer.ofObjects namespaceIndexers []

def podKind : GroupVersionKind := ⟨"", "v1", "Pod"⟩

def podEntry : MapEntry Unit GoError := newMapEntry emptyIndexer "" podKind 0

/-- Two `Get` calls have both missed the kind; one has added the informer before `Start`, the other
one has come to its second section after it. -/
def racedPool :
    Pool (sections Unit GoError) (Outcome Unit GoError) (InformersMap Unit GoError) where
  members := [.done .startExecuted, .done (.got podKind (false, .ok podEntry)),
    .done (.got podKind (true, .ok podEntry))]
  state := ((newInformersMap "").added emptyIndexer podKind).startSection 7 [podKind]

theorem poolReaches_racedPool :
    PoolReaches (mapService emptyIndexer)
      (goroutines "" 7 [(podKind, "*v1.Pod"), (podKind, "*v1.Pod")]) racedPool := by
  refine .head (@PoolStep.call (sections _ _) _ _ _ [_] [_] (.read podKind) _ (none, false) _ _
    ⟨rfl, rfl⟩) ?_
  refine .head (@PoolStep.call (sections _ _) _ _ _ [_, _] [] (.read podKind) _ (none, false) _ _
    ⟨rfl, rfl⟩) ?_
  refine .head (@PoolStep.call (sections _ _) _ _ _ [_] [_] (.add podKind) _ _ _ _ ⟨none, rfl⟩) ?_
  refine .head (@PoolStep.call (sections _ _) _ _ _ [] [_, _] (.start 7) _ () _ _
    ⟨[podKind], .refl _, rfl⟩) ?_
  refine .head (@PoolStep.call (sections _ _) _ _ _ [_, _] [] (.add podKind) _ _ _ _ ⟨none, rfl⟩) ?_
  refine .head (@PoolStep.call (sections _ _) _ _ _ [_, _] [] (.hasSynced 0) _ true _ _ rfl) ?_
  exact .refl

theorem informers_coherent_racedPool :
    racedPool.state.created.count podKind ≤ 1 ∧
      (racedPool.state.runs.map Prod.fst).count podEntry.informer = 1 :=
  have h := informers_coherent emptyIndexer "" 7 [(podKind, "*v1.Pod"), (podKind, "*v1.Pod")]
    racedPool poolReaches_racedPool
  ⟨h.1 podKind, h.2.2.2.2.1 List.mem_cons_self podKind podEntry rfl⟩

end OperatorToolkit.Informer
