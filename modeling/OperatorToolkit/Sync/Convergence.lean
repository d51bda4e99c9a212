import OperatorToolkit.Interaction.Sum
import OperatorToolkit.Sync.Collector

/-!
# The external system of a settled cluster

Once the k8s objects have stopped changing, reconciliations and garbage collections bring the
external system in line with them, however their calls interleave: a reconciliation of an existing
object is never undone, and what a collection removes is never made again. Calls of reconciliations
may fail; those of collections may not, since a collection does not report its failures.
-/

namespace OperatorToolkit.Sync

open Interaction Object

variable {Content Err : Type}

/-- The reply does not report a failure. -/
def Succeeds : (request : CollectorRequest Content) → (collectorCalls Content Err).Reply request →
    Prop
  | .list, reply => ∃ instances, reply = .ok instances
  | .listExternal, reply => ∃ names, reply = .ok names
  | .delete _, reply => reply = none

/-- What a call may change in a settled cluster: it leaves the external objects of existing k8s
objects, and adds no others. -/
structure Tidies (s s' : World Content Err) : Prop where
  objects_eq : s'.objects = s.objects
  kept : ∀ n ∈ s.names, n ∈ s.external → n ∈ s'.external
  added : ∀ n ∈ s'.external, n ∈ s.external ∨ n ∈ s.names

def faultlessCollector : Service (collectorCalls Content Err) (World Content Err) where
  Handles s request reply s' := CollectorAnswers s request reply s' ∧ Succeeds request reply
  Breaks _ _ _ := False
  Rely := Tidies

def syncService : Service (syncCalls Content Err) (World Content Err) where
  Handles := SyncAnswers
  Breaks _ _ _ := False
  Rely := Tidies

/-- Both kinds of calls, with nothing else going on. -/
def settledService :
    Service ((collectorCalls Content Err).sum (syncCalls Content Err)) (World Content Err) :=
  faultlessCollector.sum syncService Tidies

/-- How a collection or a reconciliation has ended. -/
inductive Ended (Err : Type) where
  | collected
  | reconciled (req : NamespacedName) (result : Result) (err : Option Err)

section Pool

variable [ErrorValues Err] (r : Reconciler Content Err)

def collection :
    Program ((collectorCalls Content Err).sum (syncCalls Content Err)) (Ended Err) :=
  r.collectGarbage.inl.map fun _ ↦ .collected

def reconciliation (req : NamespacedName) :
    Program ((collectorCalls Content Err).sum (syncCalls Content Err)) (Ended Err) :=
  (r.reconcile req).inr.map fun returned ↦ .reconciled req returned.1 returned.2

/-- Any number of collections and of reconciliations, all of them at their first call. -/
def syncPool (collections : ℕ) (reqs : List NamespacedName) (s : World Content Err) :
    Pool ((collectorCalls Content Err).sum (syncCalls Content Err)) (Ended Err)
      (World Content Err) where
  members := List.replicate collections (collection r) ++ reqs.map (reconciliation r)
  state := s

end Pool

/-! ## Calls that agree with the cluster -/

/-- Only names without a k8s object are deleted. -/
def CollectsOrphans (s : World Content Err) : CollectorRequest Content → Prop
  | .delete obj => obj.namespacedName ∉ s.names
  | _ => True

/-- Existing objects are ensured, and the others are deleted. -/
def SyncsObjects (s : World Content Err) : SyncRequest Content → Prop
  | .get _ => True
  | .ensure obj => obj.namespacedName ∈ s.names
  | .delete obj => obj.namespacedName ∉ s.names

variable {s s' : World Content Err} {objects : List (NamedObject Content)}

theorem Tidies.refl (s : World Content Err) : Tidies s s :=
  ⟨rfl, fun _ _ h ↦ h, fun _ h ↦ .inl h⟩

theorem Tidies.names_eq (h : Tidies s s') : s'.names = s.names :=
  congrArg (List.map _) h.objects_eq

theorem tidies_ensured {n : NamespacedName} (hn : n ∈ s.names) : Tidies s (s.ensured n) := by
  refine ⟨rfl, fun n' _ hn' ↦ ?_, fun n' hn' ↦ ?_⟩
  · unfold World.ensured
    split
    · exact hn'
    · exact List.mem_append_left _ hn'
  · unfold World.ensured at hn'
    split at hn'
    · exact .inl hn'
    · rcases List.mem_append.mp hn' with hold | hnew
      · exact .inl hold
      · rw [List.mem_singleton.mp hnew]
        exact .inr hn

theorem tidies_deleted {n : NamespacedName} (hn : n ∉ s.names) : Tidies s (s.deleted n) := by
  refine ⟨rfl, fun n' hexists hn' ↦ ?_, fun n' hn' ↦ .inl (List.mem_filter.mp hn').1⟩
  have hne : n' ≠ n := fun heq ↦ hn (heq ▸ hexists)
  exact List.mem_filter.mpr ⟨hn', by simpa using hne⟩

theorem mem_external_ensured (n : NamespacedName) : n ∈ (s.ensured n).external := by
  unfold World.ensured
  split
  next h => exact h
  next => exact List.mem_append_right _ List.mem_cons_self

theorem CollectorAnswers.tidies {request : CollectorRequest Content}
    {reply : (collectorCalls Content Err).Reply request}
    (h : CollectorAnswers s request reply s') (hguard : CollectsOrphans s request) :
    Tidies s s' := by
  cases h with
  | listed => exact ⟨rfl, fun _ _ h ↦ h, fun _ h ↦ .inl h⟩
  | listFailed | listedExternal | listExternalFailed | deleteFailed => exact .refl s
  | deleted => exact tidies_deleted hguard

theorem SyncAnswers.tidies {request : SyncRequest Content}
    {reply : (syncCalls Content Err).Reply request} (h : SyncAnswers s request reply s')
    (hguard : SyncsObjects s request) : Tidies s s' := by
  cases h with
  | found | notFound | getFailed | ensureFailed | deleteFailed => exact .refl s
  | ensured => exact tidies_ensured hguard
  | deleted => exact tidies_deleted hguard

/-! ## Reconciliations -/

/-- The k8s objects are these. -/
def Settled (objects : List (NamedObject Content)) (s : World Content Err) : Prop :=
  s.objects = objects

theorem Settled.tidies (h : Settled objects s) (hstep : Tidies s s') : Settled objects s' :=
  hstep.objects_eq.trans h

/-- A reconciliation of an existing object that succeeds leaves its external object. -/
def Reconciled (req : NamespacedName) (err : Option Err) (s : World Content Err) : Prop :=
  err = none → req ∈ s.names → req ∈ s.external

theorem Reconciled.tidies {req : NamespacedName} {err : Option Err} (h : Reconciled req err s)
    (hstep : Tidies s s') : Reconciled req err s' := by
  intro herr hn
  rw [hstep.names_eq] at hn
  exact hstep.kept req hn (h herr hn)

/-- A program over the calls of the sync controller that agrees with the cluster. -/
abbrev Syncs {α : Type} (objects : List (NamedObject Content)) (P : World Content Err → Prop)
    (program : Program (syncCalls Content Err) α) (Q : α → World Content Err → Prop) : Prop :=
  Safe syncService (Settled objects) SyncsObjects P program Q

/-- A state of the cluster that calls keep. -/
def Lasting (P : World Content Err → Prop) : Prop := ∀ s s', P s → Tidies s s' → P s'

theorem lasting_settled : Lasting (Settled objects : World Content Err → Prop) :=
  fun _ _ h hstep ↦ h.tidies hstep

theorem Lasting.and {P P' : World Content Err → Prop} (h : Lasting P) (h' : Lasting P') :
    Lasting fun s ↦ P s ∧ P' s :=
  fun s s' hs hstep ↦ ⟨h s s' hs.1 hstep, h' s s' hs.2 hstep⟩

theorem lasting_mem_names (n : NamespacedName) :
    Lasting fun s : World Content Err ↦ n ∈ s.names := by
  intro s s' hs hstep
  rwa [hstep.names_eq]

theorem lasting_not_mem_names (n : NamespacedName) :
    Lasting fun s : World Content Err ↦ n ∉ s.names := by
  intro s s' hs hstep
  rwa [hstep.names_eq]

theorem lasting_reconciled (req : NamespacedName) (err : Option Err) :
    Lasting (Reconciled req err : World Content Err → Prop) :=
  fun _ _ h hstep ↦ h.tidies hstep

variable [ErrorValues Err] {r : Reconciler Content Err}

/-- The end of a reconciliation, after its call to the external system. -/
theorem syncs_syncResult (req : NamespacedName) (text : String) (err : Option Err) :
    Syncs objects (fun s ↦ Settled objects s ∧ Reconciled req err s)
      (.done (syncResult text err)) fun returned ↦ Reconciled req returned.2 := by
  refine .done (lasting_settled.and (lasting_reconciled req err)) fun s hs ↦ ⟨hs.1, ?_⟩
  cases err with
  | none => exact hs.2
  | some err =>
    intro herr
    cases herr

theorem syncs_reconcile (req : NamespacedName) :
    Syncs objects (Settled objects) (r.reconcile req) fun returned ↦ Reconciled req returned.2 := by
  let read : GetReply (NamedObject Content) Err → World Content Err → Prop
    | .found obj => fun s ↦ Settled objects s ∧ obj.namespacedName = req ∧ req ∈ s.names
    | .notFound => fun s ↦ Settled objects s ∧ req ∉ s.names
    | .failed _ => Settled objects
  refine .call read lasting_settled (fun s hs ↦ ⟨hs, trivial⟩) (fun _ _ _ hbreak ↦ hbreak.elim)
    ?_ ?_
  · intro s reply s' hs hanswer
    cases hanswer with
    | found hobj => exact ⟨hs, rfl, List.mem_map_of_mem hobj⟩
    | notFound hnone => exact ⟨hs, hnone⟩
    | getFailed => exact hs
  · intro (reply : GetReply (NamedObject Content) Err)
    cases reply with
    | found obj =>
      have hlasting : Lasting fun s : World Content Err ↦
          Settled objects s ∧ obj.namespacedName = req ∧ req ∈ s.names :=
        lasting_settled.and (Lasting.and (fun _ _ h _ ↦ h) (lasting_mem_names req))
      refine .call (fun (reply : Option Err) s ↦ Settled objects s ∧ Reconciled req reply s)
        hlasting ?_ ?_ ?_ ?_
      · intro s hs
        refine ⟨hs.1, ?_⟩
        change obj.namespacedName ∈ s.names
        rw [hs.2.1]
        exact hs.2.2
      · exact fun _ _ _ hbreak ↦ hbreak.elim
      · intro s reply s' hs hanswer
        cases hanswer with
        | ensured =>
          refine ⟨hs.1, fun _ _ ↦ ?_⟩
          rw [← hs.2.1]
          exact mem_external_ensured _
        | ensureFailed => exact ⟨hs.1, fun herr ↦ absurd herr (by simp)⟩
      · exact fun reply ↦ syncs_syncResult req _ reply
    | notFound =>
      refine .call (fun (reply : Option Err) s ↦ Settled objects s ∧ Reconciled req reply s)
        (lasting_settled.and (lasting_not_mem_names req)) (fun s hs ↦ hs)
        (fun _ _ _ hbreak ↦ hbreak.elim) ?_ ?_
      · intro s reply s' hs hanswer
        have htidies := hanswer.tidies hs.2
        refine ⟨hs.1.tidies htidies, fun _ hn ↦ ?_⟩
        rw [htidies.names_eq] at hn
        exact absurd hn hs.2
      · exact fun reply ↦ syncs_syncResult req _ reply
    | failed err =>
      refine .done lasting_settled fun s hs ↦ ⟨hs, fun herr ↦ ?_⟩
      cases herr

/-! ## Collections -/

/-- The external objects without a k8s object are among these. -/
def OrphansIn (names : List NamespacedName) (s : World Content Err) : Prop :=
  ∀ n ∈ s.external, n ∈ s.names ∨ n ∈ names

omit [ErrorValues Err] in
theorem lasting_orphansIn (names : List NamespacedName) :
    Lasting (OrphansIn names : World Content Err → Prop) := by
  intro s s' hs hstep n hn
  rw [hstep.names_eq]
  rcases hstep.added n hn with hold | hexists
  · exact hs n hold
  · exact .inl hexists

/-- A program over the calls of the collector that agrees with the cluster. -/
abbrev Tidying {α : Type} (objects : List (NamedObject Content)) (P : World Content Err → Prop)
    (program : Program (collectorCalls Content Err) α) : Prop :=
  Safe faultlessCollector (Settled objects) CollectsOrphans P program
    fun _ ↦ OrphansIn []

omit [ErrorValues Err] in
/-- Each deletion takes one name off the orphans that may be left. -/
theorem tidying_deleteAll {delObjs : List NamespacedName}
    (horphans : ∀ n ∈ delObjs, n ∉ objects.map (·.namespacedName)) :
    Tidying objects (fun s ↦ Settled objects s ∧ OrphansIn delObjs s) (r.deleteAll delObjs) := by
  induction delObjs with
  | nil => exact .done (lasting_settled.and (lasting_orphansIn [])) fun s hs ↦ hs
  | cons n delObjs ih =>
    rw [List.forall_mem_cons] at horphans
    have hguard (s : World Content Err) (hs : Settled objects s) : n ∉ s.names := by
      rw [World.names, hs]
      exact horphans.1
    refine .call (fun _ s ↦ Settled objects s ∧ OrphansIn delObjs s)
      (lasting_settled.and (lasting_orphansIn _)) (fun s hs ↦ ⟨hs.1, hguard s hs.1⟩)
      (fun _ _ _ hbreak ↦ hbreak.elim) ?_ ?_
    · intro s reply s' hs hanswer
      obtain ⟨hanswer, hsucceeds⟩ := hanswer
      have htidies := hanswer.tidies (hguard s hs.1)
      refine ⟨hs.1.tidies htidies, ?_⟩
      cases hanswer with
      | deleted =>
        intro n' hn'
        obtain ⟨hold, hne⟩ := List.mem_filter.mp hn'
        rcases hs.2 n' hold with hexists | horphan
        · exact .inl hexists
        · rcases List.mem_cons.mp horphan with rfl | hrest
          · simp [Reconciler.named] at hne
          · exact .inr hrest
      | deleteFailed => cases hsucceeds
    · exact fun _ ↦ ih horphans.2

theorem tidying_collectGarbage {names : List NamespacedName}
    (hnames : namespacedNames r.apiMeta objects = .ok names) :
    Tidying objects (Settled objects) r.collectGarbage := by
  let listed : Except Err (List (NamedObject Content)) → World Content Err → Prop
    | .ok instances => fun s ↦ Settled objects s ∧ instances = objects
    | .error _ => fun _ ↦ False
  let listedExternal : Except Err (List NamespacedName) → World Content Err → Prop
    | .ok extObjList => fun s ↦
      Settled objects s ∧ OrphansIn (namespacedNamesDiff extObjList names) s
    | .error _ => fun _ ↦ False
  refine .call listed lasting_settled (fun s hs ↦ ⟨hs, trivial⟩)
    (fun _ _ _ hbreak ↦ hbreak.elim) ?_ ?_
  · intro s reply s' hs hanswer
    obtain ⟨hanswer, hsucceeds⟩ := hanswer
    cases hanswer with
    | listed => exact ⟨hs, hs⟩
    | listFailed =>
      obtain ⟨_, herr⟩ := hsucceeds
      cases herr
  · intro (reply : Except Err (List (NamedObject Content)))
    cases reply with
    | error err => exact .vacuous fun _ hs ↦ hs
    | ok instances =>
      refine .assume (fun s hs ↦ hs.2) fun hinstances ↦ ?_
      subst hinstances
      change Tidying instances _ (r.collectListed instances)
      rw [Reconciler.collectListed, hnames]
      refine .call listedExternal (lasting_settled.and fun _ _ h _ ↦ h)
        (fun s hs ↦ ⟨hs.1, trivial⟩) (fun _ _ _ hbreak ↦ hbreak.elim) ?_ ?_
      · intro s reply s' hs hanswer
        obtain ⟨hanswer, hsucceeds⟩ := hanswer
        cases hanswer with
        | listedExternal =>
          refine ⟨hs.1, fun n hn ↦ ?_⟩
          by_cases hexists : n ∈ s.names
          · exact .inl hexists
          · rw [World.names, hs.1, ← namespacedNames_eq hnames] at hexists
            exact .inr (mem_namespacedNamesDiff.mpr ⟨hn, hexists⟩)
        | listExternalFailed =>
          obtain ⟨_, herr⟩ := hsucceeds
          cases herr
      · intro (reply : Except Err (List NamespacedName))
        cases reply with
        | error err => exact .vacuous fun _ hs ↦ hs
        | ok extObjList =>
          apply tidying_deleteAll
          intro n hn
          rw [← namespacedNames_eq hnames]
          exact (mem_namespacedNamesDiff.mp hn).2

/-! ## All interleavings -/

/-- What a member of the pool has achieved when it has ended. -/
def Achieved : Ended Err → World Content Err → Prop
  | .collected => OrphansIn []
  | .reconciled req _ err => Reconciled req err

/-- Every member is safe from the start, and stays so in every interleaving. -/
theorem achieved_of_ended {collections : ℕ} {reqs : List NamespacedName} {s : World Content Err}
    {names : List NamespacedName} (hnames : namespacedNames r.apiMeta s.objects = .ok names)
    {pool : Pool ((collectorCalls Content Err).sum (syncCalls Content Err)) (Ended Err)
      (World Content Err)}
    (h : PoolReaches settledService (syncPool r collections reqs s) pool) {ended : Ended Err}
    (hended : .done ended ∈ pool.members) :
    Achieved ended pool.state ∧ pool.state.objects = s.objects := by
  have hguarantee (s₁ : World Content Err)
      (request : ((collectorCalls Content Err).sum (syncCalls Content Err)).Request) (reply)
      (s₂ : World Content Err) (_ : Settled s.objects s₁)
      (hguard : Sum.elim (CollectsOrphans s₁) (SyncsObjects s₁) request)
      (hanswer : settledService.Handles s₁ request reply s₂) : settledService.Rely s₁ s₂ := by
    cases request with
    | inl request => exact hanswer.1.tidies hguard
    | inr request => exact SyncAnswers.tidies hanswer hguard
  have hstart : ∀ program ∈ (syncPool r collections reqs s).members, ∃ P,
      Safe settledService (Settled s.objects)
        (fun s₁ ↦ Sum.elim (CollectsOrphans s₁) (SyncsObjects s₁)) P program Achieved ∧ P s := by
    intro program hprogram
    refine ⟨Settled s.objects, ?_, rfl⟩
    rcases List.mem_append.mp hprogram with hcollection | hreconciliation
    · rw [List.eq_of_mem_replicate hcollection]
      exact Safe.map (Safe.inl (tidying_collectGarbage hnames))
    · obtain ⟨req, -, rfl⟩ := List.mem_map.mp hreconciliation
      exact Safe.map (Safe.inr (syncs_reconcile req))
  obtain ⟨P, hsafe, hP⟩ := h.safe hguarantee hstart _ hended
  exact ⟨hsafe.post hP, hsafe.inv hP⟩

/-- **Convergence.** In a settled cluster, with any number of collections and reconciliations that
start in it and in every interleaving of their calls: as soon as one collection has ended, and for
every k8s object a reconciliation has succeeded, the external objects are those of the k8s objects.
Reads and listings are of the present, and the names of the objects can be read from the listing. -/
theorem sync_converges (r : Reconciler Content Err) {s : World Content Err} (collections : ℕ)
    (reqs : List NamespacedName) {names : List NamespacedName}
    (hnames : namespacedNames r.apiMeta s.objects = .ok names)
    {pool : Pool ((collectorCalls Content Err).sum (syncCalls Content Err)) (Ended Err)
      (World Content Err)}
    (h : PoolReaches settledService (syncPool r collections reqs s) pool)
    (hcollected : .done .collected ∈ pool.members)
    (hreconciled : ∀ n ∈ s.names, ∃ result, .done (.reconciled n result none) ∈ pool.members)
    (n : NamespacedName) : n ∈ pool.state.external ↔ n ∈ s.names := by
  obtain ⟨horphans, hobjects⟩ := achieved_of_ended hnames h hcollected
  have hnames' : pool.state.names = s.names := congrArg (List.map _) hobjects
  constructor
  · intro hn
    rcases horphans n hn with hexists | hnone
    · rwa [hnames'] at hexists
    · cases hnone
  · intro hn
    obtain ⟨result, hended⟩ := hreconciled n hn
    obtain ⟨hachieved, -⟩ := achieved_of_ended hnames h hended
    exact hachieved rfl (by rwa [hnames'])

/-- A k8s object that is not in the external system, and an external object that is left over. -/
def unsynced : World Unit GoError where
  objects := [game]
  external := [⟨"other-ns", "test-game"⟩]
  reconciling := []
  history := []

/-- The object is reconciled between the two listings of a collection. -/
theorem sync_converges_unsynced :
    ∃ pool, PoolReaches settledService
        (syncPool gameReconciler 1 [game.namespacedName] unsynced) pool ∧
      ∀ n, n ∈ pool.state.external ↔ n ∈ unsynced.names := by
  let synced : World Unit GoError :=
    { unsynced with external := [game.namespacedName], history := [.listed unsynced.names] }
  let pool : Pool ((collectorCalls Unit GoError).sum (syncCalls Unit GoError)) (Ended GoError)
      (World Unit GoError) :=
    { members := [.done .collected, .done (.reconciled game.namespacedName {} none)]
      state := synced }
  have hreaches : PoolReaches settledService
      (syncPool gameReconciler 1 [game.namespacedName] unsynced) pool := by
    refine .head (@PoolStep.call ((collectorCalls _ _).sum (syncCalls _ _)) _ _ _ [] [_]
      (.inl .list) _ (.ok [game]) _ _ ⟨.listed, _, rfl⟩) ?_
    refine .head (@PoolStep.call ((collectorCalls _ _).sum (syncCalls _ _)) _ _ _ [_] []
      (.inr (.get game.namespacedName)) _ (GetReply.found game) _ _
      (SyncAnswers.found List.mem_cons_self)) ?_
    refine .head (@PoolStep.call ((collectorCalls _ _).sum (syncCalls _ _)) _ _ _ [_] []
      (.inr (.ensure game)) _ (none : Option GoError) _ _ SyncAnswers.ensured) ?_
    refine .head (@PoolStep.call ((collectorCalls _ _).sum (syncCalls _ _)) _ _ _ [] [_]
      (.inl .listExternal) _ (.ok [⟨"other-ns", "test-game"⟩, game.namespacedName]) _ _
      ⟨.listedExternal, _, rfl⟩) ?_
    refine .head (@PoolStep.call ((collectorCalls _ _).sum (syncCalls _ _)) _ _ _ [] [_]
      (.inl (.delete (gameReconciler.named ⟨"other-ns", "test-game"⟩))) _ (none : Option GoError)
      _ _ ⟨.deleted, rfl⟩) ?_
    exact .refl
  refine ⟨pool, hreaches, ?_⟩
  have hnames : namespacedNames gameReconciler.apiMeta unsynced.objects =
      .ok [game.namespacedName] := rfl
  apply sync_converges gameReconciler 1 [game.namespacedName] hnames hreaches
  · exact List.mem_cons_self
  · intro n hn
    obtain rfl : n = game.namespacedName := List.mem_singleton.mp hn
    exact ⟨{}, List.mem_cons_of_mem _ List.mem_cons_self⟩

end OperatorToolkit.Sync
