import Mathlib.Data.List.AList
import OperatorToolkit.Interaction.Sum
import OperatorToolkit.Object.ClientObjects
import OperatorToolkit.Sync.Reconcile

/-!
# Resynchronizing metadata

`resync` of the metadata-sync controller lists the k8s objects, asks the controller which of them
differ from the external system, and ensures these. In a settled cluster the metadata of every
object is in the external system after a resync, whatever reconciliations do in the meantime. In a
changing cluster the objects that are ensured are those of the listing, which a client with a cache
takes of an earlier moment: an object that has changed since then is ensured as it was.
-/

namespace OperatorToolkit.Sync

open Interaction Object

/-- A sync reconciler with the scheme that `resync` reads. -/
structure MetadataReconciler (Content Err : Type) extends Reconciler Content Err where
  scheme : ClientScheme Content Err

inductive ResyncRequest (Content : Type) where
  | list
  | diff (objs : List (NamedObject Content))
  | ensure (obj : NamedObject Content)

def resyncCalls (Content Err : Type) : Signature where
  Request := ResyncRequest Content
  Reply
    | .list => Except Err (List (NamedObject Content))
    | .diff _ => Except Err (List (NamedObject Content))
    | .ensure _ => Option Err

variable {Content Err : Type}

namespace Resync

def list : Program (resyncCalls Content Err) (Except Err (List (NamedObject Content))) :=
  Program.request (S := resyncCalls Content Err) ResyncRequest.list

def diff (objs : List (NamedObject Content)) :
    Program (resyncCalls Content Err) (Except Err (List (NamedObject Content))) :=
  Program.request (S := resyncCalls Content Err) (.diff objs)

def ensure (obj : NamedObject Content) : Program (resyncCalls Content Err) (Option Err) :=
  Program.request (S := resyncCalls Content Err) (.ensure obj)

end Resync

/-- The loop over the objects; a failed call is logged. -/
def ensureAll : List (NamedObject Content) → Program (resyncCalls Content Err) Unit
  | [] => return ()
  | obj :: resyncObjs => do
    let _err ← Resync.ensure obj
    ensureAll resyncObjs

/-- The part of `resync` after the objects were converted. -/
def resyncConverted (k8sObjList : List (NamedObject Content)) :
    Program (resyncCalls Content Err) Unit := do
  match ← Resync.diff k8sObjList with
  | .error _ => return ()
  | .ok resyncObjs => ensureAll resyncObjs

section Resync

variable [ErrorValues Err] (r : MetadataReconciler Content Err)

/-- The part of `resync` after the objects were listed. -/
def MetadataReconciler.resyncListed (instances : List (NamedObject Content)) :
    Program (resyncCalls Content Err) Unit :=
  match r.apiMeta.extractList instances with
  | .error _ => return ()
  | .ok items =>
    match clientObjects r.scheme items with
    | .error _ => return ()
    | .ok k8sObjList => resyncConverted k8sObjList

/-- Every failure before the loop is logged and ends the resync. -/
def MetadataReconciler.resync : Program (resyncCalls Content Err) Unit := do
  match ← Resync.list with
  | .error _ => return ()
  | .ok instances => r.resyncListed instances

end Resync

/-! ## The two systems -/

/-- A change of a k8s object, with what is left of it. -/
structure Change (Content : Type) where
  namespacedName : NamespacedName
  content : Option Content

abbrev Objects (Content : Type) := AList fun _ : NamespacedName ↦ Content

def namedObjects (objects : Objects Content) : List (NamedObject Content) :=
  objects.entries.map fun entry ↦ ⟨entry.1, entry.2⟩

def Change.apply (c : Change Content) (objects : Objects Content) : Objects Content :=
  match c.content with
  | some content => objects.insert c.namespacedName content
  | none => objects.erase c.namespacedName

/-- What the changes, latest first, make of the objects. -/
def replay (start : Objects Content) (changes : List (Change Content)) : Objects Content :=
  changes.foldr Change.apply start

/-- The k8s objects at the beginning and their changes since then, latest first; how many of the
latest changes the last listing has not shown; and the objects of the external system. -/
structure MetadataWorld (Content : Type) where
  start : Objects Content
  history : List (Change Content)
  unseen : ℕ
  external : Objects Content

namespace MetadataWorld

/-- The k8s objects. -/
def objects (s : MetadataWorld Content) : Objects Content := replay s.start s.history

/-- The k8s objects before the latest changes. -/
def objectsBefore (s : MetadataWorld Content) (lag : ℕ) : Objects Content :=
  replay s.start (s.history.drop lag)

def listing (s : MetadataWorld Content) : List (NamedObject Content) :=
  namedObjects s.objects

/-- `Ensure` has taken effect. -/
def ensured (s : MetadataWorld Content) (obj : NamedObject Content) : MetadataWorld Content :=
  { s with external := s.external.insert obj.namespacedName obj.content }

/-- `Delete` has taken effect. -/
def deleted (s : MetadataWorld Content) (obj : NamedObject Content) : MetadataWorld Content :=
  { s with external := s.external.erase obj.namespacedName }

/-- A k8s object has changed. -/
def changed (s : MetadataWorld Content) (c : Change Content) : MetadataWorld Content :=
  { s with history := c :: s.history, unseen := s.unseen + 1 }

/-- The external object is what the k8s object is. -/
def InSync (s : MetadataWorld Content) (obj : NamedObject Content) : Prop :=
  s.external.lookup obj.namespacedName = some obj.content

end MetadataWorld

theorem mem_namedObjects {objects : Objects Content} {obj : NamedObject Content} :
    obj ∈ namedObjects objects ↔ objects.lookup obj.namespacedName = some obj.content := by
  rw [← Option.mem_def, AList.mem_lookup_iff]
  constructor
  · intro h
    obtain ⟨entry, hentry, rfl⟩ := List.mem_map.mp h
    exact hentry
  · intro h
    exact List.mem_map.mpr ⟨_, h, rfl⟩

open MetadataWorld

/-- How the calls of a resync are answered. A listing shows the objects of the present or of an
earlier moment. `Diff` returns some of the objects it was given, among them those that are not in
sync. -/
inductive ResyncAnswers : MetadataWorld Content → (request : ResyncRequest Content) →
    (resyncCalls Content Err).Reply request → MetadataWorld Content → Prop where
  | listed {s} (lag : ℕ) :
      ResyncAnswers s .list (.ok (namedObjects (s.objectsBefore lag))) { s with unseen := lag }
  | listFailed {s} {err : Err} : ResyncAnswers s .list (.error err) s
  | differ {s objs out} : (∀ obj ∈ out, obj ∈ objs) → (∀ obj ∈ objs, obj ∈ out ∨ s.InSync obj) →
      ResyncAnswers s (.diff objs) (.ok out) s
  | diffFailed {s objs} {err : Err} : ResyncAnswers s (.diff objs) (.error err) s
  | ensured {s obj} {reply : Option Err} : ResyncAnswers s (.ensure obj) reply (s.ensured obj)
  | ensureFailed {s obj} {err : Err} : ResyncAnswers s (.ensure obj) (some err) s

/-! ## A changing cluster -/

/-- What goes on beside a resync: k8s objects change, and so does the external system. -/
inductive Changes : MetadataWorld Content → MetadataWorld Content → Prop where
  | changed {s} (c : Change Content) : Changes s (s.changed c)
  | external {s} (external : Objects Content) : Changes s { s with external := external }

def resyncService : Service (resyncCalls Content Err) (MetadataWorld Content) where
  Handles := ResyncAnswers
  Breaks _ _ _ := False
  Rely := Changes

/-- The configurations that resyncs pass through. -/
def Resyncing [ErrorValues Err] (r : MetadataReconciler Content Err)
    (cfg : Config (resyncCalls Content Err) Unit (MetadataWorld Content)) : Prop :=
  SerialReachable resyncService r.resync (fun _ ↦ True) cfg

/-- What the latest of the changes of an object has left of it, if there is one. -/
def lastChange (n : NamespacedName) : List (Change Content) → Option (Option Content)
  | [] => none
  | c :: earlier => if c.namespacedName = n then some c.content else lastChange n earlier

/-- What the last change since the moment of the last listing has left of the object. -/
def sinceListing (n : NamespacedName) (s : MetadataWorld Content) : Option (Option Content) :=
  lastChange n (s.history.take s.unseen)

theorem Change.lookup_apply (c : Change Content) (objects : Objects Content)
    (n : NamespacedName) :
    (c.apply objects).lookup n =
      if c.namespacedName = n then c.content else objects.lookup n := by
  obtain ⟨n', content⟩ := c
  split
  next hname =>
    subst hname
    cases content with
    | none => exact AList.lookup_erase _ _
    | some content => exact AList.lookup_insert _
  next hname =>
    cases content with
    | none => exact AList.lookup_erase_ne (Ne.symm hname)
    | some content => exact AList.lookup_insert_ne (Ne.symm hname)

theorem lookup_replay (start : Objects Content) (changes : List (Change Content))
    (n : NamespacedName) :
    (replay start changes).lookup n = (lastChange n changes).getD (start.lookup n) := by
  induction changes with
  | nil => rfl
  | cons c changes ih =>
    change (c.apply (replay start changes)).lookup n = _
    rw [Change.lookup_apply, lastChange, ih]
    split <;> rfl

variable {s s' : MetadataWorld Content}

/-- The objects are those of the earlier moment, but for the changes since then. -/
theorem replay_objectsBefore (s : MetadataWorld Content) (lag : ℕ) :
    replay (s.objectsBefore lag) (s.history.take lag) = s.objects := by
  unfold objectsBefore objects replay
  rw [← List.foldr_append, List.take_append_drop]

/-- The last listing has shown the object. -/
def Shown (s : MetadataWorld Content) (obj : NamedObject Content) : Prop :=
  (s.objectsBefore s.unseen).lookup obj.namespacedName = some obj.content

/-- Only objects of the last listing are ensured. -/
def EnsuresListed (s : MetadataWorld Content) : ResyncRequest Content → Prop
  | .ensure obj => Shown s obj
  | _ => True

theorem Shown.changes {obj : NamedObject Content} (h : Shown s obj) (hstep : Changes s s') :
    Shown s' obj := by
  cases hstep <;> exact h

/-- The k8s object is the one that was shown, but for changes since then. -/
theorem Shown.lookup_eq {obj : NamedObject Content} (h : Shown s obj) :
    s.objects.lookup obj.namespacedName =
      (sinceListing obj.namespacedName s).getD (some obj.content) := by
  rw [← replay_objectsBefore s s.unseen, lookup_replay, h]
  rfl

/-- A program of the resync that ensures only objects of the listing. -/
abbrev Traces {α : Type} (P : MetadataWorld Content → Prop)
    (program : Program (resyncCalls Content Err) α) : Prop :=
  Safe resyncService (fun _ ↦ True) EnsuresListed P program fun _ _ ↦ True

def AllShown (objs : List (NamedObject Content)) (s : MetadataWorld Content) : Prop :=
  ∀ obj ∈ objs, Shown s obj

theorem stable_allShown (objs : List (NamedObject Content)) :
    (resyncService : Service (resyncCalls Content Err) _).Stable (AllShown objs) :=
  fun _ _ h hstep obj hobj ↦ (h obj hobj).changes hstep

theorem traces_done {P : MetadataWorld Content → Prop}
    (hstable : (resyncService : Service (resyncCalls Content Err) _).Stable P) :
    Traces P (.done () : Program (resyncCalls Content Err) Unit) :=
  .done hstable fun _ _ ↦ ⟨trivial, trivial⟩

theorem traces_ensureAll (objs : List (NamedObject Content)) :
    Traces (AllShown objs) (ensureAll objs : Program (resyncCalls Content Err) Unit) := by
  induction objs with
  | nil => exact traces_done (stable_allShown [])
  | cons obj objs ih =>
    refine .call (fun _ ↦ AllShown objs) (stable_allShown _)
      (fun s hs ↦ ⟨trivial, hs obj List.mem_cons_self⟩) (fun _ _ _ hbreak ↦ hbreak.elim) ?_
      fun _ ↦ ih
    intro s reply s' hs hanswer other hother
    have hshown := hs other (List.mem_cons_of_mem _ hother)
    cases hanswer with
    | ensured => exact hshown
    | ensureFailed => exact hshown

theorem traces_resyncConverted (objs : List (NamedObject Content)) :
    Traces (AllShown objs) (resyncConverted objs : Program (resyncCalls Content Err) Unit) := by
  let differ : Except Err (List (NamedObject Content)) → MetadataWorld Content → Prop
    | .ok out => AllShown out
    | .error _ => AllShown objs
  refine .call differ (stable_allShown objs) (fun _ _ ↦ ⟨trivial, trivial⟩)
    (fun _ _ _ hbreak ↦ hbreak.elim) ?_ ?_
  · intro s reply s' hs hanswer
    cases hanswer with
    | differ hsubset => exact fun obj hobj ↦ hs obj (hsubset obj hobj)
    | diffFailed => exact hs
  · intro (reply : Except Err (List (NamedObject Content)))
    cases reply with
    | error err => exact traces_done (stable_allShown objs)
    | ok out => exact traces_ensureAll out

variable [ErrorValues Err] {r : MetadataReconciler Content Err}

theorem traces_resyncListed (instances : List (NamedObject Content)) :
    Traces (AllShown instances) (r.resyncListed instances) := by
  unfold MetadataReconciler.resyncListed
  split
  next => exact traces_done (stable_allShown instances)
  next items hitems =>
    split
    next => exact traces_done (stable_allShown instances)
    next k8sObjList hconverted =>
      rw [clientObjects_eq hconverted, r.apiMeta.extractList_ok hitems]
      exact traces_resyncConverted instances

theorem traces_resync : Traces (fun _ ↦ True) r.resync := by
  let listed : Except Err (List (NamedObject Content)) → MetadataWorld Content → Prop
    | .ok instances => AllShown instances
    | .error _ => fun _ ↦ True
  refine .call listed (fun _ _ _ _ ↦ trivial) (fun _ _ ↦ ⟨trivial, trivial⟩)
    (fun _ _ _ hbreak ↦ hbreak.elim) ?_ ?_
  · intro s reply s' _ hanswer
    cases hanswer with
    | listed lag => exact fun obj hobj ↦ mem_namedObjects.mp hobj
    | listFailed => trivial
  · intro (reply : Except Err (List (NamedObject Content)))
    cases reply with
    | error err => exact traces_done fun _ _ _ _ ↦ trivial
    | ok instances => exact traces_resyncListed instances

/-- **What a resync ensures.** At every point of every interleaving with changes of the k8s objects
and of the external system, and with listings of the present or of any earlier moment: when `Ensure`
is called for an object, the k8s object of that name was this object at the moment of the listing,
and is what its last change since then has left of it, or still the object if there was none. -/
theorem resync_ensures_listed
    {cfg : Config (resyncCalls Content Err) Unit (MetadataWorld Content)} (h : Resyncing r cfg)
    {obj : NamedObject Content} {next : Option Err → Program (resyncCalls Content Err) Unit}
    (hcall : cfg.program = some (.call (ResyncRequest.ensure obj) next)) :
    (cfg.state.objectsBefore cfg.state.unseen).lookup obj.namespacedName = some obj.content ∧
      cfg.state.objects.lookup obj.namespacedName =
        (sinceListing obj.namespacedName cfg.state).getD (some obj.content) := by
  have hverified := SerialReachable.verified (fun _ _ _ _ ↦ trivial) traces_resync
    (fun _ _ ↦ trivial) h
  obtain ⟨program, s⟩ := cfg
  subst hcall
  have hshown : Shown s obj := hverified.guard
  exact ⟨hshown, hshown.lookup_eq⟩

/-- A reconciler of games whose genre is synced. -/
def genreReconciler : MetadataReconciler String GoError where
  prototype := ⟨⟨"", ""⟩, ""⟩
  apiMeta := .plain
  scheme := .plain

def pvpGame : NamedObject String := ⟨⟨"test-ns", "test-game"⟩, "pvp"⟩

/-- One game, of which the external system has an earlier genre. -/
def staleWorld : MetadataWorld String where
  start := (∅ : Objects String).insert pvpGame.namespacedName pvpGame.content
  history := []
  unseen := 0
  external := (∅ : Objects String).insert pvpGame.namespacedName "simulator"

/-- The game is removed, which the listing does not show yet, and ensured after that. -/
theorem resync_ensures_listed_removed :
    ∃ cfg : Config (resyncCalls String GoError) Unit (MetadataWorld String),
      Resyncing genreReconciler cfg ∧
      (∃ next, cfg.program = some (.call (ResyncRequest.ensure pvpGame) next)) ∧
      cfg.state.objects.lookup pvpGame.namespacedName = none ∧
      cfg.state.objects.lookup pvpGame.namespacedName =
        (sinceListing pvpGame.namespacedName cfg.state).getD (some pvpGame.content) := by
  let removed : MetadataWorld String := staleWorld.changed ⟨pvpGame.namespacedName, none⟩
  let cfg : Config (resyncCalls String GoError) Unit (MetadataWorld String) :=
    ⟨some (ensureAll [pvpGame]), removed⟩
  have hstart : Resyncing genreReconciler ⟨none, staleWorld⟩ := ⟨_, trivial, .refl⟩
  have hreaches : Resyncing genreReconciler cfg := by
    have hremoved := hstart.step (.environment (.changed ⟨pvpGame.namespacedName, none⟩))
    have hlisted := (hremoved.step .start).step (.call (ResyncAnswers.listed 1))
    have hanswer : ResyncAnswers removed (.diff [pvpGame]) (.ok [pvpGame] : Except GoError _)
        removed :=
      .differ (fun _ hobj ↦ hobj) fun _ hobj ↦ .inl hobj
    have hdiffer := hlisted.step (.call hanswer)
    exact hdiffer
  exact ⟨cfg, hreaches, ⟨_, rfl⟩, by decide, (resync_ensures_listed hreaches rfl).2⟩

/-! ## A settled cluster -/

/-- How the calls of reconciliations are answered; reads return the current contents. -/
inductive MetadataAnswers : MetadataWorld Content → (request : SyncRequest Content) →
    (syncCalls Content Err).Reply request → MetadataWorld Content → Prop where
  | found {s n content} : s.objects.lookup n = some content →
      MetadataAnswers s (.get n) (GetReply.found ⟨n, content⟩) s
  | notFound {s n} : s.objects.lookup n = none → MetadataAnswers s (.get n) GetReply.notFound s
  | getFailed {s n err} : MetadataAnswers s (.get n) (GetReply.failed err) s
  | ensured {s obj} {reply : Option Err} : MetadataAnswers s (.ensure obj) reply (s.ensured obj)
  | ensureFailed {s obj} {err : Err} : MetadataAnswers s (.ensure obj) (some err) s
  | deleted {s obj} {reply : Option Err} : MetadataAnswers s (.delete obj) reply (s.deleted obj)
  | deleteFailed {s obj} {err : Err} : MetadataAnswers s (.delete obj) (some err) s

/-- What a call may change in a settled cluster: objects that are in sync stay so. -/
structure Refreshes (s s' : MetadataWorld Content) : Prop where
  objects_eq : s'.objects = s.objects
  kept : ∀ obj ∈ s.listing, s.InSync obj → s'.InSync obj

/-- The reply does not report a failure, and a listing shows the objects of the present. -/
def Resync.Succeeds (s : MetadataWorld Content) : (request : ResyncRequest Content) →
    (resyncCalls Content Err).Reply request → Prop
  | .list, reply => reply = .ok s.listing
  | .diff _, reply => ∃ out, reply = .ok out
  | .ensure _, reply => reply = none

def faultlessResync : Service (resyncCalls Content Err) (MetadataWorld Content) where
  Handles s request reply s' := ResyncAnswers s request reply s' ∧ Resync.Succeeds s request reply
  Breaks _ _ _ := False
  Rely := Refreshes

def metadataService : Service (syncCalls Content Err) (MetadataWorld Content) where
  Handles := MetadataAnswers
  Breaks _ _ _ := False
  Rely := Refreshes

/-- Both kinds of calls, with nothing else going on. -/
def settledMetadata :
    Service ((resyncCalls Content Err).sum (syncCalls Content Err)) (MetadataWorld Content) :=
  faultlessResync.sum metadataService Refreshes

/-- Any number of resyncs, which return `true`, and of reconciliations, all of them at their first
call. -/
def resyncPool (r : MetadataReconciler Content Err) (resyncs : ℕ) (reqs : List NamespacedName)
    (s : MetadataWorld Content) :
    Pool ((resyncCalls Content Err).sum (syncCalls Content Err)) Bool (MetadataWorld Content) where
  members := List.replicate resyncs (r.resync.inl.map fun _ ↦ true) ++
    reqs.map fun req ↦ (r.reconcile req).inr.map fun _ ↦ false
  state := s

/-- Objects are ensured as k8s has them. -/
def EnsuresCurrent (s : MetadataWorld Content) : ResyncRequest Content → Prop
  | .ensure obj => obj ∈ s.listing
  | _ => True

/-- Objects are ensured as k8s has them, and deleted if k8s has none. -/
def SyncsCurrent (s : MetadataWorld Content) : SyncRequest Content → Prop
  | .get _ => True
  | .ensure obj => obj ∈ s.listing
  | .delete obj => s.objects.lookup obj.namespacedName = none

section Refreshes

omit [ErrorValues Err]

theorem Refreshes.refl (s : MetadataWorld Content) : Refreshes s s := ⟨rfl, fun _ _ h ↦ h⟩

theorem inSync_ensured (s : MetadataWorld Content) (obj : NamedObject Content) :
    (s.ensured obj).InSync obj := AList.lookup_insert s.external

/-- Another object that k8s has has another name. -/
theorem refreshes_ensured {obj : NamedObject Content} (hobj : obj ∈ s.listing) :
    Refreshes s (s.ensured obj) := by
  refine ⟨rfl, fun other hother hsync ↦ ?_⟩
  by_cases hname : other.namespacedName = obj.namespacedName
  · have hcontent : other.content = obj.content := by
      have hlookup := mem_namedObjects.mp hother
      rw [hname, mem_namedObjects.mp hobj] at hlookup
      exact (Option.some.inj hlookup).symm
    unfold InSync
    rw [hname, hcontent]
    exact inSync_ensured s obj
  · exact (AList.lookup_insert_ne hname).trans hsync

theorem refreshes_deleted {obj : NamedObject Content}
    (hobj : s.objects.lookup obj.namespacedName = none) : Refreshes s (s.deleted obj) := by
  refine ⟨rfl, fun other hother hsync ↦ ?_⟩
  have hname : other.namespacedName ≠ obj.namespacedName := by
    intro hname
    have hlookup := mem_namedObjects.mp hother
    rw [hname, hobj] at hlookup
    cases hlookup
  exact (AList.lookup_erase_ne hname).trans hsync

theorem ResyncAnswers.refreshes {request : ResyncRequest Content}
    {reply : (resyncCalls Content Err).Reply request} (h : ResyncAnswers s request reply s')
    (hguard : EnsuresCurrent s request) : Refreshes s s' := by
  cases h with
  | listed => exact ⟨rfl, fun _ _ h ↦ h⟩
  | listFailed | differ | diffFailed | ensureFailed => exact .refl s
  | ensured => exact refreshes_ensured hguard

theorem MetadataAnswers.refreshes {request : SyncRequest Content}
    {reply : (syncCalls Content Err).Reply request} (h : MetadataAnswers s request reply s')
    (hguard : SyncsCurrent s request) : Refreshes s s' := by
  cases h with
  | found | notFound | getFailed | ensureFailed | deleteFailed => exact .refl s
  | ensured => exact refreshes_ensured hguard
  | deleted => exact refreshes_deleted hguard

end Refreshes

/-- The k8s objects are these, and all of them are in sync but the given ones. -/
structure Refreshed (objects : Objects Content) (objs : List (NamedObject Content))
    (s : MetadataWorld Content) : Prop where
  objects_eq : s.objects = objects
  inSync : ∀ obj ∈ s.listing, obj ∈ objs ∨ s.InSync obj

section Settled

variable {objects : Objects Content}

omit [ErrorValues Err]

theorem Refreshed.refreshes {objs : List (NamedObject Content)} (h : Refreshed objects objs s)
    (hstep : Refreshes s s') : Refreshed objects objs s' := by
  refine ⟨hstep.objects_eq.trans h.objects_eq, fun obj hobj ↦ ?_⟩
  unfold listing at hobj
  rw [hstep.objects_eq] at hobj
  exact (h.inSync obj hobj).imp_right (hstep.kept obj hobj)

theorem objects_refreshes (hs : s.objects = objects) (hstep : Refreshes s s') :
    s'.objects = objects := hstep.objects_eq.trans hs

/-- A program of the resync in a settled cluster. -/
abbrev Refreshing {α : Type} (objects : Objects Content) (P : MetadataWorld Content → Prop)
    (program : Program (resyncCalls Content Err) α) : Prop :=
  Safe faultlessResync (fun s ↦ s.objects = objects) EnsuresCurrent P program
    fun _ ↦ Refreshed objects []

/-- Each call takes one object off those that may not be in sync. -/
theorem refreshing_ensureAll {objs : List (NamedObject Content)}
    (hobjs : ∀ obj ∈ objs, objects.lookup obj.namespacedName = some obj.content) :
    Refreshing objects (Refreshed objects objs)
      (ensureAll objs : Program (resyncCalls Content Err) Unit) := by
  induction objs with
  | nil => exact .done (fun _ _ hs hstep ↦ hs.refreshes hstep) fun s hs ↦ ⟨hs.objects_eq, hs⟩
  | cons obj objs ih =>
    rw [List.forall_mem_cons] at hobjs
    have hguard (s : MetadataWorld Content) (hs : s.objects = objects) : obj ∈ s.listing := by
      rw [listing, mem_namedObjects, hs]
      exact hobjs.1
    refine .call (fun _ ↦ Refreshed objects objs) (fun _ _ hs hstep ↦ hs.refreshes hstep)
      (fun s hs ↦ ⟨hs.objects_eq, hguard s hs.objects_eq⟩) (fun _ _ _ hbreak ↦ hbreak.elim) ?_
      fun _ ↦ ih hobjs.2
    intro s reply s' hs hanswer
    obtain ⟨hanswer, hsucceeds⟩ := hanswer
    cases hanswer with
    | ensureFailed => cases hsucceeds
    | ensured =>
      have hrest := hs.refreshes (refreshes_ensured (hguard s hs.objects_eq))
      refine ⟨hrest.objects_eq, fun other hother ↦ ?_⟩
      rcases hrest.inSync other hother with hmem | hsync
      · rcases List.mem_cons.mp hmem with rfl | hmem
        · exact .inr (inSync_ensured s other)
        · exact .inl hmem
      · exact .inr hsync

theorem refreshing_resyncConverted {objs : List (NamedObject Content)}
    (hobjs : ∀ obj, obj ∈ objs ↔ objects.lookup obj.namespacedName = some obj.content) :
    Refreshing objects (fun s ↦ s.objects = objects)
      (resyncConverted objs : Program (resyncCalls Content Err) Unit) := by
  let differ : Except Err (List (NamedObject Content)) → MetadataWorld Content → Prop
    | .ok out => fun s ↦ Refreshed objects out s ∧ ∀ obj ∈ out, obj ∈ objs
    | .error _ => fun _ ↦ False
  refine .call differ (fun _ _ hs hstep ↦ objects_refreshes hs hstep)
    (fun s hs ↦ ⟨hs, trivial⟩) (fun _ _ _ hbreak ↦ hbreak.elim) ?_ ?_
  · intro s reply s' hs hanswer
    obtain ⟨hanswer, hsucceeds⟩ := hanswer
    cases hanswer with
    | differ hsubset hdiffer =>
      refine ⟨⟨hs, fun obj hobj ↦ hdiffer obj ?_⟩, hsubset⟩
      rw [listing, mem_namedObjects, hs] at hobj
      exact (hobjs obj).mpr hobj
    | diffFailed =>
      obtain ⟨_, herr⟩ := hsucceeds
      cases herr
  · intro (reply : Except Err (List (NamedObject Content)))
    cases reply with
    | error err => exact .vacuous fun _ hs ↦ hs
    | ok out =>
      refine .assume (fun s hs ↦ hs.2) fun hsubset ↦ ?_
      have hloop := @refreshing_ensureAll Content Err objects out
        fun obj hobj ↦ (hobjs obj).mp (hsubset obj hobj)
      exact hloop.strengthen (fun _ _ hs hstep ↦ ⟨hs.1.refreshes hstep, hs.2⟩) fun s hs ↦ hs.1

end Settled

/-- The listing is converted without an error. -/
def Converts (r : MetadataReconciler Content Err) (instances : List (NamedObject Content)) :
    Prop :=
  ∃ items k8sObjList, r.apiMeta.extractList instances = .ok items ∧
    clientObjects r.scheme items = .ok k8sObjList

theorem Converts.resyncListed_eq {instances : List (NamedObject Content)}
    (h : Converts r instances) : r.resyncListed instances = resyncConverted instances := by
  obtain ⟨items, k8sObjList, hitems, hconverted⟩ := h
  unfold MetadataReconciler.resyncListed
  rw [hitems]
  change (match clientObjects r.scheme items with
    | .error _ => _
    | .ok k8sObjList => resyncConverted k8sObjList) = _
  rw [hconverted, clientObjects_eq hconverted, r.apiMeta.extractList_ok hitems]

section Settled

variable {objects : Objects Content}

theorem refreshing_resync (hconverts : Converts r (namedObjects objects)) :
    Refreshing objects (fun s ↦ s.objects = objects) r.resync := by
  let listed : Except Err (List (NamedObject Content)) → MetadataWorld Content → Prop
    | .ok instances => fun s ↦ s.objects = objects ∧ instances = s.listing
    | .error _ => fun _ ↦ False
  refine .call listed (fun _ _ hs hstep ↦ objects_refreshes hs hstep)
    (fun s hs ↦ ⟨hs, trivial⟩) (fun _ _ _ hbreak ↦ hbreak.elim) ?_ ?_
  · intro s reply s' hs hanswer
    obtain ⟨hanswer, hsucceeds⟩ := hanswer
    cases hanswer with
    | listed lag =>
      injection hsucceeds with hcurrent
      exact ⟨hs, hcurrent⟩
    | listFailed => cases hsucceeds
  · intro (reply : Except Err (List (NamedObject Content)))
    cases reply with
    | error err => exact .vacuous fun _ hs ↦ hs
    | ok instances =>
      have hinstances : ∀ s, listed (.ok instances) s → instances = namedObjects objects :=
        fun s hs ↦ hs.2.trans (congrArg namedObjects hs.1)
      refine .assume hinstances fun heq ↦ ?_
      subst heq
      have hrest : Refreshing objects (fun s ↦ s.objects = objects)
          (r.resyncListed (namedObjects objects)) := by
        rw [hconverts.resyncListed_eq]
        exact refreshing_resyncConverted fun obj ↦ mem_namedObjects
      exact hrest.strengthen (fun _ _ hs hstep ↦ ⟨objects_refreshes hs.1 hstep,
        hs.2.trans (congrArg namedObjects hstep.objects_eq).symm⟩) fun s hs ↦ hs.1

/-- What a reconciliation has read stands until it makes its second call. -/
theorem current_reconcile (req : NamespacedName) :
    Safe metadataService (fun s ↦ s.objects = objects) SyncsCurrent (fun s ↦ s.objects = objects)
      (r.reconcile req) fun _ _ ↦ True := by
  have hstable : (metadataService : Service (syncCalls Content Err) _).Stable
      fun s ↦ s.objects = objects := fun _ _ hs hstep ↦ objects_refreshes hs hstep
  have hend (text : String) (err : Option Err) :
      Safe metadataService (fun s ↦ s.objects = objects) SyncsCurrent
        (fun s ↦ s.objects = objects) (.done (syncResult text err)) fun _ _ ↦ True :=
    .done hstable fun s hs ↦ ⟨hs, trivial⟩
  let read : GetReply (NamedObject Content) Err → MetadataWorld Content → Prop
    | .found obj => fun s ↦
      s.objects = objects ∧ s.objects.lookup obj.namespacedName = some obj.content
    | .notFound => fun s ↦ s.objects = objects ∧ s.objects.lookup req = none
    | .failed _ => fun s ↦ s.objects = objects
  refine .call read hstable (fun s hs ↦ ⟨hs, trivial⟩) (fun _ _ _ hbreak ↦ hbreak.elim) ?_ ?_
  · intro s reply s' hs hanswer
    cases hanswer with
    | found hlookup => exact ⟨hs, hlookup⟩
    | notFound hlookup => exact ⟨hs, hlookup⟩
    | getFailed => exact hs
  · intro (reply : GetReply (NamedObject Content) Err)
    cases reply with
    | found obj =>
      refine .call (fun _ s ↦ s.objects = objects) ?_ ?_ (fun _ _ _ hbreak ↦ hbreak.elim) ?_
        fun err ↦ hend _ err
      · exact fun s s' hs hstep ↦ ⟨objects_refreshes hs.1 hstep, by rw [hstep.objects_eq, hs.2]⟩
      · exact fun s hs ↦ ⟨hs.1, mem_namedObjects.mpr hs.2⟩
      · exact fun s reply s' hs hanswer ↦
          objects_refreshes hs.1 (hanswer.refreshes (mem_namedObjects.mpr hs.2))
    | notFound =>
      refine .call (fun _ s ↦ s.objects = objects) ?_ ?_ (fun _ _ _ hbreak ↦ hbreak.elim) ?_
        fun err ↦ hend _ err
      · exact fun s s' hs hstep ↦ ⟨objects_refreshes hs.1 hstep, by rw [hstep.objects_eq, hs.2]⟩
      · exact fun s hs ↦ hs
      · exact fun s reply s' hs hanswer ↦ objects_refreshes hs.1 (hanswer.refreshes hs.2)
    | failed err => exact .done hstable fun s hs ↦ ⟨hs, trivial⟩

end Settled

/-- **A resync catches up.** In a settled cluster, with any number of resyncs and reconciliations
that start in it and in every interleaving of their calls: once one resync has ended, the external
object of every k8s object is what the k8s object is. Calls of reconciliations may fail; those of
resyncs may not, since a resync does not report its failures. Reads and listings are of the present,
and the objects of the listing can be converted. -/
theorem resync_converges (r : MetadataReconciler Content Err) {s : MetadataWorld Content}
    (resyncs : ℕ) (reqs : List NamespacedName) (hconverts : Converts r s.listing)
    {pool : Pool ((resyncCalls Content Err).sum (syncCalls Content Err)) Bool
      (MetadataWorld Content)}
    (h : PoolReaches settledMetadata (resyncPool r resyncs reqs s) pool)
    (hended : .done true ∈ pool.members) {n : NamespacedName} {content : Content}
    (hobj : s.objects.lookup n = some content) : pool.state.external.lookup n = some content := by
  have hguarantee (s₁ : MetadataWorld Content)
      (request : ((resyncCalls Content Err).sum (syncCalls Content Err)).Request) (reply)
      (s₂ : MetadataWorld Content) (_ : s₁.objects = s.objects)
      (hguard : Sum.elim (EnsuresCurrent s₁) (SyncsCurrent s₁) request)
      (hanswer : settledMetadata.Handles s₁ request reply s₂) : Refreshes s₁ s₂ := by
    cases request with
    | inl request => exact hanswer.1.refreshes hguard
    | inr request => exact MetadataAnswers.refreshes hanswer hguard
  have hstart : ∀ program ∈ (resyncPool r resyncs reqs s).members, ∃ P,
      Safe settledMetadata (fun s₁ ↦ s₁.objects = s.objects)
        (fun s₁ ↦ Sum.elim (EnsuresCurrent s₁) (SyncsCurrent s₁)) P program
        (fun resynced s₁ ↦ resynced = true → Refreshed s.objects [] s₁) ∧ P s := by
    intro program hprogram
    refine ⟨fun s₁ ↦ s₁.objects = s.objects, ?_, rfl⟩
    rcases List.mem_append.mp hprogram with hresync | hreconciliation
    · rw [List.eq_of_mem_replicate hresync]
      exact Safe.map (Safe.inl ((refreshing_resync hconverts).weaken fun _ _ hs _ ↦ hs))
    · obtain ⟨req, -, rfl⟩ := List.mem_map.mp hreconciliation
      exact Safe.map (Safe.inr ((current_reconcile req).weaken fun _ _ _ hfalse ↦ by cases hfalse))
  obtain ⟨P, hsafe, hP⟩ := h.safe hguarantee hstart _ hended
  have hrefreshed := hsafe.post hP rfl
  have hlisted : (⟨n, content⟩ : NamedObject Content) ∈ pool.state.listing := by
    rw [listing, mem_namedObjects, hrefreshed.objects_eq]
    exact hobj
  rcases hrefreshed.inSync _ hlisted with hnone | hsync
  · cases hnone
  · exact hsync

/-- A reconciliation reads the game before the resync and ensures it in the middle. -/
theorem resync_converges_stale :
    ∃ pool, PoolReaches settledMetadata
        (resyncPool genreReconciler 1 [pvpGame.namespacedName] staleWorld) pool ∧
      pool.state.external.lookup pvpGame.namespacedName = some "pvp" := by
  let synced : MetadataWorld String :=
    (staleWorld.ensured pvpGame).ensured pvpGame
  let pool : Pool ((resyncCalls String GoError).sum (syncCalls String GoError)) Bool
      (MetadataWorld String) := ⟨[.done true, .done false], synced⟩
  have hreaches : PoolReaches settledMetadata
      (resyncPool genreReconciler 1 [pvpGame.namespacedName] staleWorld) pool := by
    refine .head (@PoolStep.call ((resyncCalls _ _).sum (syncCalls _ _)) _ _ _ [_] []
      (.inr (.get pvpGame.namespacedName)) _ (GetReply.found pvpGame) _ _
      (MetadataAnswers.found (by decide))) ?_
    refine .head (@PoolStep.call ((resyncCalls _ _).sum (syncCalls _ _)) _ _ _ [] [_]
      (.inl .list) _ (.ok [pvpGame]) _ _ ⟨.listed 0, rfl⟩) ?_
    refine .head (@PoolStep.call ((resyncCalls _ _).sum (syncCalls _ _)) _ _ _ [] [_]
      (.inl (.diff [pvpGame])) _ (.ok [pvpGame]) _ _
      ⟨.differ (fun _ hobj ↦ hobj) fun _ hobj ↦ .inl hobj, _, rfl⟩) ?_
    refine .head (@PoolStep.call ((resyncCalls _ _).sum (syncCalls _ _)) _ _ _ [_] []
      (.inr (.ensure pvpGame)) _ (none : Option GoError) _ _ MetadataAnswers.ensured) ?_
    refine .head (@PoolStep.call ((resyncCalls _ _).sum (syncCalls _ _)) _ _ _ [] [_]
      (.inl (.ensure pvpGame)) _ (none : Option GoError) _ _ ⟨.ensured, rfl⟩) ?_
    exact .refl
  have hconverts : Converts genreReconciler staleWorld.listing := ⟨_, _, rfl, rfl⟩
  have hobj : staleWorld.objects.lookup pvpGame.namespacedName = some "pvp" := by decide
  exact ⟨pool, hreaches, resync_converges genreReconciler 1 [pvpGame.namespacedName] hconverts
    hreaches List.mem_cons_self hobj⟩

end OperatorToolkit.Sync
