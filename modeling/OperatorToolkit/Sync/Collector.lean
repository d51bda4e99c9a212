import OperatorToolkit.Interaction.Serial
import OperatorToolkit.Sync.Reconcile

/-!
# Garbage collection against a changing cluster

The collector runs against a cluster in which objects come and go and any number of reconciliations
are under way, each of them between its read and its call to the external system at any point. The
collector compares two listings that are taken at different times. It deletes the external object of
an existing k8s object exactly when that k8s object was created after the k8s listing.
-/

namespace OperatorToolkit.Sync

open Interaction Object

variable {Content Err : Type}

/-- What happens to the k8s objects, and the collector's listings of them. -/
inductive Entry where
  | created (n : NamespacedName)
  | removed (n : NamespacedName)
  | listed (names : List NamespacedName)

/-- The k8s objects, the names of the external objects, the reconciliations that are under way, and
what happened so far, latest first. -/
structure World (Content Err : Type) where
  objects : List (NamedObject Content)
  external : List NamespacedName
  reconciling : List (Program (syncCalls Content Err) (Result × Option Err))
  history : List Entry

namespace World

def names (s : World Content Err) : List NamespacedName := s.objects.map (·.namespacedName)

/-- `Ensure` has taken effect. -/
def ensured (s : World Content Err) (n : NamespacedName) : World Content Err :=
  { s with external := if n ∈ s.external then s.external else s.external ++ [n] }

/-- `Delete` has taken effect. -/
def deleted (s : World Content Err) (n : NamespacedName) : World Content Err :=
  { s with external := s.external.filter (· ≠ n) }

/-- Nothing has happened yet; objects may exist on both sides. -/
def Initial (s : World Content Err) : Prop := s.reconciling = [] ∧ s.history = []

end World

/-- How the calls of a reconciliation are answered: reads return the current contents, and calls to
the external system may fail, with or without having taken effect. -/
inductive SyncAnswers : World Content Err → (request : SyncRequest Content) →
    (syncCalls Content Err).Reply request → World Content Err → Prop where
  | found {s obj} : obj ∈ s.objects →
      SyncAnswers s (.get obj.namespacedName) (GetReply.found obj) s
  | notFound {s n} : n ∉ s.names → SyncAnswers s (.get n) GetReply.notFound s
  | getFailed {s n err} : SyncAnswers s (.get n) (GetReply.failed err) s
  | ensured {s obj} {reply : Option Err} :
      SyncAnswers s (.ensure obj) reply (s.ensured obj.namespacedName)
  | ensureFailed {s obj} {err : Err} : SyncAnswers s (.ensure obj) (some err) s
  | deleted {s obj} {reply : Option Err} :
      SyncAnswers s (.delete obj) reply (s.deleted obj.namespacedName)
  | deleteFailed {s obj} {err : Err} : SyncAnswers s (.delete obj) (some err) s

/-- How the calls of the collector are answered. -/
inductive CollectorAnswers : World Content Err → (request : CollectorRequest Content) →
    (collectorCalls Content Err).Reply request → World Content Err → Prop where
  | listed {s} : CollectorAnswers s .list (.ok s.objects)
      { s with history := .listed s.names :: s.history }
  | listFailed {s} {err : Err} : CollectorAnswers s .list (.error err) s
  | listedExternal {s} : CollectorAnswers s .listExternal (.ok s.external) s
  | listExternalFailed {s} {err : Err} : CollectorAnswers s .listExternal (.error err) s
  | deleted {s obj} {reply : Option Err} :
      CollectorAnswers s (.delete obj) reply (s.deleted obj.namespacedName)
  | deleteFailed {s obj} {err : Err} : CollectorAnswers s (.delete obj) (some err) s

/-- What goes on beside the collector: objects are created and removed, and reconciliations start
and make their calls. -/
inductive Proceeds [ErrorValues Err] (r : Reconciler Content Err) :
    World Content Err → World Content Err → Prop where
  | created {s} (obj : NamedObject Content) : obj.namespacedName ∉ s.names →
      Proceeds r s { s with
        objects := obj :: s.objects, history := .created obj.namespacedName :: s.history }
  | removed {s} (n : NamespacedName) :
      Proceeds r s { s with
        objects := s.objects.filter (·.namespacedName ≠ n), history := .removed n :: s.history }
  | started {s} (req : NamespacedName) :
      Proceeds r s { s with reconciling := r.reconcile req :: s.reconciling }
  | called {s s'} {pre post} {request : SyncRequest Content}
      {next : (syncCalls Content Err).Reply request → _} {reply} :
      s.reconciling = pre ++ .call request next :: post → SyncAnswers s request reply s' →
      Proceeds r s { s' with reconciling := pre ++ next reply :: post }

def service [ErrorValues Err] (r : Reconciler Content Err) :
    Service (collectorCalls Content Err) (World Content Err) where
  Handles := CollectorAnswers
  Breaks _ _ _ := False
  Rely := Proceeds r

/-- The configurations that garbage collections pass through. -/
def Collecting [ErrorValues Err] (r : Reconciler Content Err)
    (cfg : Config (collectorCalls Content Err) Unit (World Content Err)) : Prop :=
  SerialReachable (service r) r.collectGarbage World.Initial cfg

/-! ## What a listing tells later -/

def lastListed : List Entry → Option (List NamespacedName)
  | [] => none
  | .listed names :: _ => some names
  | _ :: earlier => lastListed earlier

/-- The object was created after the last listing, and has not been removed since. -/
def createdSinceListing (n : NamespacedName) : List Entry → Bool
  | [] => false
  | .listed _ :: _ => false
  | .created n' :: earlier => n' = n || createdSinceListing n earlier
  | .removed n' :: earlier => n' ≠ n && createdSinceListing n earlier

/-- Of the names that were not listed, those exist that were created since. -/
def ListingInv (s : World Content Err) : Prop :=
  ∀ names, lastListed s.history = some names → ∀ n ∉ names,
    (n ∈ s.names ↔ createdSinceListing n s.history)

/-- The collector deletes only what it has not seen in k8s. -/
def Unlisted (s : World Content Err) : CollectorRequest Content → Prop
  | .delete obj => ∃ names, lastListed s.history = some names ∧ obj.namespacedName ∉ names
  | _ => True

/-- The last listing held exactly these names. -/
structure Listed (names : List NamespacedName) (s : World Content Err) : Prop where
  inv : ListingInv s
  lastListed : lastListed s.history = some names

variable {s s' : World Content Err} {names : List NamespacedName}

/-- A reconciliation changes only the external system. -/
theorem SyncAnswers.frame {request : SyncRequest Content}
    {reply : (syncCalls Content Err).Reply request} (h : SyncAnswers s request reply s') :
    s'.objects = s.objects ∧ s'.history = s.history := by
  cases h <;> exact ⟨rfl, rfl⟩

theorem ListingInv.congr (h : ListingInv s) (hobjects : s'.objects = s.objects)
    (hhistory : s'.history = s.history) : ListingInv s' := by
  unfold ListingInv World.names at h ⊢
  rwa [hobjects, hhistory]

theorem Listed.congr (h : Listed names s) (hobjects : s'.objects = s.objects)
    (hhistory : s'.history = s.history) : Listed names s' :=
  ⟨h.inv.congr hobjects hhistory, hhistory ▸ h.lastListed⟩

section Proceeds

variable [ErrorValues Err] {r : Reconciler Content Err}

theorem Proceeds.lastListed (h : Proceeds r s s') :
    lastListed s'.history = lastListed s.history := by
  cases h with
  | created | removed | started => rfl
  | called _ hanswer => rw [hanswer.frame.2]

theorem ListingInv.proceeds (h : ListingInv s) (hstep : Proceeds r s s') : ListingInv s' := by
  intro names hlisted n hn
  rw [hstep.lastListed] at hlisted
  have hbefore := h names hlisted n hn
  cases hstep with
  | created obj _ =>
    simp only [World.names, List.map_cons, List.mem_cons, createdSinceListing, Bool.or_eq_true,
      decide_eq_true_eq] at hbefore ⊢
    rw [hbefore, eq_comm]
  | removed n' =>
    have hmem : n ∈ (s.objects.filter (·.namespacedName ≠ n')).map (·.namespacedName) ↔
        n' ≠ n ∧ n ∈ s.names := by
      simp only [World.names, List.mem_map, List.mem_filter, decide_eq_true_eq]
      constructor
      · rintro ⟨obj, ⟨hobj, hne⟩, rfl⟩
        exact ⟨hne.symm, obj, hobj, rfl⟩
      · rintro ⟨hne, obj, hobj, rfl⟩
        exact ⟨obj, ⟨hobj, hne.symm⟩, rfl⟩
    rw [World.names, hmem, hbefore]
    simp [createdSinceListing]
  | started => exact hbefore
  | called _ hanswer =>
    obtain ⟨hobjects, hhistory⟩ := hanswer.frame
    rw [World.names, hobjects, hhistory]
    exact hbefore

theorem stable_listingInv : (service r).Stable ListingInv :=
  fun _ _ h hstep ↦ h.proceeds hstep

theorem stable_listed : (service r).Stable (Listed names) :=
  fun _ _ h hstep ↦ ⟨h.inv.proceeds hstep, (Proceeds.lastListed hstep).trans h.lastListed⟩

end Proceeds

/-- A new listing sees everything that exists. -/
theorem listed_names :
    Listed s.names ({ s with history := .listed s.names :: s.history } : World Content Err) := by
  refine ⟨fun names hlisted n hn ↦ ?_, rfl⟩
  obtain rfl : s.names = names := Option.some.inj hlisted
  exact iff_of_false hn (by simp [createdSinceListing])

/-! ## The collector -/

/-- The program keeps the invariant and deletes only unlisted names. -/
abbrev Collects [ErrorValues Err] {α : Type} (r : Reconciler Content Err)
    (P : World Content Err → Prop) (program : Program (collectorCalls Content Err) α) : Prop :=
  Safe (service r) ListingInv Unlisted P program fun _ ↦ ListingInv

variable [ErrorValues Err] {r : Reconciler Content Err}

theorem collects_done :
    Collects r ListingInv (.done () : Program (collectorCalls Content Err) Unit) :=
  .done stable_listingInv fun _ h ↦ ⟨h, h⟩

theorem collects_of_listed {program : Program (collectorCalls Content Err) Unit}
    (h : Collects r ListingInv program) : Collects r (Listed names) program :=
  h.strengthen stable_listed fun _ hs ↦ hs.inv

/-- The loop deletes what was not listed. -/
theorem collects_deleteAll {delObjs : List NamespacedName} (h : ∀ n ∈ delObjs, n ∉ names) :
    Collects r (Listed names) (r.deleteAll delObjs) := by
  induction delObjs with
  | nil => exact collects_of_listed collects_done
  | cons n delObjs ih =>
    refine .call (fun _ ↦ Listed names) stable_listed ?_ ?_ ?_ ?_
    · exact fun s hs ↦ ⟨hs.inv, names, hs.lastListed, h n List.mem_cons_self⟩
    · exact fun s s' _ hbreak ↦ hbreak.elim
    · intro s reply s' hs hanswer
      cases hanswer <;> exact hs.congr rfl rfl
    · exact fun reply ↦ ih fun n' hn' ↦ h n' (List.mem_cons_of_mem _ hn')

/-- The comparison of the two listings. -/
theorem collects_collectUnlisted : Collects r (Listed names) (r.collectUnlisted names) := by
  refine .call (fun _ ↦ Listed names) stable_listed ?_ ?_ ?_ ?_
  · exact fun s hs ↦ ⟨hs.inv, trivial⟩
  · exact fun s s' _ hbreak ↦ hbreak.elim
  · intro s reply s' hs hanswer
    cases hanswer <;> exact hs
  · intro (reply : Except Err (List NamespacedName))
    cases reply with
    | error err => exact collects_of_listed collects_done
    | ok extObjList => exact collects_deleteAll fun n hn ↦ (mem_namespacedNamesDiff.mp hn).2

theorem collects_collectListed {instances : List (NamedObject Content)} :
    Collects r (Listed (instances.map (·.namespacedName))) (r.collectListed instances) := by
  unfold Reconciler.collectListed
  split
  next => exact collects_of_listed collects_done
  next kObjList hnames =>
    rw [← namespacedNames_eq hnames]
    exact collects_collectUnlisted

theorem collects_collectGarbage : Collects r ListingInv r.collectGarbage := by
  let post : Except Err (List (NamedObject Content)) → World Content Err → Prop
    | .ok instances => Listed (instances.map (·.namespacedName))
    | .error _ => ListingInv
  refine .call post stable_listingInv ?_ ?_ ?_ ?_
  · exact fun s hs ↦ ⟨hs, trivial⟩
  · exact fun s s' _ hbreak ↦ hbreak.elim
  · intro s reply s' hs hanswer
    cases hanswer with
    | listed => exact listed_names
    | listFailed => exact hs
  · intro (reply : Except Err (List (NamedObject Content)))
    cases reply with
    | error err => exact collects_done
    | ok instances => exact collects_collectListed

omit [ErrorValues Err] in
theorem World.Initial.listingInv (h : s.Initial) : ListingInv s := by
  intro names hlisted
  rw [h.2] at hlisted
  cases hlisted

/-- **What the collector deletes.** At every point of every interleaving with creations and removals
of objects and with any number of reconciliations: the collector calls `Delete` for the external
object of an existing k8s object if and only if the k8s object was created after the collector
listed the k8s objects. -/
theorem collectGarbage_deletes_existing_iff
    {cfg : Config (collectorCalls Content Err) Unit (World Content Err)} (h : Collecting r cfg)
    {obj : NamedObject Content} {next : Option Err → Program (collectorCalls Content Err) Unit}
    (hcall : cfg.program = some (.call (CollectorRequest.delete obj) next)) :
    obj.namespacedName ∈ cfg.state.names ↔
      createdSinceListing obj.namespacedName cfg.state.history := by
  have hverified := SerialReachable.verified stable_listingInv collects_collectGarbage
    (fun _ ↦ World.Initial.listingInv) h
  obtain ⟨program, s⟩ := cfg
  subst hcall
  obtain ⟨names, hlisted, hunlisted⟩ := hverified.guard
  exact hverified.inv names hlisted _ hunlisted

/-- An external object without a k8s object is deleted. -/
theorem collectGarbage_deletes_orphan :
    ∃ cfg next, Collecting gameReconciler cfg ∧
      cfg.program = some (.call (CollectorRequest.delete game) next) ∧
      game.namespacedName ∉ cfg.state.names := by
  have hstart : Collecting gameReconciler
      ⟨some gameReconciler.collectGarbage, ⟨[], [game.namespacedName], [], []⟩⟩ :=
    SerialReachable.step ⟨_, ⟨rfl, rfl⟩, .refl⟩ .start
  have hlisted := hstart.step (.call .listed)
  have horphan := hlisted.step (.call .listedExternal)
  refine ⟨_, _, horphan, rfl, fun hmem ↦ ?_⟩
  have hcreated := (@collectGarbage_deletes_existing_iff _ _ _ _ _ horphan game _ rfl).mp hmem
  cases hcreated

/-- The object is created and ensured between the two listings, and is never removed: its external
object is deleted all the same. -/
theorem collectGarbage_deletes_new_object :
    ∃ cfg next, Collecting gameReconciler cfg ∧
      cfg.program = some (.call (CollectorRequest.delete game) next) ∧
      cfg.state.objects = [game] ∧
        cfg.state.history = [.created game.namespacedName, .listed []] := by
  have hstart : Collecting gameReconciler
      ⟨some gameReconciler.collectGarbage, ⟨[], [], [], []⟩⟩ :=
    SerialReachable.step ⟨_, ⟨rfl, rfl⟩, .refl⟩ .start
  have hlisted := hstart.step (.call .listed)
  have hcreated := hlisted.step (.environment (.created game List.not_mem_nil))
  have hread := (hcreated.step (.environment (.started game.namespacedName))).step (.environment
    (@Proceeds.called _ _ _ _ _ _ [] [] _ _ _ rfl (.found List.mem_cons_self)))
  have hensured := hread.step (.environment
    (@Proceeds.called _ _ _ _ _ _ [] [] (.ensure game) _ (none : Option GoError) rfl .ensured))
  exact ⟨_, _, hensured.step (.call .listedExternal), rfl, rfl, rfl⟩

end OperatorToolkit.Sync
