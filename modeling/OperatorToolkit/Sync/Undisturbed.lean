import OperatorToolkit.Sync.Collector

/-!
# Garbage collection without concurrent activity

When nothing happens beside the collector, its two listings describe the same cluster. Then it calls
`Delete` exactly for the external objects without a k8s object, in the order of the listing, and
goes on past deletions that fail. If none of them fails, what is left in the external system has a
k8s object, and a second run has nothing to do.
-/

namespace OperatorToolkit.Sync

open Interaction Object

variable {Content Err : Type}

/-- The objects that `Delete` is called with, in the order of the calls. -/
def deletions (calls : List (collectorCalls Content Err).Call) : List (NamedObject Content) :=
  calls.filterMap fun
    | ⟨.delete obj, _⟩ => some obj
    | _ => none

def failedDelete : (collectorCalls Content Err).Call → Bool
  | ⟨.delete _, some _⟩ => true
  | _ => false

/-- No `Delete` among the calls fails. -/
def AllDeleted (calls : List (collectorCalls Content Err).Call) : Prop :=
  ∀ call ∈ calls, failedDelete call = false

/-- The external objects without a k8s object. -/
def World.orphans (s : World Content Err) : List NamespacedName :=
  s.external.filter fun n ↦ n ∉ s.names

/-! ## The loop over the orphans -/

section DeleteAll

variable {r : Reconciler Content Err} {delObjs : List NamespacedName}
  {calls : List (collectorCalls Content Err).Call}

/-- The loop calls `Delete` for each name, whatever the calls return. -/
theorem deletions_deleteAll (hruns : Program.Runs (r.deleteAll delObjs) calls ()) :
    deletions calls = delObjs.map r.named := by
  induction delObjs generalizing calls with
  | nil =>
    obtain ⟨rfl, -⟩ := Program.runs_done_iff.mp hruns
    rfl
  | cons n delObjs ih =>
    obtain ⟨reply, rest, rfl, hrest⟩ := Program.runs_call_iff.mp hruns
    have htail := ih hrest
    rw [List.map_cons, ← htail]
    rfl

theorem mem_deleteAll (hruns : Program.Runs (r.deleteAll delObjs) calls ())
    {call : (collectorCalls Content Err).Call} (hcall : call ∈ calls) :
    ∃ obj, call.1 = .delete obj := by
  induction delObjs generalizing calls with
  | nil =>
    obtain ⟨rfl, -⟩ := Program.runs_done_iff.mp hruns
    cases hcall
  | cons n delObjs ih =>
    obtain ⟨reply, rest, rfl, hrest⟩ := Program.runs_call_iff.mp hruns
    rcases List.mem_cons.mp hcall with rfl | hcall
    · exact ⟨r.named n, rfl⟩
    · exact ih hrest hcall

/-- Deletions that succeed leave the other external objects, in their order. -/
theorem served_deleteAll [ErrorValues Err] {s s' : World Content Err}
    (hruns : Program.Runs (r.deleteAll delObjs) calls ())
    (hserved : Served (service r) s calls s') (hdeleted : AllDeleted calls) :
    s'.objects = s.objects ∧ s'.external = s.external.filter fun n ↦ n ∉ delObjs := by
  induction delObjs generalizing calls s with
  | nil =>
    obtain ⟨rfl, -⟩ := Program.runs_done_iff.mp hruns
    cases hserved
    simp
  | cons n delObjs ih =>
    obtain ⟨reply, rest, rfl, hrest⟩ := Program.runs_call_iff.mp hruns
    obtain ⟨hreply, hothers⟩ := List.forall_mem_cons.mp hdeleted
    obtain rfl : reply = none := by
      cases reply with
      | none => rfl
      | some err => cases hreply
    cases hserved with
    | cons hanswer hserved =>
      cases hanswer with
      | deleted =>
        have hnext := ih hrest hserved hothers
        refine ⟨hnext.1, ?_⟩
        calc s'.external
            = (s.external.filter (· ≠ n)).filter fun n' ↦ n' ∉ delObjs := hnext.2
          _ = s.external.filter fun n' ↦ n' ∉ n :: delObjs := by
              rw [List.filter_filter]
              congr 1
              funext n'
              simp [Bool.and_comm]

end DeleteAll

/-! ## The runs of the collector -/

/-- The runs of `collectGarbage`: one of its three steps before the loop fails, or it gets to the
loop. -/
inductive Collection [ErrorValues Err] (r : Reconciler Content Err) :
    List (collectorCalls Content Err).Call → Prop where
  | listFailed {err : Err} : Collection r [⟨.list, .error err⟩]
  | namesFailed {instances : List (NamedObject Content)} {err : Err} :
      namespacedNames r.apiMeta instances = .error err → Collection r [⟨.list, .ok instances⟩]
  | listExternalFailed {instances : List (NamedObject Content)} {names : List NamespacedName}
      {err : Err} : namespacedNames r.apiMeta instances = .ok names →
      Collection r [⟨.list, .ok instances⟩, ⟨.listExternal, .error err⟩]
  | collected {instances : List (NamedObject Content)} {names external : List NamespacedName}
      {calls : List (collectorCalls Content Err).Call} :
      namespacedNames r.apiMeta instances = .ok names →
      Program.Runs (r.deleteAll (namespacedNamesDiff external names)) calls () →
      Collection r (⟨.list, .ok instances⟩ :: ⟨.listExternal, .ok external⟩ :: calls)

section Runs

variable [ErrorValues Err] {r : Reconciler Content Err}
  {calls : List (collectorCalls Content Err).Call} {s s' : World Content Err}

theorem collection_of_runs (hruns : Program.Runs r.collectGarbage calls ()) :
    Collection r calls := by
  obtain ⟨(reply : Except Err (List (NamedObject Content))), rest, rfl, hrest⟩ :=
    Program.runs_call_iff.mp hruns
  cases reply with
  | error err =>
    obtain ⟨rfl, -⟩ := Program.runs_done_iff.mp hrest
    exact .listFailed
  | ok instances =>
    change Program.Runs (r.collectListed instances) rest () at hrest
    unfold Reconciler.collectListed at hrest
    cases hnames : namespacedNames r.apiMeta instances with
    | error err =>
      rw [hnames] at hrest
      obtain ⟨rfl, -⟩ := Program.runs_done_iff.mp hrest
      exact .namesFailed hnames
    | ok names =>
      rw [hnames] at hrest
      obtain ⟨(reply : Except Err (List NamespacedName)), last, rfl, hlast⟩ :=
        Program.runs_call_iff.mp hrest
      cases reply with
      | error err =>
        obtain ⟨rfl, -⟩ := Program.runs_done_iff.mp hlast
        exact .listExternalFailed hnames
      | ok external => exact .collected hnames hlast

/-- The call is a listing that fails, or one whose names cannot be extracted. -/
def FailedListing (r : Reconciler Content Err) : (collectorCalls Content Err).Call → Prop
  | ⟨.list, .error _⟩ => True
  | ⟨.list, .ok instances⟩ => ∃ err, namespacedNames r.apiMeta instances = .error err
  | ⟨.listExternal, .error _⟩ => True
  | ⟨.listExternal, .ok _⟩ => False
  | ⟨.delete _, _⟩ => False

def ListingFails (r : Reconciler Content Err) (calls : List (collectorCalls Content Err).Call) :
    Prop :=
  ∃ call ∈ calls, FailedListing r call

/-- In a run that gets to the loop nothing has failed. -/
theorem not_listingFails_of_collected {instances : List (NamedObject Content)}
    {names external delObjs : List NamespacedName}
    (hnames : namespacedNames r.apiMeta instances = .ok names)
    (hloop : Program.Runs (r.deleteAll delObjs) calls ()) :
    ¬ListingFails r (⟨.list, .ok instances⟩ :: ⟨.listExternal, .ok external⟩ :: calls) := by
  have hlist : ¬FailedListing r ⟨.list, .ok instances⟩ := by
    rintro ⟨err, herr⟩
    rw [hnames] at herr
    cases herr
  have hdelete : ∀ call ∈ calls, ¬FailedListing r call := by
    rintro ⟨request, reply⟩ hcall
    obtain ⟨obj, rfl⟩ := mem_deleteAll hloop hcall
    exact id
  rintro ⟨call, hcall, hfailed⟩
  rcases List.mem_cons.mp hcall with rfl | hcall
  · exact hlist hfailed
  rcases List.mem_cons.mp hcall with rfl | hcall
  · exact hfailed
  · exact hdelete call hcall hfailed

/-- Without concurrent activity the loop runs over the orphans. -/
theorem orphans_eq_diff {instances : List (NamedObject Content)}
    {names external : List NamespacedName}
    (hnames : namespacedNames r.apiMeta instances = .ok names)
    (hserved : Served (service r) s
      (⟨.list, .ok instances⟩ :: ⟨.listExternal, .ok external⟩ :: calls) s') :
    namespacedNamesDiff external names = s.orphans ∧
      ∃ mid : World Content Err, mid.objects = s.objects ∧ mid.external = s.external ∧
        Served (service r) mid calls s' := by
  cases hserved with
  | cons hlist hserved =>
    cases hlist with
    | listed =>
      cases hserved with
      | cons hexternal hserved =>
        cases hexternal with
        | listedExternal =>
          refine ⟨?_, { s with history := .listed s.names :: s.history }, rfl, rfl, hserved⟩
          rw [namespacedNames_eq hnames]
          change s.external.filter (fun n ↦ !s.names.contains n) = s.orphans
          simp only [World.orphans, List.contains_eq_mem, decide_not]

theorem deletions_of_served (hruns : Program.Runs r.collectGarbage calls ())
    (hserved : Served (service r) s calls s') :
    (ListingFails r calls ∧ deletions calls = []) ∨
      (¬ListingFails r calls ∧ deletions calls = s.orphans.map r.named) := by
  cases collection_of_runs hruns with
  | listFailed => exact .inl ⟨⟨_, List.mem_cons_self, trivial⟩, rfl⟩
  | namesFailed hnames => exact .inl ⟨⟨_, List.mem_cons_self, _, hnames⟩, rfl⟩
  | listExternalFailed =>
    exact .inl ⟨⟨_, List.mem_cons_of_mem _ List.mem_cons_self, trivial⟩, rfl⟩
  | collected hnames hloop =>
    refine .inr ⟨not_listingFails_of_collected hnames hloop, ?_⟩
    rw [← (orphans_eq_diff hnames hserved).1, ← deletions_deleteAll hloop]
    rfl

/-- If nothing fails, the external objects with a k8s object are left. -/
theorem external_of_served (hruns : Program.Runs r.collectGarbage calls ())
    (hserved : Served (service r) s calls s') (hlisted : ¬ListingFails r calls)
    (hdeleted : AllDeleted calls) :
    s'.objects = s.objects ∧ s'.external = s.external.filter fun n ↦ n ∈ s.names := by
  cases collection_of_runs hruns with
  | listFailed => exact absurd ⟨_, List.mem_cons_self, trivial⟩ hlisted
  | namesFailed hnames => exact absurd ⟨_, List.mem_cons_self, _, hnames⟩ hlisted
  | listExternalFailed =>
    exact absurd ⟨_, List.mem_cons_of_mem _ List.mem_cons_self, trivial⟩ hlisted
  | collected hnames hloop =>
    obtain ⟨hdiff, mid, hobjects, hexternal, hrest⟩ := orphans_eq_diff hnames hserved
    rw [hdiff] at hloop
    have hafter := served_deleteAll hloop hrest fun call hcall ↦
      hdeleted call (List.mem_cons_of_mem _ (List.mem_cons_of_mem _ hcall))
    rw [hobjects, hexternal] at hafter
    refine ⟨hafter.1, hafter.2.trans ?_⟩
    apply List.filter_congr
    intro n hn
    simp [World.orphans, hn]

/-- **What the collector does undisturbed.** Without concurrent activity, and whichever calls fail:
no `Delete` is called if a listing or the extraction of the names fails, and else it is called
exactly for the external objects without a k8s object, in the order of the listing. If all of these
calls succeed, the external objects that remain are those with a k8s object, and a second run
deletes nothing. -/
theorem collectGarbage_undisturbed (hruns : Program.Runs r.collectGarbage calls ())
    (hserved : Served (service r) s calls s') :
    (ListingFails r calls → deletions calls = []) ∧
      (¬ListingFails r calls → deletions calls = s.orphans.map r.named) ∧
      (¬ListingFails r calls → AllDeleted calls →
        s'.external = s.external.filter (fun n ↦ n ∈ s.names) ∧
          ∀ again s'', Program.Runs r.collectGarbage again () →
            Served (service r) s' again s'' → deletions again = []) := by
  refine ⟨fun hfails ↦ ?_, fun hlisted ↦ ?_, fun hlisted hdeleted ↦ ?_⟩
  · rcases deletions_of_served hruns hserved with ⟨-, hnone⟩ | ⟨hlisted, -⟩
    · exact hnone
    · exact absurd hfails hlisted
  · rcases deletions_of_served hruns hserved with ⟨hfails, -⟩ | ⟨-, hexact⟩
    · exact absurd hfails hlisted
    · exact hexact
  · obtain ⟨hobjects, hexternal⟩ := external_of_served hruns hserved hlisted hdeleted
    refine ⟨hexternal, fun again s'' hagain hserved' ↦ ?_⟩
    have hnone : s'.orphans = [] := by
      rw [World.orphans, World.names, hobjects, hexternal, List.filter_filter]
      apply List.filter_eq_nil_iff.mpr
      intro n _
      simp [World.names]
    rcases deletions_of_served hagain hserved' with ⟨-, hdeletions⟩ | ⟨-, hdeletions⟩
    · exact hdeletions
    · rw [hdeletions, hnone, List.map_nil]

end Runs

/-- A cluster with one k8s object, and an external system in which two objects are left over. -/
def leftovers : World Unit GoError where
  objects := [game]
  external := [⟨"other-ns", "test-game"⟩, game.namespacedName, ⟨"other-ns", "test-game"⟩]
  reconciling := []
  history := []

/-- The object of the same name in another namespace is deleted, once for each time it is listed. -/
theorem collectGarbage_undisturbed_leftovers :
    ∃ calls s', Program.Runs gameReconciler.collectGarbage calls () ∧
      Served (service gameReconciler) leftovers calls s' ∧
      deletions calls = leftovers.orphans.map gameReconciler.named ∧
      s'.external = [game.namespacedName] := by
  let orphan : NamespacedName := ⟨"other-ns", "test-game"⟩
  let calls : List (collectorCalls Unit GoError).Call :=
    [⟨.list, .ok leftovers.objects⟩, ⟨.listExternal, .ok leftovers.external⟩,
      ⟨.delete (gameReconciler.named orphan), none⟩, ⟨.delete (gameReconciler.named orphan), none⟩]
  have hruns : Program.Runs gameReconciler.collectGarbage calls () :=
    .call (.call (.call (.call (.done ()))))
  have hserved : Served (service gameReconciler) leftovers calls _ :=
    .cons .listed (.cons .listedExternal (.cons .deleted (.cons .deleted .nil)))
  have hloop : Program.Runs (gameReconciler.deleteAll [orphan, orphan]) (calls.drop 2) () :=
    .call (.call (.done ()))
  have hlisted : ¬ListingFails gameReconciler calls :=
    @not_listingFails_of_collected _ _ _ _ _ _ [game.namespacedName] _ _ rfl hloop
  have hdeleted : AllDeleted calls := by simp [AllDeleted, calls, failedDelete]
  obtain ⟨-, hdeletions, hremain⟩ := collectGarbage_undisturbed hruns hserved
  exact ⟨calls, _, hruns, hserved, hdeletions hlisted, (hremain hlisted hdeleted).1⟩

end OperatorToolkit.Sync
