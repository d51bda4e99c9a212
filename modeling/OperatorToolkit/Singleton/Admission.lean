import OperatorToolkit.Interaction.Sum
import OperatorToolkit.Object.ClientObjects
import OperatorToolkit.Webhook.Validator

/-!
# Singletons

`ValidateSingletonCreate` is a validating function that refuses a new instance of a kind if one
exists. It lists the instances while the request is admitted, with a client that may show those of
an earlier moment, and the API server stores the object after that. So it does not keep two requests
apart if one is stored after the moment that the listing of the other shows. It does no worse than
that: when several instances exist, there was a moment which is after those that their listings show
and before all of them were stored.
-/

namespace OperatorToolkit.Singleton

open Interaction Object Webhook

/-! ## GetInstance -/

/-- The errors of the package, among those of the libraries. -/
inductive InstanceError (Err : Type) where
  | multipleObjectsFound (kind : String) (instances : ℕ)
  | other (err : Err)

/-- What `GetInstance` and `ValidateSingletonCreate` use of the API machinery. A client object,
unlike an item of a list, knows its kind. -/
structure InstanceApi (Content Err : Type) where
  apiMeta : ApiMeta Content Err
  scheme : ClientScheme Content Err
  gvkForObject : NamedObject Content → Except Err GroupVersionKind
  groupVersionKind : NamedObject Content → GroupVersionKind
  quote : String → String

/-- `List` of the client, called for a request. -/
def listCalls (Ctx Content Err : Type) : Signature where
  Request := Ctx
  Reply _ := Except Err (List (NamedObject Content))

variable {Ctx Content Err Obj : Type} [ErrorValues Err]

def InstanceError.text (quote : String → String) : InstanceError Err → String
  | .multipleObjectsFound kind instances =>
    "multiple instances (" ++ toString instances ++ ") of " ++ quote kind ++ " found"
  | .other err => message err

/-- The part of `GetInstance` after the instances were listed. -/
def getListed (api : InstanceApi Content Err) (instances : List (NamedObject Content)) :
    Except (InstanceError Err) (Option (NamedObject Content)) := do
  match ← Except.mapError .other (api.apiMeta.extractList instances) with
  | [] => .ok none
  | [item] =>
    let cobjs ← Except.mapError .other (clientObjects api.scheme [item])
    .ok cobjs.head?
  | item :: items =>
    let objectKind := match api.gvkForObject item with
      | .error _ => "unknown"
      | .ok gvk => gvk.kind
    .error (.multipleObjectsFound objectKind (item :: items).length)

def getInstance (api : InstanceApi Content Err) (ctx : Ctx) :
    Program (listCalls Ctx Content Err)
      (Except (InstanceError Err) (Option (NamedObject Content))) := do
  match ← Program.request (S := listCalls Ctx Content Err) ctx with
  | .error listErr => return .error (.other listErr)
  | .ok instances => return getListed api instances

/-- What `ValidateSingletonCreate` makes of an instance. -/
def refuseInstance (api : InstanceApi Content Err) :
    Except (InstanceError Err) (Option (NamedObject Content)) → Option (InstanceError Err)
  | .error err => some err
  | .ok none => none
  | .ok (some o) =>
    some (.other (errorf ("an instance of " ++ api.quote (api.groupVersionKind o).kind ++ " - " ++
      o.namespacedName.format ++ " already exists")))

def validateSingletonCreate (api : InstanceApi Content Err) (ctx : Ctx) (_obj : Obj) :
    Program (listCalls Ctx Content Err) (Option (InstanceError Err)) := do
  return refuseInstance api (← getInstance api ctx)

/-- Without an instance that is returned and without an error, nothing was listed. -/
theorem eq_nil_of_getListed {api : InstanceApi Content Err}
    {instances : List (NamedObject Content)} (h : getListed api instances = .ok none) :
    instances = [] := by
  unfold getListed at h
  cases hitems : api.apiMeta.extractList instances with
  | error err =>
    rw [hitems] at h
    cases h
  | ok items =>
    rw [hitems] at h
    rw [← api.apiMeta.extractList_ok hitems]
    rcases items with _ | ⟨item, _ | ⟨item', items⟩⟩
    · rfl
    · change (Except.mapError InstanceError.other (clientObjects api.scheme [item]) >>=
        fun cobjs ↦ .ok cobjs.head?) = _ at h
      cases hconvert : clientObjects api.scheme [item] with
      | error err =>
        rw [hconvert] at h
        cases h
      | ok cobjs =>
        rw [hconvert, clientObjects_eq hconvert] at h
        cases h
    · cases h

theorem eq_nil_of_refuseInstance {api : InstanceApi Content Err}
    {instances : List (NamedObject Content)}
    (h : refuseInstance api (getListed api instances) = none) : instances = [] := by
  refine @eq_nil_of_getListed _ _ _ api instances ?_
  cases hget : getListed api instances with
  | error err =>
    rw [hget] at h
    cases h
  | ok o =>
    rw [hget] at h
    cases o with
    | none => rfl
    | some o => cases h

/-! ## The instances that exist -/

/-- An instance, with the request that made it. -/
structure Instance (Ctx : Type) where
  ctx : Ctx
  namespacedName : NamespacedName

inductive Event (Ctx : Type) where
  /-- The listing of the request shows the instances that the given requests have made. -/
  | listed (ctx : Ctx) (present : List Ctx)
  | stored (i : Instance Ctx)
  | removed (n : NamespacedName)

/-- What happened in the API server, latest first. A listing stands at the moment that it shows. -/
abbrev History (Ctx : Type) := List (Event Ctx)

/-- The instances that exist after all that. -/
def instances : History Ctx → List (Instance Ctx)
  | [] => []
  | .listed _ _ :: earlier => instances earlier
  | .stored i :: earlier => i :: instances earlier
  | .removed n :: earlier => (instances earlier).filter fun i ↦ i.namespacedName ≠ n

def contexts (history : History Ctx) : List Ctx := (instances history).map (·.ctx)

/-- The calls of the API server to its storage. -/
inductive StoreRequest (Ctx : Type) where
  | store (ctx : Ctx) (n : NamespacedName)
  | remove (n : NamespacedName)

def storeCalls (Ctx Err : Type) : Signature where
  Request := StoreRequest Ctx
  Reply _ := Option Err

abbrev admissionCalls (Ctx Content Err : Type) : Signature :=
  (listCalls Ctx Content Err).sum (storeCalls Ctx Err)

/-- A listing has the names of the instances of the present or of an earlier moment. Their contents
are of no account here. -/
inductive ListAnswers : History Ctx → (ctx : Ctx) → (listCalls Ctx Content Err).Reply ctx →
    History Ctx → Prop where
  | listed {ctx later earlier} {objs : List (NamedObject Content)} :
      objs.map (·.namespacedName) = (instances earlier).map (·.namespacedName) →
      ListAnswers (later ++ earlier) ctx (.ok objs)
        (later ++ .listed ctx (contexts earlier) :: earlier)
  | listFailed {s ctx err} : ListAnswers s ctx (.error err) s

/-- The names are unique. A call that fails may have taken effect. -/
inductive StoreAnswers : History Ctx → (request : StoreRequest Ctx) →
    (storeCalls Ctx Err).Reply request → History Ctx → Prop where
  | stored {s ctx n} {reply : Option Err} : (∀ i ∈ instances s, i.namespacedName ≠ n) →
      StoreAnswers s (.store ctx n) reply (.stored ⟨ctx, n⟩ :: s)
  | removed {s n} {reply : Option Err} : StoreAnswers s (.remove n) reply (.removed n :: s)
  | failed {s request} {err : Err} : StoreAnswers s request (some err) s

/-- The request has found that there is no instance. -/
def Cleared (ctx : Ctx) (s : History Ctx) : Prop := .listed ctx [] ∈ s

/-- Listings show what exists at their moment, and what is stored was cleared before. -/
inductive Consistent : History Ctx → Prop where
  | nil : Consistent []
  | listed {ctx s} : Consistent s → Consistent (.listed ctx (contexts s) :: s)
  | stored {i s} : Consistent s → Cleared i.ctx s → Consistent (.stored i :: s)
  | removed {n s} : Consistent s → Consistent (.removed n :: s)

variable {s s' later earlier : History Ctx} {ctx : Ctx} {i : Instance Ctx}

theorem instances_insert (later earlier : History Ctx) (ctx : Ctx) (present : List Ctx) :
    instances (later ++ .listed ctx present :: earlier) = instances (later ++ earlier) := by
  induction later with
  | nil => rfl
  | cons event later ih =>
    cases event with
    | listed => exact ih
    | stored i => exact congrArg (List.cons i) ih
    | removed n => exact congrArg (List.filter _) ih

theorem mem_insert {event new : Event Ctx} (h : event ∈ later ++ earlier) :
    event ∈ later ++ new :: earlier :=
  ((List.sublist_cons_self new earlier).append_left later).subset h

/-- A listing of an earlier moment does not disturb what came after it. -/
theorem Consistent.insert (h : Consistent (later ++ earlier)) (ctx : Ctx) :
    Consistent (later ++ .listed ctx (contexts earlier) :: earlier) := by
  induction later with
  | nil => exact .listed h
  | cons event later ih =>
    cases h with
    | @listed ctx' _ h =>
      change Consistent (.listed ctx' ((instances (later ++ earlier)).map _) :: _)
      rw [← instances_insert later earlier ctx (contexts earlier)]
      exact .listed (ih h)
    | stored h hcleared => exact .stored (ih h) (mem_insert hcleared)
    | removed h => exact .removed (ih h)

theorem Consistent.cleared (h : Consistent (later ++ .stored i :: earlier)) :
    Cleared i.ctx earlier := by
  induction later with
  | nil =>
    cases h with
    | stored _ hcleared => exact hcleared
  | cons event later ih =>
    cases h with
    | listed h => exact ih h
    | stored h => exact ih h
    | removed h => exact ih h

/-- Since an instance that exists was stored, the instances before it in the list were stored too,
and no listing has been empty. -/
theorem Consistent.since_stored (h : Consistent s) {front back : List (Instance Ctx)}
    (hs : instances s = front ++ i :: back) :
    ∃ later earlier, s = later ++ .stored i :: earlier ∧ (∀ j ∈ front, .stored j ∈ later) ∧
      ∀ ctx, .listed ctx [] ∉ later := by
  induction h generalizing front back with
  | nil => simp [instances] at hs
  | @listed ctx s _ ih =>
    obtain ⟨later, earlier, hsplit, hfront, hlisted⟩ := ih hs
    refine ⟨.listed ctx (contexts s) :: later, earlier, congrArg _ hsplit, ?_, fun ctx' hmem ↦ ?_⟩
    · exact fun j hj ↦ List.mem_cons_of_mem _ (hfront j hj)
    · rcases List.mem_cons.mp hmem with heq | hmem
      · have hnil : contexts s = [] := by
          injection heq with _ hnil
          exact hnil.symm
        rw [contexts, List.map_eq_nil_iff, show instances s = front ++ i :: back from hs] at hnil
        simp at hnil
      · exact hlisted ctx' hmem
  | @stored j s _ _ ih =>
    cases front with
    | nil =>
      obtain ⟨rfl, -⟩ := List.cons.inj hs
      exact ⟨[], s, rfl, by simp, by simp⟩
    | cons j' front =>
      obtain ⟨rfl, hrest⟩ := List.cons.inj hs
      obtain ⟨later, earlier, hsplit, hfront, hlisted⟩ := ih hrest
      refine ⟨.stored j :: later, earlier, congrArg _ hsplit, ?_, by simpa using hlisted⟩
      rw [List.forall_mem_cons]
      exact ⟨List.mem_cons_self, fun j' hj' ↦ List.mem_cons_of_mem _ (hfront j' hj')⟩
  | @removed n s _ ih =>
    obtain ⟨kept, rest, hrest, hkept, hi⟩ := List.filter_eq_append_iff.mp hs
    obtain ⟨dropped, back', rfl, -⟩ := List.filter_eq_cons_iff.mp hi
    rw [← List.append_assoc] at hrest
    obtain ⟨later, earlier, hsplit, hfront, hlisted⟩ := ih hrest
    refine ⟨.removed n :: later, earlier, congrArg _ hsplit, fun j hj ↦ ?_, by simpa using hlisted⟩
    rw [← hkept] at hj
    exact List.mem_cons_of_mem _ (hfront j (List.mem_append_left _ (List.mem_of_mem_filter hj)))

/-- The moment before the first of the instances was stored. -/
theorem Consistent.exists_moment (h : Consistent s) :
    ∃ later earlier, s = later ++ earlier ∧
      ∀ i ∈ instances s, .listed i.ctx [] ∈ earlier ∧ .stored i ∈ later := by
  rcases List.eq_nil_or_concat' (instances s) with hnone | ⟨front, first, hinstances⟩
  · exact ⟨[], s, rfl, by simp [hnone]⟩
  · obtain ⟨later, earlier, rfl, hfront, hlisted⟩ := h.since_stored hinstances
    refine ⟨later ++ [.stored first], earlier, by simp, fun i hi ↦ ?_⟩
    rw [hinstances, List.mem_append, List.mem_singleton] at hi
    rcases hi with hi | rfl
    · have hstored := hfront i hi
      obtain ⟨later₁, later₂, rfl⟩ := List.append_of_mem hstored
      rw [List.append_assoc, List.cons_append] at h
      have hcleared : .listed i.ctx [] ∈ later₂ ++ .stored first :: earlier := h.cleared
      rw [List.mem_append, List.mem_cons] at hcleared
      -- A listing that was empty has not shown the first instance.
      have hnot : .listed i.ctx [] ∉ later₂ := fun hmem ↦
        hlisted i.ctx (List.mem_append_right _ (List.mem_cons_of_mem _ hmem))
      refine ⟨(hcleared.resolve_left hnot).resolve_left (by simp), ?_⟩
      exact List.mem_append_left _ hstored
    · exact ⟨h.cleared, List.mem_append_right _ List.mem_cons_self⟩

/-! ## All interleavings -/

/-- What the steps of one request mean to the others. -/
structure Continues (s s' : History Ctx) : Prop where
  consistent : Consistent s → Consistent s'
  subset : ∀ event ∈ s, event ∈ s'

def listService : Service (listCalls Ctx Content Err) (History Ctx) where
  Handles := ListAnswers
  Breaks _ _ _ := False
  Rely := Continues

def storeService : Service (storeCalls Ctx Err) (History Ctx) where
  Handles := StoreAnswers
  Breaks _ _ _ := False
  Rely := Continues

def admissionService : Service (admissionCalls Ctx Content Err) (History Ctx) :=
  listService.sum storeService Continues

/-- Objects are stored for requests that have found no instance. -/
def StoresCleared (s : History Ctx) : StoreRequest Ctx → Prop
  | .store ctx _ => Cleared ctx s
  | .remove _ => True

omit [ErrorValues Err] in
theorem ListAnswers.continues {reply : (listCalls Ctx Content Err).Reply ctx}
    (h : ListAnswers s ctx reply s') : Continues s s' := by
  cases h with
  | listed => exact ⟨fun hs ↦ hs.insert ctx, fun _ hevent ↦ mem_insert hevent⟩
  | listFailed => exact ⟨fun hs ↦ hs, fun event hevent ↦ hevent⟩

omit [ErrorValues Err] in
theorem StoreAnswers.continues {request : StoreRequest Ctx}
    {reply : (storeCalls Ctx Err).Reply request} (h : StoreAnswers s request reply s')
    (hguard : StoresCleared s request) : Continues s s' := by
  cases h with
  | stored => exact ⟨fun hs ↦ .stored hs hguard, fun _ hevent ↦ List.mem_cons_of_mem _ hevent⟩
  | removed => exact ⟨fun hs ↦ .removed hs, fun _ hevent ↦ List.mem_cons_of_mem _ hevent⟩
  | failed => exact ⟨fun hs ↦ hs, fun event hevent ↦ hevent⟩

/-- A state that the steps of others keep. -/
def Lasting (P : History Ctx → Prop) : Prop := ∀ s s', P s → Continues s s' → P s'

theorem lasting_consistent : Lasting (Consistent : History Ctx → Prop) :=
  fun _ _ h hstep ↦ hstep.consistent h

theorem lasting_cleared (ctx : Ctx) : Lasting fun s ↦ Consistent s ∧ Cleared ctx s :=
  fun _ _ h hstep ↦ ⟨hstep.consistent h.1, hstep.subset _ h.2⟩

/-- A program that lists instances, from `P` to `Q`. -/
abbrev Checks {α : Type} (P : History Ctx → Prop) (program : Program (listCalls Ctx Content Err) α)
    (Q : α → History Ctx → Prop) : Prop :=
  Safe listService Consistent (fun _ _ ↦ True) P program Q

omit [ErrorValues Err] in
/-- Whatever a validating function lists, it keeps what lasts. -/
theorem checks_keeps {α : Type} {P : History Ctx → Prop} (hlasting : Lasting P)
    (hP : ∀ s, P s → Consistent s) (program : Program (listCalls Ctx Content Err) α) :
    Checks P program fun _ ↦ P := by
  induction program with
  | done value => exact .done hlasting fun s hs ↦ ⟨hP s hs, hs⟩
  | call request next ih =>
    refine .call (fun _ ↦ P) hlasting (fun s hs ↦ ⟨hP s hs, trivial⟩)
      (fun _ _ _ hbreak ↦ hbreak.elim) ?_ ih
    exact fun s reply s' hs hanswer ↦ hlasting s s' hs (ListAnswers.continues hanswer)

theorem checks_validateSingletonCreate (api : InstanceApi Content Err) (ctx : Ctx) (obj : Obj) :
    Checks Consistent (validateSingletonCreate api ctx obj)
      fun err s ↦ Consistent s ∧ (err = none → Cleared ctx s) := by
  let listed : Except Err (List (NamedObject Content)) → History Ctx → Prop
    | .ok objs => fun s ↦ Consistent s ∧ (objs = [] → Cleared ctx s)
    | .error _ => Consistent
  refine .call listed lasting_consistent (fun s hs ↦ ⟨hs, trivial⟩)
    (fun _ _ _ hbreak ↦ hbreak.elim) ?_ ?_
  · intro s reply s' hs hanswer
    cases hanswer with
    | listed hnames =>
      refine ⟨hs.insert ctx, fun hnil ↦ ?_⟩
      rw [hnil, List.map_nil, eq_comm, List.map_eq_nil_iff] at hnames
      rw [Cleared, contexts, hnames]
      exact List.mem_append_right _ List.mem_cons_self
    | listFailed => exact hs
  · intro (reply : Except Err (List (NamedObject Content)))
    cases reply with
    | error err => exact .done lasting_consistent fun s hs ↦ ⟨hs, hs, fun herr ↦ by cases herr⟩
    | ok objs =>
      have hlasting : Lasting fun s ↦ Consistent s ∧ (objs = [] → Cleared ctx s) :=
        fun s s' hs hstep ↦ ⟨hstep.consistent hs.1, fun hnil ↦ hstep.subset _ (hs.2 hnil)⟩
      refine .done hlasting fun s hs ↦ ⟨hs.1, hs.1, fun hnone ↦ hs.2 ?_⟩
      exact eq_nil_of_refuseInstance hnone

/-- The functions after the singleton check only have to keep what it found. -/
theorem checks_validateAll {api : InstanceApi Content Err} {ctx : Ctx} {obj : Obj}
    {ms : List (Program (listCalls Ctx Content Err) (Option (InstanceError Err)))}
    (hmem : validateSingletonCreate api ctx obj ∈ ms) :
    Checks Consistent (validateAll ms)
      fun err s ↦ Consistent s ∧ (err = none → Cleared ctx s) := by
  induction ms with
  | nil => cases hmem
  | cons m ms ih =>
    rcases List.mem_cons.mp hmem with rfl | hmem
    · refine (checks_validateSingletonCreate api ctx obj).bind fun err P hstable hP ↦ ?_
      cases err with
      | some err =>
        exact .done hstable fun s hs ↦ ⟨(hP s hs).1, (hP s hs).1, fun hnone ↦ by cases hnone⟩
      | none =>
        have hrest := checks_keeps (lasting_cleared ctx) (fun s hs ↦ hs.1) (validateAll ms)
        exact (hrest.strengthen hstable fun s hs ↦ ⟨(hP s hs).1, (hP s hs).2 rfl⟩).weaken
          fun _ s hs ↦ ⟨hs.1, fun _ ↦ hs.2⟩
    · refine (checks_keeps lasting_consistent (fun s hs ↦ hs) m).bind fun err P hstable hP ↦ ?_
      cases err with
      | some err => exact .done hstable fun s hs ↦ ⟨hP s hs, hP s hs, fun hnone ↦ by cases hnone⟩
      | none => exact (ih hmem).strengthen hstable hP

/-- A request to create an object. -/
structure Creation (Ctx : Type) where
  ctx : Ctx
  namespacedName : NamespacedName
  object : Option Encoding.Document

def Creation.request {Ctx : Type} (c : Creation Ctx) : AdmissionRequest where
  ns := c.namespacedName.ns
  operation := .create
  object := c.object
  oldObject := none

section Handler

variable [ValidationError (InstanceError Err)] {api : InstanceApi Content Err}
  {h : ValidatingHandler (listCalls Ctx Content Err) Ctx Obj (InstanceError Err)}
  {T : ObjectType Obj}

/-- A handler that requires validation and has the singleton check among its functions. -/
structure Guards (h : ValidatingHandler (listCalls Ctx Content Err) Ctx Obj (InstanceError Err))
    (api : InstanceApi Content Err) : Prop where
  required : ∀ obj, h.validator.requireValidating obj = true
  checks : validateSingletonCreate api ∈ h.validator.validateCreate

theorem checks_handle (hguards : Guards h api) (c : Creation Ctx) :
    Checks Consistent (h.handle T c.ctx c.request)
      fun response s ↦ Consistent s ∧ (response.allowed = true → Cleared c.ctx s) := by
  unfold ValidatingHandler.handle Creation.request
  simp only
  split
  next err _ =>
    exact .done lasting_consistent fun s hs ↦ ⟨hs, hs, fun hallowed ↦ by cases hallowed⟩
  next obj _ =>
    rw [ValidatingHandler.validate, if_pos (hguards.required obj)]
    have hmem : validateSingletonCreate api c.ctx obj ∈
        h.validator.validateCreate.map fun m ↦ m c.ctx obj :=
      List.mem_map_of_mem (f := fun m ↦ m c.ctx obj) hguards.checks
    refine (checks_validateAll hmem).bind fun err P hstable hP ↦ ?_
    cases err with
    | some err =>
      refine .done hstable fun s hs ↦ ⟨(hP s hs).1, (hP s hs).1, fun hallowed ↦ ?_⟩
      rw [refused_allowed] at hallowed
      cases hallowed
    | none => exact .done hstable fun s hs ↦ ⟨(hP s hs).1, (hP s hs).1, fun _ ↦ (hP s hs).2 rfl⟩

/-! ## Creations and removals -/

/-- The API server stores the object of a creation once the handler has allowed it. -/
def creation (h : ValidatingHandler (listCalls Ctx Content Err) Ctx Obj (InstanceError Err))
    (T : ObjectType Obj) (c : Creation Ctx) :
    Program (admissionCalls Ctx Content Err) Unit := do
  let response ← (h.handle T c.ctx c.request).inl
  if response.allowed then
    let _err ← Program.request (S := admissionCalls Ctx Content Err)
      (.inr (.store c.ctx c.namespacedName))
    return ()
  else return ()

def removal (n : NamespacedName) : Program (admissionCalls Ctx Content Err) Unit := do
  let _err ← Program.request (S := admissionCalls Ctx Content Err) (.inr (.remove n))
  return ()

/-- Any number of creations and removals, in an API server without instances. -/
def admissionPool (h : ValidatingHandler (listCalls Ctx Content Err) Ctx Obj (InstanceError Err))
    (T : ObjectType Obj) (creations : List (Creation Ctx)) (removals : List NamespacedName) :
    Pool (admissionCalls Ctx Content Err) Unit (History Ctx) where
  members := creations.map (creation h T) ++ removals.map removal
  state := []

/-- A program that stores objects only for requests that have found no instance. -/
abbrev Admits {α : Type} (program : Program (admissionCalls Ctx Content Err) α) : Prop :=
  Safe admissionService Consistent (fun s ↦ Sum.elim (fun _ ↦ True) (StoresCleared s)) Consistent
    program fun _ _ ↦ True

theorem admits_creation (hguards : Guards h api) (c : Creation Ctx) :
    Admits (creation h T c) := by
  refine Safe.bind (Safe.inl (checks_handle hguards c)) fun response P hstable hP ↦ ?_
  split
  next hallowed =>
    refine .call (fun _ ↦ Consistent) hstable (fun s hs ↦ ⟨(hP s hs).1, (hP s hs).2 hallowed⟩)
      (fun _ _ _ hbreak ↦ hbreak.elim) ?_ ?_
    · intro s reply s' hs hanswer
      exact (StoreAnswers.continues hanswer ((hP s hs).2 hallowed)).consistent (hP s hs).1
    · exact fun _ ↦ .done lasting_consistent fun s hs ↦ ⟨hs, trivial⟩
  next => exact .done hstable fun s hs ↦ ⟨(hP s hs).1, trivial⟩

omit [ErrorValues Err] [ValidationError (InstanceError Err)] in
theorem admits_removal (n : NamespacedName) :
    Admits (removal n : Program (admissionCalls Ctx Content Err) Unit) := by
  refine .call (fun _ ↦ Consistent) lasting_consistent (fun s hs ↦ ⟨hs, trivial⟩)
    (fun _ _ _ hbreak ↦ hbreak.elim) ?_ fun _ ↦ .done lasting_consistent fun s hs ↦ ⟨hs, trivial⟩
  exact fun s reply s' hs hanswer ↦ (StoreAnswers.continues hanswer trivial).consistent hs

/-- **Instances of a singleton.** Among any number of creations and removals, in every interleaving
of their calls, with calls that fail and with listings of the present or of an earlier moment: there
was a moment such that for each of the instances that now exist, its request had listed none as of
that moment or an earlier one, and it was stored later. Two requests that were not admitted at the
same time have not made two instances that both exist, if the listings are of the present. -/
theorem singletons_overlap (T : ObjectType Obj) (hguards : Guards h api)
    (creations : List (Creation Ctx)) (removals : List NamespacedName)
    {pool : Pool (admissionCalls Ctx Content Err) Unit (History Ctx)}
    (hreaches : PoolReaches admissionService (admissionPool h T creations removals) pool) :
    ∃ later earlier, pool.state = later ++ earlier ∧
      ∀ i ∈ instances pool.state, .listed i.ctx [] ∈ earlier ∧ .stored i ∈ later := by
  have hguarantee (s₁ : History Ctx) (request : (admissionCalls Ctx Content Err).Request) (reply)
      (s₂ : History Ctx) (_ : Consistent s₁)
      (hguard : Sum.elim (fun _ ↦ True) (StoresCleared s₁) request)
      (hanswer : admissionService.Handles s₁ request reply s₂) : Continues s₁ s₂ := by
    cases request with
    | inl request => exact ListAnswers.continues hanswer
    | inr request => exact StoreAnswers.continues hanswer hguard
  have hstart : ∀ program ∈ (admissionPool h T creations removals).members, ∃ P,
      Safe admissionService Consistent (fun s ↦ Sum.elim (fun _ ↦ True) (StoresCleared s)) P
        program (fun _ _ ↦ True) ∧ P [] := by
    intro program hprogram
    refine ⟨Consistent, ?_, .nil⟩
    rcases List.mem_append.mp hprogram with hcreation | hremoval
    · obtain ⟨c, -, rfl⟩ := List.mem_map.mp hcreation
      exact admits_creation hguards c
    · obtain ⟨n, -, rfl⟩ := List.mem_map.mp hremoval
      exact admits_removal n
  exact (hreaches.inv hguarantee hstart .nil).exists_moment

end Handler

/-! ## Two games at once -/

/-- An API in which nothing fails. -/
def gameApi : InstanceApi Unit GoError where
  apiMeta := .plain
  scheme := .plain
  gvkForObject _ := .ok ⟨"app.example.com", "v1alpha1", "Game"⟩
  groupVersionKind _ := ⟨"app.example.com", "v1alpha1", "Game"⟩
  quote text := "\"" ++ text ++ "\""

instance : ValidationError (InstanceError GoError) where
  text := InstanceError.text gameApi.quote
  apiStatus _ := none

def gameGuard : ValidatingHandler (listCalls ℕ Unit GoError) ℕ (Game textTimes)
    (InstanceError GoError) where
  validator :=
    { getNewObject := (gameType textTimes).type.zero
      validateCreate := [validateSingletonCreate gameApi]
      validateUpdate := []
      validateDelete := []
      requireValidating := fun _ ↦ true }
  decoder := gameHandler.decoder

def gameCreation (ctx : ℕ) (name : String) : Creation ℕ := ⟨ctx, ⟨"default", name⟩, some newGame⟩

/-- The second request lists the games when the first is stored, but sees an earlier moment. -/
theorem singletons_overlap_two :
    ∃ pool, PoolReaches admissionService
        (admissionPool gameGuard (gameType textTimes)
          [gameCreation 1 "chess", gameCreation 2 "go"] []) pool ∧
      contexts pool.state = [2, 1] ∧
      ∃ later earlier, pool.state = later ++ earlier ∧
        ∀ i ∈ instances pool.state, .listed i.ctx [] ∈ earlier ∧ .stored i ∈ later := by
  let chess : Instance ℕ := ⟨1, ⟨"default", "chess"⟩⟩
  let go : Instance ℕ := ⟨2, ⟨"default", "go"⟩⟩
  let pool : Pool (admissionCalls ℕ Unit GoError) Unit (History ℕ) :=
    { members := [.done (), .done ()]
      state := [.stored go, .stored chess, .listed 2 [], .listed 1 []] }
  have hreaches : PoolReaches admissionService
      (admissionPool gameGuard (gameType textTimes)
        [gameCreation 1 "chess", gameCreation 2 "go"] []) pool := by
    refine .head (@PoolStep.call (admissionCalls ℕ Unit GoError) _ _ _ [] [_]
      (.inl (1 : ℕ)) _ (.ok []) _ _ (@ListAnswers.listed _ _ _ _ [] [] _ rfl)) ?_
    refine .head (@PoolStep.call (admissionCalls ℕ Unit GoError) _ _ _ [] [_]
      (.inr (.store 1 ⟨"default", "chess"⟩)) _ (none : Option GoError) _ _
      (StoreAnswers.stored (by decide))) ?_
    refine .head (@PoolStep.call (admissionCalls ℕ Unit GoError) _ _ _ [_] []
      (.inl (2 : ℕ)) _ (.ok []) _ _
      (@ListAnswers.listed _ _ _ _ [.stored chess] [.listed 1 []] _ rfl)) ?_
    refine .head (@PoolStep.call (admissionCalls ℕ Unit GoError) _ _ _ [_] []
      (.inr (.store 2 ⟨"default", "go"⟩)) _ (none : Option GoError) _ _
      (StoreAnswers.stored (by decide))) ?_
    exact .refl
  have hguards : Guards gameGuard gameApi := ⟨fun _ ↦ rfl, List.mem_cons_self⟩
  exact ⟨pool, hreaches, rfl, singletons_overlap (gameType textTimes) hguards _ _ hreaches⟩

end OperatorToolkit.Singleton
