import Mathlib.Logic.Function.Basic
import OperatorToolkit.Object.Names
import OperatorToolkit.Operator.Dag
import OperatorToolkit.Webhook.Reinvocation
import OperatorToolkit.Webhook.Validator

/-!
# Labels of the stored objects

A mutating and a validating webhook for one type, the first with a pipeline of the defaulting
functions of the toolkit, the second with `ValidateLabelsCreate` and `ValidateLabelsUpdate` among
its functions. The API server sends the object of a request to the first, applies the patches, sends
the result to the second and stores it some time after both have allowed it. Then every object that
is stored has the default labels and annotations and no labels but those that are allowed. Its
cluster version is that of its own admission, and what it was if the cluster could not be asked.
-/

namespace OperatorToolkit.Webhook

open Encoding Interaction Object Operator

/-! ## The validating functions -/

section Functions

variable {S : Signature} {Ctx Obj Err : Type} [ErrorValues Err] {times : Times}

/-- How Go writes a string in quotes, and the order in which labels are ranged over. -/
structure Validation where
  quote : String → String
  range : MapRange (String × String)

variable (v : Validation) (K : MetaType times Obj)

/-- The loop over the object's labels ends at the first that is not expected. -/
def validateLabels (obj : Obj) (labels : SortedMap String String) : Option Err :=
  (v.range.visit ((K.getLabels obj).getD .empty).entries).findSome? fun entry ↦
    if (labels.entries.lookup entry.1).isNone then
      some (errorf ("found unexpected label key " ++ v.quote entry.1))
    else none

def validateLabelsCreate (labels : SortedMap String String) (_ctx : Ctx) (obj : Obj) :
    Program S (Option Err) :=
  return validateLabels v K obj labels

def validateLabelsUpdate (labels : SortedMap String String) (_ctx : Ctx) (obj _oldobj : Obj) :
    Program S (Option Err) :=
  return validateLabels v K obj labels

variable {v K}

/-- An object passes if all its labels are expected, in whatever order they are looked at. -/
theorem validateLabels_eq_none_iff {obj : Obj} {labels : SortedMap String String} :
    (validateLabels v K obj labels : Option Err) = none ↔
      ∀ key, lookupEntry (K.getLabels obj) key ≠ none → labels.entries.lookup key ≠ none := by
  rw [validateLabels, List.findSome?_eq_none_iff]
  have hsorted := ((K.getLabels obj).getD .empty).sorted
  constructor
  · intro h key hkey
    obtain ⟨value, hvalue⟩ := Option.ne_none_iff_exists'.mp hkey
    have hmem := (v.range.visit_perm _).mem_iff.mpr (hsorted.lookup_eq_some_iff.mp hvalue)
    intro hnone
    have hpassed := h _ hmem
    rw [hnone] at hpassed
    cases hpassed
  · intro h entry hentry
    have hmem := (v.range.visit_perm _).mem_iff.mp hentry
    have hlookup := hsorted.lookup_eq_some_iff.mpr hmem
    have hexpected := h entry.1 (Option.ne_none_iff_exists'.mpr ⟨entry.2, hlookup⟩)
    rw [if_neg]
    rwa [Option.isNone_iff_eq_none]

end Functions

/-! ## The validating handler -/

section Validated

variable {S : Signature} {Ctx Obj Err : Type} [ValidationError Err]

open Program

omit [ValidationError Err] in
theorem runs_of_validateAll {ms : List (Program S (Option Err))} {calls : List S.Call}
    (h : Runs (validateAll ms) calls none) : ∀ m ∈ ms, ∃ calls, Runs m calls none := by
  induction ms generalizing calls with
  | nil => exact fun m hm ↦ absurd hm List.not_mem_nil
  | cons m ms ih =>
    obtain ⟨first, err, rest, -, hfirst, hrest⟩ := runs_bind_iff.mp h
    cases err with
    | some err => cases hrest
    | none => exact List.forall_mem_cons.mpr ⟨⟨first, hfirst⟩, ih hrest⟩

theorem runs_of_validate {h : ValidatingHandler S Ctx Obj Err} {obj : Obj}
    {ms : List (Program S (Option Err))} {calls : List S.Call} {response : ValidationResponse}
    (hrequire : h.validator.requireValidating obj = true)
    (hrun : Runs (h.validate obj ms) calls response) (hallowed : response.allowed = true) :
    ∀ m ∈ ms, ∃ calls, Runs m calls none := by
  rw [ValidatingHandler.validate, if_pos hrequire] at hrun
  obtain ⟨first, err, rest, -, hfirst, hrest⟩ := runs_bind_iff.mp hrun
  cases err with
  | some err =>
    obtain ⟨-, rfl⟩ := runs_done_iff.mp hrest
    rw [refused_allowed] at hallowed
    cases hallowed
  | none => exact runs_of_validateAll hfirst

/-- A create or update that is allowed has an object that could be read, and all functions for the
operation have passed. -/
theorem validated_of_handle {h : ValidatingHandler S Ctx Obj Err} {T : ObjectType Obj} {ctx : Ctx}
    {req : AdmissionRequest} {current : Document} (hobject : req.object = some current)
    (hoperation : req.operation = .create ∨ req.operation = .update)
    (hrequire : ∀ obj, h.validator.requireValidating obj = true) {calls : List S.Call}
    {response : ValidationResponse} (hrun : Runs (h.handle T ctx req) calls response)
    (hallowed : response.allowed = true) :
    ∃ obj, T.type.decode (T.setNamespace h.validator.getNewObject req.ns) current.value =
        .ok obj ∧
      ((∀ m ∈ h.validator.validateCreate, ∃ calls, Runs (m ctx obj) calls none) ∨
        ∃ oldObj, ∀ m ∈ h.validator.validateUpdate,
          ∃ calls, Runs (m ctx obj oldObj) calls none) := by
  rcases hoperation with hcreate | hupdate
  · simp only [ValidatingHandler.handle, hcreate, hobject] at hrun
    split at hrun
    · obtain ⟨-, rfl⟩ := runs_done_iff.mp hrun
      cases hallowed
    next obj hdecode =>
      refine ⟨obj, Decoder.decode_eq_ok rfl hdecode, .inl fun m hm ↦ ?_⟩
      exact runs_of_validate (hrequire obj) hrun hallowed _ (List.mem_map_of_mem hm)
  · simp only [ValidatingHandler.handle, hupdate, hobject] at hrun
    split at hrun
    · obtain ⟨-, rfl⟩ := runs_done_iff.mp hrun
      cases hallowed
    next obj hdecode =>
      split at hrun
      · obtain ⟨-, rfl⟩ := runs_done_iff.mp hrun
        cases hallowed
      next oldObj _ =>
        refine ⟨obj, Decoder.decode_eq_ok rfl hdecode, .inr ⟨oldObj, fun m hm ↦ ?_⟩⟩
        exact runs_of_validate (hrequire obj) hrun hallowed _ (List.mem_map_of_mem hm)

end Validated

/-! ## The API server -/

section Admission

variable {S : Signature} {Ctx Obj Err Patch : Type} [ErrorValues Err] [ValidationError Err]
  [JsonPatch Patch] {times : Times}

/-- The two webhooks for a type. -/
structure Webhooks (S : Signature) (Ctx Obj Err : Type) where
  mutating : PipelineHandler Obj
  validating : ValidatingHandler S Ctx Obj Err

/-- The objects that have been admitted, and those that are stored. -/
structure Admissions where
  admitted : List (NamespacedName × Document)
  stored : NamespacedName → Option Document

/-- The webhooks allow the object of the request, which has become `current` by then. The functions
of the pipeline may be answered in any way. -/
structure Admits (Patch : Type) [JsonPatch Patch] (K : MetaType times Obj)
    (W : Webhooks S Ctx Obj Err) (n : NamespacedName) (current : Document) : Prop where
  mutated : ∃ (raw : Document) (calls : List DefaultCall),
    calls.map DefaultCall.func = W.mutating.pipeline ∧
      ((W.mutating.during K calls).handle K.toObjectType ⟨n.ns, some raw⟩ :
        Response Patch).allowed = true ∧
      applyPatch ((W.mutating.during K calls).handle K.toObjectType ⟨n.ns, some raw⟩ :
        Response Patch).patches raw.value = some current.value
  validated : ∃ ctx req calls response, req.ns = n.ns ∧ req.object = some current ∧
    (req.operation = .create ∨ req.operation = .update) ∧
    Program.Runs (W.validating.handle K.toObjectType ctx req) calls response ∧
      response.allowed = true

/-- Objects are admitted, and stored afterwards in any order. Anything may be deleted. -/
inductive AdmissionStep (Patch : Type) [JsonPatch Patch] (K : MetaType times Obj)
    (W : Webhooks S Ctx Obj Err) : Admissions → Admissions → Prop where
  | allow {s n current} : Admits Patch K W n current →
      AdmissionStep Patch K W s { s with admitted := (n, current) :: s.admitted }
  | store {s n current} : (n, current) ∈ s.admitted →
      AdmissionStep Patch K W s { s with stored := Function.update s.stored n (some current) }
  | remove {s n} :
      AdmissionStep Patch K W s { s with stored := Function.update s.stored n none }

/-- The webhooks run the pipeline on every object and allow no labels but the given. -/
structure LabelPolicy (K : MetaType times Obj) (v : Validation)
    (allowed : SortedMap String String) (W : Webhooks S Ctx Obj Err) : Prop where
  requireDefaulting : ∀ obj, W.mutating.requireDefaulting obj = true
  getNewObject : W.validating.validator.getNewObject = K.type.zero
  requireValidating : ∀ obj, W.validating.validator.requireValidating obj = true
  validateCreate : validateLabelsCreate v K allowed ∈ W.validating.validator.validateCreate
  validateUpdate : validateLabelsUpdate v K allowed ∈ W.validating.validator.validateUpdate

/-- The object has the labels of the pipeline, the annotations of some calls of it, and no labels
but the allowed. -/
structure HasDefaults (K : MetaType times Obj) (pipeline : List DefaultFunc)
    (calls : List DefaultCall) (allowed : SortedMap String String) (obj : Obj) : Prop where
  labels : ∀ key value, lastAdded (pipeline.filterMap DefaultFunc.labels) key = some value →
    lookupEntry (K.getLabels obj) key = some value
  annotations : ∀ key value,
    lastAdded (calls.filterMap DefaultCall.annotations) key = some value →
      lookupEntry (K.getAnnotations obj) key = some value
  allowed : ∀ key, lookupEntry (K.getLabels obj) key ≠ none → allowed.entries.lookup key ≠ none

/-- The document can be read into a new object of some namespace, and whenever it is, the object has
the defaults of the calls that the pipeline made for it. -/
structure Complies (K : MetaType times Obj) (pipeline : List DefaultFunc)
    (allowed : SortedMap String String) (doc : Document) : Prop where
  read : ∃ ns obj, K.type.decode (K.setNamespace K.type.zero ns) doc.value = .ok obj
  defaults : ∃ calls, calls.map DefaultCall.func = pipeline ∧
    ∀ ns obj, K.type.decode (K.setNamespace K.type.zero ns) doc.value = .ok obj →
      HasDefaults K pipeline calls allowed obj

variable {K : MetaType times Obj} {v : Validation} {allowed : SortedMap String String}
  {W : Webhooks S Ctx Obj Err} {n : NamespacedName} {current : Document} {s s' : Admissions}
  {pipeline : List DefaultFunc}

/-- The admitted object was written with its defaults. -/
theorem LabelPolicy.exists_written (hpolicy : LabelPolicy K v allowed W)
    (h : Admits Patch K W n current) :
    ∃ (obj : Obj) (calls : List DefaultCall), calls.map DefaultCall.func = W.mutating.pipeline ∧
      K.type.encode (calls.foldl (fun obj call ↦ call.run K obj) obj) = .ok current.value := by
  obtain ⟨raw, calls, hcalls, hallowed, hcurrent⟩ := h.mutated
  cases hdecode : (W.mutating.during K calls).decoder.decode K.toObjectType ⟨n.ns, some raw⟩
      ((W.mutating.during K calls).target K.toObjectType ⟨n.ns, some raw⟩) with
  | error err =>
    rw [MutatingHandler.handle, hdecode] at hallowed
    cases hallowed
  | ok obj =>
    have hencode := (handle_patches_iff rfl hdecode).mp ⟨hallowed, hcurrent⟩
    rw [defaulted_during (hpolicy.requireDefaulting obj)] at hencode
    exact ⟨obj, calls, hcalls, hencode⟩

theorem LabelPolicy.exists_validated (hpolicy : LabelPolicy K v allowed W)
    (h : Admits Patch K W n current) :
    ∃ obj, K.type.decode (K.setNamespace K.type.zero n.ns) current.value = .ok obj ∧
      ∀ key, lookupEntry (K.getLabels obj) key ≠ none → allowed.entries.lookup key ≠ none := by
  obtain ⟨ctx, req, calls, response, hns, hobject, hoperation, hrun, hallowed⟩ := h.validated
  obtain ⟨obj, hdecode, hpassed⟩ :=
    validated_of_handle hobject hoperation hpolicy.requireValidating hrun hallowed
  rw [hpolicy.getNewObject, hns] at hdecode
  refine ⟨obj, hdecode, (@validateLabels_eq_none_iff _ Err _ _ v K obj allowed).mp ?_⟩
  rcases hpassed with hcreate | ⟨oldObj, hupdate⟩
  · obtain ⟨_, hpass⟩ := hcreate _ hpolicy.validateCreate
    exact (Program.runs_done_iff.mp hpass).2.symm
  · obtain ⟨_, hpass⟩ := hupdate _ hpolicy.validateUpdate
    exact (Program.runs_done_iff.mp hpass).2.symm

theorem LabelPolicy.complies (hpolicy : LabelPolicy K v allowed W)
    (h : Admits Patch K W n current) : Complies K W.mutating.pipeline allowed current := by
  obtain ⟨obj, calls, hcalls, hencode⟩ := hpolicy.exists_written h
  obtain ⟨validated, hdecode, hallowed⟩ := hpolicy.exists_validated h
  refine ⟨⟨n.ns, validated, hdecode⟩, calls, hcalls, fun ns obj' hread ↦ ?_⟩
  have hwritten (key : String) := lookups_of_written hencode hread key
  refine ⟨fun key value hadded ↦ ?_, fun key value hadded ↦ ?_, fun key hkey ↦ ?_⟩
  · rw [(hwritten key).1, lookup_labels_run, filterMap_labels, hcalls, hadded]
    rfl
  · rw [(hwritten key).2, lookup_annotations_run, hadded]
    rfl
  · rw [(hwritten key).1, ← (lookups_of_written hencode hdecode key).1] at hkey
    exact hallowed key hkey

/-- Everything that has been admitted complies, and so does everything that is stored. -/
structure AllComply (K : MetaType times Obj) (pipeline : List DefaultFunc)
    (allowed : SortedMap String String) (s : Admissions) : Prop where
  admitted : ∀ entry ∈ s.admitted, Complies K pipeline allowed entry.2
  stored : ∀ n doc, s.stored n = some doc → Complies K pipeline allowed doc

theorem eq_some_of_update {stored : NamespacedName → Option Document} {n n' : NamespacedName}
    {value : Option Document} {doc : Document}
    (h : Function.update stored n value n' = some doc) :
    value = some doc ∨ stored n' = some doc := by
  by_cases hn : n' = n
  · rw [hn, Function.update_self] at h
    exact .inl h
  · rw [Function.update_of_ne hn] at h
    exact .inr h

theorem AllComply.step (hpolicy : LabelPolicy K v allowed W)
    (hs : AllComply K W.mutating.pipeline allowed s) (h : AdmissionStep Patch K W s s') :
    AllComply K W.mutating.pipeline allowed s' := by
  cases h with
  | allow hadmits =>
    exact ⟨List.forall_mem_cons.mpr ⟨hpolicy.complies hadmits, hs.admitted⟩, hs.stored⟩
  | store hmem =>
    refine ⟨hs.admitted, fun n' doc hdoc ↦ ?_⟩
    rcases eq_some_of_update hdoc with hnew | hold
    · cases hnew
      exact hs.admitted _ hmem
    · exact hs.stored n' doc hold
  | remove =>
    refine ⟨hs.admitted, fun n' doc hdoc ↦ ?_⟩
    rcases eq_some_of_update hdoc with hnew | hold
    · cases hnew
    · exact hs.stored n' doc hold

theorem AllComply.run (hpolicy : LabelPolicy K v allowed W)
    (hs : AllComply K W.mutating.pipeline allowed s)
    (h : Relation.ReflTransGen (AdmissionStep Patch K W) s s') :
    AllComply K W.mutating.pipeline allowed s' := by
  induction h with
  | refl => exact hs
  | tail _ hstep ih => exact ih.step hpolicy hstep

end Admission

instance : ValidationError GoError where
  text := message
  apiStatus _ := none

end OperatorToolkit.Webhook
