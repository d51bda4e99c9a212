import OperatorToolkit.Webhook.DefaultFunctions

/-!
# Handling a defaulted object again

The API server may send an object to a mutating webhook again after it has applied the patches, and
it does so with every later update. With a pipeline of the defaulting functions of the toolkit, the
object that is decoded then is the one that was defaulted. The response leaves it as it is, unless
the pipeline gives it another cluster version than it has by now.
-/

namespace OperatorToolkit.Webhook

open Encoding Object

variable {times : Times} {Obj Patch : Type}

/-! ## The object that a request is decoded into -/

section Target

variable {K : MetaType times Obj} {h : MutatingHandler Obj} {req : Request}

/-- Only the namespace of the request may show through. -/
theorem over_target (hnew : h.defaulter.getNewObject = K.type.zero) {obj : Obj}
    (hns : (K.metadata.get obj).ns = "" → req.ns = "") :
    K.type.Over (h.target K.toObjectType req) obj := by
  rw [MutatingHandler.target, hnew, K.setNamespace_eq]
  have hzero := K.type.over_zero K.zeroEmpty obj
  have hmeta := (K.metadata.over_get hzero).2
  refine K.metadata.over_set hzero ⟨fun hleft ↦ absurd hleft not_leftOut_metadata, ?_⟩
  refine (namespaceField times).over_set hmeta ⟨fun hleft ↦ ?_, trivial⟩
  exact decide_eq_true (hns (of_decide_eq_true hleft))

theorem ns_foldl_run (calls : List DefaultCall) (obj : Obj) :
    (K.metadata.get (calls.foldl (fun obj call ↦ call.run K obj) obj)).ns =
      (K.metadata.get obj).ns := by
  rw [foldl_run, GoType.Field.get_set]
  rfl

end Target

/-! ## One request -/

section Handle

variable [JsonPatch Patch] {h : MutatingHandler Obj} {T : ObjectType Obj} {req : Request}
  {raw current : Document} {obj : Obj}

/-- The object that the handler encodes. -/
def MutatingHandler.defaulted (h : MutatingHandler Obj) (obj : Obj) : Obj :=
  if h.defaulter.requireDefaulting obj then
    h.defaulter.default.foldl (fun obj m ↦ m obj) obj
  else obj

/-- The patches of an allowed response lead to the encoded object. -/
theorem handle_patches_iff (hraw : req.raw = some raw)
    (hdecode : h.decoder.decode T req (h.target T req) = .ok obj) :
    ((h.handle T req : Response Patch).allowed = true ∧
        applyPatch (h.handle T req : Response Patch).patches raw.value = some current.value) ↔
      T.type.encode (h.defaulted obj) = .ok current.value := by
  simp only [MutatingHandler.handle, hdecode, MutatingHandler.defaulted, hraw]
  cases T.type.encode (if h.defaulter.requireDefaulting obj then
    h.defaulter.default.foldl (fun obj m ↦ m obj) obj else obj) with
  | error err => simp [errored]
  | ok marshalled => simp [patchResponseFromRaw, JsonPatch.apply_create]

end Handle

/-! ## Reading the metadata of a written object -/

section Read

variable {K : MetaType times Obj}

/-- The namespace is neither a label nor an annotation. -/
theorem get_set_namespace (metadata : ObjectMeta times) (ns : String) :
    (labelsField times).get ((namespaceField times).set metadata ns) = metadata.labels ∧
      (annotationsField times).get ((namespaceField times).set metadata ns) =
        metadata.annotations := ⟨rfl, rfl⟩

/-- Labels and annotations are read back into a new object, whatever else the object holds. -/
theorem lookups_of_written {ns : String} {obj obj' : Obj} {json : Json}
    (hencode : K.type.encode obj = .ok json)
    (hdecode : K.type.decode (K.setNamespace K.type.zero ns) json = .ok obj') (key : String) :
    lookupEntry (K.getLabels obj') key = lookupEntry (K.getLabels obj) key ∧
      lookupEntry (K.getAnnotations obj') key = lookupEntry (K.getAnnotations obj) key := by
  rcases K.metadata.written_read hencode hdecode with ⟨hleft, -⟩ | ⟨inner, hinner, hread⟩
  · exact absurd hleft not_leftOut_metadata
  rw [K.setNamespace_eq, GoType.Field.get_set] at hread
  have hzero := (K.metadata.over_get (K.type.over_zero K.zeroEmpty obj)).2
  obtain ⟨hlabels, hannotations⟩ := get_set_namespace (K.metadata.get K.type.zero) ns
  constructor
  · have hsame := (labelsField times).reads_back (readable_stringMap _) (by
      rw [hlabels]
      exact (labelsField times).over_get hzero) hinner hread
    exact (lookupEntry_of_same hsame key).symm
  · have hsame := (annotationsField times).reads_back (readable_stringMap _) (by
      rw [hannotations]
      exact (annotationsField times).over_get hzero) hinner hread
    exact (lookupEntry_of_same hsame key).symm

end Read

/-! ## A pipeline of the package -/

/-- A mutating handler whose defaulting functions are those of the package. -/
structure PipelineHandler (Obj : Type) where
  getNewObject : Obj
  pipeline : List DefaultFunc
  requireDefaulting : Obj → Bool
  decoder : Decoder

/-- The handler in a request in which the functions are called like this. -/
def PipelineHandler.during (p : PipelineHandler Obj) (K : MetaType times Obj)
    (calls : List DefaultCall) : MutatingHandler Obj where
  defaulter :=
    { getNewObject := p.getNewObject
      default := calls.map fun call ↦ call.run K
      requireDefaulting := p.requireDefaulting }
  decoder := p.decoder

section Pipeline

variable {p : PipelineHandler Obj} {K : MetaType times Obj} {calls calls' : List DefaultCall}
  {obj obj' : Obj}

theorem defaulted_during (hrequire : p.requireDefaulting obj = true) :
    (p.during K calls).defaulted obj = calls.foldl (fun obj call ↦ call.run K obj) obj := by
  rw [MutatingHandler.defaulted, PipelineHandler.during, if_pos hrequire, List.foldl_map]

/-- The pipeline adds nothing to an object that it was run on before, except maybe the version. -/
theorem lookups_run_run (hfuncs : calls'.map DefaultCall.func = calls.map DefaultCall.func)
    (hlabels : ∀ key, lookupEntry (K.getLabels obj') key =
      (lastAdded (calls.filterMap DefaultCall.labels) key).or (lookupEntry (K.getLabels obj) key))
    (hannotations : ∀ key, lookupEntry (K.getAnnotations obj') key =
      (lastAdded (calls.filterMap DefaultCall.annotations) key).or
        (lookupEntry (K.getAnnotations obj) key))
    (hversion : ∀ version, lastAdded (calls'.filterMap DefaultCall.annotations) "cluster-version" =
      some version → lookupEntry (K.getAnnotations obj') "cluster-version" = some version)
    (key : String) :
    lookupEntry (K.getLabels (calls'.foldl (fun obj call ↦ call.run K obj) obj')) key =
        lookupEntry (K.getLabels obj') key ∧
      lookupEntry (K.getAnnotations (calls'.foldl (fun obj call ↦ call.run K obj) obj')) key =
        lookupEntry (K.getAnnotations obj') key := by
  constructor
  · rw [lookup_labels_run, hlabels, filterMap_labels calls', hfuncs, ← filterMap_labels]
    cases lastAdded (calls.filterMap DefaultCall.labels) key <;> rfl
  · rw [lookup_annotations_run]
    by_cases hkey : key = "cluster-version"
    · subst hkey
      cases hadded : lastAdded (calls'.filterMap DefaultCall.annotations) "cluster-version" with
      | none => rfl
      | some version => exact (hversion version hadded).symm
    · rw [hannotations, lastAdded_annotations calls' hkey, hfuncs, ← lastAdded_annotations _ hkey]
      cases lastAdded (calls.filterMap DefaultCall.annotations) key <;> rfl

end Pipeline

/-- **Settled.** An object that was defaulted by functions of the toolkit and is sent again is
decoded as the object that was defaulted, with the labels and annotations that the last of the
functions with this key has given and the others as they were. The response to it is allowed and
leaves it as it is if and only if it is not to be defaulted or has by now the cluster version that
the pipeline gives it this time, if any. -/
theorem defaulting_settles [JsonPatch Patch] (K : MetaType times Obj) (p : PipelineHandler Obj)
    (hnew : p.getNewObject = K.type.zero) (calls calls' : List DefaultCall)
    (hcalls : calls.map DefaultCall.func = p.pipeline)
    (hcalls' : calls'.map DefaultCall.func = p.pipeline) (req : Request)
    (raw current : Document) (obj : Obj) (hraw : req.raw = some raw)
    (hdecode : p.decoder.decode K.toObjectType req
      ((p.during K calls).target K.toObjectType req) = .ok obj)
    (hrequire : p.requireDefaulting obj = true) (hreadable : K.type.Readable obj)
    (hns : (K.metadata.get obj).ns = "" → req.ns = "")
    (hallowed : ((p.during K calls).handle K.toObjectType req : Response Patch).allowed = true)
    (hcurrent : applyPatch ((p.during K calls).handle K.toObjectType req : Response Patch).patches
      raw.value = some current.value) (hcheck : p.decoder.check current.value = .ok ()) :
    ∃ obj', p.decoder.decode K.toObjectType { req with raw := some current }
        ((p.during K calls').target K.toObjectType req) = .ok obj' ∧
      K.type.Same (calls.foldl (fun obj call ↦ call.run K obj) obj) obj' ∧
      (∀ key, lookupEntry (K.getLabels obj') key =
        (lastAdded (p.pipeline.filterMap DefaultFunc.labels) key).or
          (lookupEntry (K.getLabels obj) key)) ∧
      (∀ key, lookupEntry (K.getAnnotations obj') key =
        (lastAdded (calls.filterMap DefaultCall.annotations) key).or
          (lookupEntry (K.getAnnotations obj) key)) ∧
      ((((p.during K calls').handle K.toObjectType { req with raw := some current } :
            Response Patch).allowed = true ∧
          applyPatch ((p.during K calls').handle K.toObjectType { req with raw := some current } :
            Response Patch).patches current.value = some current.value) ↔
        (p.requireDefaulting obj' = true → ∀ version,
          lastAdded (calls'.filterMap DefaultCall.annotations) "cluster-version" = some version →
            lookupEntry (K.getAnnotations obj') "cluster-version" = some version)) := by
  have hfirst : K.type.encode (calls.foldl (fun obj call ↦ call.run K obj) obj) =
      .ok current.value := by
    have hencode := (handle_patches_iff hraw hdecode).mp ⟨hallowed, hcurrent⟩
    rwa [defaulted_during hrequire] at hencode
  obtain ⟨obj', hread, hsame⟩ := K.type.decode_encode
    ((p.during K calls').target K.toObjectType req) _ _ (K.foldl_run_readable hreadable calls)
    (over_target hnew (fun hempty ↦ hns (ns_foldl_run calls obj ▸ hempty))) hfirst
  have hdecode' : p.decoder.decode K.toObjectType { req with raw := some current }
      ((p.during K calls').target K.toObjectType req) = .ok obj' := by
    simp only [Decoder.decode, hcheck, hread]
    rfl
  rw [MutatingHandler.target, PipelineHandler.during, hnew] at hread
  have hlabels (key : String) : lookupEntry (K.getLabels obj') key =
      (lastAdded (calls.filterMap DefaultCall.labels) key).or
        (lookupEntry (K.getLabels obj) key) := by
    rw [(lookups_of_written hfirst hread key).1, lookup_labels_run]
  have hannotations (key : String) : lookupEntry (K.getAnnotations obj') key =
      (lastAdded (calls.filterMap DefaultCall.annotations) key).or
        (lookupEntry (K.getAnnotations obj) key) := by
    rw [(lookups_of_written hfirst hread key).2, lookup_annotations_run]
  refine ⟨obj', hdecode', hsame, fun key ↦ ?_, hannotations, ?_⟩
  · rw [hlabels, filterMap_labels, hcalls]
  rw [handle_patches_iff (h := p.during K calls') rfl hdecode']
  constructor
  · intro hagain hrequire' version hversion
    rw [defaulted_during hrequire'] at hagain
    rw [(lookups_of_written hagain hread _).2, lookup_annotations_run, hversion]
    rfl
  · intro hversion
    cases hrequire' : p.requireDefaulting obj' with
    | false =>
      rw [MutatingHandler.defaulted, PipelineHandler.during, if_neg (by simp [hrequire'])]
      exact K.type.encode_same _ _ _ hsame hfirst
    | true =>
      have hlookups := lookups_run_run (hcalls'.trans hcalls.symm) hlabels hannotations
        (hversion hrequire')
      have hread' (key : String) := lookups_of_written hfirst hread key
      rw [defaulted_during hrequire']
      exact K.type.encode_same _ _ _ (K.foldl_run_same hsame
        (fun key ↦ (hread' key).1.symm.trans (hlookups key).1.symm)
        fun key ↦ (hread' key).2.symm.trans (hlookups key).2.symm) hfirst

/-! ## Games -/

theorem stringType_zeroEmpty : stringType.ZeroEmpty := fun _ _ ↦ rfl

theorem int64Type_zeroEmpty : int64Type.ZeroEmpty := fun _ _ ↦ rfl

theorem boolType_zeroEmpty : boolType.ZeroEmpty := fun _ _ ↦ rfl

theorem rawType_zeroEmpty : rawType.ZeroEmpty := fun _ h ↦ h

theorem timeType_zeroEmpty (times : Times) : (timeType times).ZeroEmpty := fun _ h ↦ h

theorem ownerReferenceType_zeroEmpty : ownerReferenceType.ZeroEmpty :=
  ⟨stringType_zeroEmpty, boolType_zeroEmpty, boolType_zeroEmpty, stringType_zeroEmpty,
    stringType_zeroEmpty, stringType_zeroEmpty, trivial⟩

theorem managedFieldsEntryType_zeroEmpty (times : Times) :
    (managedFieldsEntryType times).ZeroEmpty :=
  ⟨stringType_zeroEmpty, stringType_zeroEmpty, rawType_zeroEmpty, stringType_zeroEmpty,
    stringType_zeroEmpty, timeType_zeroEmpty times, trivial⟩

theorem objectMetaType_zeroEmpty (times : Times) : (objectMetaType times).ZeroEmpty :=
  ⟨stringType_zeroEmpty, stringType_zeroEmpty, timeType_zeroEmpty times, int64Type_zeroEmpty,
    timeType_zeroEmpty times, stringType_zeroEmpty, stringType_zeroEmpty, int64Type_zeroEmpty,
    stringType_zeroEmpty, managedFieldsEntryType_zeroEmpty times, stringType_zeroEmpty,
    stringType_zeroEmpty, ownerReferenceType_zeroEmpty, stringType_zeroEmpty,
    stringType_zeroEmpty, stringType_zeroEmpty, trivial⟩

theorem statusConditionType_zeroEmpty (times : Times) : (statusConditionType times).ZeroEmpty :=
  ⟨timeType_zeroEmpty times, stringType_zeroEmpty, int64Type_zeroEmpty, stringType_zeroEmpty,
    stringType_zeroEmpty, stringType_zeroEmpty, trivial⟩

def gameMetaType (times : Times) : MetaType times (Game times) where
  toObjectType := gameType times
  omitempty := true
  metadata := .struct (.later <| .later .first)
  setNamespace_eq _ _ := rfl
  zeroEmpty := ⟨stringType_zeroEmpty, stringType_zeroEmpty, objectMetaType_zeroEmpty times,
    ⟨stringType_zeroEmpty, trivial⟩, ⟨statusConditionType_zeroEmpty times, trivial⟩, trivial⟩

/-- A handler with a pipeline like that of the example project. -/
def defaultingGameHandler : PipelineHandler (Game textTimes) where
  getNewObject := (gameMetaType textTimes).type.zero
  pipeline :=
    [.addLabels (SortedMap.empty.insert "foo" "bar"),
      .addAnnotations (SortedMap.empty.insert "zzz" "qqqq"), .addClusterVersion]
  requireDefaulting _ := true
  decoder := { check := fun _ ↦ .ok (), describe := fun _ ↦ "" }

/-- The calls of the pipeline in one request. -/
def gameDefaults (version : Except String String) : List DefaultCall :=
  [.addLabels (SortedMap.empty.insert "foo" "bar"),
    .addAnnotations (SortedMap.empty.insert "zzz" "qqqq"), .addClusterVersion version]

/-- The new game with its defaults. -/
def defaultedGame : Document where
  value := .object
    [("metadata", .object
        [("annotations", .object [("cluster-version", .string "1.20.2"), ("zzz", .string "qqqq")]),
          ("creationTimestamp", .null), ("labels", .object [("foo", .string "bar")]),
          ("name", .string "chess"), ("namespace", .string "default")]),
      ("spec", .object [("foo", .string "bar")]), ("status", .object [])]
  ordered := by
    simp only [Json.ordered_object_iff, List.forall_mem_cons, Json.Ordered.string,
      Json.Ordered.null, List.not_mem_nil, IsEmpty.forall_iff, implies_true, and_true]
    decide

theorem stringType_readable (text : String) : stringType.Readable text := by
  rintro base json ⟨⟩
  exact ⟨text, rfl, rfl⟩

/-- A game as a user writes it, without anything that the API server sets. -/
def writtenGame (times : Times) (name ns foo : String) : Game times :=
  { (gameType times).type.zero with
    metadata := { (objectMetaType times).zero with name := name, ns := ns }
    spec := ⟨foo⟩ }

theorem writtenGame_readable (times : Times) (name ns foo : String) :
    (gameType times).type.Readable (writtenGame times name ns foo) := by
  have htime : (timeType times).Readable none := by
    rintro base json ⟨⟩
    exact ⟨none, rfl, rfl⟩
  have hint : int64Type.Readable 0 := by
    rintro base json ⟨⟩
    exact ⟨0, rfl, rfl⟩
  have htext := stringType_readable
  exact ⟨htext _, htext _,
    ⟨readable_stringMap _, htext _, htime, nofun, nofun, nofun, htext _, hint, readable_stringMap _,
      nofun, htext _, htext _, nofun, htext _, htext _, htext _, trivial⟩,
    ⟨htext _, trivial⟩, ⟨nofun, trivial⟩, trivial⟩

/-- The response to the game with its defaults, when discovery answers like this. -/
def gameResponse (version : Except String String) : Response Json :=
  (defaultingGameHandler.during (gameMetaType textTimes) (gameDefaults version)).handle
    (gameType textTimes) (gameRequest defaultedGame)

/-- The response is allowed and leaves the game as it is. -/
def LeavesGame (version : Except String String) : Prop :=
  (gameResponse version).allowed = true ∧
    applyPatch (gameResponse version).patches defaultedGame.value = some defaultedGame.value

/-- The game of the test data with its defaults is left alone if the cluster has the same version or
cannot be asked, and not after an upgrade. -/
theorem defaulting_settles_game :
    LeavesGame (.ok "1.20.2") ∧ LeavesGame (.error "unreachable") ∧
      ¬LeavesGame (.ok "1.21.0") := by
  have hleaves (version : Except String String) :
      LeavesGame version ↔ ∀ text, version = .ok text → text = "1.20.2" := by
    obtain ⟨game', -, -, -, hannotations, hagain⟩ := @defaulting_settles _ _ Json _
      (gameMetaType textTimes) defaultingGameHandler rfl (gameDefaults (.ok "1.20.2"))
      (gameDefaults version) rfl rfl (gameRequest newGame) newGame defaultedGame
      (writtenGame textTimes "chess" "default" "bar") rfl rfl rfl
      (writtenGame_readable textTimes "chess" "default" "bar") nofun rfl rfl rfl
    have hversion : lookupEntry ((gameMetaType textTimes).getAnnotations game')
        "cluster-version" = some "1.20.2" := (hannotations "cluster-version").trans rfl
    apply hagain.trans
    rw [hversion]
    cases version with
    | error err => exact ⟨nofun, fun _ _ _ hnone ↦ by cases hnone⟩
    | ok text =>
      constructor
      · rintro hsettled _ ⟨⟩
        exact (Option.some.inj (hsettled rfl text rfl)).symm
      · rintro hsame _ _ ⟨⟩
        rw [hsame text rfl]
  rw [hleaves, hleaves, hleaves]
  simp

end OperatorToolkit.Webhook
