import OperatorToolkit.Object.Metadata

/-!
# The mutating admission handler

`Handle` decodes the object of an admission request, runs the defaulting functions on it unless
they are not required, encodes it and answers with the patches from the request's object to the
encoded one. When defaulting is not required the object should be left as it is. The patches do so
only if decoding and encoding does: an entry that is not a field of the Go type is removed, a field
that is always written is added, an `omitempty` field that is empty is removed, and an object
without a namespace is given that of the request.
-/

namespace OperatorToolkit.Webhook

open Encoding Object

/-- What an object's Go type provides. -/
structure ObjectType (Obj : Type) where
  type : GoType Obj
  setNamespace : Obj → String → Obj

/-- JSON patches, with the law that the patches from one value to another lead there. -/
class JsonPatch (Patch : Type) where
  createPatch : Json → Json → List Patch
  applyPatch : List Patch → Json → Option Json
  apply_create : ∀ original current,
    applyPatch (createPatch original current) original = some current

export JsonPatch (createPatch applyPatch)

structure Defaulter (Obj : Type) where
  getNewObject : Obj
  default : List (Obj → Obj)
  requireDefaulting : Obj → Bool

/-- The decoder of the controller runtime. `check` is what it asks of the content before it decodes
it into the type, for example the kind. -/
structure Decoder where
  check : Json → Except String Unit
  describe : CodecError → String

/-- The part of an admission request that is read. There may be no content. -/
structure Request where
  ns : String
  raw : Option Document

structure Response (Patch : Type) where
  allowed : Bool
  patches : List Patch := []
  code : Option ℕ := none
  message : String := ""

variable {Obj Patch : Type}

/-- `admission.Errored`. -/
def errored (code : ℕ) (message : String) : Response Patch where
  allowed := false
  code := some code
  message := message

/-- `admission.PatchResponseFromRaw`. -/
def patchResponseFromRaw [JsonPatch Patch] (original : Option Document) (current : Json) :
    Response Patch :=
  match original with
  | none => errored 500 "invalid JSON Document"
  | some original => { allowed := true, patches := createPatch original.value current }

def Decoder.decode (d : Decoder) (T : ObjectType Obj) (req : Request) (into : Obj) :
    Except String Obj :=
  match req.raw with
  | none => .error "there is no content to decode"
  | some raw => do
    d.check raw.value
    Except.mapError d.describe (T.type.decode into raw.value)

theorem Decoder.decode_eq_ok {d : Decoder} {T : ObjectType Obj} {req : Request} {raw : Document}
    {into obj : Obj} (hraw : req.raw = some raw) (hdecode : d.decode T req into = .ok obj) :
    T.type.decode into raw.value = .ok obj := by
  simp only [Decoder.decode, hraw] at hdecode
  obtain ⟨_, -, hmapped⟩ := bind_eq_ok_iff.mp hdecode
  cases htyped : T.type.decode into raw.value with
  | error err =>
    rw [htyped] at hmapped
    cases hmapped
  | ok value =>
    rw [htyped] at hmapped
    cases hmapped
    rfl

structure MutatingHandler (Obj : Type) where
  defaulter : Defaulter Obj
  decoder : Decoder

namespace MutatingHandler

variable (h : MutatingHandler Obj) (T : ObjectType Obj) (req : Request)

/-- The object that the request is decoded into. -/
def target : Obj := T.setNamespace h.defaulter.getNewObject req.ns

def handle [JsonPatch Patch] : Response Patch :=
  match h.decoder.decode T req (h.target T req) with
  | .error err => errored 400 err
  | .ok obj =>
    let obj := if h.defaulter.requireDefaulting obj then
        h.defaulter.default.foldl (fun obj m ↦ m obj) obj
      else obj
    match T.type.encode obj with
    | .error err => errored 500 (h.decoder.describe err)
    | .ok marshalled => patchResponseFromRaw req.raw marshalled

end MutatingHandler

section Unchanged

variable [JsonPatch Patch] {h : MutatingHandler Obj} {T : ObjectType Obj} {req : Request}
  {raw : Document} {obj : Obj}

/-- The response leaves the object alone exactly if the object is encoded as it was sent. -/
theorem handle_unchanged_iff_encode (hraw : req.raw = some raw)
    (hdecode : h.decoder.decode T req (h.target T req) = .ok obj)
    (hrequire : h.defaulter.requireDefaulting obj = false) :
    ((h.handle T req : Response Patch).allowed = true ∧
        applyPatch (h.handle T req : Response Patch).patches raw.value = some raw.value) ↔
      T.type.encode obj = .ok raw.value := by
  simp only [MutatingHandler.handle, hdecode, hrequire, Bool.false_eq_true, if_false, hraw]
  cases T.type.encode obj with
  | error err => simp [errored]
  | ok marshalled => simp [patchResponseFromRaw, JsonPatch.apply_create]

end Unchanged

/-- **No defaulting.** When defaulting is not required, the response is allowed and its patches give
back the object of the request exactly if the object is canonical for its Go type, decoded into a
new object with the namespace of the request. -/
theorem handle_unchanged_iff [JsonPatch Patch] (h : MutatingHandler Obj) (T : ObjectType Obj)
    (req : Request) (raw : Document) (obj : Obj) (hraw : req.raw = some raw)
    (hdecode : h.decoder.decode T req (h.target T req) = .ok obj)
    (hrequire : h.defaulter.requireDefaulting obj = false) :
    ((h.handle T req : Response Patch).allowed = true ∧
        applyPatch (h.handle T req : Response Patch).patches raw.value = some raw.value) ↔
      T.type.Canonical (T.setNamespace h.defaulter.getNewObject req.ns) raw.value := by
  rw [handle_unchanged_iff_encode hraw hdecode hrequire]
  exact T.type.encode_decode_iff _ _ _ raw.ordered (Decoder.decode_eq_ok hraw hdecode)

/-! ## The games of the test data -/

/-- `metav1.Condition`. -/
structure StatusCondition (times : Times) where
  type : String
  status : String
  observedGeneration : Int
  lastTransitionTime : Option times.Time
  reason : String
  message : String

def statusConditionType (times : Times) : GoType (StatusCondition times) := .struct
  (.cons "lastTransitionTime" false (timeType times) (by decide) <|
    .cons "message" false stringType (by decide) <|
    .cons "observedGeneration" true int64Type (by decide) <|
    .cons "reason" false stringType (by decide) <|
    .cons "status" false stringType (by decide) <|
    .cons "type" false stringType (by decide) .nil)
  { toFun := fun cndn ↦ (cndn.lastTransitionTime, cndn.message, cndn.observedGeneration,
      cndn.reason, cndn.status, cndn.type, ())
    invFun := fun (lastTransitionTime, message, observedGeneration, reason, status, type, ()) ↦
      { lastTransitionTime, message, observedGeneration, reason, status, type }
    left_inv := fun _ ↦ rfl
    right_inv := fun _ ↦ rfl }

structure GameSpec where
  foo : String

def gameSpecType : GoType GameSpec := .struct (.cons "foo" true stringType (by decide) .nil)
  { toFun := fun spec ↦ (spec.foo, ())
    invFun := fun (foo, ()) ↦ { foo }
    left_inv := fun _ ↦ rfl
    right_inv := fun _ ↦ rfl }

structure GameStatus (times : Times) where
  conditions : Option (List (StatusCondition times))

def gameStatusType (times : Times) : GoType (GameStatus times) := .struct
  (.cons "conditions" true (statusConditionType times).slice (by decide) .nil)
  { toFun := fun status ↦ (status.conditions, ())
    invFun := fun (conditions, ()) ↦ { conditions }
    left_inv := fun _ ↦ rfl
    right_inv := fun _ ↦ rfl }

structure Game (times : Times) where
  kind : String
  apiVersion : String
  metadata : ObjectMeta times
  spec : GameSpec
  status : GameStatus times

def gameType (times : Times) : ObjectType (Game times) where
  type := .struct
    (.cons "apiVersion" true stringType (by decide) <|
      .cons "kind" true stringType (by decide) <|
      .cons "metadata" true (objectMetaType times) (by decide) <|
      .cons "spec" true gameSpecType (by decide) <|
      .cons "status" true (gameStatusType times) (by decide) .nil)
    { toFun := fun game ↦
        (game.apiVersion, game.kind, game.metadata, game.spec, game.status, ())
      invFun := fun (apiVersion, kind, metadata, spec, status, ()) ↦
        { apiVersion, kind, metadata, spec, status }
      left_inv := fun _ ↦ rfl
      right_inv := fun _ ↦ rfl }
  setNamespace game ns := { game with metadata := { game.metadata with ns := ns } }

/-- Times as their texts. -/
def textTimes : Times where
  Time := String
  parse text := .ok (some text)
  format := id

/-- Patches that put a value in place of the whole document. -/
instance : JsonPatch Json where
  createPatch _ current := [current]
  applyPatch patches original := some (patches.getLastD original)
  apply_create _ _ := rfl

/-- A handler for new games that requires no defaulting. -/
def gameHandler : MutatingHandler (Game textTimes) where
  defaulter :=
    { getNewObject := (gameType textTimes).type.zero
      default := []
      requireDefaulting := fun _ ↦ false }
  decoder := { check := fun _ ↦ .ok (), describe := fun _ ↦ "" }

/-- A game as a user writes it. -/
def newGame : Document where
  value := .object
    [("metadata", .object [("name", .string "chess"), ("namespace", .string "default")]),
      ("spec", .object [("foo", .string "bar")])]
  ordered := by
    simp only [Json.ordered_object_iff, List.forall_mem_cons, Json.Ordered.string,
      List.not_mem_nil, IsEmpty.forall_iff, implies_true, and_true]
    decide

/-- A game as the API server stores it. -/
def storedGame : Document where
  value := .object
    [("metadata", .object [("creationTimestamp", .string "2021-03-01T00:00:00Z"),
        ("name", .string "chess"), ("namespace", .string "default")]),
      ("spec", .object [("foo", .string "bar")]), ("status", .object [])]
  ordered := by
    simp only [Json.ordered_object_iff, List.forall_mem_cons, Json.Ordered.string,
      List.not_mem_nil, IsEmpty.forall_iff, implies_true, and_true]
    decide

def gameRequest (raw : Document) : Request := ⟨"default", some raw⟩

/-- The patches for a stored game change nothing. -/
theorem handle_unchanged_storedGame :
    (gameHandler.handle (gameType textTimes) (gameRequest storedGame) : Response Json).allowed =
        true ∧
      applyPatch (gameHandler.handle (gameType textTimes) (gameRequest storedGame) :
        Response Json).patches storedGame.value = some storedGame.value := by
  have hcanonical := ((gameType textTimes).type.encode_decode_iff
    (gameHandler.target (gameType textTimes) (gameRequest storedGame)) storedGame.value _
    storedGame.ordered rfl).mp rfl
  exact (handle_unchanged_iff gameHandler (gameType textTimes) (gameRequest storedGame) storedGame _
    rfl rfl rfl).mpr hcanonical

/-- A new game is given a creation timestamp of null and an empty status. -/
theorem handle_changes_newGame :
    (∃ game, gameHandler.decoder.decode (gameType textTimes) (gameRequest newGame)
        (gameHandler.target (gameType textTimes) (gameRequest newGame)) = .ok game ∧
      gameHandler.defaulter.requireDefaulting game = false) ∧
    (gameHandler.handle (gameType textTimes) (gameRequest newGame) : Response Json).allowed =
        true ∧
      applyPatch (gameHandler.handle (gameType textTimes) (gameRequest newGame) :
        Response Json).patches newGame.value =
        some (.object [("metadata", .object [("creationTimestamp", .null),
            ("name", .string "chess"), ("namespace", .string "default")]),
          ("spec", .object [("foo", .string "bar")]), ("status", .object [])]) ∧
      applyPatch (gameHandler.handle (gameType textTimes) (gameRequest newGame) :
        Response Json).patches newGame.value ≠ some newGame.value := by
  refine ⟨⟨_, rfl, rfl⟩, rfl, rfl, ?_⟩
  change some (Json.object _) ≠ some (Json.object _)
  simp

end OperatorToolkit.Webhook
