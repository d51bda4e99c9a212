import OperatorToolkit.Interaction.Program
import OperatorToolkit.Webhook.Defaulter

/-!
# The validating admission handler

`Handle` decodes the objects of an admission request and runs the validating functions of its
operation on them, one after the other, until one returns an error. A validating function may make
calls of its own, so it is a program and so is the handler. Requests for another operation than
these three are allowed without being looked at.
-/

namespace OperatorToolkit.Webhook

open Encoding Interaction

/-- `admissionv1.Operation`. -/
inductive Operation where
  | create
  | update
  | delete
  | connect
  deriving DecidableEq, Repr

/-- The part of an admission request that is read. There may be no content. -/
structure AdmissionRequest where
  ns : String
  operation : Operation
  object : Option Document
  oldObject : Option Document

/-- The fields of `metav1.Status` that the responses set. -/
structure Status where
  code : Int
  reason : String := ""
  message : String := ""
  deriving DecidableEq, Repr

structure ValidationResponse where
  allowed : Bool
  result : Status
  deriving DecidableEq, Repr

/-- `admission.ValidationResponse`, which `Allowed` and `Denied` return. -/
def validationResponse (allowed : Bool) (reason : String) : ValidationResponse where
  allowed := allowed
  result := { code := if allowed then 200 else 403, reason := reason }

def validationResponseFromStatus (allowed : Bool) (status : Status) : ValidationResponse :=
  ⟨allowed, status⟩

/-- `admission.Errored`. -/
def ValidationResponse.errored (code : Int) (message : String) : ValidationResponse where
  allowed := false
  result := { code := code, message := message }

/-- What the handler asks of an error: its text, and its status if it is an `APIStatus`. -/
class ValidationError (Err : Type) where
  text : Err → String
  apiStatus : Err → Option Status

/-- The response to a request that a validating function has refused. -/
def refused {Err : Type} [ValidationError Err] (err : Err) : ValidationResponse :=
  match ValidationError.apiStatus err with
  | some status => validationResponseFromStatus false status
  | none => validationResponse false (ValidationError.text err)

theorem refused_allowed {Err : Type} [ValidationError Err] (err : Err) :
    (refused err).allowed = false := by
  unfold refused
  split <;> rfl

def Decoder.decodeRaw {Obj : Type} (d : Decoder) (T : ObjectType Obj) (raw : Option Document)
    (into : Obj) : Except String Obj :=
  d.decode T ⟨"", raw⟩ into

structure Validator (S : Signature) (Ctx Obj Err : Type) where
  getNewObject : Obj
  validateCreate : List (Ctx → Obj → Program S (Option Err))
  validateUpdate : List (Ctx → Obj → Obj → Program S (Option Err))
  validateDelete : List (Ctx → Obj → Program S (Option Err))
  requireValidating : Obj → Bool

structure ValidatingHandler (S : Signature) (Ctx Obj Err : Type) where
  validator : Validator S Ctx Obj Err
  decoder : Decoder

variable {S : Signature} {Ctx Obj Err : Type}

/-- The loop over the validating functions, up to the first error. -/
def validateAll : List (Program S (Option Err)) → Program S (Option Err)
  | [] => return none
  | m :: ms => do
    match ← m with
    | some err => return some err
    | none => validateAll ms

namespace ValidatingHandler

variable [ValidationError Err] (h : ValidatingHandler S Ctx Obj Err) (T : ObjectType Obj)

/-- The rest of `Handle` after the objects were decoded. -/
def validate (obj : Obj) (ms : List (Program S (Option Err))) : Program S ValidationResponse :=
  if h.validator.requireValidating obj then do
    match ← validateAll ms with
    | some err => return refused err
    | none => return validationResponse true ""
  else return validationResponse true ""

def handle (ctx : Ctx) (req : AdmissionRequest) : Program S ValidationResponse :=
  let obj := T.setNamespace h.validator.getNewObject req.ns
  match req.operation with
  | .create =>
    match h.decoder.decodeRaw T req.object obj with
    | .error err => return .errored 400 err
    | .ok obj => h.validate obj (h.validator.validateCreate.map fun m ↦ m ctx obj)
  | .update =>
    match h.decoder.decodeRaw T req.object obj with
    | .error err => return .errored 400 err
    | .ok obj =>
      -- The old object is decoded into a new object without the namespace of the request.
      match h.decoder.decodeRaw T req.oldObject h.validator.getNewObject with
      | .error err => return .errored 400 err
      | .ok oldObj => h.validate obj (h.validator.validateUpdate.map fun m ↦ m ctx obj oldObj)
  | .delete =>
    match h.decoder.decodeRaw T req.oldObject obj with
    | .error err => return .errored 400 err
    | .ok obj => h.validate obj (h.validator.validateDelete.map fun m ↦ m ctx obj)
  | .connect => return validationResponse true ""

end ValidatingHandler

end OperatorToolkit.Webhook
