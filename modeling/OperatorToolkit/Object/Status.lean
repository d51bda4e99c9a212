import OperatorToolkit.Base

/-!
# Object status

Package `object` looks at the status of an API object through its unstructured form, a tree of
string-keyed maps. `isInitialized` and `statusChanged` are the two questions that the composite
reconciler asks of it. The conversion into the unstructured form is the scheme's, and is a
parameter.
-/

namespace OperatorToolkit.Object

mutual

/-- A value of an unstructured object, `interface{}` in the source. -/
inductive Value where
  | nil
  | bool (value : Bool)
  | int64 (value : Int)
  | float64 (literal : String)
  | string (text : String)
  | list (items : Items)
  | map (fields : Fields)
  deriving DecidableEq

inductive Items where
  | nil
  | cons (item : Value) (rest : Items)
  deriving DecidableEq

/-- The entries of a map. -/
inductive Fields where
  | nil
  | cons (key : String) (value : Value) (rest : Fields)
  deriving DecidableEq

end

mutual

/-- Every map in the value lists its keys in increasing order, so that values are equal exactly
when `reflect.DeepEqual` says so. -/
def Value.ordered : Value → Bool
  | .list items => items.ordered
  | .map fields => fields.ordered
  | _ => true

def Items.ordered : Items → Bool
  | .nil => true
  | .cons item rest => item.ordered && rest.ordered

def Fields.ordered : Fields → Bool
  | .nil => true
  | .cons key value rest => value.ordered && rest.above key && rest.ordered

def Fields.above (key : String) : Fields → Bool
  | .nil => true
  | .cons next _ _ => decide (key < next)

end

/-- `unstructured.Unstructured`. -/
structure Unstructured where
  object : Fields
  ordered : object.ordered = true

def Fields.lookup (fields : Fields) (key : String) : Option Value :=
  match fields with
  | .nil => none
  | .cons key' value rest => if key' = key then some value else rest.lookup key

mutual

/-- The value as `%v` prints it. -/
def Value.format : Value → String
  | .nil => "<nil>"
  | .bool value => if value then "true" else "false"
  | .int64 value => toString value
  | .float64 literal => literal
  | .string text => text
  | .list items => "[" ++ " ".intercalate items.format ++ "]"
  | .map fields => "map[" ++ " ".intercalate fields.format ++ "]"

def Items.format : Items → List String
  | .nil => []
  | .cons item rest => item.format :: rest.format

def Fields.format : Fields → List String
  | .nil => []
  | .cons key value rest => (key ++ ":" ++ value.format) :: rest.format

end

/-- The type of the value as `%T` prints it. -/
def Value.typeName : Value → String
  | .nil => "<nil>"
  | .bool _ => "bool"
  | .int64 _ => "int64"
  | .float64 _ => "float64"
  | .string _ => "string"
  | .list _ => "[]interface \x7b\x7d"
  | .map _ => "map[string]interface \x7b\x7d"

variable {Err Obj : Type} [ErrorValues Err]

/-- The loop of `NestedFieldNoCopy` over the remaining fields; `walked` are those before them. -/
def nestedFieldLoop (walked : List String) (val : Value) :
    List String → Except Err (Option Value)
  | [] => .ok (some val)
  | field :: fields =>
    match val with
    | .map entries =>
      match entries.lookup field with
      | some next => nestedFieldLoop (walked ++ [field]) next fields
      | none => .ok none
    | _ => .error (errorf (".".intercalate (walked ++ [field]) ++ " accessor error: " ++
        val.format ++ " is of the type " ++ val.typeName ++
        ", expected map[string]interface\x7b\x7d"))

/-- The nested field, or `none` when it is not found. -/
def nestedFieldNoCopy (obj : Fields) (fields : List String) : Except Err (Option Value) :=
  nestedFieldLoop [] (.map obj) fields

/-- The conversions that `runtime.Scheme` knows, as far as they are used here. -/
structure Scheme (Obj Err : Type) where
  convert : Obj → Except Err Unstructured

/-- The error of a failed step under the caller's text, `fmt.Errorf` with one `%v`. -/
def annotate {α : Type} (text : String) : Except Err α → Except Err α :=
  Except.mapError fun err ↦ errorf (text ++ ": " ++ message err)

def getUnstructuredObject (scheme : Scheme Obj Err) (obj : Obj) : Except Err Unstructured :=
  annotate "failed to convert Object to Unstructured" (scheme.convert obj)

/-- The status of a given object, if any. -/
def getObjectStatus (obj : Fields) : Except Err Fields := do
  match ← annotate "error reading object status" (nestedFieldNoCopy obj ["status"]) with
  | none => .error (errorf "object status not found")
  | some (.map status) => .ok status
  | some _ => .error (errorf "status was not of type map[string]interface\x7b\x7d")

/-- Whether there is any status condition. -/
def isInitialized (scheme : Scheme Obj Err) (obj : Obj) : Except Err Bool := do
  let u ← annotate "failed to convert Object to Unstructured" (getUnstructuredObject scheme obj)
  let status ← annotate "failed to get Object status" (getObjectStatus u.object)
  match status.lookup "conditions" with
  | some (.list _) => .ok true
  | _ => .ok false

/-- Whether the status of the two objects differs. -/
def statusChanged (scheme : Scheme Obj Err) (oldo newo : Obj) : Except Err Bool := do
  let ou ← annotate "failed to convert old Object to Unstructured"
    (getUnstructuredObject scheme oldo)
  let oldStatus ← annotate "failed to get old Object status" (getObjectStatus ou.object)
  let nu ← annotate "failed to convert new Object to Unstructured"
    (getUnstructuredObject scheme newo)
  let newStatus ← annotate "failed to get new Object status" (getObjectStatus nu.object)
  .ok (decide (oldStatus ≠ newStatus))

end OperatorToolkit.Object
