import OperatorToolkit.Grouping.OrderedMap
import OperatorToolkit.Interaction.Program
import OperatorToolkit.Rbac.Client

/-!
# Reordering and writing the recorded rules

`Result` groups the rules of each role by API group and resource and writes the two roles as YAML
manifests, followed by the errors of the recording. `reorderRules` keeps the groups in a map under
the text `<group>_<resource>` and the texts in a list, so as to read the map back in the order of
first occurrence. The rules grant the same before and after as long as an API group does not contain
the separator.
-/

namespace OperatorToolkit.Rbac

open Grouping Interaction

def groupResourceSeparator : String := "_"
def yamlSeparator : String := "\n---\n"

/-- The rules collected by the recorder contain only one group. -/
def PolicyRule.group (rule : PolicyRule) : String := rule.apiGroups.head rule.apiGroups_ne_nil

def contains (s : List String) (e : String) : Bool := s.any (· == e)

/-- Append the verb unless it already exists. -/
def PolicyRule.appendVerb (prule : PolicyRule) (verb : String) : PolicyRule :=
  if contains prule.verbs verb then prule else { prule with verbs := prule.verbs ++ [verb] }

def groupResourceName (group resource : String) : String :=
  group ++ groupResourceSeparator ++ resource

/-- One resource of a rule: its verbs go to the rule of its group and resource, which is created if
there is none yet. -/
def addResource (group : String) (verbs : List String)
    (rulesByGroupResource : OrderedMap String PolicyRule) (resource : String) :
    OrderedMap String PolicyRule :=
  rulesByGroupResource.upsert (groupResourceName group resource) fun
    | some prule => verbs.foldl PolicyRule.appendVerb prule
    | none => .about group resource verbs

def reorderRules (rules : List PolicyRule) : List PolicyRule :=
  let rulesByGroupResource := rules.foldl
    (fun byName rule ↦ rule.resources.foldl (addResource rule.group rule.verbs) byName) .empty
  rulesByGroupResource.values

/-! ## Writing the result -/

variable {Obj Err : Type}

/-- The writes of `Result`, each answered with an error or nil. -/
inductive Write where
  | manifest (text : String)
  | error (text : String)
  deriving DecidableEq, Repr

abbrev writers (Err : Type) : Signature := ⟨Write, fun _ ↦ Option Err⟩

variable [ErrorValues Err]

/-- Write one text; a failure ends the rest with a wrapped error. -/
def writeThen (write : Write) (text : String) (rest : Program (writers Err) (Option Err)) :
    Program (writers Err) (Option Err) :=
  .call write fun
    | some err => .done (some (wrap text err))
    | none => rest

/-- `WriteResult`, followed by `rest` on success. -/
def writeResult (marshal : Role → Except Err String) (role : Role)
    (rest : Program (writers Err) (Option Err)) : Program (writers Err) (Option Err) :=
  match marshal role with
  | .error err => .done (some (wrap "failed to marshal role" err))
  | .ok m =>
    writeThen (.manifest yamlSeparator) "failed to write yaml separator" <|
      writeThen (.manifest m) "failed to write RBAC manifest" rest

def writeErrors : List Err → Program (writers Err) (Option Err)
  | [] => .done none
  | cErr :: errs =>
    writeThen (.error (message cErr)) "failed to write rbac client recorder errors"
      (writeErrors errs)

/-- The client with its rules reordered. -/
def Client.reordered (c : Client Err) : Client Err :=
  { c with
    role.rules := reorderRules c.role.rules
    clusterRole.rules := reorderRules c.clusterRole.rules }

/-- `Result`: it returns the client it has changed and the error, if any. `errorWriter` says whether
an error writer is given. -/
def result (marshal : Role → Except Err String) (errorWriter : Bool) (c : Client Err) :
    Program (writers Err) (Client Err × Option Err) := do
  let c := c.reordered
  let err ← writeResult marshal c.role <| writeResult marshal c.clusterRole <|
    if errorWriter && !c.errors.isEmpty then
      writeThen (.error "Errors during rbac client recording:\n")
        "failed to write to rbac client errorWriter" (writeErrors c.errors)
    else .done none
  return (c, err)

/-- Whatever the writers answer, the rules have been reordered. -/
theorem runs_result {marshal : Role → Except Err String} {errorWriter : Bool} {c c' : Client Err}
    {writes : List (writers Err).Call} {err : Option Err}
    (hruns : Program.Runs (result marshal errorWriter c) writes (c', err)) : c' = c.reordered := by
  obtain ⟨_, _, _, -, -, hdone⟩ := Program.runs_bind_iff.mp hruns
  exact congrArg Prod.fst (Program.runs_done_iff.mp hdone).2

end OperatorToolkit.Rbac
