import OperatorToolkit.Object.Names

/-!
# The recording RBAC client

The client of package `rbac/client` passes every API call on to a controller-runtime client and,
before that, records the rule that the call is thought to need: in the Role if the REST mapper says
that the object's kind is namespaced, in the ClusterRole otherwise. Nothing that goes wrong while
recording stops the call; the errors are kept for `Result`. The recorder never looks at the reply of
a call, so the calls are modelled by what they record.
-/

namespace OperatorToolkit.Rbac

open Object

def apiVersion : String := "rbac.authorization.k8s.io/v1"
def roleKind : String := "Role"
def clusterRoleKind : String := "ClusterRole"

def defaultRoleName : String := "generated-rbac-role"
def defaultClusterRoleName : String := "generated-rbac-cluster-role"

def verbGet : String := "get"
def verbList : String := "list"
def verbCreate : String := "create"
def verbDelete : String := "delete"
def verbUpdate : String := "update"
def verbPatch : String := "patch"

structure GroupKind where
  group : String
  kind : String
  deriving DecidableEq, Repr

structure GroupVersionResource where
  group : String
  version : String
  resource : String
  deriving DecidableEq, Repr

/-- A rule about resources. The API accepts it with at least one API group only. -/
structure PolicyRule where
  apiGroups : List String
  resources : List String
  verbs : List String
  apiGroups_ne_nil : apiGroups ≠ []
  deriving DecidableEq

/-- A rule about one resource. -/
def PolicyRule.about (group resource : String) (verbs : List String) : PolicyRule :=
  ⟨[group], [resource], verbs, List.cons_ne_nil _ _⟩

/-- A rule as the recorder makes it. -/
def PolicyRule.single (group resource verb : String) : PolicyRule := .about group resource [verb]

/-- A Role or a ClusterRole, according to its kind. -/
structure Role where
  apiVersion : String
  kind : String
  name : String
  rules : List PolicyRule
  deriving DecidableEq

def newRole (name : String) : Role := ⟨apiVersion, roleKind, name, []⟩

def newClusterRole (name : String) : Role := ⟨apiVersion, clusterRoleKind, name, []⟩

/-! ## The client -/

structure Client (Err : Type) where
  role : Role
  clusterRole : Role
  errors : List Err

/-- The options that change what the client produces. -/
inductive ClientOption where
  | withRoleName (name : String)
  | withClusterRoleName (name : String)
  deriving DecidableEq, Repr

variable {Obj Err : Type}

def ClientOption.apply (c : Client Err) : ClientOption → Client Err
  | .withRoleName name => { c with role.name := name }
  | .withClusterRoleName name => { c with clusterRole.name := name }

def newClient (opts : List ClientOption) : Client Err :=
  opts.foldl ClientOption.apply
    ⟨newRole defaultRoleName, newClusterRole defaultClusterRoleName, []⟩

/-- What the recorder asks of the Kubernetes libraries about an object: its kind according to the
scheme, whether it is an `Unstructured` or an `UnstructuredList`, the kind written in the object
itself, the name of the scope that the REST mapper gives a kind, and the resource guessed from a
kind. -/
structure Machinery (Obj Err : Type) where
  gvkForObject : Obj → Except Err GroupVersionKind
  isUnstructured : Obj → Bool
  groupVersionKind : Obj → GroupVersionKind
  restMapping : GroupKind → Except Err String
  unsafeGuessKindToResource : GroupVersionKind → GroupVersionResource

/-- `meta.RESTScopeNameRoot`. -/
def restScopeNameRoot : String := "root"

def isNamespaced [ErrorValues Err] (api : Machinery Obj Err) (obj : Obj) : Except Err Bool := do
  let gvk ← if api.isUnstructured obj then pure (api.groupVersionKind obj)
    else api.gvkForObject obj
  let scope ← (api.restMapping ⟨gvk.group, gvk.kind⟩).mapError (wrap "failed to get restmapping")
  if scope = "" then throw (errorf "Scope cannot be identified. Empty scope returned")
  return scope != restScopeNameRoot

namespace Client

variable [ErrorValues Err]

/-- `recordRuleWithStatus`. An object whose kind or scope cannot be found still leaves a rule: an
unknown kind counts as the empty one, an unknown scope as cluster-wide. -/
def recordRuleWithStatus (api : Machinery Obj Err) (c : Client Err) (obj : Obj) (verb : String)
    (status : Bool) : Client Err :=
  let (gvk, gvkErrs) := match api.gvkForObject obj with
    | .ok gvk => (gvk, [])
    | .error err => (⟨"", "", ""⟩, [err])
  let gvr := api.unsafeGuessKindToResource gvk
  let (namespaced, scopeErrs) := match isNamespaced api obj with
    | .ok namespaced => (namespaced, [])
    | .error err => (false, [err])
  let resource := if status then gvr.resource ++ "/" ++ "status" else gvr.resource
  let rule := PolicyRule.single gvr.group resource verb
  let c := { c with errors := c.errors ++ gvkErrs ++ scopeErrs }
  if namespaced then { c with role.rules := c.role.rules ++ [rule] }
  else { c with clusterRole.rules := c.clusterRole.rules ++ [rule] }

def recordRule (api : Machinery Obj Err) (c : Client Err) (obj : Obj) (verb : String) :
    Client Err :=
  c.recordRuleWithStatus api obj verb false

def create (api : Machinery Obj Err) (c : Client Err) (obj : Obj) : Client Err :=
  c.recordRule api obj verbCreate

def update (api : Machinery Obj Err) (c : Client Err) (obj : Obj) : Client Err :=
  c.recordRule api obj verbUpdate

def delete (api : Machinery Obj Err) (c : Client Err) (obj : Obj) : Client Err :=
  c.recordRule api obj verbDelete

def deleteAllOf (api : Machinery Obj Err) (c : Client Err) (obj : Obj) : Client Err :=
  c.recordRule api obj verbDelete

def patch (api : Machinery Obj Err) (c : Client Err) (obj : Obj) : Client Err :=
  c.recordRule api obj verbPatch

def get (api : Machinery Obj Err) (c : Client Err) (obj : Obj) : Client Err :=
  c.recordRule api obj verbGet

/-- Here `obj` is the list object. -/
def list (api : Machinery Obj Err) (c : Client Err) (obj : Obj) : Client Err :=
  c.recordRule api obj verbList

/-- `StatusWriter.Update`. -/
def statusUpdate (api : Machinery Obj Err) (c : Client Err) (obj : Obj) : Client Err :=
  c.recordRuleWithStatus api obj verbUpdate true

/-- `StatusWriter.Patch`. -/
def statusPatch (api : Machinery Obj Err) (c : Client Err) (obj : Obj) : Client Err :=
  c.recordRuleWithStatus api obj verbPatch true

end Client

/-! ## Sequences of calls -/

inductive Call (Obj : Type) where
  | create (obj : Obj)
  | update (obj : Obj)
  | delete (obj : Obj)
  | deleteAllOf (obj : Obj)
  | patch (obj : Obj)
  | get (obj : Obj)
  | list (obj : Obj)
  | statusUpdate (obj : Obj)
  | statusPatch (obj : Obj)
  deriving DecidableEq, Repr

def Client.make [ErrorValues Err] (api : Machinery Obj Err) (c : Client Err) :
    Call Obj → Client Err
  | .create obj => c.create api obj
  | .update obj => c.update api obj
  | .delete obj => c.delete api obj
  | .deleteAllOf obj => c.deleteAllOf api obj
  | .patch obj => c.patch api obj
  | .get obj => c.get api obj
  | .list obj => c.list api obj
  | .statusUpdate obj => c.statusUpdate api obj
  | .statusPatch obj => c.statusPatch api obj

/-- The object, the recorded verb, and whether it is a call on the status. -/
def Call.obj : Call Obj → Obj
  | .create obj | .update obj | .delete obj | .deleteAllOf obj | .patch obj | .get obj
  | .list obj | .statusUpdate obj | .statusPatch obj => obj

def Call.verb : Call Obj → String
  | .create _ => verbCreate
  | .update _ | .statusUpdate _ => verbUpdate
  | .delete _ | .deleteAllOf _ => verbDelete
  | .patch _ | .statusPatch _ => verbPatch
  | .get _ => verbGet
  | .list _ => verbList

def Call.status : Call Obj → Bool
  | .statusUpdate _ | .statusPatch _ => true
  | _ => false

/-- The rules of both roles. -/
def Client.rules (c : Client Err) : List PolicyRule := c.role.rules ++ c.clusterRole.rules

theorem rules_newClient (opts : List ClientOption) : (newClient opts : Client Err).rules = [] := by
  have hfold (c : Client Err) : (opts.foldl ClientOption.apply c).rules = c.rules := by
    induction opts generalizing c with
    | nil => rfl
    | cons opt opts ih =>
      rw [List.foldl_cons, ih]
      cases opt <;> rfl
  exact hfold _

/-- The resource that a call is recorded for, before a `/status` is put after it. -/
def Machinery.guessed (api : Machinery Obj Err) (obj : Obj) : GroupVersionResource :=
  api.unsafeGuessKindToResource (match api.gvkForObject obj with
    | .ok gvk => gvk
    | .error _ => ⟨"", "", ""⟩)

def subresource (status : Bool) (resource : String) : String :=
  if status then resource ++ "/" ++ "status" else resource

/-- The rule that a call is recorded with. -/
def Call.rule (api : Machinery Obj Err) (call : Call Obj) : PolicyRule :=
  .single (api.guessed call.obj).group
    (subresource call.status (api.guessed call.obj).resource) call.verb

section Recorded

variable [ErrorValues Err]

theorem make_eq (api : Machinery Obj Err) (c : Client Err) (call : Call Obj) :
    c.make api call = c.recordRuleWithStatus api call.obj call.verb call.status := by
  cases call <;> rfl

/-- Wherever it is recorded, a call adds exactly its rule. -/
theorem mem_rules_make {api : Machinery Obj Err} {c : Client Err} {call : Call Obj}
    {rule : PolicyRule} :
    rule ∈ (c.make api call).rules ↔ rule ∈ c.rules ∨ rule = call.rule api := by
  rw [make_eq]
  unfold Client.recordRuleWithStatus Call.rule Machinery.guessed subresource Client.rules
  cases api.gvkForObject call.obj <;> cases isNamespaced api call.obj with
  | error err => simp [or_assoc]
  | ok namespaced => cases namespaced <;> simp [or_assoc, or_comm]

def Client.makeAll (api : Machinery Obj Err) (c : Client Err) (calls : List (Call Obj)) :
    Client Err :=
  calls.foldl (Client.make api) c

theorem mem_rules_makeAll {api : Machinery Obj Err} {c : Client Err} {calls : List (Call Obj)}
    {rule : PolicyRule} :
    rule ∈ (c.makeAll api calls).rules ↔
      rule ∈ c.rules ∨ ∃ call ∈ calls, rule = call.rule api := by
  induction calls generalizing c with
  | nil => simp [Client.makeAll]
  | cons call calls ih =>
    calc rule ∈ (c.makeAll api (call :: calls)).rules
        ↔ rule ∈ (c.make api call).rules ∨ ∃ call ∈ calls, rule = call.rule api := ih
      _ ↔ (rule ∈ c.rules ∨ rule = call.rule api) ∨ ∃ call ∈ calls, rule = call.rule api := by
          rw [mem_rules_make]
      _ ↔ rule ∈ c.rules ∨ ∃ other ∈ call :: calls, rule = other.rule api := by
          simp [or_assoc]

end Recorded

end OperatorToolkit.Rbac
