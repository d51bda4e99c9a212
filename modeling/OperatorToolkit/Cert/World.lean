import OperatorToolkit.Cert.Manager
import OperatorToolkit.Interaction.Execution
import Mathlib.Data.Set.Defs
import Mathlib.Logic.Function.Basic

/-!
# The world of the certificate managers

The API objects, the files of all replicas and the clock. `World.answer` computes what a call
does that does not fail. Every call may fail as well: a failed API call may or may not have taken
effect, and a failed write may leave anything in its file. The managers run one after another, in
any order, and time passes between the runs.
-/

namespace OperatorToolkit.Cert

open Interaction Object

variable {Rest Err : Type}

/-- Files are found by their directory and their name. -/
structure World (Rest : Type) where
  now : Time
  secrets : NamespacedName → Option Secret
  webhooks : WebhookKind → NamespacedName → Option (WebhookConfiguration Rest)
  crds : NamespacedName → Option (CustomResourceDefinition Rest)
  files : String → String → Option Bytes

namespace World

variable (s : World Rest)

def putSecret (secret : Secret) : World Rest :=
  { s with secrets := Function.update s.secrets secret.namespacedName (some secret) }

def putFile (dir name : String) (content : Option Bytes) : World Rest :=
  { s with files := Function.update s.files dir (Function.update (s.files dir) name content) }

def hasObject : ClientObject Rest → Bool
  | .webhooks kind config => (s.webhooks kind config.namespacedName).isSome
  | .crd crd => (s.crds crd.namespacedName).isSome
  | .other _ => false

def putObject : ClientObject Rest → World Rest
  | .webhooks kind config =>
    let configs := Function.update (s.webhooks kind) config.namespacedName (some config)
    { s with webhooks := Function.update s.webhooks kind configs }
  | .crd crd => { s with crds := Function.update s.crds crd.namespacedName (some crd) }
  | .other _ => s

/-- The reply to a call that does not fail, and the world after it. The artifacts are those that
the generator comes up with if it is asked. -/
def answer (Err : Type) [StatusErrors Err] (certs : Artifacts) :
    (request : CertRequest Rest) → (certCalls Rest Err).Reply request × World Rest
  | .stat dir name => (if (s.files dir name).isSome then none else some (newNotExist name : Err), s)
  | .mkdirAll _ => ((none : Option Err), s)
  | .writeFile dir name content => ((none : Option Err), s.putFile dir name (some content))
  | .getSecret n => (((s.secrets n).elim (.error (newNotFound n.name)) .ok : Except Err Secret), s)
  | .createSecret secret =>
    if (s.secrets secret.namespacedName).isSome then
      (some (newAlreadyExists secret.namespacedName.name : Err), s)
    else ((none : Option Err), s.putSecret secret)
  | .updateSecret secret =>
    if (s.secrets secret.namespacedName).isSome then ((none : Option Err), s.putSecret secret)
    else (some (newNotFound secret.namespacedName.name : Err), s)
  | .getWebhooks kind n =>
    (((s.webhooks kind n).elim (.error (newNotFound n.name)) .ok :
      Except Err (WebhookConfiguration Rest)), s)
  | .getCrd n =>
    (((s.crds n).elim (.error (newNotFound n.name)) .ok :
      Except Err (CustomResourceDefinition Rest)), s)
  | .update obj =>
    if s.hasObject obj then ((none : Option Err), s.putObject obj)
    else (some (newNotFound "" : Err), s)
  | .now => (s.now, s)
  | .generate _ => ((.ok certs : Except Err Artifacts), s)
  | .setCA _ _ => ((), s)

/-- What a `Get` returns was found. -/
theorem eq_some_of_elim {α : Type} {found : Option α} {err : Err} {a : α}
    (h : found.elim (.error err) .ok = Except.ok a) : found = some a := by
  cases found with
  | none => cases h
  | some b => exact congrArg some (Except.ok.inj h)

variable {s} {s' : World Rest} {n : NamespacedName} {certs : Artifacts} [StatusErrors Err]

theorem secret_of_answer {secret : Secret}
    (h : s.answer Err certs (.getSecret n) = (.ok secret, s')) : s.secrets n = some secret :=
  eq_some_of_elim (Prod.mk.inj h).1

theorem webhooks_of_answer {kind : WebhookKind} {config : WebhookConfiguration Rest}
    (h : s.answer Err certs (.getWebhooks kind n) = (.ok config, s')) :
    s.webhooks kind n = some config :=
  eq_some_of_elim (Prod.mk.inj h).1

theorem crd_of_answer {crd : CustomResourceDefinition Rest}
    (h : s.answer Err certs (.getCrd n) = (.ok crd, s')) : s.crds n = some crd :=
  eq_some_of_elim (Prod.mk.inj h).1

end World

/-! ## Failures -/

/-- Failed calls and what they may leave behind. -/
inductive Fails [StatusErrors Err] : World Rest → (request : CertRequest Rest) →
    (certCalls Rest Err).Reply request → World Rest → Prop where
  | stat {s dir name} {err : Err} : ¬isNotExist err → Fails s (.stat dir name) (some err) s
  | mkdirAll {s dir} {err : Err} : Fails s (.mkdirAll dir) (some err) s
  | writeFile {s dir name content left} {err : Err} :
      Fails s (.writeFile dir name content) (some err) (s.putFile dir name left)
  | getSecret {s n} {err : Err} : ¬isNotFound err → Fails s (.getSecret n) (.error err) s
  | createSecret {s secret} {err : Err} : Fails s (.createSecret secret) (some err) s
  | secretCreated {s secret} {err : Err} : s.secrets secret.namespacedName = none →
      Fails s (.createSecret secret) (some err) (s.putSecret secret)
  | updateSecret {s secret} {err : Err} : Fails s (.updateSecret secret) (some err) s
  | secretUpdated {s secret} {err : Err} : (s.secrets secret.namespacedName).isSome →
      Fails s (.updateSecret secret) (some err) (s.putSecret secret)
  | getWebhooks {s kind n} {err : Err} : ¬isNotFound err →
      Fails s (.getWebhooks kind n) (.error err) s
  | getCrd {s n} {err : Err} : ¬isNotFound err → Fails s (.getCrd n) (.error err) s
  | update {s obj} {err : Err} : Fails s (.update obj) (some err) s
  | updated {s obj} {err : Err} : s.hasObject obj →
      Fails s (.update obj) (some err) (s.putObject obj)
  | generate {s commonName} {err : Err} : Fails s (.generate commonName) (.error err) s

/-- The error of a reply, if it is one. -/
def errorOf : (request : CertRequest Rest) → (certCalls Rest Err).Reply request → Option Err
  | .stat _ _, err | .mkdirAll _, err | .writeFile _ _ _, err => err
  | .createSecret _, err | .updateSecret _, err | .update _, err => err
  | .getSecret _, .error err | .getWebhooks _ _, .error err | .getCrd _, .error err => some err
  | .generate _, .error err => some err
  | .getSecret _, .ok _ | .getWebhooks _ _, .ok _ | .getCrd _, .ok _ | .generate _, .ok _ => none
  | .now, _ | .setCA _ _, _ => none

/-- The errors of calls that have not failed: there was nothing to be found. -/
def tolerated [StatusErrors Err] : CertRequest Rest → Err → Bool
  | .stat _ _, err => isNotExist err
  | .getSecret _, err | .getWebhooks _ _, err | .getCrd _, err => isNotFound err
  | _, _ => false

def failed [StatusErrors Err] (call : (certCalls Rest Err).Call) : Bool :=
  (errorOf call.1 call.2).any fun err ↦ !tolerated call.1 err

theorem Fails.failed [StatusErrors Err] {s s' : World Rest} {request : CertRequest Rest}
    {reply : (certCalls Rest Err).Reply request} (h : Fails s request reply s') :
    failed ⟨request, reply⟩ := by
  cases h <;> simp_all [Cert.failed, errorOf, tolerated]

/-! ## Histories -/

/-- The calls are answered, or fail. -/
def service (Rest Err : Type) [StatusErrors Err] : Service (certCalls Rest Err) (World Rest) where
  Handles s request reply s' :=
    (∃ certs, s.answer Err certs request = (reply, s')) ∨ Fails s request reply s'
  Breaks _ _ _ := False
  Rely _ _ := False

/-- No call fails. -/
def reliable (Rest Err : Type) [StatusErrors Err] : Service (certCalls Rest Err) (World Rest) where
  Handles s request reply s' := ∃ certs, s.answer Err certs request = (reply, s')
  Breaks _ _ _ := False
  Rely _ _ := False

/-- One call of `run`: the manager, its calls and the error it returned, with the world before and
after it. -/
structure Run (Rest Err : Type) where
  manager : Manager
  before : World Rest
  calls : List (certCalls Rest Err).Call
  err : Option (CertError Err)
  after : World Rest

/-- The managers start with empty directories and run one after another, in any order; time passes
between the runs. The runs are listed latest first. -/
inductive History [StatusErrors Err] (std : Stdlib Err) (managers : Set Manager) :
    List (Run Rest Err) → World Rest → Prop where
  | start {s} : (∀ m ∈ managers, ∀ name, s.files m.options.certDir name = none) →
      History std managers [] s
  | timePasses {runs s now} : History std managers runs s → s.now ≤ now →
      History std managers runs { s with now := now }
  | run {runs} {r : Run Rest Err} : History std managers runs r.before → r.manager ∈ managers →
      Program.Runs (r.manager.run std) r.calls r.err →
      Served (service Rest Err) r.before r.calls r.after →
      History std managers (r :: runs) r.after

/-- A run without failed calls is a run against a reliable world. -/
theorem yields_reliable [StatusErrors Err] {std : Stdlib Err} {m : Manager} {s s' : World Rest}
    {calls : List (certCalls Rest Err).Call} {err : Option (CertError Err)}
    (hruns : Program.Runs (m.run std) calls err) (hserved : Served (service Rest Err) s calls s')
    (hcalls : ∀ call ∈ calls, ¬failed call) : Yields (reliable Rest Err) s (m.run std) err s' := by
  refine yields_of_served hruns hserved fun call hcall t t' hhandles ↦ ?_
  rcases hhandles with hanswer | hfails
  · exact hanswer
  · exact absurd hfails.failed (hcalls call hcall)

end OperatorToolkit.Cert
