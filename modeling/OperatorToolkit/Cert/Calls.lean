import OperatorToolkit.Interaction.Program
import OperatorToolkit.Object.Names

/-!
# Objects and calls of the certificate packages

The certificate manager keeps a self-signed serving certificate in a Secret, copies it to the disk
of the webhook server, and puts its CA into webhook configurations and CRDs. Here are the objects
it handles and the calls it makes: to the API client, to the file system, to the certificate
generator and to the clock. What the code does not look at in an object is a value of an arbitrary
type.
-/

namespace OperatorToolkit.Cert

open Interaction Object

abbrev Bytes := List UInt8

/-- Nanoseconds since some moment. -/
abbrev Time := Int

/-- `bytes.Contains`. -/
def contains : Bytes → Bytes → Bool
  | [], subslice => subslice.isEmpty
  | b :: bs, subslice => subslice.isPrefixOf (b :: bs) || contains bs subslice

/-! ## Errors -/

/-- The kinds of errors that the API machinery and package `os` tell apart. -/
class StatusErrors (Err : Type) extends ErrorValues Err where
  newNotFound : String → Err
  newAlreadyExists : String → Err
  newNotExist : String → Err
  isNotFound : Err → Bool
  isAlreadyExists : Err → Bool
  isNotExist : Err → Bool
  isNotFound_newNotFound : ∀ name, isNotFound (newNotFound name)
  isAlreadyExists_newAlreadyExists : ∀ name, isAlreadyExists (newAlreadyExists name)
  isNotExist_newNotExist : ∀ name, isNotExist (newNotExist name)

export StatusErrors (newNotFound newAlreadyExists newNotExist isNotFound isAlreadyExists isNotExist)

/-- A concrete error's kind is the first of its texts. -/
def GoError.isKind (kind : String) (err : GoError) : Bool := err.texts.head? == some kind

instance : StatusErrors GoError where
  newNotFound name := ⟨["not found", name]⟩
  newAlreadyExists name := ⟨["already exists", name]⟩
  newNotExist name := ⟨["no such file or directory", name]⟩
  isNotFound := GoError.isKind "not found"
  isAlreadyExists := GoError.isKind "already exists"
  isNotExist := GoError.isKind "no such file or directory"
  isNotFound_newNotFound _ := rfl
  isAlreadyExists_newAlreadyExists _ := rfl
  isNotExist_newNotExist _ := rfl

/-- The errors of the certificate packages: package `writer` wraps two kinds of API errors and
recognizes its own wrappers only. -/
inductive CertError (Err : Type) where
  | plain (err : Err)
  | notFoundError (err : Err)
  | alreadyExistError (err : Err)
  deriving DecidableEq, Repr

/-! ## Certificates -/

/-- A private key, its serving certificate, and the CA that signed it. -/
structure Artifacts where
  key : Bytes
  cert : Bytes
  caKey : Bytes
  caCert : Bytes
  deriving DecidableEq, Repr, Inhabited

def caKeyName : String := "ca-key.pem"
def caCertName : String := "ca-cert.pem"
def serverKeyName : String := "key.pem"
def serverCertName : String := "cert.pem"

/-- A Secret; `none` is a nil data map. -/
structure Secret where
  namespacedName : NamespacedName
  data : Option (List (String × Bytes))
  deriving DecidableEq, Repr

/-- The entry of the data map, empty if there is none. -/
def Secret.value (secret : Secret) (name : String) : Bytes :=
  ((secret.data.getD []).lookup name).getD []

/-! ## Webhook configurations -/

/-- The client config of a webhook or of a conversion webhook. -/
structure ClientConfig (Rest : Type) where
  caBundle : Bytes
  rest : Rest
  deriving DecidableEq, Repr

structure Webhook (Rest : Type) where
  clientConfig : ClientConfig Rest
  rest : Rest
  deriving DecidableEq, Repr

inductive WebhookKind where
  | mutating
  | validating
  deriving DecidableEq, Repr

/-- `MutatingWebhookConfiguration` and `ValidatingWebhookConfiguration`. -/
structure WebhookConfiguration (Rest : Type) where
  namespacedName : NamespacedName
  webhooks : List (Webhook Rest)
  rest : Rest
  deriving DecidableEq, Repr

structure WebhookConversion (Rest : Type) where
  clientConfig : Option (ClientConfig Rest)
  rest : Rest
  deriving DecidableEq, Repr

structure CustomResourceConversion (Rest : Type) where
  webhook : Option (WebhookConversion Rest)
  rest : Rest
  deriving DecidableEq, Repr

structure CustomResourceDefinition (Rest : Type) where
  namespacedName : NamespacedName
  conversion : Option (CustomResourceConversion Rest)
  rest : Rest
  deriving DecidableEq, Repr

/-- The client config of the CRD's conversion webhook, if no pointer on the way to it is nil. -/
def CustomResourceDefinition.clientConfig {Rest : Type} (crd : CustomResourceDefinition Rest) :
    Option (ClientConfig Rest) := do
  let conversion ← crd.conversion
  let webhook ← conversion.webhook
  webhook.clientConfig

/-- The objects a certificate can be injected into, and any other object by its kind. -/
inductive ClientObject (Rest : Type) where
  | webhooks (kind : WebhookKind) (config : WebhookConfiguration Rest)
  | crd (crd : CustomResourceDefinition Rest)
  | other (gvk : String)
  deriving DecidableEq, Repr

/-! ## Calls -/

inductive CertRequest (Rest : Type) where
  | stat (dir name : String)
  | mkdirAll (dir : String)
  | writeFile (dir name : String) (content : Bytes)
  | getSecret (n : NamespacedName)
  | createSecret (secret : Secret)
  | updateSecret (secret : Secret)
  | getWebhooks (kind : WebhookKind) (n : NamespacedName)
  | getCrd (n : NamespacedName)
  | update (obj : ClientObject Rest)
  | now
  | generate (commonName : String)
  | setCA (caKey caCert : Bytes)

def certCalls (Rest Err : Type) : Signature where
  Request := CertRequest Rest
  Reply
    | .stat _ _ | .mkdirAll _ | .writeFile _ _ _ => Option Err
    | .getSecret _ => Except Err Secret
    | .createSecret _ | .updateSecret _ | .update _ => Option Err
    | .getWebhooks _ _ => Except Err (WebhookConfiguration Rest)
    | .getCrd _ => Except Err (CustomResourceDefinition Rest)
    | .now => Time
    | .generate _ => Except Err Artifacts
    | .setCA _ _ => Unit

namespace Call

variable {Rest Err : Type}

/-- `os.Stat`. -/
def stat (dir name : String) : Program (certCalls Rest Err) (Option Err) :=
  Program.request (S := certCalls Rest Err) (.stat dir name)

def mkdirAll (dir : String) : Program (certCalls Rest Err) (Option Err) :=
  Program.request (S := certCalls Rest Err) (.mkdirAll dir)

def writeFile (dir name : String) (content : Bytes) : Program (certCalls Rest Err) (Option Err) :=
  Program.request (S := certCalls Rest Err) (.writeFile dir name content)

def getSecret (n : NamespacedName) : Program (certCalls Rest Err) (Except Err Secret) :=
  Program.request (S := certCalls Rest Err) (.getSecret n)

def createSecret (secret : Secret) : Program (certCalls Rest Err) (Option Err) :=
  Program.request (S := certCalls Rest Err) (.createSecret secret)

def updateSecret (secret : Secret) : Program (certCalls Rest Err) (Option Err) :=
  Program.request (S := certCalls Rest Err) (.updateSecret secret)

def getWebhooks (kind : WebhookKind) (n : NamespacedName) :
    Program (certCalls Rest Err) (Except Err (WebhookConfiguration Rest)) :=
  Program.request (S := certCalls Rest Err) (.getWebhooks kind n)

def getCrd (n : NamespacedName) :
    Program (certCalls Rest Err) (Except Err (CustomResourceDefinition Rest)) :=
  Program.request (S := certCalls Rest Err) (.getCrd n)

def update (obj : ClientObject Rest) : Program (certCalls Rest Err) (Option Err) :=
  Program.request (S := certCalls Rest Err) (.update obj)

/-- `time.Now`. -/
def now : Program (certCalls Rest Err) Time :=
  Program.request (S := certCalls Rest Err) CertRequest.now

def generate (commonName : String) : Program (certCalls Rest Err) (Except Err Artifacts) :=
  Program.request (S := certCalls Rest Err) (.generate commonName)

def setCA (caKey caCert : Bytes) : Program (certCalls Rest Err) Unit :=
  Program.request (S := certCalls Rest Err) (.setCA caKey caCert)

end Call

end OperatorToolkit.Cert
