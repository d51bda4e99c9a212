import OperatorToolkit.Cert.Provisioner

/-!
# The certificate manager

`run` checks whether the certificate files exist, refreshes the certificate in the Secret and the CA
bundles of the webhook configurations, and writes the certificate to the disk if it has changed or
if the files were missing. The managers of all replicas share the Secret and the configurations;
each has a directory of its own.
-/

namespace OperatorToolkit.Cert

open Interaction Object

def defaultCertName : String := "tls.crt"
def defaultKeyName : String := "tls.key"

/-- The options that the manager and its writer read. -/
structure Options where
  service : Option ServiceReference := none
  host : Option String := none
  port : Int := 0
  mutatingWebhookConfigRefs : List NamespacedName := []
  validatingWebhookConfigRefs : List NamespacedName := []
  crdRefs : List NamespacedName := []
  secretRef : Option NamespacedName := none
  certDir : String := ""
  certName : String := ""
  keyName : String := ""
  deriving DecidableEq, Repr

variable {Rest Err : Type}

def Options.setDefault (o : Options) (std : Stdlib Err) : Options :=
  { o with
    port := if o.port ≤ 0 then std.defaultPort else o.port
    certDir :=
      if o.certDir = "" then std.tempDir ++ "/k8s-webhook-server/serving-certs" else o.certDir
    certName := if o.certName = "" then defaultCertName else o.certName
    keyName := if o.keyName = "" then defaultKeyName else o.keyName }

/-- A manager with the Secret-backed writer, which uses the manager's own Secret. -/
structure Manager where
  options : Options
  certProvisioner : Provisioner
  secretRef_isSome : options.secretRef.isSome
  certProvisioner_eq : certProvisioner = ⟨some ⟨options.secretRef.get secretRef_isSome⟩⟩

def Manager.secretRef (m : Manager) : NamespacedName := m.options.secretRef.get m.secretRef_isSome

/-- Without a Secret the writer cannot be built. -/
def newManager [StatusErrors Err] (std : Stdlib Err) (ops : Options) :
    Except (CertError Err) Manager :=
  if h : (ops.setDefault std).secretRef.isSome then .ok
    { options := ops.setDefault std
      certProvisioner := ⟨some ⟨(ops.setDefault std).secretRef.get h⟩⟩
      secretRef_isSome := h
      certProvisioner_eq := rfl }
  else .error (.plain (errorf "secret must be set in SecretCertWriterOptions"))

/-! ## The common CA bundle -/

/-- The common bundle so far and a webhook's bundle: the common bundle, and whether they differ. -/
def compareCABundles (commonCABundle caBundle : Bytes) : Bytes × Bool :=
  let commonCABundle := if commonCABundle.length = 0 then caBundle else commonCABundle
  if commonCABundle ≠ caBundle then ([], true) else (commonCABundle, false)

/-- The variables of `refreshCert` that its loops write. -/
structure Fetched (Rest : Type) where
  whConfigs : List (ClientObject Rest) := []
  caBundle : Bytes := []
  differentCABundles : Bool := false

/-- The inner loop over the webhooks, which stops as soon as two bundles differ. -/
def compareWebhooks : List (Webhook Rest) → Bytes × Bool → Bytes × Bool
  | [], bundles => bundles
  | wh :: webhooks, (caBundle, differentCABundles) =>
    if differentCABundles then (caBundle, differentCABundles)
    else compareWebhooks webhooks (compareCABundles caBundle wh.clientConfig.caBundle)

/-- The body of the loops over the webhook configurations. -/
def Fetched.addWebhooks (fetched : Fetched Rest) (kind : WebhookKind)
    (config : WebhookConfiguration Rest) : Fetched Rest :=
  let bundles := compareWebhooks config.webhooks (fetched.caBundle, fetched.differentCABundles)
  { whConfigs := fetched.whConfigs ++ [.webhooks kind config]
    caBundle := bundles.1
    differentCABundles := bundles.2 }

/-- The body of the loop over the CRDs. It compares in any case, and drops the difference. -/
def Fetched.addCrd (fetched : Fetched Rest) (crd : CustomResourceDefinition Rest)
    (clientConfig : ClientConfig Rest) : Fetched Rest :=
  { fetched with
    whConfigs := fetched.whConfigs ++ [.crd crd]
    caBundle := (compareCABundles fetched.caBundle clientConfig.caBundle).1 }

/-- The loops over the mutating and the validating webhook configurations. -/
def fetchWebhooks (kind : WebhookKind) : List NamespacedName → Fetched Rest →
    Program (certCalls Rest Err) (Except (CertError Err) (Fetched Rest))
  | [], fetched => return .ok fetched
  | nn :: refs, fetched => do
    match ← Call.getWebhooks kind nn with
    | .error err => return .error (.plain err)
    | .ok config => fetchWebhooks kind refs (fetched.addWebhooks kind config)

def fetchCrds [StatusErrors Err] : List NamespacedName → Fetched Rest →
    Program (certCalls Rest Err) (Except (CertError Err) (Fetched Rest))
  | [], fetched => return .ok fetched
  | nn :: refs, fetched => do
    match ← Call.getCrd nn with
    | .error err => return .error (.plain err)
    | .ok crd =>
      match crd.clientConfig with
      | none => return .error (.plain (errorf
          ("CRD " ++ nn.format ++ " with misconfigured Spec.Conversion.Webhook.ClientConfig")))
      | some clientConfig => fetchCrds refs (fetched.addCrd crd clientConfig)

/-- Updates all the given objects, up to the first failure. -/
def batchUpdate : List (ClientObject Rest) → Program (certCalls Rest Err) (Option (CertError Err))
  | [] => return none
  | obj :: objs => do
    match ← Call.update obj with
    | some err => return some (.plain err)
    | none => batchUpdate objs

namespace Manager

variable (m : Manager)

/-- The client config with the host or the service of the webhook server. -/
def getClientConfig [StatusErrors Err] (std : Stdlib Err) :
    Except (CertError Err) WebhookClientConfig :=
  if m.options.host.isSome && m.options.service.isSome then
    .error (.plain (errorf "URL and Service can't be set at the same time"))
  else .ok
    { url := m.options.host.map fun host ↦
        std.urlString "https" (std.joinHostPort host (toString m.options.port))
      service := m.options.service }

/-- Whether both files exist; a failed check counts as a missing file. -/
def certExists : Program (certCalls Rest Err) Bool := do
  match ← Call.stat m.options.certDir m.options.certName with
  | some _ => return false
  | none =>
    match ← Call.stat m.options.certDir m.options.keyName with
    | some _ => return false
    | none => return true

/-- The part of `writeCertOnDisk` after the Secret was read. -/
def writeFiles (cert key : Bytes) : Program (certCalls Rest Err) (Option (CertError Err)) := do
  match ← Call.mkdirAll m.options.certDir with
  | some err => return some (.plain err)
  | none =>
    match ← Call.writeFile m.options.certDir m.options.certName cert with
    | some err => return some (.plain err)
    | none =>
      match ← Call.writeFile m.options.certDir m.options.keyName key with
      | some err => return some (.plain err)
      | none => return none

variable [StatusErrors Err]

/-- Only a missing Secret is an error. After any other failure the Secret is still the empty one
that was handed to the API client. -/
def writeCertOnDisk : Program (certCalls Rest Err) (Option (CertError Err)) := do
  match ← Call.getSecret m.secretRef with
  | .error err =>
    if isNotFound err then return some (.plain err) else m.writeFiles [] []
  | .ok secret => m.writeFiles (secret.value serverCertName) (secret.value serverKeyName)

/-- The three loops of `refreshCert` that fetch the webhook configurations. -/
def fetchConfigs : Program (certCalls Rest Err) (Except (CertError Err) (Fetched Rest)) := do
  match ← fetchWebhooks .mutating m.options.mutatingWebhookConfigRefs {} with
  | .error err => return .error err
  | .ok fetched =>
    match ← fetchWebhooks .validating m.options.validatingWebhookConfigRefs fetched with
    | .error err => return .error err
    | .ok fetched => fetchCrds m.options.crdRefs fetched

variable (std : Stdlib Err)

/-- The part of `refreshCert` after the webhook configurations were fetched. -/
def updateConfigs (cc : WebhookClientConfig) (fetched : Fetched Rest) :
    Program (certCalls Rest Err) (Bool × Option (CertError Err)) := do
  match ← m.certProvisioner.provision std { cc with caBundle := fetched.caBundle }
      fetched.whConfigs with
  | .error err => return (false, some err)
  | .ok (changed, whConfigs) => return (changed, ← batchUpdate whConfigs)

/-- Whether the certificate or a CA bundle has changed, and the error. -/
def refreshCert : Program (certCalls Rest Err) (Bool × Option (CertError Err)) :=
  match m.getClientConfig std with
  | .error err => return (false, some err)
  | .ok cc => do
    match ← m.fetchConfigs with
    | .error err => return (false, some err)
    | .ok fetched => m.updateConfigs std cc fetched

/-- The certificate is written on a change that this run has seen, or if the files were missing. -/
def run : Program (certCalls Rest Err) (Option (CertError Err)) := do
  let hostCert ← m.certExists
  match ← m.refreshCert std with
  | (_, some err) => return some err
  | (changed, none) => if changed || !hostCert then m.writeCertOnDisk else return none

end Manager

end OperatorToolkit.Cert
