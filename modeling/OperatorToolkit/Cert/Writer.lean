import OperatorToolkit.Cert.Calls

/-!
# Certificates in a Secret

The Secret-backed certificate writer. `EnsureCert` reads the certificates from the Secret, creates
them if there is no Secret, and overwrites them if they are not valid for the server name. What
the code uses of Go's libraries are the functions of `Stdlib`.
-/

namespace OperatorToolkit.Cert

open Interaction Object

/-- `admissionregistrationv1.ServiceReference`. -/
structure ServiceReference where
  ns : String
  name : String
  deriving DecidableEq, Repr

/-- `admissionregistrationv1.WebhookClientConfig`. -/
structure WebhookClientConfig where
  url : Option String := none
  service : Option ServiceReference := none
  caBundle : Bytes := []
  deriving DecidableEq, Repr

/-- Functions and values of Go's libraries and of the controller runtime. -/
structure Stdlib (Err : Type) where
  Certificate : Type
  CertPool : Type
  /-- Whether `tls.X509KeyPair` accepts the certificate and the key. -/
  x509KeyPair : Bytes → Bytes → Bool
  /-- `AppendCertsFromPEM` to a new pool. -/
  appendCertsFromPEM : Bytes → Option CertPool
  /-- `pem.Decode`. -/
  decode : Bytes → Option Bytes
  parseCertificate : Bytes → Option Certificate
  /-- Whether `Verify` accepts the certificate for the name, the roots and the time. -/
  verify : Certificate → String → CertPool → Time → Bool
  /-- `Time.AddDate` with years, months and days. -/
  addDate : Time → Int → Int → Int → Time
  joinHostPort : String → String → String
  /-- `URL.String` of the scheme and the host. -/
  urlString : String → String → String
  /-- The host of the URL that `url.Parse` returns. -/
  parseURLHost : String → Except Err String
  /-- The host that `net.SplitHostPort` returns. -/
  splitHostPort : String → Except Err String
  tempDir : String
  /-- `webhook.DefaultPort`. -/
  defaultPort : Int
  formatClientConfig : WebhookClientConfig → String

variable {Rest Err : Type}

def secretToCerts (secret : Secret) : Option Artifacts :=
  match secret.data with
  | none => none
  | some _ => some
    { caKey := secret.value caKeyName
      caCert := secret.value caCertName
      cert := secret.value serverCertName
      key := secret.value serverKeyName }

def certsToSecret (certs : Artifacts) (sec : NamespacedName) : Secret where
  namespacedName := sec
  data := some
    [(caKeyName, certs.caKey), (caCertName, certs.caCert), (serverKeyName, certs.key),
      (serverCertName, certs.cert)]

/-- The key fits the certificate, the CA has signed it, and in six months it will still be good for
the server name. -/
def validCert (std : Stdlib Err) (certs : Option Artifacts) (dnsName : String) (now : Time) :
    Bool :=
  match certs with
  | none => false
  | some certs =>
    if !std.x509KeyPair certs.cert certs.key then false
    else match std.appendCertsFromPEM certs.caCert, std.decode certs.cert with
      | some pool, some block =>
        match std.parseCertificate block with
        | none => false
        | some cert => std.verify cert dnsName pool (std.addDate now 0 6 0)
      | _, _ => false

/-- `secretCertWriter`; the certificate generator is reached by calls. -/
structure SecretCertWriter where
  secret : NamespacedName
  deriving DecidableEq, Repr

namespace SecretCertWriter

variable (w : SecretCertWriter)

def buildSecret (dnsName : String) :
    Program (certCalls Rest Err) (Except (CertError Err) (Secret × Artifacts)) := do
  match ← Call.generate dnsName with
  | .error err => return .error (.plain err)
  | .ok certs => return .ok (certsToSecret certs w.secret, certs)

/-- The end of `read`, with the Secret as the API client has left it. -/
def certsOf (secret : Secret) :
    Program (certCalls Rest Err) (Except (CertError Err) (Option Artifacts)) :=
  match secretToCerts secret with
  | none => return .ok none
  | some certs => do
    -- Store the CA for next usage.
    Call.setCA certs.caKey certs.caCert
    return .ok (some certs)

def overwrite (dnsName : String) :
    Program (certCalls Rest Err) (Except (CertError Err) Artifacts) := do
  match ← w.buildSecret dnsName with
  | .error err => return .error err
  | .ok (secret, certs) =>
    match ← Call.updateSecret secret with
    | none => return .ok certs
    | some err => return .error (.plain err)

variable [StatusErrors Err]

def write (dnsName : String) :
    Program (certCalls Rest Err) (Except (CertError Err) Artifacts) := do
  match ← w.buildSecret dnsName with
  | .error err => return .error err
  | .ok (secret, certs) =>
    match ← Call.createSecret secret with
    | none => return .ok certs
    | some err =>
      if isAlreadyExists err then return .error (.alreadyExistError err)
      else return .error (.plain err)

/-- Only a missing Secret is an error. After any other failure the Secret is still the empty one
that was handed to the API client. -/
def read : Program (certCalls Rest Err) (Except (CertError Err) (Option Artifacts)) := do
  match ← Call.getSecret w.secret with
  | .error err =>
    if isNotFound err then return .error (.notFoundError err)
    else certsOf { namespacedName := { name := "" }, data := none }
  | .ok secret => certsOf secret

/-- The certificates or the error, and whether they were created. -/
def createIfNotExists (dnsName : String) :
    Program (certCalls Rest Err) (Except (CertError Err) (Option Artifacts) × Bool) := do
  match ← w.read with
  | .error (.notFoundError _) =>
    match ← w.write dnsName with
    -- This may happen if there is another racer.
    | .error (.alreadyExistError _) => return (← w.read, true)
    | .error err => return (.error err, true)
    | .ok certs => return (.ok (some certs), true)
  | certs => return (certs, false)

/-- The part of `handleCommon` that recreates the certificates if they are invalid. -/
def replaceInvalid (std : Stdlib Err) (dnsName : String) (certs : Option Artifacts)
    (changed : Bool) : Program (certCalls Rest Err) (Except (CertError Err) Artifacts × Bool) := do
  let now ← Call.now
  match certs, validCert std certs dnsName now with
  | some certs, true => return (.ok certs, changed)
  | _, _ =>
    match ← w.overwrite dnsName with
    | .error err => return (.error err, false)
    | .ok certs => return (.ok certs, true)

/-- `handleCommon` with the writer as its own reader and writer: the certificates or the error, and
whether they have changed. -/
def handleCommon (std : Stdlib Err) (dnsName : String) :
    Program (certCalls Rest Err) (Except (CertError Err) Artifacts × Bool) :=
  if dnsName = "" then
    return (.error (.plain (errorf "dnsName should not be empty")), false)
  else do
    match ← w.createIfNotExists dnsName with
    | (.error err, changed) => return (.error err, changed)
    | (.ok certs, changed) => w.replaceInvalid std dnsName certs changed

def ensureCert (std : Stdlib Err) (dnsName : String) :
    Program (certCalls Rest Err) (Except (CertError Err) Artifacts × Bool) :=
  w.handleCommon std dnsName

/-! ## Replacing certificates in two cases -/

/-- How `replaceInvalid` returns after it has overwritten the certificates. -/
def reportOverwrite : Except (CertError Err) Artifacts →
    Program (certCalls Rest Err) (Except (CertError Err) Artifacts × Bool)
  | .error err => .done (.error err, false)
  | .ok certs => .done (.ok certs, true)

variable (Rest) in
omit [StatusErrors Err] in
/-- After reading the clock, `replaceInvalid` returns valid certificates and overwrites others. -/
theorem replaceInvalid_cases (std : Stdlib Err) (dnsName : String) (certs : Option Artifacts)
    (changed : Bool) :
    ∃ next : Time → Program (certCalls Rest Err) (Except (CertError Err) Artifacts × Bool),
      w.replaceInvalid std dnsName certs changed = .call .now next ∧ ∀ now,
        (∃ stored, certs = some stored ∧ validCert std certs dnsName now = true ∧
          next now = .done (.ok stored, changed)) ∨
        (validCert std certs dnsName now = false ∧
          next now = (w.overwrite dnsName >>= reportOverwrite)) := by
  refine ⟨_, rfl, fun now ↦ ?_⟩
  cases certs with
  | none => exact .inr ⟨rfl, rfl⟩
  | some stored =>
    cases hvalid : validCert std (some stored) dnsName now with
    | true => exact .inl ⟨stored, rfl, rfl, by simp [hvalid, Program.bind]⟩
    | false =>
      refine .inr ⟨rfl, ?_⟩
      simp only [hvalid, Program.bind]
      rfl

end SecretCertWriter

end OperatorToolkit.Cert
