import OperatorToolkit.Cert.Writer
import Mathlib.Data.List.Sort

/-!
# The self-signed certificate generator

`Generate` signs a new serving certificate. It uses the CA that was set last if that CA is still
good when the new certificate expires, and a new self-signed CA otherwise. The clock, the random
numbers and the signatures are calls; reading and writing PEM are functions of a library.
-/

namespace OperatorToolkit.Cert

open Interaction

variable {Err : Type}

/-! ## The library -/

/-- `time.Second`; times are in nanoseconds. -/
def second : Time := 1000000000

def oneYear : Time := 365 * 24 * 3600 * second

/-- Functions of the certificate libraries, besides those of `Stdlib`. -/
structure PKILib (std : Stdlib Err) where
  PrivateKey : Type
  IP : Type
  /-- Whether the key is an `*rsa.PrivateKey`. -/
  isRSA : PrivateKey → Bool
  ipString : IP → String
  notBefore : std.Certificate → Time
  parsePrivateKeyPEM : Bytes → Option PrivateKey
  parseCertsPEM : Bytes → Option (List std.Certificate)
  encodePrivateKeyPEM : PrivateKey → Bytes
  encodeCertPEM : std.Certificate → Bytes

inductive KeyUsage where
  | digitalSignature
  | keyEncipherment
  | certSign
  deriving DecidableEq, Repr

inductive ExtKeyUsage where
  | serverAuth
  deriving DecidableEq, Repr

/-- `cert.CertConfig`, with the fields of its alternative names. -/
structure CertConfig (IP : Type) where
  commonName : String
  organization : List String := []
  dnsNames : List String := []
  ips : List IP := []
  usages : List ExtKeyUsage := []

/-- The fields of an `x509.Certificate` that are set for a new one. -/
structure CertTemplate (IP : Type) where
  commonName : String
  organization : List String
  dnsNames : List String
  ipAddresses : List IP
  serialNumber : Int
  notBefore : Time
  notAfter : Time
  keyUsage : List KeyUsage
  extKeyUsage : List ExtKeyUsage
  isCA : Bool

variable {std : Stdlib Err} (pki : PKILib std)

inductive PKIRequest where
  | now
  /-- `NewPrivateKey` of an RSA key. -/
  | newPrivateKey
  | newSelfSignedCACert (commonName : String) (key : pki.PrivateKey)
  | newSerial
  /-- `CreateCertificate`, and `ParseCertificate` of what it returns. -/
  | createCertificate (template : CertTemplate pki.IP) (parent : std.Certificate)
      (key caKey : pki.PrivateKey)

def pkiCalls : Signature where
  Request := PKIRequest pki
  Reply
    | .now => Time
    | .newPrivateKey => Except Err pki.PrivateKey
    | .newSelfSignedCACert _ _ => Except Err std.Certificate
    | .newSerial => Except Err Int
    | .createCertificate _ _ _ _ => Except Err std.Certificate

namespace PKICall

def now : Program (pkiCalls pki) Time :=
  .request (S := pkiCalls pki) .now

def newPrivateKey : Program (pkiCalls pki) (Except Err pki.PrivateKey) :=
  .request (S := pkiCalls pki) .newPrivateKey

def newSelfSignedCACert (commonName : String) (key : pki.PrivateKey) :
    Program (pkiCalls pki) (Except Err std.Certificate) :=
  .request (S := pkiCalls pki) (.newSelfSignedCACert commonName key)

def newSerial : Program (pkiCalls pki) (Except Err Int) :=
  .request (S := pkiCalls pki) .newSerial

def createCertificate (template : CertTemplate pki.IP) (parent : std.Certificate)
    (key caKey : pki.PrivateKey) : Program (pkiCalls pki) (Except Err std.Certificate) :=
  .request (S := pkiCalls pki) (.createCertificate template parent key caKey)

end PKICall

/-! ## New certificates -/

/-- DNS names are sorted as well; of the IP addresses the first of each text is kept. -/
def removeDuplicateAltNames (cfg : CertConfig pki.IP) : CertConfig pki.IP :=
  { cfg with
    dnsNames := cfg.dnsNames.eraseDups.insertionSort (· ≤ ·)
    ips := cfg.ips.foldl (fun ips one ↦
      if ips.any (pki.ipString · == pki.ipString one) then ips else ips ++ [one]) [] }

/-- The certificate that `NewSignedCertWithValidity` asks for. -/
def certTmpl (cfg : CertConfig pki.IP) (caCert : std.Certificate) (isCA : Bool) (validity : Time)
    (serial : Int) : CertTemplate pki.IP :=
  let cfg := removeDuplicateAltNames pki cfg
  { commonName := cfg.commonName
    organization := cfg.organization
    dnsNames := cfg.dnsNames
    ipAddresses := cfg.ips
    serialNumber := serial
    notBefore := pki.notBefore caCert
    notAfter := validity
    keyUsage := [.keyEncipherment, .digitalSignature] ++ if isCA then [.certSign] else []
    extKeyUsage := cfg.usages
    isCA := isCA }

theorem certTmpl_dnsNames (name : String) (caCert : std.Certificate) (validity : Time)
    (serial : Int) :
    (certTmpl pki { commonName := name, dnsNames := [name], usages := [.serverAuth] } caCert false
      validity serial).dnsNames = [name] := by
  simp [certTmpl, removeDuplicateAltNames, List.eraseDups_cons]

variable [ErrorValues Err]

def newSignedCertWithValidity (cfg : CertConfig pki.IP) (key : pki.PrivateKey)
    (caCert : std.Certificate) (caKey : pki.PrivateKey) (isCA : Bool) (validity : Time) :
    Program (pkiCalls pki) (Except Err std.Certificate) := do
  match ← PKICall.newSerial pki with
  | .error err => return .error err
  | .ok serial =>
    if cfg.commonName.length = 0 then return .error (errorf "must specify a CommonName")
    else
      PKICall.createCertificate pki (certTmpl pki cfg caCert isCA validity serial) caCert key caKey

/-- The key fits the certificate, the CA has signed it, and at the given time it will still be good
for the name. -/
def validCACert (std : Stdlib Err) (key cert caCert : Bytes) (dnsName : String) (time : Time) :
    Bool :=
  if key.length = 0 || cert.length = 0 || caCert.length = 0 then false
  else if !std.x509KeyPair cert key then false
  else match std.appendCertsFromPEM caCert, std.decode cert with
    | some pool, some block =>
      match std.parseCertificate block with
      | none => false
      | some c => std.verify c dnsName pool time
    | _, _ => false

/-! ## The generator -/

structure SelfSignedCertGenerator where
  caKey : Bytes := []
  caCert : Bytes := []
  validity : Time := 0
  deriving DecidableEq, Repr

namespace SelfSignedCertGenerator

variable (cp : SelfSignedCertGenerator)

def setCA (caKey caCert : Bytes) : SelfSignedCertGenerator :=
  { cp with caKey := caKey, caCert := caCert }

/-- The generator with the default validity if none is set. -/
def withDefault : SelfSignedCertGenerator :=
  if cp.validity = 0 then { cp with validity := oneYear } else cp

/-- The CA that was set, if it is one that is still good at the given time. -/
def validCACert (time : Time) : Option (pki.PrivateKey × std.Certificate) :=
  if !Cert.validCACert std cp.caKey cp.caCert cp.caCert "" time then none
  else match pki.parsePrivateKeyPEM cp.caKey with
    | none => none
    | some key =>
      if !pki.isRSA key then none
      else match pki.parseCertsPEM cp.caCert with
        | some [cert] => some (key, cert)
        | _ => none

/-- The part of `Generate` that finds or creates the CA. -/
def signingPair (certBestBefore : Time) :
    Program (pkiCalls pki) (Except Err (pki.PrivateKey × std.Certificate)) :=
  match cp.validCACert pki certBestBefore with
  | some pair => return .ok pair
  | none => do
    match ← PKICall.newPrivateKey pki with
    | .error err =>
      return .error (errorf ("failed to create the CA private key: " ++ message err))
    | .ok signer =>
      if !pki.isRSA signer then
        return .error (errorf "failed to convert CA signer to RSA private key")
      else
        match ← PKICall.newSelfSignedCACert pki "webhook-cert-ca" signer with
        | .error err => return .error (errorf ("failed to create the CA cert: " ++ message err))
        | .ok signingCert => return .ok (signer, signingCert)

/-- What `Generate` returns, in PEM. -/
def artifacts (key : pki.PrivateKey) (cert : std.Certificate) (caKey : pki.PrivateKey)
    (caCert : std.Certificate) : Artifacts where
  key := pki.encodePrivateKeyPEM key
  cert := pki.encodeCertPEM cert
  caKey := pki.encodePrivateKeyPEM caKey
  caCert := pki.encodeCertPEM caCert

/-- The part of `Generate` after the CA is there. -/
def signWith (commonName : String) (certBestBefore : Time) (signingKey : pki.PrivateKey)
    (signingCert : std.Certificate) : Program (pkiCalls pki) (Except Err Artifacts) := do
  match ← PKICall.newPrivateKey pki with
  | .error err => return .error (errorf ("failed to create the private key: " ++ message err))
  | .ok key =>
    if !pki.isRSA key then
      return .error (errorf "failed to conver signer to RSA private key")
    else
      let cfg : CertConfig pki.IP :=
        { commonName := commonName, dnsNames := [commonName], usages := [.serverAuth] }
      match ← newSignedCertWithValidity pki cfg key signingCert signingKey false certBestBefore with
      | .error err => return .error (errorf ("failed to create the cert: " ++ message err))
      | .ok signedCert =>
        return .ok (artifacts pki key signedCert signingKey signingCert)

/-- The artifacts or the error, and the generator afterwards. -/
def generate (commonName : String) :
    Program (pkiCalls pki) (Except Err Artifacts × SelfSignedCertGenerator) := do
  let cp := cp.withDefault
  let now ← PKICall.now pki
  let certBestBefore := now + cp.validity
  match ← cp.signingPair pki certBestBefore with
  | .error err => return (.error err, cp)
  | .ok (signingKey, signingCert) =>
    return (← signWith pki commonName certBestBefore signingKey signingCert, cp)

end SelfSignedCertGenerator

/-! ## Successful checks and runs -/

omit [ErrorValues Err] in
theorem verify_of_validCACert {key cert caCert : Bytes} {dnsName : String} {time : Time}
    (h : validCACert std key cert caCert dnsName time) :
    std.x509KeyPair cert key ∧ ∃ pool block c, std.appendCertsFromPEM caCert = some pool ∧
      std.decode cert = some block ∧ std.parseCertificate block = some c ∧
      std.verify c dnsName pool time := by
  unfold validCACert at h
  split_ifs at h with hempty hpair
  refine ⟨by simpa using hpair, ?_⟩
  cases hpool : std.appendCertsFromPEM caCert with
  | none => simp [hpool] at h
  | some pool =>
    cases hblock : std.decode cert with
    | none => simp [hpool, hblock] at h
    | some block =>
      cases hparse : std.parseCertificate block with
      | none => simp [hpool, hblock, hparse] at h
      | some c => exact ⟨pool, block, c, rfl, rfl, hparse, by simpa [hpool, hblock, hparse] using h⟩

section Runs

variable {pki} {cp cp' : SelfSignedCertGenerator} {calls : List (pkiCalls pki).Call}

omit [ErrorValues Err] in
theorem eq_some_of_validCACert {time : Time} {key : pki.PrivateKey} {ca : std.Certificate}
    (h : cp.validCACert pki time = some (key, ca)) :
    validCACert std cp.caKey cp.caCert cp.caCert "" time ∧
      pki.parsePrivateKeyPEM cp.caKey = some key ∧ pki.parseCertsPEM cp.caCert = some [ca] := by
  unfold SelfSignedCertGenerator.validCACert at h
  split_ifs at h with hvalid
  cases hkey : pki.parsePrivateKeyPEM cp.caKey with
  | none => simp [hkey] at h
  | some parsed =>
    simp only [hkey] at h
    split_ifs at h
    split at h
    next cert hcerts =>
      cases h
      exact ⟨by simpa using hvalid, rfl, hcerts⟩
    next => cases h

theorem createCertificate_of_runs {cfg : CertConfig pki.IP} {key caKey : pki.PrivateKey}
    {caCert cert : std.Certificate} {isCA : Bool} {validity : Time}
    (h : Program.Runs (newSignedCertWithValidity pki cfg key caCert caKey isCA validity) calls
      (.ok cert)) :
    cfg.commonName ≠ "" ∧ ∃ serial,
      ⟨.createCertificate (certTmpl pki cfg caCert isCA validity serial) caCert key caKey,
        (.ok cert : Except Err std.Certificate)⟩ ∈ calls := by
  obtain ⟨reply, rest, rfl, hrest⟩ := Program.runs_call_iff.mp h
  cases reply with
  | error err => simp [Program.bind] at hrest
  | ok serial =>
    have hif : Program.Runs (if cfg.commonName.length = 0 then
        Program.done (.error (errorf "must specify a CommonName"))
      else PKICall.createCertificate pki (certTmpl pki cfg caCert isCA validity serial) caCert key
        caKey) rest (.ok cert) := hrest
    by_cases hname : cfg.commonName.length = 0
    · simp [hname] at hif
    · rw [if_neg hname] at hif
      obtain ⟨reply, last, rfl, hlast⟩ := Program.runs_call_iff.mp hif
      obtain ⟨rfl, rfl⟩ := Program.runs_done_iff.mp hlast
      refine ⟨fun hempty ↦ hname (by simp [hempty]), serial, ?_⟩
      simp

theorem signingPair_of_runs {certBestBefore : Time} {key : pki.PrivateKey}
    {cert : std.Certificate}
    (h : Program.Runs (cp.signingPair pki certBestBefore) calls (.ok (key, cert))) :
    cp.validCACert pki certBestBefore = some (key, cert) ∨
      (cp.validCACert pki certBestBefore = none ∧
        ⟨.newSelfSignedCACert "webhook-cert-ca" key, (.ok cert : Except Err std.Certificate)⟩ ∈
          calls) := by
  unfold SelfSignedCertGenerator.signingPair at h
  cases hvalid : cp.validCACert pki certBestBefore with
  | some pair =>
    rw [hvalid] at h
    obtain ⟨-, hpair⟩ := Program.runs_done_iff.mp h
    cases hpair
    exact .inl rfl
  | none =>
    rw [hvalid] at h
    obtain ⟨reply, rest, rfl, hrest⟩ := Program.runs_call_iff.mp h
    cases reply with
    | error err => simp [Program.bind] at hrest
    | ok signer =>
      cases hrsa : pki.isRSA signer with
      | false => simp [Program.bind, hrsa] at hrest
      | true =>
        simp only [Program.bind, hrsa] at hrest
        obtain ⟨reply, last, rfl, hlast⟩ := Program.runs_call_iff.mp hrest
        cases reply with
        | error err => simp [Program.bind] at hlast
        | ok signingCert =>
          obtain ⟨rfl, hpair⟩ := Program.runs_done_iff.mp hlast
          cases hpair
          exact .inr ⟨rfl, by simp⟩

theorem signWith_of_runs {commonName : String} {certBestBefore : Time}
    {signingKey : pki.PrivateKey} {signingCert : std.Certificate} {certs : Artifacts}
    (h : Program.Runs (SelfSignedCertGenerator.signWith pki commonName certBestBefore signingKey
      signingCert) calls (.ok certs)) :
    commonName ≠ "" ∧ ∃ key cert serial,
      certs = SelfSignedCertGenerator.artifacts pki key cert signingKey signingCert ∧
      ⟨.createCertificate (certTmpl pki
          { commonName := commonName, dnsNames := [commonName], usages := [.serverAuth] }
          signingCert false certBestBefore serial) signingCert key signingKey,
        (.ok cert : Except Err std.Certificate)⟩ ∈ calls := by
  obtain ⟨reply, rest, rfl, hrest⟩ := Program.runs_call_iff.mp h
  cases reply with
  | error err => simp [Program.bind] at hrest
  | ok key =>
    cases hrsa : pki.isRSA key with
    | false => simp [Program.bind, hrsa] at hrest
    | true =>
      simp only [Program.bind, hrsa] at hrest
      obtain ⟨signing, outcome, last, rfl, hsigning, hlast⟩ := Program.runs_bind_iff.mp hrest
      cases outcome with
      | error err => simp at hlast
      | ok cert =>
        obtain ⟨rfl, hcerts⟩ := Program.runs_done_iff.mp hlast
        cases hcerts
        obtain ⟨hname, serial, hcall⟩ := createCertificate_of_runs hsigning
        exact ⟨hname, key, cert, serial, rfl, by simp [hcall]⟩

/-- A successful `Generate` signs a certificate for the name with a CA that it has found or
created. -/
theorem generate_of_runs {commonName : String} {certs : Artifacts}
    (h : Program.Runs (cp.generate pki commonName) calls (.ok certs, cp')) :
    commonName ≠ "" ∧ ∃ now signingKey signingCert key cert serial,
      ⟨.now, now⟩ ∈ calls ∧
      (cp.withDefault.validCACert pki (now + cp.withDefault.validity) =
          some (signingKey, signingCert) ∨
        (cp.withDefault.validCACert pki (now + cp.withDefault.validity) = none ∧
          ⟨.newSelfSignedCACert "webhook-cert-ca" signingKey,
            (.ok signingCert : Except Err std.Certificate)⟩ ∈ calls)) ∧
      certs = SelfSignedCertGenerator.artifacts pki key cert signingKey signingCert ∧
      ⟨.createCertificate (certTmpl pki
          { commonName := commonName, dnsNames := [commonName], usages := [.serverAuth] }
          signingCert false (now + cp.withDefault.validity) serial) signingCert key signingKey,
        (.ok cert : Except Err std.Certificate)⟩ ∈ calls := by
  obtain ⟨clock, now, rest, rfl, hclock, hrest⟩ := Program.runs_bind_iff.mp h
  have hnow : ⟨.now, now⟩ ∈ clock := by
    obtain ⟨reply, none, rfl, hdone⟩ := Program.runs_call_iff.mp hclock
    obtain ⟨rfl, rfl⟩ := Program.runs_done_iff.mp hdone
    exact List.mem_singleton_self _
  obtain ⟨first, outcome, last, rfl, hpair, hlast⟩ := Program.runs_bind_iff.mp hrest
  cases outcome with
  | error err => simp at hlast
  | ok pair =>
    obtain ⟨signing, outcome, done, rfl, hsign, hdone⟩ := Program.runs_bind_iff.mp hlast
    obtain ⟨rfl, hout⟩ := Program.runs_done_iff.mp hdone
    obtain ⟨rfl, -⟩ := Prod.mk.inj hout
    obtain ⟨hname, key, cert, serial, hcerts, hcreate⟩ := signWith_of_runs hsign
    refine ⟨hname, now, pair.1, pair.2, key, cert, serial, by simp [hnow], ?_, hcerts, ?_⟩
    · exact (signingPair_of_runs hpair).imp_right fun ⟨hnone, hnew⟩ ↦ ⟨hnone, by simp [hnew]⟩
    · simp [hcreate]

end Runs

end OperatorToolkit.Cert
