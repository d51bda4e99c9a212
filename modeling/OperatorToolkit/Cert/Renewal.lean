import OperatorToolkit.Cert.Generator
import OperatorToolkit.Cert.Reliable

/-!
# Generated certificates and their check

The generator and `validCert` were written apart. The generator puts the server name into the
certificate as a DNS name and lets the certificate expire after the configured time. `validCert`
looks for an IP address among the IP addresses of the certificate, and wants the certificate to be
good in six months. A certificate that fails the check right after it was generated is generated
anew at every refresh.
-/

namespace OperatorToolkit.Cert

open Interaction

variable {Rest Err : Type} {std : Stdlib Err} {pki : PKILib std}

/-! ## What is assumed of the libraries -/

/-- Certificates have times in whole seconds. -/
def wholeSeconds (t : Time) : Time := t / second * second

theorem wholeSeconds_bounds (t : Time) : wholeSeconds t ≤ t ∧ t < wholeSeconds t + second := by
  constructor
  · exact Int.ediv_mul_le t (by decide)
  · have h := Int.lt_ediv_add_one_mul_self t (b := second) (by decide)
    rwa [Int.add_mul, Int.one_mul] at h

theorem le_wholeSeconds_tenYears {t later : Time} (h : later ≤ t + 185 * 24 * 3600 * second) :
    later ≤ wholeSeconds (t + 10 * oneYear) := by
  have hdays : ∀ later t whole : Int, later ≤ t + 15984000000000000 →
      t + 315360000000000000 < whole + 1000000000 → later ≤ whole := by omega
  exact hdays later t _ h (wholeSeconds_bounds (t + 10 * oneYear)).2

/-- What certificates say, who has signed them, and how names are compared with them. -/
structure X509 (pki : PKILib std) where
  notAfter : std.Certificate → Time
  dnsNames : std.Certificate → List String
  ipAddresses : std.Certificate → List pki.IP
  roots : std.CertPool → List std.Certificate
  SignedBy : std.Certificate → std.Certificate → Prop
  Certifies : std.Certificate → pki.PrivateKey → Prop
  /-- The address, if the name is an IP literal. -/
  parseIP : String → Option pki.IP
  matchesHostname : String → String → Bool

namespace X509

variable (x : X509 pki)

def ValidAt (cert : std.Certificate) (time : Time) : Prop :=
  pki.notBefore cert ≤ time ∧ time ≤ x.notAfter cert

/-- An IP literal has to be one of the addresses, another name has to match one of the DNS names. -/
def MatchesName (cert : std.Certificate) (name : String) : Prop :=
  name = "" ∨ match x.parseIP name with
    | some ip => ip ∈ x.ipAddresses cert
    | none => ∃ dnsName ∈ x.dnsNames cert, x.matchesHostname dnsName name

/-- Certificates are verified against roots in the pool, and what the PEM functions write they also
read. -/
structure Laws : Prop where
  verify_iff {cert name pool time} : std.verify cert name pool time ↔ ∃ root ∈ x.roots pool,
    (cert = root ∨ x.SignedBy cert root) ∧ x.ValidAt cert time ∧ x.ValidAt root time ∧
      x.MatchesName cert name
  roots_encode (cert) : (std.appendCertsFromPEM (pki.encodeCertPEM cert)).map x.roots = some [cert]
  parse_encode (cert) :
    (std.decode (pki.encodeCertPEM cert)).bind std.parseCertificate = some cert
  keyPair_encode_iff (cert key) :
    std.x509KeyPair (pki.encodeCertPEM cert) (pki.encodePrivateKeyPEM key) ↔ x.Certifies cert key
  roots_of_parseCerts {pem cert pool} : pki.parseCertsPEM pem = some [cert] →
    std.appendCertsFromPEM pem = some pool → x.roots pool = [cert]
  certifies_of_keyPair {certPEM keyPEM cert key} : std.x509KeyPair certPEM keyPEM →
    pki.parseCertsPEM certPEM = some [cert] → pki.parsePrivateKeyPEM keyPEM = some key →
    x.Certifies cert key
  /-- Six months have at most 184 days, and an hour more if the clocks are changed. -/
  addDate_bounds (t) : t ≤ std.addDate t 0 6 0 ∧ std.addDate t 0 6 0 ≤ t + 185 * 24 * 3600 * second

/-- How the calls of a generator are answered at a given time, unless they fail. A new CA is good
for ten years. A new certificate says what its template says. -/
def Answers (t : Time) : (request : PKIRequest pki) → (pkiCalls pki).Reply request → Prop
  | .now, time => time = t
  | .newSelfSignedCACert _ key, .ok ca =>
    pki.notBefore ca = wholeSeconds t ∧ x.notAfter ca = wholeSeconds (t + 10 * oneYear) ∧
      x.Certifies ca key
  | .createCertificate template parent key caKey, .ok cert =>
    pki.notBefore cert = wholeSeconds template.notBefore ∧
      x.notAfter cert = wholeSeconds template.notAfter ∧
      x.dnsNames cert = template.dnsNames ∧ x.ipAddresses cert = template.ipAddresses ∧
      x.Certifies cert key ∧ (x.Certifies parent caKey → x.SignedBy cert parent)
  | .newSelfSignedCACert _ _, .error _ | .createCertificate _ _ _ _, .error _ => True
  | .newPrivateKey, _ | .newSerial, _ => True

/-- The name is not an IP literal and matches itself, the certificate is good for six months, and
so is the CA if it is one that was set before. -/
structure StaysValid (cp : SelfSignedCertGenerator) (t : Time) (commonName : String) : Prop where
  parseIP_eq : x.parseIP commonName = none
  matches_self : x.matchesHostname commonName commonName
  expires_later : std.addDate t 0 6 0 ≤ wholeSeconds (t + cp.withDefault.validity)
  reused_before : ∀ key ca,
    cp.withDefault.validCACert pki (t + cp.withDefault.validity) = some (key, ca) →
    pki.notBefore ca ≤ std.addDate t 0 6 0

/-! ## The check -/

variable {x}

/-- A CA that is used again fits its key, and is good at the time for which it was checked. -/
theorem Laws.reused (hlaws : x.Laws) {cp : SelfSignedCertGenerator} {time : Time}
    {key : pki.PrivateKey} {ca : std.Certificate} (h : cp.validCACert pki time = some (key, ca)) :
    x.Certifies ca key ∧ x.ValidAt ca time := by
  obtain ⟨hvalid, hkey, hcerts⟩ := eq_some_of_validCACert h
  obtain ⟨hpair, pool, block, c, hpool, hblock, hparse, hverify⟩ := verify_of_validCACert hvalid
  obtain ⟨root, hroot, -, -, hvalidAt, -⟩ := hlaws.verify_iff.mp hverify
  rw [hlaws.roots_of_parseCerts hcerts hpool, List.mem_singleton] at hroot
  exact ⟨hlaws.certifies_of_keyPair hpair hcerts hkey, hroot ▸ hvalidAt⟩

/-- The check of the artifacts, in terms of the certificates. -/
theorem Laws.validCert_iff (hlaws : x.Laws) {key caKey : pki.PrivateKey}
    {cert ca : std.Certificate} {name : String} {now : Time} :
    validCert std (some (SelfSignedCertGenerator.artifacts pki key cert caKey ca)) name now ↔
      x.Certifies cert key ∧ (cert = ca ∨ x.SignedBy cert ca) ∧
        x.ValidAt cert (std.addDate now 0 6 0) ∧ x.ValidAt ca (std.addDate now 0 6 0) ∧
        x.MatchesName cert name := by
  obtain ⟨pool, hpool, hroots⟩ := Option.map_eq_some_iff.mp (hlaws.roots_encode ca)
  obtain ⟨block, hblock, hparse⟩ := Option.bind_eq_some_iff.mp (hlaws.parse_encode cert)
  have hverify : std.verify cert name pool (std.addDate now 0 6 0) ↔
      (cert = ca ∨ x.SignedBy cert ca) ∧ x.ValidAt cert (std.addDate now 0 6 0) ∧
        x.ValidAt ca (std.addDate now 0 6 0) ∧ x.MatchesName cert name := by
    rw [hlaws.verify_iff, hroots]
    simp
  rw [← hlaws.keyPair_encode_iff, ← hverify]
  simp only [validCert, SelfSignedCertGenerator.artifacts, hpool, hblock, hparse]
  cases std.x509KeyPair (pki.encodeCertPEM cert) (pki.encodePrivateKeyPEM key) <;> simp

variable (x) in
/-- The certificate and the CA that a generator comes up with. -/
structure Issued (cp : SelfSignedCertGenerator) (t : Time) (name : String) (key : pki.PrivateKey)
    (cert : std.Certificate) (caKey : pki.PrivateKey) (ca : std.Certificate) : Prop where
  certifies : x.Certifies cert key
  signedBy : x.SignedBy cert ca
  notBefore_eq : pki.notBefore cert = wholeSeconds (pki.notBefore ca)
  notAfter_eq : x.notAfter cert = wholeSeconds (t + cp.withDefault.validity)
  dnsNames_eq : x.dnsNames cert = [name]
  ipAddresses_eq : x.ipAddresses cert = []
  ca_eq : (cp.withDefault.validCACert pki (t + cp.withDefault.validity) = some (caKey, ca) ∧
      t + cp.withDefault.validity ≤ x.notAfter ca) ∨
    (cp.withDefault.validCACert pki (t + cp.withDefault.validity) = none ∧
      pki.notBefore ca = wholeSeconds t ∧ x.notAfter ca = wholeSeconds (t + 10 * oneYear))

/-- The certificate passes the check if the name and the times do. -/
theorem Issued.validCert_iff (hlaws : x.Laws) {cp : SelfSignedCertGenerator} {t : Time}
    {name : String} {key caKey : pki.PrivateKey} {cert ca : std.Certificate} (hname : name ≠ "")
    (h : x.Issued cp t name key cert caKey ca) :
    validCert std (some (SelfSignedCertGenerator.artifacts pki key cert caKey ca)) name t ↔
      x.StaysValid cp t name := by
  obtain ⟨hsix, hdays⟩ := hlaws.addDate_bounds t
  have hmatches : x.MatchesName cert name ↔
      x.parseIP name = none ∧ x.matchesHostname name name := by
    rw [MatchesName, h.dnsNames_eq, h.ipAddresses_eq, or_iff_right hname]
    cases x.parseIP name <;> simp
  rw [hlaws.validCert_iff, hmatches]
  constructor
  · rintro ⟨-, -, ⟨-, hexpires⟩, ⟨hbefore, -⟩, hip, hself⟩
    refine ⟨hip, hself, h.notAfter_eq ▸ hexpires, fun key' ca' hreused ↦ ?_⟩
    rcases h.ca_eq with ⟨hca, -⟩ | ⟨hnone, -⟩
    · obtain ⟨-, rfl⟩ := Prod.mk.inj (Option.some_inj.mp (hca.symm.trans hreused))
      exact hbefore
    · rw [hnone] at hreused
      cases hreused
  · rintro ⟨hip, hself, hexpires, hreused⟩
    have hca : x.ValidAt ca (std.addDate t 0 6 0) := by
      rcases h.ca_eq with ⟨hca, hafter⟩ | ⟨-, hbefore, hafter⟩
      · constructor
        · exact hreused caKey ca hca
        · calc
            std.addDate t 0 6 0 ≤ wholeSeconds (t + cp.withDefault.validity) := hexpires
            _ ≤ t + cp.withDefault.validity := (wholeSeconds_bounds _).1
            _ ≤ x.notAfter ca := hafter
      · rw [ValidAt, hbefore, hafter]
        exact ⟨Int.le_trans (wholeSeconds_bounds t).1 hsix, le_wholeSeconds_tenYears hdays⟩
    refine ⟨h.certifies, .inr h.signedBy, ⟨?_, ?_⟩, hca, hip, hself⟩
    · rw [h.notBefore_eq]
      exact Int.le_trans (wholeSeconds_bounds _).1 hca.1
    · rw [h.notAfter_eq]
      exact hexpires

/-! ## The generator -/

variable [StatusErrors Err]

variable (x) in
/-- At the given time the generator can return these artifacts. -/
def Generates (cp : SelfSignedCertGenerator) (t : Time) (commonName : String) (certs : Artifacts)
    (cp' : SelfSignedCertGenerator) : Prop :=
  ∃ calls, Program.Runs (cp.generate pki commonName) calls (.ok certs, cp') ∧
    ∀ call ∈ calls, x.Answers t call.1 call.2

theorem Generates.issued (hlaws : x.Laws) {cp cp' : SelfSignedCertGenerator} {t : Time}
    {name : String} {certs : Artifacts} (h : x.Generates cp t name certs cp') :
    name ≠ "" ∧ ∃ key cert caKey ca, x.Issued cp t name key cert caKey ca ∧
      certs = SelfSignedCertGenerator.artifacts pki key cert caKey ca := by
  obtain ⟨calls, hruns, hcalls⟩ := h
  obtain ⟨hname, now, caKey, ca, key, cert, serial, hnow, hca, hcerts, hcreate⟩ :=
    generate_of_runs hruns
  obtain rfl : now = t := hcalls _ hnow
  obtain ⟨hbefore, hafter, hdnsNames, hips, hcertifies, hsigned⟩ := hcalls _ hcreate
  have hcertifiesCA : x.Certifies ca caKey := by
    rcases hca with hreused | ⟨-, hnew⟩
    · exact (hlaws.reused hreused).1
    · exact (hcalls _ hnew).2.2
  refine ⟨hname, key, cert, caKey, ca, ?_, hcerts⟩
  constructor
  · exact hcertifies
  · exact hsigned hcertifiesCA
  · exact hbefore
  · exact hafter
  · rw [hdnsNames, certTmpl_dnsNames]
  · exact hips
  · rcases hca with hreused | ⟨hnone, hnew⟩
    · exact .inl ⟨hreused, (hlaws.reused hreused).2.2⟩
    · exact .inr ⟨hnone, (hcalls _ hnew).1, (hcalls _ hnew).2.1⟩

end X509

/-! ## Certificates in a Secret -/

section EnsureCert

variable [StatusErrors Err] {w : SecretCertWriter} {name : String} {s s' : World Rest}

/-- `EnsureCert` leaves alone what it would have found valid. -/
theorem ensureCert_again_iff {certs certs' : Artifacts} {changed : Bool}
    (hstored : s.storedCerts w.secret = some certs)
    (h : Yields (reliable Rest Err) s (w.ensureCert std name) (.ok certs', changed) s') :
    changed = false ∧ s' = s ↔ validCert std (some certs) name s.now := by
  rw [← hstored]
  rcases ensureCert_spec h with ⟨hvalid, -, rfl, rfl⟩ | ⟨hinvalid, rfl, -, -⟩
  · simp [hvalid]
  · simp [hinvalid]

/-- After a successful `EnsureCert` the Secret holds the certificates that it returned. -/
theorem storedCerts_of_ensureCert {certs : Artifacts} {changed : Bool}
    (h : Yields (reliable Rest Err) s (w.ensureCert std name) (.ok certs, changed) s') :
    s'.storedCerts w.secret = some certs := by
  rcases ensureCert_spec h with ⟨-, hstored, -, rfl⟩ | ⟨-, -, -, hstored⟩
  · exact hstored
  · exact hstored

/-- The artifacts of a generator pass the check at the time they are generated, and `EnsureCert`
leaves them alone if it is called again, if and only if the name is not an IP literal, and the
certificate and a CA that is used again are good in six months. -/
theorem generate_validCert_iff {x : X509 pki} (hlaws : x.Laws) {cp cp' : SelfSignedCertGenerator}
    {t : Time} {certs : Artifacts} (hgenerates : x.Generates cp t name certs cp') :
    (validCert std (some certs) name t ↔ x.StaysValid cp t name) ∧
    ∀ (w : SecretCertWriter) (s₀ s₁ s₂ : World Rest) (changed changed' : Bool) (certs' : Artifacts),
      Yields (reliable Rest Err) s₀ (w.ensureCert std name) (.ok certs, changed) s₁ → s₁.now = t →
      Yields (reliable Rest Err) s₁ (w.ensureCert std name) (.ok certs', changed') s₂ →
      (changed' = false ∧ s₂ = s₁ ↔ x.StaysValid cp t name) := by
  obtain ⟨hname, key, cert, caKey, ca, hissued, rfl⟩ := hgenerates.issued hlaws
  have hvalid := hissued.validCert_iff hlaws hname
  refine ⟨hvalid, ?_⟩
  intro w s₀ s₁ s₂ changed changed' certs' hfirst htime hsecond
  rw [← hvalid, ← htime]
  exact ensureCert_again_iff (storedCerts_of_ensureCert hfirst) hsecond

end EnsureCert

/-! ## Three certificates -/

def day : Time := 24 * 3600 * second

/-- Two bytes with a number of days. -/
def daysAt (cert : Bytes) (i : Nat) : Time :=
  ((cert[i]?.getD 0).toNat + 256 * (cert[i + 1]?.getD 0).toNat) * day

/-- Certificates are the first and the last day, the key, the signer's key and the name. -/
def certBytes (first last : Time) (key signer : UInt8) (names : List String) : Bytes :=
  [UInt8.ofNat (first / day).toNat, UInt8.ofNat (first / day / 256).toNat,
    UInt8.ofNat (last / day).toNat, UInt8.ofNat (last / day / 256).toNat, key, signer] ++
    (String.join names).toList.map fun c ↦ UInt8.ofNat c.toNat

def keyAt (cert : Bytes) : Option UInt8 := cert[4]?

def signerAt (cert : Bytes) : Option UInt8 := cert[5]?

def nameAt (cert : Bytes) : String := String.ofList ((cert.drop 6).map fun b ↦ Char.ofNat b.toNat)

def keyPairDays (cert key : Bytes) : Bool := (keyAt cert).isSome && (keyAt cert).toList == key

def verifyDays (cert : Bytes) (name : String) (root : Bytes) (time : Time) : Bool :=
  decide ((cert = root ∨ signerAt cert = keyAt root) ∧
    (daysAt cert 0 ≤ time ∧ time ≤ daysAt cert 2) ∧ (daysAt root 0 ≤ time ∧ time ≤ daysAt root 2) ∧
    (name = "" ∨ name ≠ "10.0.0.1" ∧ nameAt cert = name))

def dayStdlib : Stdlib GoError where
  Certificate := Bytes
  CertPool := Bytes
  x509KeyPair := keyPairDays
  appendCertsFromPEM pem := some pem
  decode pem := some pem
  parseCertificate block := some block
  verify := verifyDays
  addDate now years months days := now + (365 * years + 30 * months + days) * day
  joinHostPort host port := host ++ ":" ++ port
  urlString scheme host := scheme ++ "://" ++ host
  parseURLHost url := .ok url
  splitHostPort _ := .error ⟨["missing port in address"]⟩
  tempDir := "/tmp"
  defaultPort := 9443
  formatClientConfig _ := "&WebhookClientConfig"

def dayPKI : PKILib dayStdlib where
  PrivateKey := UInt8
  IP := Unit
  isRSA _ := true
  ipString _ := "10.0.0.1"
  notBefore cert := daysAt cert 0
  parsePrivateKeyPEM pem := pem.head?
  parseCertsPEM pem := some [pem]
  encodePrivateKeyPEM key := [key]
  encodeCertPEM cert := cert

def dayX509 : X509 dayPKI where
  notAfter cert := daysAt cert 2
  dnsNames cert := [nameAt cert]
  ipAddresses _ := []
  roots root := [root]
  SignedBy cert root := signerAt cert = keyAt root
  Certifies cert key := keyAt cert = some key
  parseIP name := if name = "10.0.0.1" then some () else none
  matchesHostname dnsName name := dnsName == name

theorem keyPairDays_iff {cert keyPEM : Bytes} :
    keyPairDays cert keyPEM ↔ ∃ key, keyAt cert = some key ∧ keyPEM = [key] := by
  rw [keyPairDays]
  cases keyAt cert with
  | none => simp
  | some key =>
    simp only [Option.isSome_some, Bool.true_and, Option.toList_some, beq_iff_eq,
      Option.some.injEq]
    constructor
    · rintro rfl
      exact ⟨key, rfl, rfl⟩
    · rintro ⟨_, rfl, rfl⟩
      rfl

theorem verifyDays_iff {cert root : Bytes} {name : String} {time : Time} :
    verifyDays cert name root time ↔ (cert = root ∨ signerAt cert = keyAt root) ∧
      (daysAt cert 0 ≤ time ∧ time ≤ daysAt cert 2) ∧
      (daysAt root 0 ≤ time ∧ time ≤ daysAt root 2) ∧
      (name = "" ∨ name ≠ "10.0.0.1" ∧ nameAt cert = name) :=
  decide_eq_true_iff

theorem matchesName_dayX509 {cert : Bytes} {name : String} :
    dayX509.MatchesName cert name ↔ name = "" ∨ name ≠ "10.0.0.1" ∧ nameAt cert = name := by
  by_cases hip : name = "10.0.0.1"
  · simp only [X509.MatchesName, dayX509, hip]
    simp
    exact List.not_mem_nil
  · simp [X509.MatchesName, dayX509, hip]

theorem laws_dayX509 : dayX509.Laws where
  verify_iff {cert name root time} := by
    constructor
    · intro h
      obtain ⟨hsigned, hcert, hroot, hname⟩ := verifyDays_iff.mp h
      exact ⟨root, List.mem_singleton_self root, hsigned, hcert, hroot,
        matchesName_dayX509.mpr hname⟩
    · rintro ⟨other, hother, hsigned, hcert, hroot, hname⟩
      obtain rfl : other = root := List.mem_singleton.mp hother
      exact verifyDays_iff.mpr ⟨hsigned, hcert, hroot, matchesName_dayX509.mp hname⟩
  roots_encode _ := rfl
  parse_encode _ := rfl
  keyPair_encode_iff cert key := by
    refine keyPairDays_iff.trans ⟨?_, fun h ↦ ⟨key, h, rfl⟩⟩
    rintro ⟨owner, howner, hkey⟩
    cases hkey
    exact howner
  roots_of_parseCerts hcert hpool := by
    cases hcert
    cases hpool
    rfl
  certifies_of_keyPair hpair hcert hkey := by
    cases hcert
    obtain ⟨owner, howner, rfl⟩ := keyPairDays_iff.mp hpair
    cases hkey
    exact howner
  addDate_bounds t := by
    have hsix : dayStdlib.addDate t 0 6 0 = t + 180 * day := rfl
    have hbounds : ∀ t : Int, t ≤ t + 15552000000000000 ∧
        t + 15552000000000000 ≤ t + 15984000000000000 := by omega
    rw [hsix]
    exact hbounds t

/-- The answers at time zero, and the number of the next key. -/
def answerDays (next : Nat) :
    (request : PKIRequest dayPKI) → (pkiCalls dayPKI).Reply request × Nat
  | .now => ((0 : Time), next)
  | .newPrivateKey => ((.ok (UInt8.ofNat next) : Except GoError UInt8), next + 1)
  | .newSelfSignedCACert _ key =>
    ((.ok (certBytes 0 (10 * oneYear) key key []) : Except GoError Bytes), next)
  | .newSerial => ((.ok 1 : Except GoError Int), next)
  | .createCertificate template _ key caKey =>
    ((.ok (certBytes template.notBefore template.notAfter key caKey template.dnsNames) :
      Except GoError Bytes), next)

/-- The artifacts for a name, with a CA of ten years and the configured validity. -/
def dayRun (validity : Time) (name : String) :
    List (pkiCalls dayPKI).Call × (Except GoError Artifacts × SelfSignedCertGenerator) × Nat :=
  (SelfSignedCertGenerator.generate dayPKI { validity := validity } name).interpret answerDays 1

def isTime (t time : Time) : Bool := decide (time = t)

def isNewCA (t : Time) (key : UInt8) (ca : Bytes) : Bool :=
  decide (daysAt ca 0 = wholeSeconds t ∧ daysAt ca 2 = wholeSeconds (t + 10 * oneYear) ∧
    keyAt ca = some key)

def fitsTemplate (template : CertTemplate Unit) (parent : Bytes) (key caKey : UInt8)
    (cert : Bytes) : Bool :=
  decide (daysAt cert 0 = wholeSeconds template.notBefore ∧
    daysAt cert 2 = wholeSeconds template.notAfter ∧ [nameAt cert] = template.dnsNames ∧
    [] = template.ipAddresses ∧ keyAt cert = some key ∧
    (keyAt parent = some caKey → signerAt cert = keyAt parent))

theorem of_isNewCA {t : Time} {key : UInt8} {ca : Bytes} (h : isNewCA t key ca) :
    daysAt ca 0 = wholeSeconds t ∧ daysAt ca 2 = wholeSeconds (t + 10 * oneYear) ∧
      keyAt ca = some key :=
  of_decide_eq_true h

theorem of_fitsTemplate {template : CertTemplate Unit} {parent cert : Bytes} {key caKey : UInt8}
    (h : fitsTemplate template parent key caKey cert) :
    daysAt cert 0 = wholeSeconds template.notBefore ∧
      daysAt cert 2 = wholeSeconds template.notAfter ∧ [nameAt cert] = template.dnsNames ∧
      [] = template.ipAddresses ∧ keyAt cert = some key ∧
      (keyAt parent = some caKey → signerAt cert = keyAt parent) :=
  of_decide_eq_true h

/-- Checks an answer. -/
def isAnswer (t : Time) : (request : PKIRequest dayPKI) → (pkiCalls dayPKI).Reply request → Bool
  | .now, time => isTime t time
  | .newSelfSignedCACert _ key, .ok ca => isNewCA t key ca
  | .createCertificate template parent key caKey, .ok cert =>
    fitsTemplate template parent key caKey cert
  | .newSelfSignedCACert _ _, .error _ | .createCertificate _ _ _ _, .error _ => true
  | .newPrivateKey, _ | .newSerial, _ => true

theorem answers_of_isAnswer {t : Time} {request : PKIRequest dayPKI}
    {reply : (pkiCalls dayPKI).Reply request} (h : isAnswer t request reply) :
    dayX509.Answers t request reply := by
  have htime : ∀ time : Time, isTime t time → time = t := fun _ ↦ of_decide_eq_true
  cases request with
  | now => exact htime reply h
  | newPrivateKey | newSerial => trivial
  | newSelfSignedCACert commonName key =>
    cases reply with
    | error err => trivial
    | ok ca => exact of_isNewCA h
  | createCertificate template parent key caKey =>
    cases reply with
    | error err => trivial
    | ok cert => exact of_fitsTemplate h

theorem generates_dayRun {validity : Time} {name : String} {certs : Artifacts}
    (hcerts : (dayRun validity name).2.1 = (.ok certs, { validity := validity }))
    (hcalls : (dayRun validity name).1.all fun call ↦ isAnswer 0 call.1 call.2) :
    dayX509.Generates { validity := validity } 0 name certs { validity := validity } := by
  refine ⟨(dayRun validity name).1, ?_, fun call hcall ↦ ?_⟩
  · rw [← hcerts]
    exact Program.runs_interpret _ _
  · exact answers_of_isAnswer (List.all_eq_true.mp hcalls call hcall)

def dayCerts (validity : Time) (name : String) : Artifacts where
  key := [2]
  cert := certBytes 0 validity 2 1 [name]
  caKey := [1]
  caCert := certBytes 0 (10 * oneYear) 1 1 []

def dayWriter : SecretCertWriter := ⟨⟨"default", "webhook-secret"⟩⟩

/-- No Secret, at time zero. -/
def dayWorld : World Unit where
  now := 0
  secrets _ := none
  webhooks _ _ := none
  crds _ := none
  files _ _ := none

/-- `EnsureCert` in a world where the generator comes up with the artifacts. -/
def ensureDays (certs : Artifacts) (name : String) (s : World Unit) :
    List (certCalls Unit GoError).Call × (Except (CertError GoError) Artifacts × Bool) ×
      World Unit :=
  (dayWriter.ensureCert dayStdlib name).interpret (fun s ↦ s.answer GoError certs) s

theorem yields_ensureDays (certs : Artifacts) (name : String) (s : World Unit) (changed : Bool)
    (h : (ensureDays certs name s).2.1 = (.ok certs, changed)) :
    Yields (reliable Unit GoError) s (dayWriter.ensureCert dayStdlib name) (.ok certs, changed)
      (ensureDays certs name s).2.2 := by
  have hanswer : ∀ (s : World Unit) (request : CertRequest Unit),
      (reliable Unit GoError).Handles s request (s.answer GoError certs request).1
        (s.answer GoError certs request).2 := fun _ _ ↦ ⟨certs, rfl⟩
  rw [← h]
  exact yields_of_served (Program.runs_interpret _ _) (Program.served_interpret hanswer _ _)
    fun _ _ _ _ hhandles ↦ hhandles

/-- A certificate of a year is left alone. -/
theorem generate_validCert_iff_year :
    dayX509.Generates { validity := oneYear } 0 "a.svc" (dayCerts oneYear "a.svc")
      { validity := oneYear } ∧
    validCert dayStdlib (some (dayCerts oneYear "a.svc")) "a.svc" 0 ∧
    ∃ s₁ s₂, Yields (reliable Unit GoError) dayWorld (dayWriter.ensureCert dayStdlib "a.svc")
        (.ok (dayCerts oneYear "a.svc"), true) s₁ ∧
      Yields (reliable Unit GoError) s₁ (dayWriter.ensureCert dayStdlib "a.svc")
        (.ok (dayCerts oneYear "a.svc"), false) s₂ ∧ s₂ = s₁ := by
  have hgenerates : dayX509.Generates { validity := oneYear } 0 "a.svc" (dayCerts oneYear "a.svc")
      { validity := oneYear } := generates_dayRun (by decide +kernel) (by decide +kernel)
  have hstays : dayX509.StaysValid { validity := oneYear } 0 "a.svc" :=
    { parseIP_eq := rfl
      matches_self := rfl
      expires_later := by decide +kernel
      reused_before := by
        intro key ca h
        cases h }
  obtain ⟨hvalid, hagain⟩ := @generate_validCert_iff Unit GoError dayStdlib dayPKI _ "a.svc"
    dayX509 laws_dayX509 _ _ 0 _ hgenerates
  have hfirst := yields_ensureDays (dayCerts oneYear "a.svc") "a.svc" dayWorld true
    (by decide +kernel)
  have hsecond := yields_ensureDays (dayCerts oneYear "a.svc") "a.svc"
    (ensureDays (dayCerts oneYear "a.svc") "a.svc" dayWorld).2.2 false (by decide +kernel)
  have hsame := (hagain dayWriter _ _ _ _ _ _ hfirst rfl hsecond).mpr hstays
  exact ⟨hgenerates, hvalid.mpr hstays, _, _, hfirst, hsecond, hsame.2⟩

/-- The generated certificate does not pass the check, and a second `EnsureCert` replaces it. -/
def ReplacedAtOnce (validity : Time) (name : String) : Prop :=
  dayX509.Generates { validity := validity } 0 name (dayCerts validity name)
    { validity := validity } ∧
  ¬validCert dayStdlib (some (dayCerts validity name)) name 0 ∧
  ∃ s₁ s₂, Yields (reliable Unit GoError) dayWorld (dayWriter.ensureCert dayStdlib name)
      (.ok (dayCerts validity name), true) s₁ ∧
    Yields (reliable Unit GoError) s₁ (dayWriter.ensureCert dayStdlib name)
      (.ok (dayCerts validity name), true) s₂

/-- A certificate for an IP literal, and one of a single day. -/
theorem generated_certs_replaced :
    ReplacedAtOnce oneYear "10.0.0.1" ∧ ReplacedAtOnce day "a.svc" := by
  constructor
  all_goals
    refine ⟨?_, by decide +kernel, _, _, yields_ensureDays _ _ dayWorld true ?_,
      yields_ensureDays _ _ _ true ?_⟩
    · exact generates_dayRun (by decide +kernel) (by decide +kernel)
    · decide +kernel
    · decide +kernel

end OperatorToolkit.Cert
