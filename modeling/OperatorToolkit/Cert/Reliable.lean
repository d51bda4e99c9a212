import OperatorToolkit.Cert.World

/-!
# The managers in a reliable world

What the functions of the certificate packages do while no call fails: one rule for each call, then
one statement for each function, up to what a successful `refreshCert` has changed. The state
before a call decides everything but the new certificates.
-/

namespace OperatorToolkit.Cert

open Interaction Object

variable {Rest Err α : Type} [StatusErrors Err] {s s' : World Rest}

/-! ## What a manager finds -/

/-- The certificates that the Secret holds, if it exists and has data. -/
def World.storedCerts (s : World Rest) (n : NamespacedName) : Option Artifacts :=
  (s.secrets n).bind secretToCerts

/-- A CRD whose conversion webhook is configured, with its client config. -/
def World.configuredCrd (s : World Rest) (n : NamespacedName) :
    Option (CustomResourceDefinition Rest × ClientConfig Rest) := do
  let crd ← s.crds n
  return (crd, ← crd.clientConfig)

namespace Manager

variable (m : Manager)

def filesExist (s : World Rest) : Bool :=
  (s.files m.options.certDir m.options.certName).isSome &&
    (s.files m.options.certDir m.options.keyName).isSome

/-- The webhook configurations and CRDs as `refreshCert` finds them, with their common CA bundle. -/
def fetched (s : World Rest) : Fetched Rest :=
  let mutating := m.options.mutatingWebhookConfigRefs.filterMap (s.webhooks .mutating)
  let validating := m.options.validatingWebhookConfigRefs.filterMap (s.webhooks .validating)
  let crds := m.options.crdRefs.filterMap s.configuredCrd
  let afterMutating := mutating.foldl (·.addWebhooks .mutating ·) ({} : Fetched Rest)
  let afterValidating := validating.foldl (·.addWebhooks .validating ·) afterMutating
  crds.foldl (fun fetched (crd, clientConfig) ↦ fetched.addCrd crd clientConfig) afterValidating

/-- The server name that certificates are made for. -/
def serverName (std : Stdlib Err) : Except (CertError Err) String := do
  dnsNameFromClientConfig std (← m.getClientConfig std)

/-- The Secret holds a certificate that is valid for the server name, and its CA is in the common CA
bundle. -/
def storesCurrentCert (std : Stdlib Err) (s : World Rest) : Bool :=
  match m.serverName std, s.storedCerts m.secretRef with
  | .ok dnsName, some certs => validCert std (some certs) dnsName s.now &&
      contains (m.fetched s).caBundle certs.caCert
  | _, _ => false

end Manager

/-! ## Calls -/

/-- A call whose answer does not depend on the generator. -/
theorem yields_answer_iff {request : CertRequest Rest}
    {next : (certCalls Rest Err).Reply request → Program (certCalls Rest Err) α} {out : α}
    {reply : (certCalls Rest Err).Reply request} {mid : World Rest}
    (h : ∀ certs, s.answer Err certs request = (reply, mid)) :
    Yields (reliable Rest Err) s
        (Program.request (S := certCalls Rest Err) request >>= next) out s' ↔
      Yields (reliable Rest Err) mid (next reply) out s' := by
  refine yields_call_iff.trans ⟨?_, ?_⟩
  · rintro ⟨reply', mid', ⟨certs, hanswer⟩, hnext⟩
    obtain ⟨rfl, rfl⟩ := Prod.mk.inj ((h certs).symm.trans hanswer)
    exact hnext
  · exact fun hnext ↦ ⟨reply, mid, ⟨default, h default⟩, hnext⟩

section Calls

variable {out : α}

@[simp] theorem yields_stat_iff {dir name : String}
    {next : Option Err → Program (certCalls Rest Err) α} :
    Yields (reliable Rest Err) s (Call.stat dir name >>= next) out s' ↔
      Yields (reliable Rest Err) s
        (next (if (s.files dir name).isSome then none else some (newNotExist name))) out s' :=
  yields_answer_iff fun _ ↦ rfl

@[simp] theorem yields_mkdirAll_iff {dir : String}
    {next : Option Err → Program (certCalls Rest Err) α} :
    Yields (reliable Rest Err) s (Call.mkdirAll dir >>= next) out s' ↔
      Yields (reliable Rest Err) s (next none) out s' :=
  yields_answer_iff fun _ ↦ rfl

@[simp] theorem yields_writeFile_iff {dir name : String} {content : Bytes}
    {next : Option Err → Program (certCalls Rest Err) α} :
    Yields (reliable Rest Err) s (Call.writeFile dir name content >>= next) out s' ↔
      Yields (reliable Rest Err) (s.putFile dir name (some content)) (next none) out s' :=
  yields_answer_iff fun _ ↦ rfl

@[simp] theorem yields_getSecret_iff {n : NamespacedName}
    {next : Except Err Secret → Program (certCalls Rest Err) α} :
    Yields (reliable Rest Err) s (Call.getSecret n >>= next) out s' ↔
      Yields (reliable Rest Err) s (next ((s.secrets n).elim (.error (newNotFound n.name)) .ok))
        out s' :=
  yields_answer_iff fun _ ↦ rfl

@[simp] theorem yields_getWebhooks_iff {kind : WebhookKind} {n : NamespacedName}
    {next : Except Err (WebhookConfiguration Rest) → Program (certCalls Rest Err) α} :
    Yields (reliable Rest Err) s (Call.getWebhooks kind n >>= next) out s' ↔
      Yields (reliable Rest Err) s
        (next ((s.webhooks kind n).elim (.error (newNotFound n.name)) .ok)) out s' :=
  yields_answer_iff fun _ ↦ rfl

@[simp] theorem yields_getCrd_iff {n : NamespacedName}
    {next : Except Err (CustomResourceDefinition Rest) → Program (certCalls Rest Err) α} :
    Yields (reliable Rest Err) s (Call.getCrd n >>= next) out s' ↔
      Yields (reliable Rest Err) s (next ((s.crds n).elim (.error (newNotFound n.name)) .ok))
        out s' :=
  yields_answer_iff fun _ ↦ rfl

@[simp] theorem yields_now_iff {next : Time → Program (certCalls Rest Err) α} :
    Yields (reliable Rest Err) s (Call.now >>= next) out s' ↔
      Yields (reliable Rest Err) s (next s.now) out s' :=
  yields_answer_iff fun _ ↦ rfl

@[simp] theorem yields_setCA_iff {caKey caCert : Bytes}
    {next : Unit → Program (certCalls Rest Err) α} :
    Yields (reliable Rest Err) s (Call.setCA caKey caCert >>= next) out s' ↔
      Yields (reliable Rest Err) s (next ()) out s' :=
  yields_answer_iff fun _ ↦ rfl

@[simp] theorem yields_update_iff {obj : ClientObject Rest}
    {next : Option Err → Program (certCalls Rest Err) α} :
    Yields (reliable Rest Err) s (Call.update obj >>= next) out s' ↔
      if s.hasObject obj then Yields (reliable Rest Err) (s.putObject obj) (next none) out s'
      else Yields (reliable Rest Err) s (next (some (newNotFound ""))) out s' := by
  split
  next h => exact yields_answer_iff fun _ ↦ if_pos h
  next h => exact yields_answer_iff fun _ ↦ if_neg h

@[simp] theorem yields_createSecret_iff {secret : Secret}
    {next : Option Err → Program (certCalls Rest Err) α} :
    Yields (reliable Rest Err) s (Call.createSecret secret >>= next) out s' ↔
      if (s.secrets secret.namespacedName).isSome then
        Yields (reliable Rest Err) s
          (next (some (newAlreadyExists secret.namespacedName.name))) out s'
      else Yields (reliable Rest Err) (s.putSecret secret) (next none) out s' := by
  split
  next h => exact yields_answer_iff fun _ ↦ if_pos h
  next h => exact yields_answer_iff fun _ ↦ if_neg h

@[simp] theorem yields_updateSecret_iff {secret : Secret}
    {next : Option Err → Program (certCalls Rest Err) α} :
    Yields (reliable Rest Err) s (Call.updateSecret secret >>= next) out s' ↔
      if (s.secrets secret.namespacedName).isSome then
        Yields (reliable Rest Err) (s.putSecret secret) (next none) out s'
      else Yields (reliable Rest Err) s
        (next (some (newNotFound secret.namespacedName.name))) out s' := by
  split
  next h => exact yields_answer_iff fun _ ↦ if_pos h
  next h => exact yields_answer_iff fun _ ↦ if_neg h

@[simp] theorem yields_generate_iff {commonName : String}
    {next : Except Err Artifacts → Program (certCalls Rest Err) α} :
    Yields (reliable Rest Err) s (Call.generate commonName >>= next) out s' ↔
      ∃ certs, Yields (reliable Rest Err) s (next (.ok certs)) out s' := by
  refine yields_call_iff.trans ⟨?_, ?_⟩
  · rintro ⟨reply, mid, ⟨certs, hanswer⟩, hnext⟩
    cases hanswer
    exact ⟨certs, hnext⟩
  · rintro ⟨certs, hnext⟩
    exact ⟨_, _, ⟨certs, rfl⟩, hnext⟩

end Calls

/-! ## Files and loops -/

variable {m : Manager}

theorem certExists_spec {out : Bool} (h : Yields (reliable Rest Err) s m.certExists out s') :
    out = m.filesExist s ∧ s' = s := by
  unfold Manager.certExists at h
  unfold Manager.filesExist
  cases hcert : (s.files m.options.certDir m.options.certName).isSome with
  | false => simpa [hcert] using h
  | true =>
    cases hkey : (s.files m.options.certDir m.options.keyName).isSome with
    | false => simpa [hcert, hkey] using h
    | true => simpa [hcert, hkey] using h


theorem writeCertOnDisk_spec {err : Option (CertError Err)}
    (h : Yields (reliable Rest Err) s m.writeCertOnDisk err s') (herr : err = none) :
    ∃ secret, s.secrets m.secretRef = some secret ∧
      s' = (s.putFile m.options.certDir m.options.certName
        (some (secret.value serverCertName))).putFile m.options.certDir m.options.keyName
          (some (secret.value serverKeyName)) := by
  subst herr
  unfold Manager.writeCertOnDisk at h
  rw [yields_getSecret_iff] at h
  cases hsecret : s.secrets m.secretRef with
  | none => simp [hsecret, StatusErrors.isNotFound_newNotFound] at h
  | some secret =>
    refine ⟨secret, rfl, ?_⟩
    simpa [hsecret, Manager.writeFiles] using h

theorem fetchWebhooks_spec {kind : WebhookKind} {refs : List NamespacedName}
    {fetched out : Fetched Rest}
    (h : Yields (reliable Rest Err) s (fetchWebhooks kind refs fetched) (.ok out) s') :
    out = (refs.filterMap (s.webhooks kind)).foldl (·.addWebhooks kind ·) fetched ∧ s' = s := by
  induction refs generalizing fetched with
  | nil => simpa [fetchWebhooks] using h
  | cons nn refs ih =>
    rw [fetchWebhooks, yields_getWebhooks_iff] at h
    cases hconfig : s.webhooks kind nn with
    | none => simp [hconfig] at h
    | some config =>
      rw [hconfig] at h
      rw [List.filterMap_cons_some hconfig, List.foldl_cons]
      exact ih h

theorem fetchCrds_spec {refs : List NamespacedName} {fetched out : Fetched Rest}
    (h : Yields (reliable Rest Err) s (fetchCrds refs fetched) (.ok out) s') :
    out = (refs.filterMap s.configuredCrd).foldl
      (fun fetched (crd, clientConfig) ↦ fetched.addCrd crd clientConfig) fetched ∧ s' = s := by
  induction refs generalizing fetched with
  | nil => simpa [fetchCrds] using h
  | cons nn refs ih =>
    rw [fetchCrds, yields_getCrd_iff] at h
    cases hcrd : s.crds nn with
    | none => simp [hcrd] at h
    | some crd =>
      cases hconfig : crd.clientConfig with
      | none => simp [hcrd, hconfig] at h
      | some clientConfig =>
        simp only [hcrd, hconfig, Option.elim_some] at h
        have hconfigured : s.configuredCrd nn = some (crd, clientConfig) := by
          simp [World.configuredCrd, hcrd, hconfig]
        rw [List.filterMap_cons_some hconfigured, List.foldl_cons]
        exact ih h

theorem batchUpdate_spec {objs : List (ClientObject Rest)} {err : Option (CertError Err)}
    (h : Yields (reliable Rest Err) s (batchUpdate objs) err s') :
    s'.secrets = s.secrets ∧ s'.files = s.files := by
  induction objs generalizing s with
  | nil =>
    obtain ⟨-, rfl⟩ := yields_done_iff.mp h
    exact ⟨rfl, rfl⟩
  | cons obj objs ih =>
    rw [batchUpdate, yields_update_iff] at h
    split at h
    next =>
      obtain ⟨hsecrets, hfiles⟩ := ih h
      cases obj <;> exact ⟨hsecrets, hfiles⟩
    next =>
      obtain ⟨-, rfl⟩ := yields_done_iff.mp h
      exact ⟨rfl, rfl⟩


/-! ## The writer -/

section Writer

variable {w : SecretCertWriter} {std : Stdlib Err} {dnsName : String}

omit [StatusErrors Err] in
/-- Storing the CA in the generator changes nothing of the world, whatever else may fail. -/
theorem yields_certsOf {svc : Service (certCalls Rest Err) (World Rest)}
    (hset : ∀ t caKey caCert reply t', svc.Handles t (.setCA caKey caCert) reply t' → t' = t)
    {secret : Secret} {out : Except (CertError Err) (Option Artifacts)}
    (h : Yields svc s (SecretCertWriter.certsOf secret) out s') :
    s' = s ∧ out = .ok (secretToCerts secret) := by
  unfold SecretCertWriter.certsOf at h
  cases hcerts : secretToCerts secret with
  | none =>
    rw [hcerts] at h
    obtain ⟨rfl, rfl⟩ := yields_done_iff.mp h
    exact ⟨rfl, rfl⟩
  | some certs =>
    rw [hcerts] at h
    obtain ⟨reply, mid, hset', hdone⟩ := yields_call_iff.mp h
    obtain rfl := hset _ _ _ _ _ hset'
    obtain ⟨rfl, rfl⟩ := yields_done_iff.mp hdone
    exact ⟨rfl, rfl⟩

@[simp] theorem storedCerts_putSecret (certs : Artifacts) :
    (s.putSecret (certsToSecret certs w.secret)).storedCerts w.secret = some certs := by
  simp only [World.storedCerts, World.putSecret, certsToSecret, Function.update_self,
    Option.bind_some]
  rfl

theorem buildSecret_spec {out : Except (CertError Err) (Secret × Artifacts)}
    (h : Yields (reliable Rest Err) s (w.buildSecret dnsName) out s') :
    (∃ certs, out = .ok (certsToSecret certs w.secret, certs)) ∧ s' = s := by
  unfold SecretCertWriter.buildSecret at h
  obtain ⟨certs, hdone⟩ := yields_generate_iff.mp h
  obtain ⟨rfl, rfl⟩ := yields_done_iff.mp hdone
  exact ⟨⟨certs, rfl⟩, rfl⟩

/-- The Secret now holds the certificates; nothing else has changed. -/
theorem overwrite_spec {out : Except (CertError Err) Artifacts}
    (h : Yields (reliable Rest Err) s (w.overwrite dnsName) out s') {certs : Artifacts}
    (hout : out = .ok certs) : s' = s.putSecret (certsToSecret certs w.secret) := by
  subst hout
  unfold SecretCertWriter.overwrite at h
  obtain ⟨built, mid, hbuild, hupdate⟩ := yields_bind_iff.mp h
  obtain ⟨⟨certs', rfl⟩, rfl⟩ := buildSecret_spec hbuild
  rw [yields_updateSecret_iff] at hupdate
  split at hupdate
  next =>
    obtain ⟨hcerts, rfl⟩ := yields_done_iff.mp hupdate
    cases hcerts
    rfl
  next => simp at hupdate

theorem write_spec {out : Except (CertError Err) Artifacts}
    (h : Yields (reliable Rest Err) s (w.write dnsName) out s')
    (habsent : s.secrets w.secret = none) :
    ∃ certs, out = .ok certs ∧ s' = s.putSecret (certsToSecret certs w.secret) := by
  unfold SecretCertWriter.write at h
  obtain ⟨built, mid, hbuild, hcreate⟩ := yields_bind_iff.mp h
  obtain ⟨⟨certs, rfl⟩, rfl⟩ := buildSecret_spec hbuild
  refine ⟨certs, ?_⟩
  simpa [certsToSecret, habsent] using hcreate

theorem read_spec {out : Except (CertError Err) (Option Artifacts)}
    (h : Yields (reliable Rest Err) s w.read out s') :
    out = (s.secrets w.secret).elim (.error (.notFoundError (newNotFound w.secret.name)))
      (fun secret ↦ .ok (secretToCerts secret)) ∧ s' = s := by
  unfold SecretCertWriter.read at h
  cases hsecret : s.secrets w.secret with
  | none => simpa [hsecret, StatusErrors.isNotFound_newNotFound] using h
  | some secret =>
    simp only [yields_getSecret_iff, hsecret, Option.elim_some, SecretCertWriter.certsOf] at h ⊢
    cases hcerts : secretToCerts secret <;> simpa [hcerts] using h

/-- Either the certificates were read, or there was no Secret. -/
theorem createIfNotExists_spec {certs : Option Artifacts} {changed : Bool}
    (h : Yields (reliable Rest Err) s (w.createIfNotExists dnsName) (.ok certs, changed) s') :
    (changed = false ∧ certs = s.storedCerts w.secret ∧ s' = s) ∨
      (changed = true ∧ s.storedCerts w.secret = none ∧ s'.files = s.files ∧
        s'.storedCerts w.secret = certs) := by
  unfold SecretCertWriter.createIfNotExists at h
  obtain ⟨out, mid, hread, hrest⟩ := yields_bind_iff.mp h
  obtain ⟨rfl, rfl⟩ := read_spec hread
  cases hsecret : mid.secrets w.secret with
  | none =>
    simp only [hsecret, Option.elim_none] at hrest
    obtain ⟨written, mid', hwrite, hreturn⟩ := yields_bind_iff.mp hrest
    obtain ⟨certs', rfl, rfl⟩ := write_spec hwrite hsecret
    obtain ⟨hout, rfl⟩ := yields_done_iff.mp hreturn
    cases hout
    exact .inr ⟨rfl, by simp [World.storedCerts, hsecret], rfl, by simp⟩
  | some secret =>
    simp only [hsecret, Option.elim_some] at hrest
    obtain ⟨hout, rfl⟩ := yields_done_iff.mp hrest
    cases hout
    exact .inl ⟨rfl, by simp [World.storedCerts, hsecret], rfl⟩

/-- Valid certificates are passed on, invalid ones are overwritten. -/
theorem replaceInvalid_spec {stored : Option Artifacts} {changed changed' : Bool}
    {certs : Artifacts}
    (h : Yields (reliable Rest Err) s (w.replaceInvalid std dnsName stored changed)
      (.ok certs, changed') s') :
    (validCert std stored dnsName s.now ∧ stored = some certs ∧ changed' = changed ∧ s' = s) ∨
      (¬validCert std stored dnsName s.now ∧ changed' = true ∧ s'.files = s.files ∧
        s'.storedCerts w.secret = some certs) := by
  obtain ⟨next, hcall, hnext⟩ := w.replaceInvalid_cases Rest std dnsName stored changed
  rw [hcall] at h
  have h := yields_now_iff.mp h
  rcases hnext s.now with ⟨certs', rfl, hvalid, hdone⟩ | ⟨hinvalid, hoverwrite⟩
  · rw [hdone] at h
    obtain ⟨hout, rfl⟩ := yields_done_iff.mp h
    cases hout
    exact .inl ⟨hvalid, rfl, rfl, rfl⟩
  · rw [hoverwrite] at h
    obtain ⟨out, mid, hyields, hreturn⟩ := yields_bind_iff.mp h
    cases out with
    | error err => simp [SecretCertWriter.reportOverwrite] at hreturn
    | ok certs' =>
      obtain ⟨hout, rfl⟩ := yields_done_iff.mp hreturn
      cases hout
      rw [overwrite_spec hyields rfl]
      exact .inr ⟨by simp [hinvalid], rfl, rfl, by simp⟩

/-- Valid certificates are left alone; otherwise there are new ones. -/
theorem ensureCert_spec {certs : Artifacts} {changed : Bool}
    (h : Yields (reliable Rest Err) s (w.ensureCert std dnsName) (.ok certs, changed) s') :
    (validCert std (s.storedCerts w.secret) dnsName s.now ∧
        s.storedCerts w.secret = some certs ∧ changed = false ∧ s' = s) ∨
      (¬validCert std (s.storedCerts w.secret) dnsName s.now ∧ changed = true ∧
        s'.files = s.files ∧ s'.storedCerts w.secret = some certs) := by
  unfold SecretCertWriter.ensureCert SecretCertWriter.handleCommon at h
  split at h
  · simp at h
  obtain ⟨⟨created, changed'⟩, mid, hcreate, hrest⟩ := yields_bind_iff.mp h
  cases created with
  | error err => simp at hrest
  | ok certs' =>
    rcases createIfNotExists_spec hcreate with ⟨rfl, rfl, rfl⟩ | ⟨rfl, habsent, hfiles, hcreated⟩
    · exact replaceInvalid_spec hrest
    · have hinvalid : ¬validCert std (s.storedCerts w.secret) dnsName s.now := by
        rw [habsent]
        exact Bool.false_ne_true
      rcases replaceInvalid_spec hrest with ⟨-, rfl, rfl, rfl⟩ | ⟨-, rfl, hfiles', hstored⟩
      · exact .inr ⟨hinvalid, rfl, hfiles, hcreated⟩
      · exact .inr ⟨hinvalid, rfl, hfiles'.trans hfiles, hstored⟩

end Writer

/-! ## The refresh -/

section Refresh

variable {std : Stdlib Err}

theorem fetchConfigs_spec {out : Fetched Rest}
    (h : Yields (reliable Rest Err) s m.fetchConfigs (.ok out) s') :
    out = m.fetched s ∧ s' = s := by
  unfold Manager.fetchConfigs at h
  obtain ⟨afterMutating, mid, hmutating, hrest⟩ := yields_bind_iff.mp h
  cases afterMutating with
  | error err => simp at hrest
  | ok afterMutating =>
    obtain ⟨rfl, rfl⟩ := fetchWebhooks_spec hmutating
    obtain ⟨afterValidating, mid', hvalidating, hcrds⟩ := yields_bind_iff.mp hrest
    cases afterValidating with
    | error err => simp at hcrds
    | ok afterValidating =>
      obtain ⟨rfl, rfl⟩ := fetchWebhooks_spec hvalidating
      exact fetchCrds_spec hcrds

/-- The server name does not depend on the CA bundle. -/
theorem dnsNameFromClientConfig_caBundle {cc : WebhookClientConfig} {caBundle : Bytes}
    {dnsName : String}
    (h : dnsNameFromClientConfig std { cc with caBundle := caBundle } = .ok dnsName) :
    dnsNameFromClientConfig std cc = .ok dnsName := by
  unfold dnsNameFromClientConfig at h ⊢
  cases hservice : cc.service <;> cases hurl : cc.url <;> simp_all

theorem exists_of_map_eq_ok {ε α β : Type} {f : α → β} {x : Except ε α} {b : β}
    (h : x.map f = .ok b) : ∃ a, x = .ok a ∧ f a = b := by
  cases x with
  | error err => cases h
  | ok a => exact ⟨a, rfl, Except.ok.inj h⟩

theorem injectCerts_changed {cc : WebhookClientConfig} {objs objs' : List (ClientObject Rest)}
    {certs : Artifacts} {changed changed' : Bool}
    (h : injectCerts cc objs certs changed = (.ok (changed', objs') : Except (CertError Err) _)) :
    changed' = (changed || !contains cc.caBundle certs.caCert) := by
  unfold injectCerts at h
  split at h
  all_goals
    obtain ⟨injected, -, hpair⟩ := exists_of_map_eq_ok h
    cases hpair
    simp_all

/-- A successful `Provision` has ensured a certificate; the CA bundle counts as a change too. -/
theorem provision_spec {w : SecretCertWriter} {cc : WebhookClientConfig}
    {objs objs' : List (ClientObject Rest)} {changed : Bool}
    (h : Yields (reliable Rest Err) s (Provisioner.provision ⟨some w⟩ std cc objs)
      (.ok (changed, objs')) s') :
    ∃ dnsName certs ensured, dnsNameFromClientConfig std cc = .ok dnsName ∧
      Yields (reliable Rest Err) s (w.ensureCert std dnsName) (.ok certs, ensured) s' ∧
        changed = (ensured || !contains cc.caBundle certs.caCert) := by
  unfold Provisioner.provision at h
  cases hname : dnsNameFromClientConfig std cc with
  | error err => simp [hname] at h
  | ok dnsName =>
    simp only [hname] at h
    obtain ⟨⟨out, ensured⟩, mid, hensure, hrest⟩ := yields_bind_iff.mp h
    cases out with
    | error err => simp at hrest
    | ok certs =>
      obtain ⟨hinject, rfl⟩ := yields_done_iff.mp hrest
      exact ⟨dnsName, certs, ensured, rfl, hensure, injectCerts_changed hinject.symm⟩

theorem updateConfigs_spec {cc : WebhookClientConfig} {fetched : Fetched Rest} {changed : Bool}
    (h : Yields (reliable Rest Err) s (m.updateConfigs std cc fetched) (changed, none) s') :
    ∃ dnsName certs ensured mid, dnsNameFromClientConfig std cc = .ok dnsName ∧
      Yields (reliable Rest Err) s (SecretCertWriter.ensureCert ⟨m.secretRef⟩ std dnsName)
        (.ok certs, ensured) mid ∧
        changed = (ensured || !contains fetched.caBundle certs.caCert) ∧
        s'.secrets = mid.secrets ∧ s'.files = mid.files := by
  unfold Manager.updateConfigs at h
  rw [m.certProvisioner_eq] at h
  obtain ⟨out, mid, hprovision, hrest⟩ := yields_bind_iff.mp h
  cases out with
  | error err => simp at hrest
  | ok out =>
    obtain ⟨changed', whConfigs⟩ := out
    obtain ⟨dnsName, certs, ensured, hname, hensure, rfl⟩ := provision_spec hprovision
    obtain ⟨err, mid', hupdate, hreturn⟩ := yields_bind_iff.mp hrest
    obtain ⟨hout, rfl⟩ := yields_done_iff.mp hreturn
    obtain ⟨hsecrets, hfiles⟩ := batchUpdate_spec hupdate
    exact ⟨dnsName, certs, ensured, mid, dnsNameFromClientConfig_caBundle hname, hensure,
      (Prod.mk.inj hout).1, hsecrets, hfiles⟩

theorem refreshCert_spec {changed : Bool}
    (h : Yields (reliable Rest Err) s (m.refreshCert std) (changed, none) s') :
    changed = !m.storesCurrentCert std s ∧ s'.files = s.files ∧
      (changed = false → s'.secrets = s.secrets) := by
  unfold Manager.refreshCert at h
  cases hcc : m.getClientConfig std with
  | error err => simp [hcc] at h
  | ok cc =>
    simp only [hcc] at h
    obtain ⟨out, mid, hfetch, hupdate⟩ := yields_bind_iff.mp h
    cases out with
    | error err => simp at hupdate
    | ok fetched =>
      obtain ⟨rfl, rfl⟩ := fetchConfigs_spec hfetch
      obtain ⟨dnsName, certs, ensured, mid', hname, hensure, rfl, hsecrets, hfiles⟩ :=
        updateConfigs_spec hupdate
      have hserver : m.serverName std = .ok dnsName := by
        simp [Manager.serverName, hcc, hname, bind, Except.bind]
      unfold Manager.storesCurrentCert
      rw [hsecrets, hfiles, hserver]
      rcases ensureCert_spec hensure with ⟨hvalid, hstored, rfl, rfl⟩ | ⟨hinvalid, rfl, hfiles', -⟩
      · simp_all
      · refine ⟨?_, hfiles', by simp⟩
        cases hstored : mid.storedCerts m.secretRef <;> simp_all

end Refresh

end OperatorToolkit.Cert
