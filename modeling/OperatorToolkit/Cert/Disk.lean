import OperatorToolkit.Cert.Reliable

/-!
# The certificate on the disk

A run that returns without an error and without a failed call should leave the certificate and the
key of the Secret on the disk. It does so if it writes the files. It leaves them alone if they
exist and it has not changed anything itself, even if they are out of date: another replica may have
replaced the certificate, or an earlier run that did not get to write it.
-/

namespace OperatorToolkit.Cert

open Interaction Object

variable {Rest Err : Type} [StatusErrors Err] {s s' : World Rest} {m : Manager} {std : Stdlib Err}

/-- The manager's directory holds exactly the certificate and the key of the Secret. -/
def Manager.Synced (m : Manager) (s : World Rest) : Prop :=
  ∃ secret, s.secrets m.secretRef = some secret ∧
    s.files m.options.certDir m.options.certName = some (secret.value serverCertName) ∧
    s.files m.options.certDir m.options.keyName = some (secret.value serverKeyName)

/-- The run sees a reason to write the files: one of them is missing, or the Secret is missing, has
no valid certificate for the server name, or its CA is not in the common CA bundle. -/
def Manager.SeesChange (m : Manager) (std : Stdlib Err) (s : World Rest) : Prop :=
  m.filesExist s = false ∨ m.storesCurrentCert std s = false

theorem Manager.synced_congr (hsecrets : s'.secrets = s.secrets) (hfiles : s'.files = s.files) :
    m.Synced s' ↔ m.Synced s := by
  unfold Manager.Synced
  rw [hsecrets, hfiles]

theorem synced_of_writeCertOnDisk (hnames : m.options.certName ≠ m.options.keyName)
    (h : Yields (reliable Rest Err) s m.writeCertOnDisk none s') : m.Synced s' := by
  obtain ⟨secret, hsecret, rfl⟩ := writeCertOnDisk_spec h rfl
  refine ⟨secret, hsecret, ?_, ?_⟩
  · simp [World.putFile, hnames]
  · simp [World.putFile]

/-- A run without failures writes the files if it sees a reason to, and otherwise changes neither
the files nor the Secret. -/
theorem run_synced_iff (hnames : m.options.certName ≠ m.options.keyName)
    (h : Yields (reliable Rest Err) s (m.run std) none s') :
    m.Synced s' ↔ m.SeesChange std s ∨ m.Synced s := by
  unfold Manager.run at h
  obtain ⟨hostCert, mid, hexists, hrest⟩ := yields_bind_iff.mp h
  obtain ⟨rfl, rfl⟩ := certExists_spec hexists
  obtain ⟨⟨changed, err⟩, mid', hrefresh, hwrite⟩ := yields_bind_iff.mp hrest
  cases err with
  | some err => simp at hwrite
  | none =>
    obtain ⟨rfl, hfiles, hsecrets⟩ := refreshCert_spec hrefresh
    have hsees : m.SeesChange std mid ↔
        (!m.storesCurrentCert std mid || !m.filesExist mid) = true := by
      simp [Manager.SeesChange, or_comm]
    dsimp only at hwrite
    split at hwrite
    next hneeded =>
      exact iff_of_true (synced_of_writeCertOnDisk hnames hwrite) (.inl (hsees.mpr hneeded))
    next hneeded =>
      obtain ⟨-, rfl⟩ := yields_done_iff.mp hwrite
      have hunchanged : (!m.storesCurrentCert std mid) = false := by
        simp only [Bool.or_eq_true, not_or, Bool.not_eq_true] at hneeded
        exact hneeded.1
      rw [Manager.synced_congr (hsecrets hunchanged) hfiles, hsees]
      exact (or_iff_right hneeded).symm

/-- Every run of a history is one of `run`. -/
theorem History.runs_of_mem {managers : Set Manager} {runs : List (Run Rest Err)}
    (h : History std managers runs s) {r : Run Rest Err} (hr : r ∈ runs) :
    Program.Runs (r.manager.run std) r.calls r.err ∧
      Served (service Rest Err) r.before r.calls r.after := by
  induction h with
  | start => cases hr
  | timePasses _ _ ih => exact ih hr
  | run _ _ hruns hserved ih =>
    rcases List.mem_cons.mp hr with rfl | hr
    · exact ⟨hruns, hserved⟩
    · exact ih hr

/-- **What a successful run leaves on the disk.** In every history of any number of managers, with
failing calls and with time passing: a run without a failed call that returns nil leaves exactly
the certificate and the key of the Secret in the manager's directory, if and only if it sees a
reason to write them or they were there before. -/
theorem run_leaves_secret_on_disk_iff {managers : Set Manager} {runs : List (Run Rest Err)}
    (h : History std managers runs s) {r : Run Rest Err} (hr : r ∈ runs)
    (hnames : r.manager.options.certName ≠ r.manager.options.keyName)
    (hcalls : ∀ call ∈ r.calls, ¬failed call) (herr : r.err = none) :
    r.manager.Synced r.after ↔
      r.manager.SeesChange std r.before ∨ r.manager.Synced r.before := by
  obtain ⟨hruns, hserved⟩ := h.runs_of_mem hr
  rw [herr] at hruns
  exact run_synced_iff hnames (yields_reliable hruns hserved hcalls)

/-! ## Two replicas -/

section Replicas

/-- A certificate is a byte, which says until when it is valid, and is its own key. -/
def byteStdlib : Stdlib GoError where
  Certificate := UInt8
  CertPool := Bytes
  x509KeyPair cert key := cert == key
  appendCertsFromPEM caCert := if caCert = [] then none else some caCert
  decode cert := some cert
  parseCertificate block := block.head?
  verify cert _ _ currentTime := decide (currentTime ≤ cert.toNat)
  addDate now _ months _ := now + months
  joinHostPort host port := host ++ ":" ++ port
  urlString scheme host := scheme ++ "://" ++ host
  parseURLHost url := .ok url
  splitHostPort _ := .error ⟨["missing port in address"]⟩
  tempDir := "/tmp"
  defaultPort := 9443
  formatClientConfig _ := "&WebhookClientConfig"

def replicaOptions (certDir : String) : Options where
  service := some ⟨"default", "webhook-service"⟩
  mutatingWebhookConfigRefs := [{ name := "test-mutating-webhook-config" }]
  secretRef := some ⟨"default", "webhook-secret"⟩
  certDir := certDir

/-- A manager of the webhook service, with its own directory. -/
def replica (certDir : String) : Manager where
  options := (replicaOptions certDir).setDefault byteStdlib
  certProvisioner := ⟨some ⟨⟨"default", "webhook-secret"⟩⟩⟩
  secretRef_isSome := rfl
  certProvisioner_eq := rfl

example : newManager byteStdlib (replicaOptions "/a") = .ok (replica "/a") := rfl

/-- One webhook configuration, no Secret and no files. -/
def freshWorld : World Unit where
  now := 0
  secrets _ := none
  webhooks _ n := some ⟨n, [⟨⟨[], ()⟩, ()⟩], ()⟩
  crds _ := none
  files _ _ := none

/-- Certificates are valid for ten units of time, and always have the same CA. -/
def certsAt (now : Time) : Artifacts :=
  let cert := [UInt8.ofNat (now.toNat + 10)]
  { key := cert, cert := cert, caKey := [1], caCert := [1] }

/-- Nothing fails. -/
def respond (s : World Unit) (request : CertRequest Unit) :
    (certCalls Unit GoError).Reply request × World Unit :=
  s.answer GoError (certsAt s.now) request

def runReplica (certDir : String) (s : World Unit) : Run Unit GoError :=
  let out := ((replica certDir).run byteStdlib).interpret respond s
  { manager := replica certDir, before := s, calls := out.1, err := out.2.1, after := out.2.2 }

theorem History.runReplica {managers : Set Manager} {runs : List (Run Unit GoError)}
    {s : World Unit} (h : History byteStdlib managers runs s) {certDir : String}
    (hreplica : replica certDir ∈ managers) :
    History byteStdlib managers (runReplica certDir s :: runs) (runReplica certDir s).after := by
  let program : Program (certCalls Unit GoError) _ := (replica certDir).run byteStdlib
  have hruns := @Program.runs_interpret _ _ _ respond program s
  have hserved : Served (service Unit GoError) s _ _ :=
    program.served_interpret (fun s _ ↦ Or.inl ⟨certsAt s.now, rfl⟩) s
  exact .run h hreplica hruns hserved

theorem start_replicas : History byteStdlib {replica "/a", replica "/b"}
    ([] : List (Run Unit GoError)) freshWorld :=
  .start fun _ _ _ ↦ rfl

/-- The first run writes the files. -/
theorem run_leaves_secret_on_disk_first :
    (runReplica "/a" freshWorld).manager.Synced (runReplica "/a" freshWorld).after := by
  have hrun := start_replicas.runReplica (.inl rfl)
  refine (run_leaves_secret_on_disk_iff hrun List.mem_cons_self (by decide) ?_ rfl).mpr
    (.inl (.inl rfl))
  decide

/-- Both replicas have written the certificate of the Secret. -/
def bothStarted : World Unit := (runReplica "/b" (runReplica "/a" freshWorld).after).after

/-- The second replica's run, after the first one has replaced the certificate that was about to
expire. -/
def lateRun : Run Unit GoError :=
  runReplica "/b" (runReplica "/a" { bothStarted with now := 5 }).after

/-- Nothing ever fails, all runs return nil, and after the last one the second replica's files still
hold the old certificate. -/
theorem run_leaves_old_certificate_on_disk :
    ∃ runs, History byteStdlib {replica "/a", replica "/b"} (lateRun :: runs) lateRun.after ∧
      (∀ r ∈ lateRun :: runs, r.err = none ∧ ∀ call ∈ r.calls, ¬failed call) ∧
      ¬lateRun.manager.Synced lateRun.after := by
  have hstarted := (start_replicas.runReplica (.inl rfl)).runReplica (.inr rfl)
  have hpassed : History byteStdlib _ _ { bothStarted with now := 5 } :=
    hstarted.timePasses (by decide)
  refine ⟨_, (hpassed.runReplica (.inl rfl)).runReplica (.inr rfl), by decide, ?_⟩
  rintro ⟨secret, hsecret, hcert, -⟩
  have hnew : lateRun.after.secrets lateRun.manager.secretRef =
      some (certsToSecret (certsAt 5) lateRun.manager.secretRef) := by decide
  have hold : lateRun.after.files "/b" defaultCertName = some (certsAt 0).cert := by decide
  obtain rfl := Option.some.inj (hnew.symm.trans hsecret)
  have hsame : (certsAt 0).cert = (certsAt 5).cert := Option.some.inj (hold.symm.trans hcert)
  revert hsame
  decide

end Replicas

end OperatorToolkit.Cert
