import OperatorToolkit.Cert.Reads
import OperatorToolkit.Cert.Refresh

/-!
# The files after a failed read

`writeCertOnDisk` returns the error if the Secret is missing. After any other failure of the read
it goes on with the empty Secret that it has handed to the API client, writes two empty files and
returns nil. A run whose last read of the Secret does not fail in that way leaves the files alone or
writes what the Secret holds.
-/

namespace OperatorToolkit.Cert

open Interaction Object

variable {Rest Err : Type} [StatusErrors Err] {s s' : World Rest}

/-- Every call may fail with any error; a failed write may have taken effect or not. -/
def failing (Rest Err : Type) [StatusErrors Err] : Service (certCalls Rest Err) (World Rest) where
  Handles s request reply s' :=
    (service Rest Err).Handles s request reply s' ∨ (faulty Rest Err).Handles s request reply s'
  Breaks _ _ _ := False
  Rely _ _ := False

/-! ## The calls that leave the files alone -/

def CertRequest.LeavesFiles : CertRequest Rest → Prop
  | .writeFile _ _ _ => False
  | _ => True

theorem files_putObject (obj : ClientObject Rest) : (s.putObject obj).files = s.files := by
  cases obj <;> rfl

theorem files_of_answer {certs : Artifacts} {request : CertRequest Rest}
    {reply : (certCalls Rest Err).Reply request} (hrequest : request.LeavesFiles)
    (h : s.answer Err certs request = (reply, s')) : s'.files = s.files := by
  cases request with
  | writeFile dir name content => exact hrequest.elim
  | createSecret secret | updateSecret secret =>
    rw [World.answer] at h
    split at h <;> obtain ⟨-, rfl⟩ := Prod.mk.inj h <;> rfl
  | update obj =>
    rw [World.answer] at h
    split at h <;> obtain ⟨-, rfl⟩ := Prod.mk.inj h
    · exact files_putObject obj
    · rfl
  | _ => rw [← (Prod.mk.inj h).2]

theorem files_of_handles {request : CertRequest Rest} {reply : (certCalls Rest Err).Reply request}
    (hrequest : request.LeavesFiles) (h : (failing Rest Err).Handles s request reply s') :
    s'.files = s.files := by
  rcases h with (⟨certs, hanswer⟩ | hfails) | ⟨certs, hanswer⟩ | ⟨-, rfl⟩
  · exact files_of_answer hrequest hanswer
  · cases hfails with
    | writeFile => exact hrequest.elim
    | updated => exact files_putObject _
    | _ => rfl
  · exact files_of_answer hrequest hanswer
  · rfl

section Only

variable {m : Manager} {std : Stdlib Err}

omit [StatusErrors Err] in
theorem only_certExists : (m.certExists : Program (certCalls Rest Err) Bool).Only
    CertRequest.LeavesFiles := by
  apply Program.Only.call trivial
  intro reply
  cases reply with
  | some err => exact .done _
  | none =>
    apply Program.Only.call trivial
    intro reply
    cases reply <;> exact .done _

omit [StatusErrors Err] in
theorem only_fetchWebhooks (kind : WebhookKind) (refs : List NamespacedName)
    (fetched : Fetched Rest) :
    (fetchWebhooks kind refs fetched : Program (certCalls Rest Err) _).Only
      CertRequest.LeavesFiles := by
  induction refs generalizing fetched with
  | nil => exact .done _
  | cons nn refs ih =>
    apply Program.Only.call trivial
    intro reply
    cases reply with
    | error err => exact .done _
    | ok config => exact ih _

theorem only_fetchCrds (refs : List NamespacedName) (fetched : Fetched Rest) :
    (fetchCrds refs fetched : Program (certCalls Rest Err) _).Only CertRequest.LeavesFiles := by
  induction refs generalizing fetched with
  | nil => exact .done _
  | cons nn refs ih =>
    apply Program.Only.call trivial
    intro reply
    cases reply with
    | error err => exact .done _
    | ok crd =>
      simp only [Program.bind]
      split
      · exact .done _
      · exact ih _

omit [StatusErrors Err] in
theorem only_batchUpdate (objs : List (ClientObject Rest)) :
    (batchUpdate objs : Program (certCalls Rest Err) _).Only CertRequest.LeavesFiles := by
  induction objs with
  | nil => exact .done _
  | cons obj objs ih =>
    apply Program.Only.call trivial
    intro reply
    cases reply with
    | some err => exact .done _
    | none => exact ih

theorem only_provision (cp : Provisioner) (cc : WebhookClientConfig)
    (objs : List (ClientObject Rest)) :
    (cp.provision std cc objs : Program (certCalls Rest Err) _).Only CertRequest.LeavesFiles := by
  unfold Provisioner.provision
  split
  · exact .done _
  · split
    · exact .done _
    · apply Program.Only.bind
      · apply only_ensureCert.mono
        intro request hrequest
        cases request <;> trivial
      · intro ensured
        split <;> exact .done _

theorem only_refreshCert :
    (m.refreshCert std : Program (certCalls Rest Err) _).Only CertRequest.LeavesFiles := by
  unfold Manager.refreshCert Manager.fetchConfigs Manager.updateConfigs
  split
  · exact .done _
  · apply Program.Only.bind
    · apply (only_fetchWebhooks _ _ _).bind
      intro mutating
      split
      · exact .done _
      · apply (only_fetchWebhooks _ _ _).bind
        intro validating
        split
        · exact .done _
        · exact only_fetchCrds _ _
    · intro fetched
      split
      · exact .done _
      · apply (only_provision _ _ _).bind
        intro provided
        split
        · exact .done _
        · exact (only_batchUpdate _).bind fun _ ↦ .done _

end Only

/-! ## Writing the files -/

section Writing

variable {m : Manager} {std : Stdlib Err} {calls : List (certCalls Rest Err).Call}

theorem eq_of_handles_isRead {request : CertRequest Rest}
    {reply : (certCalls Rest Err).Reply request}
    (h : (failing Rest Err).Handles s request reply s') (hread : request.isRead) : s' = s := by
  rcases h with (hanswer | hfails) | hfaulty
  · exact eq_of_isRead (.inl hanswer) hread
  · cases hfails <;> first | rfl | exact absurd hread Bool.false_ne_true
  · exact eq_of_isRead hfaulty hread

theorem secret_of_handles {n : NamespacedName} {secret : Secret}
    (h : (failing Rest Err).Handles s (.getSecret n) (.ok secret : Except Err Secret) s') :
    s.secrets n = some secret := by
  have hanswered : ∃ certs, s.answer Err certs (.getSecret n) = (.ok secret, s') := by
    rcases h with (hanswer | hfails) | hfaulty
    · exact hanswer
    · cases hfails
    · exact answered_of_handles hfaulty rfl
  obtain ⟨certs, hanswer⟩ := hanswered
  exact World.secret_of_answer hanswer

/-- A write to a file that returned an error. -/
def fileWriteFailed : (certCalls Rest Err).Call → Bool
  | ⟨.writeFile _ _ _, some _⟩ => true
  | _ => false

theorem handles_writeFile {dir name : String} {content : Bytes}
    (h : (failing Rest Err).Handles s (.writeFile dir name content) (none : Option Err) s') :
    s' = s.putFile dir name (some content) := by
  rcases h with (⟨certs, hanswer⟩ | hfails) | hfaulty
  · exact (Prod.mk.inj hanswer).2.symm
  · cases hfails
  · obtain ⟨certs, hanswer⟩ := answered_of_handles hfaulty rfl
    exact (Prod.mk.inj hanswer).2.symm

/-- If no write fails, both files are written or none. -/
theorem eq_of_writeFiles {cert key : Bytes} {out : Option (CertError Err)}
    (hruns : Program.Runs (m.writeFiles cert key) calls out)
    (hserved : Served (failing Rest Err) s calls s')
    (hcalls : ∀ call ∈ calls, fileWriteFailed call = false) :
    s' = s ∨ s' = (s.putFile m.options.certDir m.options.certName (some cert)).putFile
      m.options.certDir m.options.keyName (some key) := by
  obtain ⟨reply, rest, rfl, hrest⟩ := Program.runs_call_iff.mp hruns
  cases hserved with
  | cons hmkdir hserved =>
    obtain rfl := eq_of_handles_isRead hmkdir rfl
    cases reply with
    | some err =>
      obtain ⟨rfl, -⟩ := Program.runs_done_iff.mp hrest
      cases hserved
      exact .inl rfl
    | none =>
      obtain ⟨reply, rest, rfl, hlast⟩ := Program.runs_call_iff.mp hrest
      cases reply with
      | some err =>
        have hfailed := hcalls _ (List.mem_cons_of_mem _ List.mem_cons_self)
        cases hfailed
      | none =>
        obtain ⟨reply, rest, rfl, hdone⟩ := Program.runs_call_iff.mp hlast
        cases reply with
        | some err =>
          have hfailed := hcalls _
            (List.mem_cons_of_mem _ (List.mem_cons_of_mem _ List.mem_cons_self))
          cases hfailed
        | none =>
          obtain ⟨rfl, -⟩ := Program.runs_done_iff.mp hdone
          cases hserved with
          | cons hcert hserved =>
            cases hserved with
            | cons hkey hserved =>
              cases hserved
              rw [handles_writeFile hkey, handles_writeFile hcert]
              exact .inr rfl

/-- The call right before a directory is made is not a `Get` that failed with another error than
`NotFound`. -/
def ReadBeforeWriting (calls : List (certCalls Rest Err).Call) : Prop :=
  ∀ before call dir (reply : Option Err) after,
    calls = before ++ call :: ⟨.mkdirAll dir, reply⟩ :: after → misread call = false

theorem ReadBeforeWriting.of_append {earlier : List (certCalls Rest Err).Call}
    (h : ReadBeforeWriting (earlier ++ calls)) : ReadBeforeWriting calls := by
  intro before call dir reply after heq
  apply h (earlier ++ before) call dir reply after
  rw [heq, List.append_assoc]

/-- What follows a failed `Get`. -/
theorem runs_writeCertOnDisk_error_iff {err : Err} {out : Option (CertError Err)} :
    Program.Runs m.writeCertOnDisk (⟨.getSecret m.secretRef, .error err⟩ :: calls) out ↔
      Program.Runs (if isNotFound err then .done (some (.plain err)) else m.writeFiles [] [])
        calls out := by
  constructor
  · intro hruns
    obtain ⟨reply, rest, heq, hrest⟩ := Program.runs_call_iff.mp hruns
    cases heq
    exact hrest
  · intro hrest
    exact .call hrest

/-- A failed `Get` of a missing Secret is the end. -/
theorem runs_writeCertOnDisk_notFound {err : Err} {out : Option (CertError Err)}
    (herr : isNotFound err)
    (hruns : Program.Runs m.writeCertOnDisk (⟨.getSecret m.secretRef, .error err⟩ :: calls) out) :
    calls = [] ∧ out = some (.plain err) := by
  rw [runs_writeCertOnDisk_error_iff, if_pos herr] at hruns
  exact Program.runs_done_iff.mp hruns

/-- Any other failure of the `Get` can be followed by writing two empty files. -/
theorem runs_writeCertOnDisk_misread (m : Manager) (s : World Rest) {err : Err}
    (herr : ¬isNotFound err) :
    ∃ calls s', Program.Runs m.writeCertOnDisk (⟨.getSecret m.secretRef, .error err⟩ :: calls)
        none ∧ Served (failing Rest Err) s (⟨.getSecret m.secretRef, .error err⟩ :: calls) s' := by
  let calls : List (certCalls Rest Err).Call :=
    [⟨.mkdirAll m.options.certDir, none⟩,
      ⟨.writeFile m.options.certDir m.options.certName [], none⟩,
      ⟨.writeFile m.options.certDir m.options.keyName [], none⟩]
  have hruns : Program.Runs m.writeCertOnDisk (⟨.getSecret m.secretRef, .error err⟩ :: calls)
      none := by
    rw [runs_writeCertOnDisk_error_iff, if_neg herr]
    exact .call (.call (.call (.done _)))
  have hserved : Served (failing Rest Err) s (⟨.getSecret m.secretRef, .error err⟩ :: calls)
      ((s.putFile m.options.certDir m.options.certName (some [])).putFile m.options.certDir
        m.options.keyName (some [])) :=
    .cons (.inr (.inr ⟨rfl, rfl⟩)) <| .cons (.inl (.inl ⟨default, rfl⟩)) <|
      .cons (.inl (.inl ⟨default, rfl⟩)) <| .cons (.inl (.inl ⟨default, rfl⟩)) .nil
  exact ⟨calls, _, hruns, hserved⟩

theorem files_of_writeCertOnDisk (hnames : m.options.certName ≠ m.options.keyName)
    {out : Option (CertError Err)} (hruns : Program.Runs m.writeCertOnDisk calls out)
    (hserved : Served (failing Rest Err) s calls s')
    (hcalls : ∀ call ∈ calls, fileWriteFailed call = false) (hread : ReadBeforeWriting calls) :
    s'.files = s.files ∨ m.Synced s' := by
  obtain ⟨reply, rest, rfl, hrest⟩ := Program.runs_call_iff.mp hruns
  cases hserved with
  | cons hget hserved =>
    obtain rfl := eq_of_handles_isRead hget rfl
    cases reply with
    | error err =>
      have hnotFound : isNotFound err := by
        by_contra herr
        rw [runs_writeCertOnDisk_error_iff, if_neg herr] at hruns
        obtain ⟨reply, rest, rfl, -⟩ := Program.runs_call_iff.mp hruns
        have hmisread := hread [] _ _ reply rest rfl
        simp only [misread, Bool.not_eq_false'] at hmisread
        exact herr hmisread
      obtain ⟨rfl, -⟩ := runs_writeCertOnDisk_notFound hnotFound hruns
      cases hserved
      exact .inl rfl
    | ok secret =>
      have hsecret := secret_of_handles hget
      rw [List.forall_mem_cons] at hcalls
      rcases eq_of_writeFiles hrest hserved hcalls.2 with rfl | rfl
      · exact .inl rfl
      · refine .inr ⟨secret, hsecret, ?_, ?_⟩
        · simp [World.putFile, hnames]
        · simp [World.putFile]

theorem kept_of_notFound {err : Err} {out : Option (CertError Err)} (herr : isNotFound err)
    (hruns : Program.Runs m.writeCertOnDisk (⟨.getSecret m.secretRef, .error err⟩ :: calls) out)
    (hserved : Served (failing Rest Err) s (⟨.getSecret m.secretRef, .error err⟩ :: calls) s') :
    out ≠ none ∧ s'.files = s.files := by
  obtain ⟨rfl, rfl⟩ := runs_writeCertOnDisk_notFound herr hruns
  cases hserved with
  | cons hget hserved =>
    cases hserved
    rw [eq_of_handles_isRead hget rfl]
    exact ⟨by simp, rfl⟩

theorem files_of_run (hnames : m.options.certName ≠ m.options.keyName)
    {out : Option (CertError Err)} (hruns : Program.Runs (m.run std) calls out)
    (hserved : Served (failing Rest Err) s calls s')
    (hcalls : ∀ call ∈ calls, fileWriteFailed call = false) (hread : ReadBeforeWriting calls) :
    s'.files = s.files ∨ m.Synced s' := by
  obtain ⟨first, hostCert, rest, rfl, hexists, hrest⟩ := Program.runs_bind_iff.mp hruns
  obtain ⟨second, ⟨changed, err⟩, third, rfl, hrefresh, hwrite⟩ := Program.runs_bind_iff.mp hrest
  obtain ⟨mid, hserved₁, hserved⟩ := served_append_iff.mp hserved
  obtain ⟨mid', hserved₂, hserved₃⟩ := served_append_iff.mp hserved
  -- Until the files are written, they stay as they are.
  have hfiles : mid.files = s.files := only_certExists.observe_eq
    (fun _ _ _ _ ↦ files_of_handles) (yields_of_served hexists hserved₁ fun _ _ _ _ h ↦ h)
  have hfiles' : mid'.files = mid.files := only_refreshCert.observe_eq
    (fun _ _ _ _ ↦ files_of_handles) (yields_of_served hrefresh hserved₂ fun _ _ _ _ h ↦ h)
  have hdone {out' : Option (CertError Err)}
      (hdone : Program.Runs (.done out') third out) : s'.files = s.files := by
    obtain ⟨rfl, -⟩ := Program.runs_done_iff.mp hdone
    cases hserved₃
    rw [hfiles', hfiles]
  cases err with
  | some err => exact .inl (hdone hwrite)
  | none =>
    dsimp only at hwrite
    split at hwrite
    · have hcalls' : ∀ call ∈ third, fileWriteFailed call = false := fun call hcall ↦
        hcalls call (List.mem_append_right _ (List.mem_append_right _ hcall))
      rw [← hfiles, ← hfiles']
      exact files_of_writeCertOnDisk hnames hwrite hserved₃ hcalls' hread.of_append.of_append
    · exact .inl (hdone hwrite)

/-- **The files after a failed read.** A failure of the Secret's read leaves the files alone and is
returned if and only if it says that there is no Secret. Whatever fails in a run apart from writes
to files, if the Secret is not misread before the files are written, then they are as before or hold
what the Secret holds. -/
theorem writeCertOnDisk_failedRead_iff (m : Manager)
    (hnames : m.options.certName ≠ m.options.keyName) :
    (∀ (s : World Rest) (err : Err),
      (∀ calls out s',
        Program.Runs m.writeCertOnDisk (⟨.getSecret m.secretRef, .error err⟩ :: calls) out →
        Served (failing Rest Err) s (⟨.getSecret m.secretRef, .error err⟩ :: calls) s' →
          out ≠ none ∧ s'.files = s.files) ↔ isNotFound err) ∧
    ∀ (std : Stdlib Err) (s s' : World Rest) calls out, Program.Runs (m.run std) calls out →
      Served (failing Rest Err) s calls s' → (∀ call ∈ calls, fileWriteFailed call = false) →
      ReadBeforeWriting calls → s'.files = s.files ∨ m.Synced s' := by
  constructor
  · intro s err
    constructor
    · intro hkept
      by_contra herr
      obtain ⟨calls, s', hruns, hserved⟩ := runs_writeCertOnDisk_misread m s herr
      exact (hkept calls none s' hruns hserved).1 rfl
    · intro herr calls out s' hruns hserved
      exact kept_of_notFound herr hruns hserved
  · intro std s s' calls out hruns hserved hcalls hread
    exact files_of_run hnames hruns hserved hcalls hread

end Writing

/-! ## A read that is refused -/

/-- A run of a replica that cannot read the Secret. -/
def refusedRun : List (certCalls Unit GoError).Call × Option (CertError GoError) × World Unit :=
  ((replica "/a").run byteStdlib).interpret refuseReads
    ((bundledWorld.putFile "/a" defaultCertName (some (certsAt 0).cert)).putFile "/a"
      defaultKeyName (some (certsAt 0).key))

/-- The run returns nil, the files are empty though they exist, and the Secret is not. -/
theorem writeCertOnDisk_failedRead_empties :
    refusedRun.2.1 = none ∧
      refusedRun.2.2.files "/a" defaultCertName = some [] ∧
      refusedRun.2.2.files "/a" defaultKeyName = some [] ∧
      (replica "/a").filesExist refusedRun.2.2 ∧
      refusedRun.2.2.storedCerts (replica "/a").secretRef = some (certsAt 0) ∧
      (certsAt 0).cert ≠ [] := by
  decide

/-- Without a Secret nothing is written. -/
theorem writeCertOnDisk_failedRead_missing :
    isNotFound (newNotFound "webhook-secret" : GoError) ∧
      ∀ (s : World Unit) calls out s',
        Program.Runs (replica "/a").writeCertOnDisk
          (⟨.getSecret (replica "/a").secretRef, .error (newNotFound "webhook-secret")⟩ :: calls)
          out →
        Served (failing Unit GoError) s
          (⟨.getSecret (replica "/a").secretRef, .error (newNotFound "webhook-secret")⟩ :: calls)
          s' →
          out ≠ none ∧ s'.files = s.files :=
  ⟨rfl, fun s ↦ ((writeCertOnDisk_failedRead_iff (replica "/a") (by decide)).1 s _).mpr rfl⟩

end OperatorToolkit.Cert
