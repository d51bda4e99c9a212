import OperatorToolkit.Cert.Reads
import OperatorToolkit.Cert.Disk

/-!
# A valid certificate is kept

`EnsureCert` should replace a certificate only if there is none, or if the stored one is not valid
for the server name. `read` tells a missing Secret from other outcomes, but takes every other
failure of `Get` for a Secret without data, which is not valid and is overwritten. So a valid
certificate is kept, whatever the generator and the other calls do, exactly as long as `Get` fails
with `NotFound` only.
-/

namespace OperatorToolkit.Cert

open Interaction Object

variable {Rest Err : Type} [StatusErrors Err] {s : World Rest} {w : SecretCertWriter}
  {std : Stdlib Err} {dnsName : String}

/-- The stored artifacts change only if there was no Secret or if they were not valid. -/
def KeepsValid (w : SecretCertWriter) (std : Stdlib Err) (dnsName : String) (s s' : World Rest) :
    Prop :=
  s'.storedCerts w.secret ≠ s.storedCerts w.secret →
    s.secrets w.secret = none ∨ validCert std (s.storedCerts w.secret) dnsName s.now = false

/-! ## After a misread Get -/

/-- Without certificates in hand, new ones are written into the Secret. -/
theorem replaceInvalid_overwrites (certs : Artifacts) (changed : Bool)
    (hpresent : (s.secrets w.secret).isSome) :
    ∃ calls, Program.Runs (w.replaceInvalid std dnsName none changed) calls (.ok certs, true) ∧
      Served (unreliable Rest Err) s calls (s.putSecret (certsToSecret certs w.secret)) := by
  refine ⟨[⟨.now, s.now⟩, ⟨.generate dnsName, .ok certs⟩,
    ⟨.updateSecret (certsToSecret certs w.secret), none⟩], ?_, ?_⟩
  · exact .call (.call (.call (.done _)))
  · have hupdate : s.answer Err certs (.updateSecret (certsToSecret certs w.secret)) =
        (none, s.putSecret (certsToSecret certs w.secret)) := if_pos hpresent
    exact .cons (.inl (.inl ⟨certs, rfl⟩)) <| .cons (.inl (.inl ⟨certs, rfl⟩)) <|
      .cons (.inl (.inl ⟨certs, hupdate⟩)) .nil

/-- A failed `Get` is an error of `read` if the Secret is missing, and else no certificate. -/
theorem runs_read_error (err : Err) :
    Program.Runs (w.read : Program (certCalls Rest Err) _) [⟨.getSecret w.secret, .error err⟩]
      (if isNotFound err then .error (.notFoundError err) else .ok none) := by
  have hrest : Program.Runs (if isNotFound err then .done (.error (.notFoundError err))
      else SecretCertWriter.certsOf { namespacedName := { name := "" }, data := none } :
        Program (certCalls Rest Err) _) []
      (if isNotFound err then .error (.notFoundError err) else .ok none) := by
    split <;> exact .done _
  exact .call hrest

theorem read_misread {err : Err} (herr : ¬isNotFound err) :
    Program.Runs (w.read : Program (certCalls Rest Err) _) [⟨.getSecret w.secret, .error err⟩]
      (.ok none) := by
  simpa only [if_neg herr] using runs_read_error err

theorem read_notFound {err : Err} (herr : isNotFound err) :
    Program.Runs (w.read : Program (certCalls Rest Err) _) [⟨.getSecret w.secret, .error err⟩]
      (.error (.notFoundError err)) := by
  simpa only [if_pos herr] using runs_read_error err

theorem write_alreadyExists {certs : Artifacts} {err : Err} (herr : isAlreadyExists err) :
    Program.Runs (w.write dnsName : Program (certCalls Rest Err) _)
      [⟨.generate dnsName, .ok certs⟩, ⟨.createSecret (certsToSecret certs w.secret), some err⟩]
      (.error (.alreadyExistError err)) := by
  have hrest : Program.Runs (if isAlreadyExists err then .done (.error (.alreadyExistError err))
      else .done (.error (.plain err)) : Program (certCalls Rest Err) _) []
        (.error (.alreadyExistError err) : Except (CertError Err) Artifacts) := by
    rw [if_pos herr]
    exact .done _
  exact .call (.call hrest)

/-- Whichever read was misread, it can be the reason that there are no certificates in hand. -/
theorem createIfNotExists_misread {reads : List (certCalls Rest Err).Call}
    (hreads : ReadsOf w reads) (hmisread : ∃ call ∈ reads, misread call)
    (hpresent : (s.secrets w.secret).isSome) :
    ∃ calls changed, gets calls = reads ∧
      Program.Runs (w.createIfNotExists dnsName) calls (.ok none, changed) ∧
      Served (unreliable Rest Err) s calls s := by
  obtain ⟨call, hcall, hmisread⟩ := hmisread
  obtain ⟨reply, rfl | ⟨err, hnotFound, rfl⟩⟩ := hreads
  · obtain rfl := List.mem_singleton.mp hcall
    cases reply with
    | ok secret => cases hmisread
    | error err =>
      have herr : ¬isNotFound err := by simpa [misread] using hmisread
      refine ⟨[⟨.getSecret w.secret, .error err⟩], false, rfl, ?_, .cons (.inr .getSecret) .nil⟩
      exact Program.runs_bind_iff.mpr ⟨[_], _, [], rfl, read_misread herr, .done _⟩
  · rcases List.mem_pair.mp hcall with rfl | rfl
    · simp [misread, hnotFound] at hmisread
    cases reply with
    | ok secret => cases hmisread
    | error err' =>
      have herr' : ¬isNotFound err' := by simpa [misread] using hmisread
      let certs : Artifacts := default
      let conflict : Err := newAlreadyExists w.secret.name
      have hconflict : isAlreadyExists conflict := StatusErrors.isAlreadyExists_newAlreadyExists _
      have hcreate : s.answer Err certs (.createSecret (certsToSecret certs w.secret)) =
          (some conflict, s) := if_pos hpresent
      refine ⟨[⟨.getSecret w.secret, .error err⟩, ⟨.generate dnsName, .ok certs⟩,
        ⟨.createSecret (certsToSecret certs w.secret), some conflict⟩,
        ⟨.getSecret w.secret, .error err'⟩], true, rfl, ?_, ?_⟩
      · have hagain : Program.Runs (do return (← w.read, true) : Program (certCalls Rest Err) _)
            [⟨.getSecret w.secret, .error err'⟩] (.ok none, true) :=
          Program.runs_bind_iff.mpr ⟨[_], _, [], rfl, read_misread herr', .done _⟩
        exact Program.runs_bind_iff.mpr ⟨[_], _, _, rfl, read_notFound hnotFound,
          Program.runs_bind_iff.mpr ⟨[_, _], _, _, rfl, write_alreadyExists hconflict, hagain⟩⟩
      · exact .cons (.inr .getSecret) <| .cons (.inl (.inl ⟨certs, rfl⟩)) <|
          .cons (.inl (.inl ⟨certs, hcreate⟩)) <| .cons (.inr .getSecret) .nil

theorem exists_ne_storedCerts (stored : Option Artifacts) : ∃ certs, some certs ≠ stored := by
  cases stored with
  | none => exact ⟨default, Option.some_ne_none _⟩
  | some stored =>
    refine ⟨{ stored with key := 0 :: stored.key }, fun heq ↦ ?_⟩
    exact List.cons_ne_self 0 stored.key (congrArg Artifacts.key (Option.some.inj heq))

/-- A misread `Get` can lead to other certificates in the Secret. -/
theorem exists_replacing_run (hname : dnsName ≠ "") {reads : List (certCalls Rest Err).Call}
    (hreads : ReadsOf w reads) (hmisread : ∃ call ∈ reads, misread call)
    (hpresent : (s.secrets w.secret).isSome) :
    ∃ calls out s', Program.Runs (w.ensureCert std dnsName) calls out ∧
      Served (unreliable Rest Err) s calls s' ∧ gets calls = reads ∧
      s'.storedCerts w.secret ≠ s.storedCerts w.secret := by
  obtain ⟨calls₀, changed, hgets, hruns₀, hserved₀⟩ :=
    createIfNotExists_misread hreads hmisread hpresent
  obtain ⟨certs, hcerts⟩ := exists_ne_storedCerts (s.storedCerts w.secret)
  obtain ⟨calls₁, hruns₁, hserved₁⟩ :=
    @replaceInvalid_overwrites _ _ _ s w std dnsName certs changed hpresent
  refine ⟨calls₀ ++ calls₁, (.ok certs, true), _, ?_, hserved₀.append hserved₁, ?_, ?_⟩
  · unfold SecretCertWriter.ensureCert SecretCertWriter.handleCommon
    rw [if_neg hname]
    exact Program.runs_bind_iff.mpr ⟨calls₀, _, calls₁, rfl, hruns₀, hruns₁⟩
  · rw [gets_append, hgets, gets_replaceInvalid hruns₁, List.append_nil]
  · simpa using hcerts

/-- **A valid certificate is kept.** Given what the reads of one call return, no behaviour of the
generator and of the other calls makes `EnsureCert` replace a valid certificate, if and only if none
of these reads fails with another error than `NotFound`. -/
theorem ensureCert_keeps_valid_iff {calls : List (certCalls Rest Err).Call}
    {out : Except (CertError Err) Artifacts × Bool}
    (hruns : Program.Runs (w.ensureCert std dnsName) calls out) :
    (∀ calls₁ out₁ s₁, Program.Runs (w.ensureCert std dnsName) calls₁ out₁ →
        Served (unreliable Rest Err) s calls₁ s₁ → gets calls₁ = gets calls →
        KeepsValid w std dnsName s s₁) ↔
      s.secrets w.secret = none ∨ validCert std (s.storedCerts w.secret) dnsName s.now = false ∨
        ∀ call ∈ calls, ¬misread call := by
  constructor
  · intro hkeeps
    by_contra hcond
    push Not at hcond
    obtain ⟨hsecret, hvalid, call, hcall, hmis⟩ := hcond
    have hmem := mem_gets_of_misread hcall hmis
    obtain ⟨hname, hreads⟩ : dnsName ≠ "" ∧ ReadsOf w (gets calls) := by
      refine (gets_ensureCert hruns).resolve_left fun hnil ↦ ?_
      rw [hnil] at hmem
      cases hmem
    obtain ⟨calls₁, out₁, s₁, hruns₁, hserved₁, hgets, hne⟩ :=
      @exists_replacing_run _ _ _ s w std dnsName hname _ hreads ⟨call, hmem, hmis⟩
        (Option.isSome_iff_ne_none.mpr hsecret)
    rcases hkeeps calls₁ out₁ s₁ hruns₁ hserved₁ hgets hne with habsent | hinvalid
    · exact hsecret habsent
    · exact hvalid hinvalid
  · intro hcond calls₁ out₁ s₁ hruns₁ hserved₁ hgets hne
    rcases hcond with habsent | hinvalid | hread
    · exact .inl habsent
    · exact .inr hinvalid
    · by_contra hvalid
      have hread₁ : ∀ call ∈ calls₁, ¬misread call := by
        intro call hcall hmis
        have hmem := hgets ▸ mem_gets_of_misread hcall hmis
        exact hread call (List.mem_of_mem_filter hmem) hmis
      have hyields : Yields (readable Rest Err) s (w.ensureCert std dnsName) out₁ s₁ :=
        yields_of_served hruns₁ hserved₁ fun call hcall t t' hhandles ↦
          ⟨hhandles, by simpa using hread₁ call hcall⟩
      have hkept : s₁ = s := readable_ensureCert (by simpa using (not_or.mp hvalid).2) hyields
      exact hne (by rw [hkept])

/-! ## A refused connection -/

section Refused

def webhookWriter : SecretCertWriter := ⟨⟨"default", "webhook-secret"⟩⟩

/-- The Secret holds a certificate that stays valid for ten units of time. -/
def storedWorld : World Unit :=
  freshWorld.putSecret (certsToSecret (certsAt 0) webhookWriter.secret)

/-- `Get` fails; the generator comes up with another certificate. -/
def respondRefused (s : World Unit) (request : CertRequest Unit) :
    (certCalls Unit GoError).Reply request × World Unit :=
  match request with
  | .getSecret _ => (.error ⟨["connection refused"]⟩, s)
  | request => s.answer GoError (certsAt 1) request

theorem served_respondRefused (s : World Unit) (request : CertRequest Unit) :
    (unreliable Unit GoError).Handles s request (respondRefused s request).1
      (respondRefused s request).2 := by
  cases request with
  | getSecret n => exact .inr .getSecret
  | _ => exact .inl (.inl ⟨certsAt 1, rfl⟩)

theorem ensureCert_keeps_storedWorld :
    let program : Program (certCalls Unit GoError) _ :=
      webhookWriter.ensureCert byteStdlib "webhook-service.default.svc"
    ∀ calls₁ out₁ s₁, Program.Runs program calls₁ out₁ →
      Served (unreliable Unit GoError) storedWorld calls₁ s₁ →
      gets calls₁ = gets (program.interpret respond storedWorld).1 →
      KeepsValid webhookWriter byteStdlib "webhook-service.default.svc" storedWorld s₁ := by
  intro program
  refine (ensureCert_keeps_valid_iff (program.runs_interpret storedWorld)).mpr ?_
  exact .inr (.inr (by decide))

/-- The stored certificate is valid and is replaced, because it could not be read. -/
theorem ensureCert_replaces_valid :
    storedWorld.storedCerts webhookWriter.secret = some (certsAt 0) ∧
      validCert byteStdlib (some (certsAt 0)) "webhook-service.default.svc" storedWorld.now ∧
      ∃ calls s', Program.Runs
          (webhookWriter.ensureCert byteStdlib "webhook-service.default.svc") calls
          (.ok (certsAt 1), true) ∧
        Served (unreliable Unit GoError) storedWorld calls s' ∧
        s'.storedCerts webhookWriter.secret = some (certsAt 1) ∧ certsAt 1 ≠ certsAt 0 := by
  let program : Program (certCalls Unit GoError) _ :=
    webhookWriter.ensureCert byteStdlib "webhook-service.default.svc"
  have hruns := @Program.runs_interpret _ _ _ respondRefused program storedWorld
  have hserved := program.served_interpret served_respondRefused storedWorld
  exact ⟨by decide, by decide, _, _, hruns, hserved, by decide, by decide⟩

end Refused

end OperatorToolkit.Cert
