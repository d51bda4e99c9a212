import OperatorToolkit.Cert.Reliable

/-!
# Reading the Secret while calls fail

Every call of `EnsureCert` may fail with any error. What it does about the certificates depends on
what its reads of the Secret return: one read, and a second one if the Secret was missing at first
and has been created by somebody else. As long as each of them returns the Secret or reports it
missing, a valid certificate is not touched.
-/

namespace OperatorToolkit.Cert

open Interaction Object

variable {Rest Err : Type} [StatusErrors Err] {s s' : World Rest}

/-- `Get` may fail with any error, also with `NotFound` for a Secret that is there. -/
inductive GetFails : World Rest → (request : CertRequest Rest) →
    (certCalls Rest Err).Reply request → World Rest → Prop where
  | getSecret {s n} {err : Err} : GetFails s (.getSecret n) (.error err) s

/-- Every call may fail, with any error; failed writes may have taken effect or not. -/
def unreliable (Rest Err : Type) [StatusErrors Err] :
    Service (certCalls Rest Err) (World Rest) where
  Handles s request reply s' :=
    (service Rest Err).Handles s request reply s' ∨ GetFails s request reply s'
  Breaks _ _ _ := False
  Rely _ _ := False

/-- A `Get` of a Secret that failed with another error than `NotFound`. -/
def misread : (certCalls Rest Err).Call → Bool
  | ⟨.getSecret _, .error err⟩ => !isNotFound err
  | _ => false

/-- Every call may fail, but no `Get` is misread. -/
def readable (Rest Err : Type) [StatusErrors Err] : Service (certCalls Rest Err) (World Rest) where
  Handles s request reply s' :=
    (unreliable Rest Err).Handles s request reply s' ∧ misread ⟨request, reply⟩ = false
  Breaks _ _ _ := False
  Rely _ _ := False

/-! ## While no Get is misread -/

section Readable

theorem handles_getSecret {n : NamespacedName} {reply : Except Err Secret}
    (h : (readable Rest Err).Handles s (.getSecret n) reply s') :
    s' = s ∧ ((∃ secret, reply = .ok secret ∧ s.secrets n = some secret) ∨
      ∃ err, reply = .error err ∧ isNotFound err) := by
  obtain ⟨((⟨certs, hanswer⟩ | hfails) | hfails), hread⟩ := h
  · obtain ⟨hreply, rfl⟩ := Prod.mk.inj hanswer
    refine ⟨rfl, ?_⟩
    cases hsecret : s.secrets n with
    | none =>
      rw [hsecret] at hreply
      exact .inr ⟨_, hreply.symm, StatusErrors.isNotFound_newNotFound _⟩
    | some secret =>
      rw [hsecret] at hreply
      exact .inl ⟨secret, hreply.symm, rfl⟩
  · cases hfails with
    | getSecret => exact ⟨rfl, .inr ⟨_, rfl, by simpa [misread] using hread⟩⟩
  · cases hfails with
    | getSecret => exact ⟨rfl, .inr ⟨_, rfl, by simpa [misread] using hread⟩⟩

theorem handles_createSecret {secret : Secret} {reply : Option Err}
    (h : (readable Rest Err).Handles s (.createSecret secret) reply s')
    (hpresent : (s.secrets secret.namespacedName).isSome) : s' = s ∧ reply ≠ none := by
  obtain ⟨((⟨certs, hanswer⟩ | hfails) | hfails), -⟩ := h
  · rw [World.answer, if_pos hpresent] at hanswer
    obtain ⟨rfl, rfl⟩ := Prod.mk.inj hanswer
    exact ⟨rfl, nofun⟩
  · cases hfails with
    | createSecret => exact ⟨rfl, nofun⟩
    | secretCreated habsent => simp [habsent] at hpresent
  · cases hfails

theorem handles_now {reply : Time} (h : (readable Rest Err).Handles s .now reply s') :
    reply = s.now ∧ s' = s := by
  obtain ⟨((⟨certs, hanswer⟩ | hfails) | hfails), -⟩ := h
  · obtain ⟨rfl, rfl⟩ := Prod.mk.inj hanswer
    exact ⟨rfl, rfl⟩
  · cases hfails
  · cases hfails

theorem handles_generate {name : String} {reply : Except Err Artifacts}
    (h : (readable Rest Err).Handles s (.generate name) reply s') : s' = s := by
  obtain ⟨((⟨certs, hanswer⟩ | hfails) | hfails), -⟩ := h
  · exact (Prod.mk.inj hanswer).2.symm
  · cases hfails
    rfl
  · cases hfails

theorem handles_setCA {caKey caCert : Bytes} {reply : Unit}
    (h : (readable Rest Err).Handles s (.setCA caKey caCert) reply s') : s' = s := by
  obtain ⟨((⟨certs, hanswer⟩ | hfails) | hfails), -⟩ := h
  · exact (Prod.mk.inj hanswer).2.symm
  · cases hfails
  · cases hfails

variable {w : SecretCertWriter} {std : Stdlib Err} {dnsName : String} {secret : Secret}

theorem readable_read (hsecret : s.secrets w.secret = some secret)
    {out : Except (CertError Err) (Option Artifacts)}
    (h : Yields (readable Rest Err) s w.read out s') :
    s' = s ∧ (out = .ok (secretToCerts secret) ∨ ∃ err, out = .error (.notFoundError err)) := by
  obtain ⟨reply, mid, hget, hrest⟩ := yields_call_iff.mp h
  obtain ⟨rfl, ⟨found, rfl, hfound⟩ | ⟨err, rfl, herr⟩⟩ := handles_getSecret hget
  · obtain rfl := Option.some.inj (hsecret.symm.trans hfound)
    obtain ⟨hs, hout⟩ := yields_certsOf (fun _ _ _ _ _ ↦ handles_setCA) hrest
    exact ⟨hs, .inl hout⟩
  · have hif : Yields (readable Rest Err) mid
        (if isNotFound err then .done (.error (.notFoundError err)) else _) out s' := hrest
    rw [if_pos herr] at hif
    obtain ⟨rfl, rfl⟩ := yields_done_iff.mp hif
    exact ⟨rfl, .inr ⟨err, rfl⟩⟩

theorem readable_buildSecret {out : Except (CertError Err) (Secret × Artifacts)}
    (h : Yields (readable Rest Err) s (w.buildSecret dnsName) out s') :
    s' = s ∧ ∀ built certs, out = .ok (built, certs) → built = certsToSecret certs w.secret := by
  obtain ⟨reply, mid, hgenerate, hrest⟩ := yields_call_iff.mp h
  obtain rfl := handles_generate hgenerate
  cases reply with
  | error err =>
    obtain ⟨rfl, rfl⟩ := yields_done_iff.mp hrest
    exact ⟨rfl, nofun⟩
  | ok certs =>
    obtain ⟨rfl, rfl⟩ := yields_done_iff.mp hrest
    refine ⟨rfl, fun built certs' heq ↦ ?_⟩
    cases heq
    rfl

/-- Nothing is created in the place of a Secret that is there. -/
theorem readable_write (hsecret : s.secrets w.secret = some secret)
    {out : Except (CertError Err) Artifacts}
    (h : Yields (readable Rest Err) s (w.write dnsName) out s') :
    s' = s ∧ ∃ err, out = .error err := by
  obtain ⟨built, mid, hbuild, hrest⟩ := yields_bind_iff.mp h
  obtain ⟨rfl, hbuilt⟩ := readable_buildSecret hbuild
  cases built with
  | error err =>
    obtain ⟨rfl, rfl⟩ := yields_done_iff.mp hrest
    exact ⟨rfl, err, rfl⟩
  | ok built =>
    obtain ⟨toCreate, certs⟩ := built
    obtain rfl := hbuilt _ _ rfl
    obtain ⟨reply, mid', hcreate, hreturn⟩ := yields_call_iff.mp hrest
    obtain ⟨rfl, hreply⟩ := handles_createSecret hcreate (by simp [certsToSecret, hsecret])
    cases reply with
    | none => exact absurd rfl hreply
    | some err =>
      have hif : Yields (readable Rest Err) mid'
          (if isAlreadyExists err then .done (.error (.alreadyExistError err))
            else .done (.error (.plain err))) out s' := hreturn
      split at hif <;> obtain ⟨rfl, rfl⟩ := yields_done_iff.mp hif <;> exact ⟨rfl, _, rfl⟩

theorem readable_createIfNotExists (hsecret : s.secrets w.secret = some secret)
    {out : Except (CertError Err) (Option Artifacts)} {changed : Bool}
    (h : Yields (readable Rest Err) s (w.createIfNotExists dnsName) (out, changed) s') :
    s' = s ∧ (out = .ok (secretToCerts secret) ∨ ∃ err, out = .error err) := by
  obtain ⟨found, mid, hread, hrest⟩ := yields_bind_iff.mp h
  obtain ⟨rfl, rfl | ⟨err, rfl⟩⟩ := readable_read hsecret hread
  · obtain ⟨hout, rfl⟩ := yields_done_iff.mp hrest
    exact ⟨rfl, .inl (Prod.mk.inj hout).1⟩
  · obtain ⟨written, mid', hwrite, hreturn⟩ := yields_bind_iff.mp hrest
    obtain ⟨rfl, err', rfl⟩ := readable_write hsecret hwrite
    cases err' with
    | alreadyExistError err' =>
      obtain ⟨again, mid'', hagain, hdone⟩ := yields_bind_iff.mp hreturn
      obtain ⟨hmid, hcases⟩ := readable_read hsecret hagain
      obtain ⟨hout, rfl⟩ := yields_done_iff.mp hdone
      obtain rfl := (Prod.mk.inj hout).1
      exact ⟨hmid, hcases.imp_right fun ⟨err, herr⟩ ↦ ⟨_, herr⟩⟩
    | plain err' | notFoundError err' =>
      obtain ⟨hout, rfl⟩ := yields_done_iff.mp hreturn
      exact ⟨rfl, .inr ⟨_, (Prod.mk.inj hout).1⟩⟩

theorem readable_replaceInvalid {certs : Option Artifacts} {changed : Bool}
    (hvalid : validCert std certs dnsName s.now)
    {out : Except (CertError Err) Artifacts × Bool}
    (h : Yields (readable Rest Err) s (w.replaceInvalid std dnsName certs changed) out s') :
    s' = s := by
  obtain ⟨next, hcall, hnext⟩ := w.replaceInvalid_cases Rest std dnsName certs changed
  rw [hcall] at h
  obtain ⟨now, mid, hnow, hrest⟩ := yields_call_iff.mp h
  obtain ⟨rfl, rfl⟩ := handles_now hnow
  rcases hnext mid.now with ⟨stored, -, -, hdone⟩ | ⟨hinvalid, -⟩
  · rw [hdone] at hrest
    exact (yields_done_iff.mp hrest).2
  · rw [hinvalid] at hvalid
    cases hvalid

/-- As long as no `Get` is misread, a valid certificate is not touched. -/
theorem readable_ensureCert (hvalid : validCert std (s.storedCerts w.secret) dnsName s.now)
    {out : Except (CertError Err) Artifacts × Bool}
    (h : Yields (readable Rest Err) s (w.ensureCert std dnsName) out s') : s' = s := by
  obtain ⟨secret, hsecret⟩ : ∃ secret, s.secrets w.secret = some secret := by
    cases hsecret : s.secrets w.secret with
    | none => simp [World.storedCerts, hsecret, validCert] at hvalid
    | some secret => exact ⟨secret, rfl⟩
  have hstored : s.storedCerts w.secret = secretToCerts secret := by
    simp [World.storedCerts, hsecret]
  unfold SecretCertWriter.ensureCert SecretCertWriter.handleCommon at h
  split at h
  · exact (yields_done_iff.mp h).2
  obtain ⟨⟨created, changed⟩, mid, hcreate, hrest⟩ := yields_bind_iff.mp h
  obtain ⟨rfl, rfl | ⟨err, rfl⟩⟩ := readable_createIfNotExists hsecret hcreate
  · exact readable_replaceInvalid (hstored ▸ hvalid) hrest
  · exact (yields_done_iff.mp hrest).2

end Readable

/-! ## What the Gets of a call are -/

section Gets

variable {Rest Err : Type} {w : SecretCertWriter} {std : Stdlib Err} {dnsName : String}
  {calls : List (certCalls Rest Err).Call}

/-- The reads of the Secret among the calls. -/
def gets (calls : List (certCalls Rest Err).Call) : List (certCalls Rest Err).Call :=
  calls.filter fun
    | ⟨.getSecret _, _⟩ => true
    | _ => false

theorem gets_append (calls calls' : List (certCalls Rest Err).Call) :
    gets (calls ++ calls') = gets calls ++ gets calls' :=
  List.filter_append ..

theorem gets_buildSecret {out : Except (CertError Err) (Secret × Artifacts)}
    (h : Program.Runs (w.buildSecret dnsName) calls out) : gets calls = [] := by
  obtain ⟨reply, rest, rfl, hrest⟩ := Program.runs_call_iff.mp h
  cases reply <;> obtain ⟨rfl, -⟩ := Program.runs_done_iff.mp hrest <;> rfl

theorem gets_overwrite {out : Except (CertError Err) Artifacts}
    (h : Program.Runs (w.overwrite dnsName) calls out) : gets calls = [] := by
  obtain ⟨first, built, rest, rfl, hbuild, hrest⟩ := Program.runs_bind_iff.mp h
  rw [gets_append, gets_buildSecret hbuild]
  cases built with
  | error err =>
    obtain ⟨rfl, -⟩ := Program.runs_done_iff.mp hrest
    rfl
  | ok built =>
    obtain ⟨reply, last, rfl, hlast⟩ := Program.runs_call_iff.mp hrest
    cases reply <;> obtain ⟨rfl, -⟩ := Program.runs_done_iff.mp hlast <;> rfl

theorem gets_certsOf {secret : Secret} {out : Except (CertError Err) (Option Artifacts)}
    (h : Program.Runs (SecretCertWriter.certsOf secret) calls out) :
    gets calls = [] ∧ out = .ok (secretToCerts secret) := by
  unfold SecretCertWriter.certsOf at h
  cases hcerts : secretToCerts secret with
  | none =>
    rw [hcerts] at h
    obtain ⟨rfl, rfl⟩ := Program.runs_done_iff.mp h
    exact ⟨rfl, rfl⟩
  | some certs =>
    rw [hcerts] at h
    obtain ⟨reply, rest, rfl, hdone⟩ := Program.runs_call_iff.mp h
    obtain ⟨rfl, rfl⟩ := Program.runs_done_iff.mp hdone
    exact ⟨rfl, rfl⟩

theorem gets_replaceInvalid {certs : Option Artifacts} {changed : Bool}
    {out : Except (CertError Err) Artifacts × Bool}
    (h : Program.Runs (w.replaceInvalid std dnsName certs changed) calls out) :
    gets calls = [] := by
  obtain ⟨next, hcall, hnext⟩ := w.replaceInvalid_cases Rest std dnsName certs changed
  rw [hcall] at h
  obtain ⟨now, rest, rfl, hrest⟩ := Program.runs_call_iff.mp h
  change gets rest = []
  rcases hnext now with ⟨stored, -, -, hdone⟩ | ⟨-, hoverwrite⟩
  · rw [hdone] at hrest
    obtain ⟨rfl, -⟩ := Program.runs_done_iff.mp hrest
    rfl
  · rw [hoverwrite] at hrest
    obtain ⟨first, written, last, rfl, hruns, hreturn⟩ := Program.runs_bind_iff.mp hrest
    rw [gets_append, gets_overwrite hruns]
    cases written <;> obtain ⟨rfl, -⟩ := Program.runs_done_iff.mp hreturn <;> rfl

variable [StatusErrors Err]

theorem mem_gets_of_misread {call : (certCalls Rest Err).Call} (hcall : call ∈ calls)
    (hmisread : misread call) : call ∈ gets calls := by
  refine List.mem_filter.mpr ⟨hcall, ?_⟩
  unfold misread at hmisread
  split at hmisread
  · rfl
  · cases hmisread

theorem gets_write {out : Except (CertError Err) Artifacts}
    (h : Program.Runs (w.write dnsName) calls out) : gets calls = [] := by
  obtain ⟨first, built, rest, rfl, hbuild, hrest⟩ := Program.runs_bind_iff.mp h
  rw [gets_append, gets_buildSecret hbuild]
  cases built with
  | error err =>
    obtain ⟨rfl, -⟩ := Program.runs_done_iff.mp hrest
    rfl
  | ok built =>
    obtain ⟨reply, last, rfl, hlast⟩ := Program.runs_call_iff.mp hrest
    cases reply with
    | none =>
      obtain ⟨rfl, -⟩ := Program.runs_done_iff.mp hlast
      rfl
    | some err =>
      have hif : Program.Runs (if isAlreadyExists err then .done (.error (.alreadyExistError err))
        else .done (.error (.plain err))) last out := hlast
      split at hif <;> obtain ⟨rfl, -⟩ := Program.runs_done_iff.mp hif <;> rfl

/-- One read; it fails only if the Secret was reported missing. -/
theorem gets_read {out : Except (CertError Err) (Option Artifacts)}
    (h : Program.Runs w.read calls out) :
    ∃ reply : Except Err Secret, gets calls = [⟨.getSecret w.secret, reply⟩] ∧
      ∀ err, out = .error err → ∃ err', reply = .error err' ∧ isNotFound err' := by
  obtain ⟨reply, rest, rfl, hrest⟩ := Program.runs_call_iff.mp h
  refine ⟨reply, ?_⟩
  cases reply with
  | ok secret =>
    obtain ⟨hgets, rfl⟩ := gets_certsOf hrest
    exact ⟨congrArg _ hgets, nofun⟩
  | error err =>
    have hif : Program.Runs (if isNotFound err then .done (.error (.notFoundError err))
      else SecretCertWriter.certsOf { namespacedName := { name := "" }, data := none })
        rest out := hrest
    split at hif
    next hnotFound =>
      obtain ⟨rfl, rfl⟩ := Program.runs_done_iff.mp hif
      exact ⟨rfl, fun _ _ ↦ ⟨err, rfl, hnotFound⟩⟩
    next =>
      obtain ⟨hgets, rfl⟩ := gets_certsOf hif
      exact ⟨congrArg _ hgets, nofun⟩

/-- The reads of one call: none, one, or a second one after a missing Secret. -/
def ReadsOf (w : SecretCertWriter) (reads : List (certCalls Rest Err).Call) : Prop :=
  ∃ reply : Except Err Secret, reads = [⟨.getSecret w.secret, reply⟩] ∨
    ∃ err : Err, isNotFound err ∧
      reads = [⟨.getSecret w.secret, .error err⟩, ⟨.getSecret w.secret, reply⟩]

theorem gets_createIfNotExists {out : Except (CertError Err) (Option Artifacts) × Bool}
    (h : Program.Runs (w.createIfNotExists dnsName) calls out) : ReadsOf w (gets calls) := by
  obtain ⟨first, found, rest, rfl, hread, hrest⟩ := Program.runs_bind_iff.mp h
  obtain ⟨reply, hgets, herror⟩ := gets_read hread
  rw [gets_append, hgets]
  cases found with
  | ok certs =>
    obtain ⟨rfl, -⟩ := Program.runs_done_iff.mp hrest
    exact ⟨reply, .inl rfl⟩
  | error err =>
    obtain ⟨err', rfl, hnotFound⟩ := herror err rfl
    cases err with
    | plain err | alreadyExistError err =>
      obtain ⟨rfl, -⟩ := Program.runs_done_iff.mp hrest
      exact ⟨_, .inl rfl⟩
    | notFoundError err =>
      obtain ⟨first', written, rest', rfl, hwrite, hreturn⟩ := Program.runs_bind_iff.mp hrest
      rw [gets_append, gets_write hwrite]
      cases written with
      | ok certs =>
        obtain ⟨rfl, -⟩ := Program.runs_done_iff.mp hreturn
        exact ⟨_, .inl rfl⟩
      | error err =>
        cases err with
        | plain err | notFoundError err =>
          obtain ⟨rfl, -⟩ := Program.runs_done_iff.mp hreturn
          exact ⟨_, .inl rfl⟩
        | alreadyExistError err =>
          obtain ⟨again, found, last, rfl, hagain, hdone⟩ := Program.runs_bind_iff.mp hreturn
          obtain ⟨rfl, -⟩ := Program.runs_done_iff.mp hdone
          obtain ⟨reply, hgets', -⟩ := gets_read hagain
          rw [gets_append, hgets']
          exact ⟨reply, .inr ⟨err', hnotFound, rfl⟩⟩

theorem gets_ensureCert {out : Except (CertError Err) Artifacts × Bool}
    (h : Program.Runs (w.ensureCert std dnsName) calls out) :
    gets calls = [] ∨ dnsName ≠ "" ∧ ReadsOf w (gets calls) := by
  unfold SecretCertWriter.ensureCert SecretCertWriter.handleCommon at h
  split at h
  · obtain ⟨rfl, -⟩ := Program.runs_done_iff.mp h
    exact .inl rfl
  next hname =>
    obtain ⟨first, ⟨created, changed⟩, rest, rfl, hcreate, hrest⟩ := Program.runs_bind_iff.mp h
    have hlast : gets rest = [] := by
      cases created with
      | error err =>
        obtain ⟨rfl, -⟩ := Program.runs_done_iff.mp hrest
        rfl
      | ok certs => exact gets_replaceInvalid hrest
    rw [gets_append, hlast, List.append_nil]
    exact .inr ⟨hname, gets_createIfNotExists hcreate⟩

end Gets

end OperatorToolkit.Cert
