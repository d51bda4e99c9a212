import OperatorToolkit.Cert.Kept
import OperatorToolkit.Interaction.Pool
import Mathlib.Data.Set.Finite.Basic

/-!
# Several instances ensure one certificate

Instances of the writer call `EnsureCert` on one Secret at the same time; each call to the API is
one step, and none fails. While there is no Secret the instances race to create it: the losers are
told that it exists and read it again. An invalid Secret is overwritten without a look at what it
holds by then, so the last of several writers wins and the others return certificates that are not
stored.
-/

namespace OperatorToolkit.Cert

open Interaction Object

variable {Rest Err : Type} [StatusErrors Err]

/-- The world, and the artifacts that have been generated so far. -/
abbrev Shared (Rest : Type) := World Rest × List Artifacts

/-- No call fails, and the generator comes up with artifacts that are new and valid. -/
inductive HandlesFresh (std : Stdlib Err) (dnsName : String) : Shared Rest →
    (request : CertRequest Rest) → (certCalls Rest Err).Reply request → Shared Rest → Prop where
  | generate {s used name certs} : validCert std (some certs) dnsName s.now → certs ∉ used →
      HandlesFresh std dnsName (s, used) (.generate name) (.ok certs) (s, certs :: used)
  | answer {s used request reply s' certs} : (∀ name, request ≠ .generate name) →
      s.answer Err certs request = (reply, s') →
      HandlesFresh std dnsName (s, used) request reply (s', used)

/-- Any Secret there is holds a valid certificate. -/
def StoresValid (std : Stdlib Err) (dnsName : String) (n : NamespacedName) (s : Shared Rest) :
    Prop :=
  ∀ secret, s.1.secrets n = some secret → validCert std (secretToCerts secret) dnsName s.1.now

/-- Other instances may create the Secret, but leave alone what is there. -/
def concurrent (Rest : Type) (std : Stdlib Err) (dnsName : String) (n : NamespacedName) :
    Service (certCalls Rest Err) (Shared Rest) where
  Handles := HandlesFresh std dnsName
  Breaks _ _ _ := False
  Rely s s' := StoresValid std dnsName n s' ∧ s'.1.now = s.1.now ∧
    ∀ secret, s.1.secrets n = some secret → s'.1.secrets n = some secret

/-- The Secret is only ever created, with a valid certificate. -/
def Careful (std : Stdlib Err) (dnsName : String) (n : NamespacedName) (s : Shared Rest) :
    CertRequest Rest → Prop
  | .getSecret _ | .now | .generate _ | .setCA _ _ => True
  | .createSecret secret => secret.namespacedName = n ∧
      validCert std (secretToCerts secret) dnsName s.1.now
  | _ => False

section Agreement

variable {α : Type} {std : Stdlib Err} {dnsName : String} {w : SecretCertWriter}

theorem handlesFresh_createSecret {s s' : Shared Rest} {secret : Secret} {reply : Option Err}
    (h : HandlesFresh std dnsName s (.createSecret secret) reply s') :
    ((s.1.secrets secret.namespacedName).isSome ∧ s' = s ∧
        ∃ err, reply = some err ∧ isAlreadyExists err) ∨
      (s.1.secrets secret.namespacedName = none ∧ s' = (s.1.putSecret secret, s.2) ∧
        reply = none) := by
  cases h with
  | @answer s used _ _ s' certs _ hanswer =>
    by_cases hpresent : (s.secrets secret.namespacedName).isSome
    · rw [World.answer, if_pos hpresent] at hanswer
      obtain ⟨rfl, rfl⟩ := Prod.mk.inj hanswer
      exact .inl ⟨hpresent, rfl, _, rfl, StatusErrors.isAlreadyExists_newAlreadyExists _⟩
    · rw [World.answer, if_neg hpresent] at hanswer
      obtain ⟨rfl, rfl⟩ := Prod.mk.inj hanswer
      exact .inr ⟨by simpa using hpresent, rfl, rfl⟩

theorem careful_guarantee (s : Shared Rest) (request : CertRequest Rest)
    (reply : (certCalls Rest Err).Reply request) (s' : Shared Rest)
    (hinv : StoresValid std dnsName w.secret s) (hguard : Careful std dnsName w.secret s request)
    (h : (concurrent Rest std dnsName w.secret).Handles s request reply s') :
    (concurrent Rest std dnsName w.secret).Rely s s' := by
  have hsame : (concurrent Rest std dnsName w.secret).Rely s s := ⟨hinv, rfl, fun _ ↦ id⟩
  cases request with
  | getSecret | now | setCA =>
    cases h with
    | answer _ hanswer =>
      obtain ⟨-, rfl⟩ := Prod.mk.inj hanswer
      exact hsame
  | generate name =>
    cases h with
    | generate => exact hsame
    | answer hother _ => exact absurd rfl (hother name)
  | createSecret secret =>
    obtain ⟨hname, hvalid⟩ := hguard
    rcases handlesFresh_createSecret h with ⟨-, rfl, -⟩ | ⟨habsent, rfl, -⟩
    · exact hsame
    · refine ⟨fun secret' hsecret' ↦ ?_, rfl, fun secret' hsecret' ↦ by simp_all⟩
      obtain rfl : secret = secret' := by simpa [World.putSecret, hname] using hsecret'
      exact hvalid
  | _ => cases hguard

/-! ### Assertions -/

/-- The Secret is there. -/
def Present (std : Stdlib Err) (dnsName : String) (n : NamespacedName) (s : Shared Rest) : Prop :=
  StoresValid std dnsName n s ∧ (s.1.secrets n).isSome

/-- The Secret holds these artifacts. -/
def Stored (std : Stdlib Err) (dnsName : String) (n : NamespacedName) (certs : Artifacts)
    (s : Shared Rest) : Prop :=
  StoresValid std dnsName n s ∧ s.1.storedCerts n = some certs

/-- The artifacts in hand are valid. -/
def InHand (std : Stdlib Err) (dnsName : String) (n : NamespacedName) (certs : Artifacts)
    (s : Shared Rest) : Prop :=
  StoresValid std dnsName n s ∧ validCert std (some certs) dnsName s.1.now

theorem stable_storesValid :
    (concurrent Rest std dnsName w.secret).Stable (StoresValid std dnsName w.secret) :=
  fun _ _ _ hrely ↦ hrely.1

theorem stable_present :
    (concurrent Rest std dnsName w.secret).Stable (Present std dnsName w.secret) := by
  rintro s s' ⟨-, hpresent⟩ ⟨hvalid, -, hkept⟩
  obtain ⟨secret, hsecret⟩ := Option.isSome_iff_exists.mp hpresent
  exact ⟨hvalid, Option.isSome_iff_exists.mpr ⟨secret, hkept secret hsecret⟩⟩

theorem stable_stored {certs : Artifacts} :
    (concurrent Rest std dnsName w.secret).Stable (Stored std dnsName w.secret certs) := by
  rintro s s' ⟨-, hstored⟩ ⟨hvalid, -, hkept⟩
  obtain ⟨secret, hsecret, hcerts⟩ := Option.bind_eq_some_iff.mp hstored
  exact ⟨hvalid, Option.bind_eq_some_iff.mpr ⟨secret, hkept secret hsecret, hcerts⟩⟩

theorem stable_inHand {certs : Artifacts} :
    (concurrent Rest std dnsName w.secret).Stable (InHand std dnsName w.secret certs) := by
  rintro s s' ⟨-, hcerts⟩ ⟨hvalid, hnow, -⟩
  exact ⟨hvalid, hnow ▸ hcerts⟩

omit [StatusErrors Err] in
theorem Stored.valid {certs : Artifacts} {s : Shared Rest}
    (h : Stored std dnsName w.secret certs s) : validCert std (some certs) dnsName s.1.now := by
  obtain ⟨secret, hsecret, hcerts⟩ := Option.bind_eq_some_iff.mp h.2
  exact hcerts ▸ h.1 secret hsecret

/-! ### The functions of the writer -/

/-- Safe among instances that only create the Secret. -/
abbrev SafeFor (std : Stdlib Err) (dnsName : String) (w : SecretCertWriter)
    (P : Shared Rest → Prop) (program : Program (certCalls Rest Err) α)
    (Q : α → Shared Rest → Prop) : Prop :=
  Safe (concurrent Rest std dnsName w.secret) (StoresValid std dnsName w.secret)
    (Careful std dnsName w.secret) P program Q

theorem safe_call {request : CertRequest Rest}
    {next : (certCalls Rest Err).Reply request → Program (certCalls Rest Err) α}
    {P : Shared Rest → Prop} {Q : α → Shared Rest → Prop}
    (post : (certCalls Rest Err).Reply request → Shared Rest → Prop)
    (hstable : (concurrent Rest std dnsName w.secret).Stable P)
    (hP : ∀ s, P s → StoresValid std dnsName w.secret s ∧ Careful std dnsName w.secret s request)
    (hpost : ∀ s reply s', P s → HandlesFresh std dnsName s request reply s' → post reply s')
    (hnext : ∀ reply, SafeFor std dnsName w (post reply) (next reply) Q) :
    SafeFor std dnsName w P (Program.call (S := certCalls Rest Err) request next) Q :=
  .call post hstable hP (fun _ _ _ hbreaks ↦ hbreaks.elim) hpost hnext

theorem safe_certsOf {secret : Secret} {certs : Artifacts}
    (hcerts : secretToCerts secret = some certs) :
    SafeFor std dnsName w (Stored std dnsName w.secret certs)
      (SecretCertWriter.certsOf secret : Program (certCalls Rest Err) _)
      fun out s ↦ out = .ok (some certs) ∧ Stored std dnsName w.secret certs s := by
  unfold SecretCertWriter.certsOf
  rw [hcerts]
  refine safe_call (fun _ ↦ Stored std dnsName w.secret certs) stable_stored
    (fun s hs ↦ ⟨hs.1, trivial⟩) ?_ fun _ ↦ .done stable_stored fun s hs ↦ ⟨hs.1, rfl, hs⟩
  intro s reply s' hs hhandles
  cases hhandles with
  | answer _ hanswer =>
    obtain ⟨-, rfl⟩ := Prod.mk.inj hanswer
    exact hs

/-- A read returns what is stored, or finds nothing. -/
theorem safe_read {P E : Shared Rest → Prop}
    (hstable : (concurrent Rest std dnsName w.secret).Stable P)
    (hP : ∀ s, P s → StoresValid std dnsName w.secret s)
    (hstableE : (concurrent Rest std dnsName w.secret).Stable E)
    (hE : ∀ s, P s → s.1.secrets w.secret = none → E s) :
    SafeFor std dnsName w P (w.read : Program (certCalls Rest Err) _)
      (fun
        | .ok (some certs) => Stored std dnsName w.secret certs
        | .ok none => fun _ ↦ False
        | .error (.notFoundError _) => fun s ↦ StoresValid std dnsName w.secret s ∧ E s
        | .error _ => fun _ ↦ False) := by
  refine safe_call
    (fun
      | .ok secret => fun s ↦ StoresValid std dnsName w.secret s ∧
          s.1.secrets w.secret = some secret
      | .error err => fun s ↦ isNotFound err ∧ StoresValid std dnsName w.secret s ∧ E s)
    hstable (fun s hs ↦ ⟨hP s hs, trivial⟩) ?_ ?_
  · intro s reply s' hs hhandles
    cases hhandles with
    | @answer s used _ _ s' certs _ hanswer =>
      obtain ⟨rfl, rfl⟩ := Prod.mk.inj hanswer
      have hvalid := hP _ hs
      cases hsecret : s.secrets w.secret with
      | none => exact ⟨StatusErrors.isNotFound_newNotFound _, hvalid, hE _ hs hsecret⟩
      | some secret => exact ⟨hvalid, hsecret⟩
  · rintro (err | secret)
    · refine .assume (fun s hs ↦ hs.1) fun herr ↦ ?_
      change SafeFor std dnsName w _ (if isNotFound err then
        .done (.error (.notFoundError err)) else SecretCertWriter.certsOf _) _
      rw [if_pos herr]
      refine .done ?_ fun s hs ↦ ⟨hs.2.1, hs.2⟩
      exact fun s s' hs hrely ↦ ⟨herr, hrely.1, hstableE s s' hs.2.2 hrely⟩
    · have hstored : (concurrent Rest std dnsName w.secret).Stable fun s ↦
          StoresValid std dnsName w.secret s ∧ s.1.secrets w.secret = some secret :=
        fun s s' hs hrely ↦ ⟨hrely.1, hrely.2.2 secret hs.2⟩
      cases hcerts : secretToCerts secret with
      | none =>
        refine .vacuous fun s hs ↦ ?_
        have hvalid := hs.1 secret hs.2
        rw [hcerts] at hvalid
        cases hvalid
      | some certs =>
        refine ((safe_certsOf hcerts).strengthen hstored fun s hs ↦ ⟨hs.1, ?_⟩).weaken ?_
        · simp [World.storedCerts, hs.2, hcerts]
        · rintro out s ⟨rfl, hs⟩
          exact hs

theorem safe_buildSecret :
    SafeFor std dnsName w (StoresValid std dnsName w.secret)
      (w.buildSecret dnsName : Program (certCalls Rest Err) _)
      (fun
        | .ok (secret, certs) => fun s ↦ secret = certsToSecret certs w.secret ∧
            InHand std dnsName w.secret certs s
        | .error _ => fun _ ↦ False) := by
  refine safe_call
    (fun
      | .ok certs => InHand std dnsName w.secret certs
      | .error _ => fun _ ↦ False)
    stable_storesValid (fun s hs ↦ ⟨hs, trivial⟩) ?_ ?_
  · intro s reply s' hs hhandles
    cases hhandles with
    | generate hvalid _ => exact ⟨hs, hvalid⟩
    | answer hother _ => exact absurd rfl (hother dnsName)
  · rintro (err | certs)
    · exact .vacuous fun _ ↦ id
    · exact .done stable_inHand fun s hs ↦ ⟨hs.1, rfl, hs⟩

/-- The Secret is created, or there is one by then. -/
theorem safe_write :
    SafeFor std dnsName w (StoresValid std dnsName w.secret)
      (w.write dnsName : Program (certCalls Rest Err) _)
      (fun
        | .ok certs => Stored std dnsName w.secret certs
        | .error (.alreadyExistError _) => Present std dnsName w.secret
        | .error _ => fun _ ↦ False) := by
  refine safe_buildSecret.bind fun built P hstable hP ↦ ?_
  rcases built with err | ⟨secret, certs⟩
  · exact .vacuous hP
  refine .assume (fun s hs ↦ (hP s hs).1) fun hsecret ↦ ?_
  subst hsecret
  refine safe_call
    (fun
      | none => Stored std dnsName w.secret certs
      | some err => fun s ↦ isAlreadyExists err ∧ Present std dnsName w.secret s)
    hstable (fun s hs ↦ ⟨(hP s hs).2.1, rfl, (hP s hs).2.2⟩) ?_ ?_
  · intro s reply s' hs hhandles
    obtain ⟨hvalid, hcerts⟩ := (hP s hs).2
    rcases handlesFresh_createSecret hhandles with ⟨hpresent, rfl, err, rfl, herr⟩ | ⟨-, rfl, rfl⟩
    · exact ⟨herr, hvalid, hpresent⟩
    · refine ⟨fun secret' hsecret' ↦ ?_, storedCerts_putSecret certs⟩
      obtain rfl : certsToSecret certs w.secret = secret' := by
        simpa [World.putSecret, certsToSecret] using hsecret'
      exact hcerts
  · rintro (_ | err)
    · exact .done stable_stored fun s hs ↦ ⟨hs.1, hs⟩
    · refine .assume (fun s hs ↦ hs.1) fun herr ↦ ?_
      change SafeFor std dnsName w _ (if isAlreadyExists err then
        .done (.error (.alreadyExistError err)) else .done (.error (.plain err)) :
          Program (certCalls Rest Err) (Except (CertError Err) Artifacts)) _
      rw [if_pos herr]
      refine .done ?_ fun s hs ↦ ⟨hs.2.1, hs.2⟩
      exact fun s s' hs hrely ↦ ⟨herr, stable_present s s' hs.2 hrely⟩

theorem safe_createIfNotExists :
    SafeFor std dnsName w (StoresValid std dnsName w.secret)
      (w.createIfNotExists dnsName : Program (certCalls Rest Err) _)
      (fun
        | (.ok (some certs), _) => Stored std dnsName w.secret certs
        | _ => fun _ ↦ False) := by
  refine (safe_read stable_storesValid (fun _ ↦ id) stable_storesValid fun _ hs _ ↦ hs).bind
    fun found P hstable hP ↦ ?_
  rcases found with (err | err | err) | (_ | certs)
  · exact .vacuous hP
  · refine (safe_write.strengthen hstable fun s hs ↦ (hP s hs).1).bind
      fun written P' hstable' hP' ↦ ?_
    rcases written with (err | err | err) | certs
    · exact .vacuous hP'
    · exact .vacuous hP'
    · -- Another instance was first, and its Secret will be there.
      refine Safe.bind (safe_read hstable' (fun s hs ↦ (hP' s hs).1) (fun _ _ ↦ False.elim)
        fun s hs habsent ↦ ?_) fun found P'' hstable'' hP'' ↦ ?_
      · have hpresent := (hP' s hs).2
        rw [habsent] at hpresent
        cases hpresent
      · rcases found with (err | err | err) | (_ | certs)
        · exact .vacuous hP''
        · exact .vacuous fun s hs ↦ (hP'' s hs).2
        · exact .vacuous hP''
        · exact .vacuous hP''
        · exact .done hstable'' fun s hs ↦ ⟨(hP'' s hs).1, hP'' s hs⟩
    · exact .done hstable' fun s hs ↦ ⟨(hP' s hs).1, hP' s hs⟩
  · exact .vacuous hP
  · exact .vacuous hP
  · exact .done hstable fun s hs ↦ ⟨(hP s hs).1, hP s hs⟩

theorem safe_replaceInvalid {certs : Artifacts} {changed : Bool} :
    SafeFor std dnsName w (Stored std dnsName w.secret certs)
      (w.replaceInvalid std dnsName (some certs) changed : Program (certCalls Rest Err) _)
      fun out s ↦ out = (.ok certs, changed) ∧ Stored std dnsName w.secret certs s := by
  obtain ⟨next, hcall, hnext⟩ :=
    w.replaceInvalid_cases Rest std dnsName (some certs) changed
  rw [hcall]
  refine safe_call
    (fun now s ↦ validCert std (some certs) dnsName now ∧ Stored std dnsName w.secret certs s)
    stable_stored (fun s hs ↦ ⟨hs.1, trivial⟩) ?_ fun now ↦ ?_
  · intro s reply s' hs hhandles
    cases hhandles with
    | answer _ hanswer =>
      obtain ⟨rfl, rfl⟩ := Prod.mk.inj hanswer
      exact ⟨hs.valid, hs⟩
  · refine .assume (fun s hs ↦ hs.1) fun hvalid ↦ ?_
    rcases hnext now with ⟨stored, hstored, -, hdone⟩ | ⟨hinvalid, -⟩
    · rw [hdone, ← Option.some.inj hstored]
      refine .done (fun s s' hs hrely ↦ ⟨hs.1, stable_stored s s' hs.2 hrely⟩) fun s hs ↦ ?_
      exact ⟨hs.2.1, rfl, hs.2⟩
    · rw [hinvalid] at hvalid
      cases hvalid

/-- Among instances that leave the Secret alone once it is there, `EnsureCert` does so as well, and
returns what it holds. -/
theorem safe_ensureCert (hname : dnsName ≠ "") :
    SafeFor std dnsName w (StoresValid std dnsName w.secret)
      (w.ensureCert std dnsName : Program (certCalls Rest Err) _)
      (fun
        | (.ok certs, _) => Stored std dnsName w.secret certs
        | _ => fun _ ↦ False) := by
  unfold SecretCertWriter.ensureCert SecretCertWriter.handleCommon
  rw [if_neg hname]
  refine safe_createIfNotExists.bind fun created P hstable hP ↦ ?_
  rcases created with ⟨err | (_ | certs), changed⟩
  · exact .vacuous hP
  · exact .vacuous hP
  · refine (safe_replaceInvalid.strengthen hstable hP).weaken ?_
    rintro out s ⟨rfl, hs⟩
    exact hs

end Agreement

/-! ## Overwriting -/

section Overwriting

variable {std : Stdlib Err} {dnsName : String} {w : SecretCertWriter} {s : World Rest}
  {used : List Artifacts} {certs : Artifacts}

theorem handlesFresh_reliable (t : Shared Rest) (request : CertRequest Rest)
    (reply : (certCalls Rest Err).Reply request) (t' : Shared Rest)
    (h : HandlesFresh std dnsName t request reply t') :
    (reliable Rest Err).Handles t.1 request reply t'.1 := by
  cases h with
  | generate => exact ⟨_, rfl⟩
  | answer _ hanswer => exact ⟨_, hanswer⟩

/-- On its own, `EnsureCert` leaves in the Secret what it returns. -/
theorem ensureCert_alone {s' : Shared Rest} {changed : Bool}
    (h : Yields (concurrent Rest std dnsName w.secret) (s, used) (w.ensureCert std dnsName)
      (.ok certs, changed) s') : s'.1.storedCerts w.secret = some certs := by
  rcases ensureCert_spec (h.map Prod.fst handlesFresh_reliable) with
    ⟨-, hstored, -, hs'⟩ | ⟨-, -, -, hstored⟩
  · rwa [hs']
  · exact hstored

omit [StatusErrors Err] in
theorem isSome_of_storedCerts (h : s.storedCerts w.secret = some certs) :
    (s.secrets w.secret).isSome := by
  obtain ⟨secret, hsecret, -⟩ := Option.bind_eq_some_iff.mp h
  simp [hsecret]

theorem createIfNotExists_yields (hpresent : (s.secrets w.secret).isSome) :
    Yields (concurrent Rest std dnsName w.secret) (s, used) (w.createIfNotExists dnsName)
      (.ok (s.storedCerts w.secret), false) (s, used) := by
  obtain ⟨secret, hsecret⟩ := Option.isSome_iff_exists.mp hpresent
  have hstored : s.storedCerts w.secret = secretToCerts secret := by
    simp [World.storedCerts, hsecret]
  have hget : s.answer Err default (.getSecret w.secret) = (.ok secret, s) := by
    rw [World.answer, hsecret]
    rfl
  have hcerts : Yields (concurrent Rest std dnsName w.secret) (s, used)
      (SecretCertWriter.certsOf secret) (.ok (secretToCerts secret)) (s, used) := by
    unfold SecretCertWriter.certsOf
    cases secretToCerts secret with
    | none => exact .done
    | some certs =>
      have hset : s.answer Err default (.setCA certs.caKey certs.caCert) = ((), s) := rfl
      exact .call (.answer (by simp) hset) .done
  rw [hstored]
  exact yields_bind_iff.mpr ⟨_, _, .call (.answer (by simp) hget) hcerts, .done⟩

/-- The program stores the artifacts in the Secret, whatever it holds by then. -/
def Overwrites (w : SecretCertWriter) (std : Stdlib Err) (dnsName : String) (certs : Artifacts)
    (program : Program (certCalls Rest Err) (Except (CertError Err) Artifacts × Bool)) : Prop :=
  ∀ (t : World Rest) (used : List Artifacts), (t.secrets w.secret).isSome →
    Yields (concurrent Rest std dnsName w.secret) (t, used) program (.ok certs, true)
      (t.putSecret (certsToSecret certs w.secret), used)

/-- An instance that has seen an invalid Secret is about to overwrite it. -/
theorem ensureCert_advances (hname : dnsName ≠ "") (hpresent : (s.secrets w.secret).isSome)
    (hinvalid : validCert std (s.storedCerts w.secret) dnsName s.now = false)
    (hvalid : validCert std (some certs) dnsName s.now) (hfresh : certs ∉ used) :
    ∃ rest, Advances (concurrent Rest std dnsName w.secret) (s, used) (w.ensureCert std dnsName)
      (s, certs :: used) rest ∧ Overwrites w std dnsName certs rest := by
  obtain ⟨rest, hoverwrite, hrest⟩ : ∃ rest,
      Advances (concurrent Rest std dnsName w.secret) (s, used)
        (w.overwrite dnsName >>= SecretCertWriter.reportOverwrite) (s, certs :: used) rest ∧
        Overwrites w std dnsName certs rest := by
    refine ⟨_, .call (.generate hvalid hfresh) .refl, fun t used hpresent ↦ ?_⟩
    have hanswer : t.answer Err certs (.updateSecret (certsToSecret certs w.secret)) =
        (none, t.putSecret (certsToSecret certs w.secret)) := if_pos hpresent
    exact .call (.answer (by simp) hanswer) .done
  have hnow : s.answer Err default .now = (s.now, s) := rfl
  have hreplace : Advances (concurrent Rest std dnsName w.secret) (s, used)
      (w.replaceInvalid std dnsName (s.storedCerts w.secret) false) (s, certs :: used) rest := by
    obtain ⟨next, hcall, hnext⟩ :=
      w.replaceInvalid_cases Rest std dnsName (s.storedCerts w.secret) false
    rw [hcall]
    refine .call (.answer (by simp) hnow) ?_
    rcases hnext s.now with ⟨stored, -, hstored, -⟩ | ⟨-, heq⟩
    · rw [hinvalid] at hstored
      cases hstored
    · rw [heq]
      exact hoverwrite
  have hcreate : Yields (concurrent Rest std dnsName w.secret) (s, used) _ _ _ :=
    createIfNotExists_yields hpresent
  refine ⟨rest, ?_, hrest⟩
  unfold SecretCertWriter.ensureCert SecretCertWriter.handleCommon
  rw [if_neg hname]
  exact ((yields_iff_advances.mp hcreate).bind _).trans hreplace

/-- An instance that finds a valid certificate returns it. -/
theorem ensureCert_yields_stored (hname : dnsName ≠ "")
    (hstored : s.storedCerts w.secret = some certs)
    (hvalid : validCert std (some certs) dnsName s.now) :
    Yields (concurrent Rest std dnsName w.secret) (s, used) (w.ensureCert std dnsName)
      (.ok certs, false) (s, used) := by
  have hnow : s.answer Err default .now = (s.now, s) := rfl
  unfold SecretCertWriter.ensureCert SecretCertWriter.handleCommon
  rw [if_neg hname]
  refine yields_bind_iff.mpr
    ⟨_, _, createIfNotExists_yields (isSome_of_storedCerts hstored), ?_⟩
  change Yields _ _ (w.replaceInvalid std dnsName (s.storedCerts w.secret) false) _ _
  obtain ⟨next, hcall, hnext⟩ :=
    w.replaceInvalid_cases Rest std dnsName (s.storedCerts w.secret) false
  rw [hcall]
  refine .call (.answer (by simp) hnow) ?_
  rcases hnext s.now with ⟨stored, heq, -, hdone⟩ | ⟨hinvalid, -⟩
  · rw [hdone, ← Option.some.inj (hstored.symm.trans heq)]
    exact .done
  · rw [hstored, hvalid] at hinvalid
    cases hinvalid

end Overwriting

/-! ## Any number of instances -/

section Instances

variable {std : Stdlib Err} {dnsName : String} {w : SecretCertWriter} {s : World Rest}
  {count : ℕ}

abbrev CertPool (Rest Err : Type) : Type :=
  Pool (certCalls Rest Err) (Except (CertError Err) Artifacts × Bool) (Shared Rest)

/-- All instances are about to call `EnsureCert`. -/
def instances (w : SecretCertWriter) (std : Stdlib Err) (dnsName : String) (count : ℕ)
    (s : World Rest) : CertPool Rest Err :=
  ⟨List.replicate count (w.ensureCert std dnsName), (s, [])⟩

omit [StatusErrors Err] in
/-- All instances have returned without an error. -/
def Returned (pool : CertPool Rest Err) : Prop :=
  ∀ program ∈ pool.members, ∃ certs changed, program = .done (.ok certs, changed)

omit [StatusErrors Err] in
/-- Every instance that has returned artifacts has returned those that are stored. -/
def Agreed (w : SecretCertWriter) (pool : CertPool Rest Err) : Prop :=
  ∀ certs changed, .done (.ok certs, changed) ∈ pool.members →
    pool.state.1.storedCerts w.secret = some certs

theorem agreed_of_storesValid {pool : CertPool Rest Err} (hname : dnsName ≠ "")
    (hvalid : StoresValid std dnsName w.secret (s, []))
    (h : PoolReaches (concurrent Rest std dnsName w.secret) (instances w std dnsName count s)
      pool) : Agreed w pool := by
  intro certs changed hmem
  have hall := h.safe careful_guarantee fun program hprogram ↦ by
    obtain rfl := List.eq_of_mem_replicate hprogram
    exact ⟨_, safe_ensureCert hname, hvalid⟩
  obtain ⟨P, hsafe, hP⟩ := hall _ hmem
  exact (hsafe.post hP).2

/-- Members that have failed at once return no artifacts. -/
theorem agreed_of_failed {start pool : CertPool Rest Err}
    (hfailed : ∀ program ∈ start.members, ∃ err changed, program = .done (.error err, changed))
    (h : PoolReaches (concurrent Rest std dnsName w.secret) start pool) : Agreed w pool := by
  intro certs changed hmem
  have hsafe : ∀ program ∈ start.members, ∃ P,
      Safe (concurrent Rest std dnsName w.secret) (fun _ ↦ True) (fun _ _ ↦ False) P program
        (fun out _ ↦ ∃ err, out.1 = .error err) ∧ P start.state := by
    intro program hprogram
    obtain ⟨err, changed, rfl⟩ := hfailed program hprogram
    exact ⟨fun _ ↦ True, .done (fun _ _ _ _ ↦ trivial) fun _ _ ↦ ⟨trivial, err, rfl⟩, trivial⟩
  obtain ⟨P, hsafe, hP⟩ := h.safe (fun _ _ _ _ _ hguard _ ↦ hguard.elim) hsafe _ hmem
  obtain ⟨err, herr⟩ := hsafe.post hP
  cases herr

theorem agreed_of_alone {pool : CertPool Rest Err}
    (h : PoolReaches (concurrent Rest std dnsName w.secret) (instances w std dnsName 1 s) pool) :
    Agreed w pool := by
  intro certs changed hmem
  obtain ⟨program, hmembers, hadvances⟩ := PoolReaches.advances h
  rw [hmembers, List.mem_singleton] at hmem
  subst hmem
  exact ensureCert_alone (yields_iff_advances.mpr hadvances)

/-- The pool in which two instances have overwritten the Secret, one after the other, and the
others have found the second certificate. -/
def overwritten (w : SecretCertWriter) (certs₁ certs₂ : Artifacts) (others : ℕ) (s : World Rest) :
    CertPool Rest Err where
  members := [.done (.ok certs₁, true), .done (.ok certs₂, true)] ++
    List.replicate others (.done (.ok certs₂, false))
  state := ((s.putSecret (certsToSecret certs₁ w.secret)).putSecret
    (certsToSecret certs₂ w.secret), [certs₂, certs₁])

/-- Two instances that have both seen an invalid Secret both overwrite it. -/
theorem poolReaches_overwritten {certs₁ certs₂ : Artifacts} (hname : dnsName ≠ "")
    (hpresent : (s.secrets w.secret).isSome)
    (hinvalid : validCert std (s.storedCerts w.secret) dnsName s.now = false)
    (hvalid₁ : validCert std (some certs₁) dnsName s.now)
    (hvalid₂ : validCert std (some certs₂) dnsName s.now) (hfresh : certs₂ ∉ [certs₁])
    (others : ℕ) :
    PoolReaches (concurrent Rest std dnsName w.secret) (instances w std dnsName (others + 2) s)
      (overwritten w certs₁ certs₂ others s) := by
  obtain ⟨rest₁, hadvances₁, hoverwrites₁⟩ :=
    ensureCert_advances hname hpresent hinvalid hvalid₁ List.not_mem_nil
  obtain ⟨rest₂, hadvances₂, hoverwrites₂⟩ :=
    ensureCert_advances hname hpresent hinvalid hvalid₂ hfresh
  let s₁ := s.putSecret (certsToSecret certs₁ w.secret)
  let s₂ := s₁.putSecret (certsToSecret certs₂ w.secret)
  let waiting := List.replicate others
    (w.ensureCert std dnsName : Program (certCalls Rest Err) _)
  let done₁ : Program (certCalls Rest Err) (Except (CertError Err) Artifacts × Bool) :=
    .done (.ok certs₁, true)
  -- Both generate a certificate before either of them writes.
  have hsee₁ := hadvances₁.poolReaches [] (w.ensureCert std dnsName :: waiting)
  have hsee₂ := hadvances₂.poolReaches [rest₁] waiting
  have hwrite₁ := (yields_iff_advances.mp (hoverwrites₁ s [certs₂, certs₁] hpresent)).poolReaches
    [] (rest₂ :: waiting)
  have hwrite₂ := (yields_iff_advances.mp (hoverwrites₂ s₁ [certs₂, certs₁]
    (isSome_of_storedCerts (storedCerts_putSecret certs₁)))).poolReaches [done₁] waiting
  have hfind : Yields (concurrent Rest std dnsName w.secret) (s₂, [certs₂, certs₁])
      (w.ensureCert std dnsName) (.ok certs₂, false) (s₂, [certs₂, certs₁]) :=
    ensureCert_yields_stored hname (storedCerts_putSecret certs₂) hvalid₂
  have hothers := poolReaches_replicate hfind [done₁, .done (.ok certs₂, true)] others
  exact (((hsee₁.trans hsee₂).trans hwrite₁).trans hwrite₂).trans hothers

omit [StatusErrors Err] in
theorem returned_overwritten (certs₁ certs₂ : Artifacts) (others : ℕ) :
    Returned (overwritten w certs₁ certs₂ others s : CertPool Rest Err) := by
  intro program hprogram
  simp only [overwritten, List.mem_append, List.mem_cons, List.not_mem_nil, or_false] at hprogram
  rcases hprogram with (rfl | rfl) | hprogram
  · exact ⟨_, _, rfl⟩
  · exact ⟨_, _, rfl⟩
  · exact ⟨_, _, List.eq_of_mem_replicate hprogram⟩

omit [StatusErrors Err] in
theorem not_agreed_overwritten {certs₁ certs₂ : Artifacts} (hfresh : certs₂ ∉ [certs₁])
    (others : ℕ) : ¬Agreed w (overwritten w certs₁ certs₂ others s : CertPool Rest Err) := by
  intro hagreed
  have hstored₁ := hagreed certs₁ true List.mem_cons_self
  rw [overwritten, storedCerts_putSecret] at hstored₁
  exact hfresh (List.mem_singleton.mpr (Option.some.inj hstored₁))

/-- **Concurrent `EnsureCert`.** All instances end up with the stored certificate, for any
interleaving, just when they do not have to replace an invalid one together. -/
theorem instances_agree_iff (w : SecretCertWriter) (std : Stdlib Err) (dnsName : String)
    (count : ℕ) (s : World Rest)
    (hgenerator : ∀ used : List Artifacts, ∃ certs ∉ used,
      validCert std (some certs) dnsName s.now) :
    (∀ pool, PoolReaches (concurrent Rest std dnsName w.secret) (instances w std dnsName count s)
        pool → Returned pool → Agreed w pool) ↔
      s.secrets w.secret = none ∨ validCert std (s.storedCerts w.secret) dnsName s.now ∨
        count ≤ 1 ∨ dnsName = "" := by
  constructor
  · intro hagree
    by_contra! hnot
    obtain ⟨hsecret, hinvalid, hcount, hname⟩ := hnot
    obtain ⟨others, rfl⟩ := Nat.exists_eq_add_of_le' (Nat.succ_le_of_lt hcount)
    obtain ⟨certs₁, -, hvalid₁⟩ := hgenerator []
    obtain ⟨certs₂, hfresh, hvalid₂⟩ := hgenerator [certs₁]
    have hreaches := poolReaches_overwritten hname (Option.isSome_iff_ne_none.mpr hsecret)
      (by simpa using hinvalid) hvalid₁ hvalid₂ hfresh others
    exact not_agreed_overwritten hfresh others
      (hagree _ hreaches (returned_overwritten certs₁ certs₂ others))
  · intro hcases pool hreaches _
    by_cases hname : dnsName = ""
    · subst hname
      exact agreed_of_failed (fun program hprogram ↦ ⟨_, _, List.eq_of_mem_replicate hprogram⟩)
        hreaches
    rcases hcases with habsent | hvalid | hcount | hempty
    · refine agreed_of_storesValid hname (fun secret hsecret ↦ ?_) hreaches
      rw [habsent] at hsecret
      cases hsecret
    · refine agreed_of_storesValid hname (fun secret hsecret ↦ ?_) hreaches
      rwa [World.storedCerts, hsecret] at hvalid
    · obtain rfl | rfl := Nat.le_one_iff_eq_zero_or_eq_one.mp hcount
      · exact agreed_of_failed (fun program hprogram ↦ by cases hprogram) hreaches
      · exact agreed_of_alone hreaches
    · exact absurd hempty hname

end Instances

/-! ## Replicas of a webhook server -/

section Replicas

/-- There is no end of valid certificates. -/
theorem byteStdlib_generates (used : List Artifacts) : ∃ certs ∉ used,
    validCert byteStdlib (some certs) "webhook-service.default.svc" freshWorld.now := by
  let supply (n : ℕ) : Artifacts := { certsAt 0 with caKey := List.replicate n 1 }
  have hsupply : Function.Injective supply := by
    intro n m h
    simpa [supply] using congrArg (fun certs ↦ certs.caKey.length) h
  obtain ⟨_, ⟨n, rfl⟩, hfresh⟩ :=
    (Set.infinite_range_of_injective hsupply).exists_notMem_finite used.finite_toSet
  exact ⟨supply n, hfresh, rfl⟩

/-- The certificate of a replica that does not come first. -/
def lateCerts : Artifacts := { certsAt 0 with caKey := [2] }

/-- Three replicas without a Secret: two of them generate a certificate, and all of them return the
one that was stored first. -/
theorem instances_agree_absent :
    ∃ pool, PoolReaches
        (concurrent Unit byteStdlib "webhook-service.default.svc" webhookWriter.secret)
        (instances webhookWriter byteStdlib "webhook-service.default.svc" 3 freshWorld) pool ∧
      pool.members = [.done (.ok (certsAt 0), true), .done (.ok (certsAt 0), true),
        .done (.ok (certsAt 0), false)] ∧
      Returned pool ∧ Agreed webhookWriter pool := by
  let pool : CertPool Unit GoError :=
    { members := [.done (.ok (certsAt 0), true), .done (.ok (certsAt 0), true),
        .done (.ok (certsAt 0), false)]
      state := (storedWorld, [lateCerts, certsAt 0]) }
  let step := @PoolStep.call (certCalls Unit GoError)
    (Except (CertError GoError) Artifacts × Bool) (Shared Unit)
    (concurrent Unit byteStdlib "webhook-service.default.svc" webhookWriter.secret)
  have hanswer (s : World Unit) (used : List Artifacts) (request : CertRequest Unit)
      (hrequest : ∀ name, request ≠ .generate name) :
      HandlesFresh byteStdlib "webhook-service.default.svc" (s, used) request
        (s.answer GoError default request).1 ((s.answer GoError default request).2, used) :=
    .answer hrequest rfl
  have hreaches : PoolReaches
      (concurrent Unit byteStdlib "webhook-service.default.svc" webhookWriter.secret)
      (instances webhookWriter byteStdlib "webhook-service.default.svc" 3 freshWorld) pool := by
    -- Two of them find no Secret and generate a certificate before either stores it.
    refine .head (@step [] [_, _] _ _ _ _ _
      (hanswer freshWorld [] (.getSecret webhookWriter.secret) (by simp))) ?_
    refine .head (@step [_] [_] _ _ _ _ _
      (hanswer freshWorld [] (.getSecret webhookWriter.secret) (by simp))) ?_
    refine .head (@step [] [_, _] (.generate "webhook-service.default.svc") _ (.ok (certsAt 0)) _ _
      (.generate rfl List.not_mem_nil)) ?_
    refine .head (@step [_] [_] (.generate "webhook-service.default.svc") _ (.ok lateCerts) _ _
      (.generate rfl (by decide))) ?_
    refine .head (@step [] [_, _] _ _ _ _ _ (hanswer freshWorld _
      (.createSecret (certsToSecret (certsAt 0) webhookWriter.secret)) (by simp))) ?_
    refine .head (@step [_] [_] _ _ _ _ _ (hanswer storedWorld _
      (.createSecret (certsToSecret lateCerts webhookWriter.secret)) (by simp))) ?_
    refine .head (@step [_] [_] _ _ _ _ _ (hanswer storedWorld _
      (.getSecret webhookWriter.secret) (by simp))) ?_
    refine .head (@step [_] [_] _ _ _ _ _ (hanswer storedWorld _
      (.setCA (certsAt 0).caKey (certsAt 0).caCert) (by simp))) ?_
    refine .head (@step [_] [_] _ _ _ _ _ (hanswer storedWorld _ .now (by simp))) ?_
    refine .head (@step [] [_, _] _ _ _ _ _ (hanswer storedWorld _ .now (by simp))) ?_
    have hfind : Yields
        (concurrent Unit byteStdlib "webhook-service.default.svc" webhookWriter.secret)
        (storedWorld, [lateCerts, certsAt 0])
        (webhookWriter.ensureCert byteStdlib "webhook-service.default.svc")
        (.ok (certsAt 0), false) (storedWorld, [lateCerts, certsAt 0]) :=
      ensureCert_yields_stored (by decide) rfl rfl
    exact (yields_iff_advances.mp hfind).poolReaches
      [.done (.ok (certsAt 0), true), .done (.ok (certsAt 0), true)] []
  have hreturned : Returned pool := by simp [Returned, pool]
  exact ⟨pool, hreaches, rfl, hreturned, (instances_agree_iff webhookWriter byteStdlib
    "webhook-service.default.svc" 3 freshWorld byteStdlib_generates).mpr (.inl rfl) pool hreaches
    hreturned⟩

/-- The certificate is no longer valid. -/
def expiredWorld : World Unit := { storedWorld with now := 20 }

/-- Both replicas return without an error, the first one with a certificate that is not stored. -/
theorem replicas_disagree :
    let pool : CertPool Unit GoError :=
      overwritten webhookWriter (certsAt 20) (certsAt 21) 0 expiredWorld
    PoolReaches (concurrent Unit byteStdlib "webhook-service.default.svc" webhookWriter.secret)
        (instances webhookWriter byteStdlib "webhook-service.default.svc" 2 expiredWorld) pool ∧
      pool.members = [.done (.ok (certsAt 20), true), .done (.ok (certsAt 21), true)] ∧
      pool.state.1.storedCerts webhookWriter.secret = some (certsAt 21) ∧
      certsAt 20 ≠ certsAt 21 := by
  exact ⟨poolReaches_overwritten (by decide) (by decide) (by decide) (by decide) (by decide)
    (by decide) 0, rfl, by decide, by decide⟩

end Replicas

end OperatorToolkit.Cert
