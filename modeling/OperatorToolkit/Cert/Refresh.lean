import OperatorToolkit.Cert.Bundles
import OperatorToolkit.Cert.Disk
import OperatorToolkit.Interaction.Frame

/-!
# What a refresh leaves behind

A `refreshCert` that returns nil has stored one CA bundle in all webhooks and CRDs it refers to.
The bundle contains the CA of the certificate in the Secret, and begins with the bundle that was
there before if there was only one. Nothing else has changed apart from the Secret. This holds
whichever calls fail, with whatever errors, as long as a failed call has no effect.
-/

namespace OperatorToolkit.Cert

open Interaction Object

variable {Rest Err : Type} [StatusErrors Err] {s s' : World Rest}

/-- Every call may fail with any error; a failed call has no effect. -/
def faulty (Rest Err : Type) [StatusErrors Err] : Service (certCalls Rest Err) (World Rest) where
  Handles s request reply s' :=
    (∃ certs, s.answer Err certs request = (reply, s')) ∨
      ((errorOf request reply).isSome ∧ s' = s)
  Breaks _ _ _ := False
  Rely _ _ := False

/-- A call that returns no error was answered. -/
theorem answered_of_handles {request : CertRequest Rest}
    {reply : (certCalls Rest Err).Reply request}
    (h : (faulty Rest Err).Handles s request reply s') (herr : errorOf request reply = none) :
    ∃ certs, s.answer Err certs request = (reply, s') := by
  cases h with
  | inl hanswer => exact hanswer
  | inr hfailed =>
    rw [herr] at hfailed
    cases hfailed.1

/-- The requests that never change anything. -/
def CertRequest.isRead : CertRequest Rest → Bool
  | .stat _ _ | .mkdirAll _ | .getSecret _ | .getWebhooks _ _ | .getCrd _ => true
  | .now | .generate _ | .setCA _ _ => true
  | .writeFile _ _ _ | .createSecret _ | .updateSecret _ | .update _ => false

theorem eq_of_isRead {request : CertRequest Rest} {reply : (certCalls Rest Err).Reply request}
    (h : (faulty Rest Err).Handles s request reply s') (hread : request.isRead) : s' = s := by
  cases h with
  | inl hanswer =>
    obtain ⟨certs, hanswer⟩ := hanswer
    cases request <;> first
      | exact (Prod.mk.inj hanswer).2.symm
      | exact absurd hread Bool.false_ne_true
  | inr hfailed => exact hfailed.2

/-! ## The Secret -/

/-- The requests of a writer for one Secret. -/
def CertRequest.ConcernsSecret (n : NamespacedName) : CertRequest Rest → Prop
  | .createSecret secret | .updateSecret secret => secret.namespacedName = n
  | .getSecret _ | .now | .generate _ | .setCA _ _ => True
  | .stat _ _ | .mkdirAll _ | .writeFile _ _ _ | .getWebhooks _ _ | .getCrd _ | .update _ => False

section Writer

variable {w : SecretCertWriter} {std : Stdlib Err} {dnsName : String}

omit [StatusErrors Err] in
theorem only_certsOf (secret : Secret) :
    (SecretCertWriter.certsOf secret : Program (certCalls Rest Err) _).Only
      (CertRequest.ConcernsSecret w.secret) := by
  unfold SecretCertWriter.certsOf
  split
  · exact .done _
  · exact .call trivial fun _ ↦ .done _

theorem only_read : (w.read : Program (certCalls Rest Err) _).Only
    (CertRequest.ConcernsSecret w.secret) := by
  apply Program.Only.bind (.call trivial .done)
  intro reply
  cases reply with
  | ok secret => exact only_certsOf secret
  | error err =>
    dsimp only
    split
    · exact .done _
    · exact only_certsOf _

theorem only_write : (w.write dnsName : Program (certCalls Rest Err) _).Only
    (CertRequest.ConcernsSecret w.secret) := by
  apply Program.Only.call trivial
  intro reply
  cases reply with
  | error err => exact .done _
  | ok certs =>
    apply Program.Only.call
    · exact rfl
    · intro reply
      cases reply with
      | none => exact .done _
      | some err =>
        simp only [Program.bind]
        split <;> exact .done _

omit [StatusErrors Err] in
theorem only_overwrite : (w.overwrite dnsName : Program (certCalls Rest Err) _).Only
    (CertRequest.ConcernsSecret w.secret) := by
  apply Program.Only.call trivial
  intro reply
  cases reply with
  | error err => exact .done _
  | ok certs =>
    apply Program.Only.call
    · exact rfl
    · intro reply
      cases reply <;> exact .done _

theorem only_createIfNotExists :
    (w.createIfNotExists dnsName : Program (certCalls Rest Err) _).Only
      (CertRequest.ConcernsSecret w.secret) := by
  apply only_read.bind
  intro found
  split
  · apply only_write.bind
    intro written
    split
    · exact only_read.bind fun _ ↦ .done _
    · exact .done _
    · exact .done _
  · exact .done _

omit [StatusErrors Err] in
theorem only_replaceInvalid (certs : Option Artifacts) (changed : Bool) :
    (w.replaceInvalid std dnsName certs changed : Program (certCalls Rest Err) _).Only
      (CertRequest.ConcernsSecret w.secret) := by
  apply Program.Only.call trivial
  intro now
  simp only [Program.bind]
  split
  · exact .done _
  · apply only_overwrite.bind
    intro written
    cases written <;> exact .done _

theorem only_ensureCert : (w.ensureCert std dnsName : Program (certCalls Rest Err) _).Only
    (CertRequest.ConcernsSecret w.secret) := by
  unfold SecretCertWriter.ensureCert SecretCertWriter.handleCommon
  split
  · exact .done _
  · apply only_createIfNotExists.bind
    intro created
    split
    · exact .done _
    · exact only_replaceInvalid _ _

/-- The world without one Secret. -/
def World.apartFrom (s : World Rest) (n : NamespacedName) : World Rest :=
  { s with secrets := Function.update s.secrets n none }

theorem apartFrom_putSecret (secret : Secret) :
    (s.putSecret secret).apartFrom secret.namespacedName = s.apartFrom secret.namespacedName := by
  simp [World.apartFrom, World.putSecret]

theorem apartFrom_of_handles {n : NamespacedName} {request : CertRequest Rest}
    {reply : (certCalls Rest Err).Reply request} (hrequest : request.ConcernsSecret n)
    (h : (faulty Rest Err).Handles s request reply s') : s'.apartFrom n = s.apartFrom n := by
  cases h with
  | inr hfailed => rw [hfailed.2]
  | inl hanswer =>
    obtain ⟨certs, hanswer⟩ := hanswer
    cases request with
    | createSecret secret | updateSecret secret =>
      obtain rfl : secret.namespacedName = n := hrequest
      rw [World.answer] at hanswer
      -- The Secret is stored or nothing happens.
      split at hanswer <;> obtain ⟨-, rfl⟩ := Prod.mk.inj hanswer <;>
        first | rfl | exact apartFrom_putSecret secret
    | _ => first | exact hrequest.elim | rw [← (Prod.mk.inj hanswer).2]

/-! ### The certificates that are returned are stored -/

theorem handles_createSecret_none {secret : Secret}
    (h : (faulty Rest Err).Handles s (.createSecret secret) (none : Option Err) s') :
    s' = s.putSecret secret := by
  obtain ⟨certs, hanswer⟩ := answered_of_handles h rfl
  rw [World.answer] at hanswer
  split at hanswer
  · cases (Prod.mk.inj hanswer).1
  · exact (Prod.mk.inj hanswer).2.symm

theorem handles_updateSecret_none {secret : Secret}
    (h : (faulty Rest Err).Handles s (.updateSecret secret) (none : Option Err) s') :
    s' = s.putSecret secret := by
  obtain ⟨certs, hanswer⟩ := answered_of_handles h rfl
  rw [World.answer] at hanswer
  split at hanswer
  · exact (Prod.mk.inj hanswer).2.symm
  · cases (Prod.mk.inj hanswer).1

theorem stored_of_read {certs : Artifacts}
    (h : Yields (faulty Rest Err) s w.read (.ok (some certs)) s') :
    s'.storedCerts w.secret = some certs := by
  have hset : ∀ t caKey caCert reply t',
      (faulty Rest Err).Handles t (.setCA caKey caCert) reply t' → t' = t :=
    fun _ _ _ _ _ hhandles ↦ eq_of_isRead hhandles rfl
  obtain ⟨reply, mid, hget, hrest⟩ := yields_call_iff.mp h
  obtain rfl := eq_of_isRead hget rfl
  cases reply with
  | error err =>
    have hif : Yields (faulty Rest Err) mid (if isNotFound err
        then .done (.error (.notFoundError err))
        else SecretCertWriter.certsOf { namespacedName := { name := "" }, data := none })
      (.ok (some certs)) s' := hrest
    split at hif
    · cases (yields_done_iff.mp hif).1
    · cases (yields_certsOf hset hif).2
  | ok secret =>
    obtain ⟨_, hanswer⟩ := answered_of_handles hget rfl
    obtain ⟨rfl, hcerts⟩ := yields_certsOf hset hrest
    rw [World.storedCerts, World.secret_of_answer hanswer, Option.bind_some]
    exact (Except.ok.inj hcerts).symm

theorem stored_of_write {certs : Artifacts}
    (h : Yields (faulty Rest Err) s (w.write dnsName) (.ok certs) s') :
    s'.storedCerts w.secret = some certs := by
  obtain ⟨reply, mid, hgenerate, hrest⟩ := yields_call_iff.mp h
  cases reply with
  | error err => cases (yields_done_iff.mp hrest).1
  | ok built =>
    obtain ⟨reply, mid', hcreate, hreturn⟩ := yields_call_iff.mp hrest
    cases reply with
    | none =>
      obtain ⟨hcerts, rfl⟩ := yields_done_iff.mp hreturn
      obtain rfl := Except.ok.inj hcerts
      rw [handles_createSecret_none hcreate, storedCerts_putSecret]
    | some err =>
      have hif : Yields (faulty Rest Err) mid'
          (if isAlreadyExists err then .done (.error (.alreadyExistError err))
            else .done (.error (.plain err)))
          (.ok certs : Except (CertError Err) Artifacts) s' := hreturn
      split at hif <;> cases (yields_done_iff.mp hif).1

theorem stored_of_overwrite {certs : Artifacts}
    (h : Yields (faulty Rest Err) s (w.overwrite dnsName) (.ok certs) s') :
    s'.storedCerts w.secret = some certs := by
  obtain ⟨reply, mid, hgenerate, hrest⟩ := yields_call_iff.mp h
  cases reply with
  | error err => cases (yields_done_iff.mp hrest).1
  | ok built =>
    obtain ⟨reply, mid', hupdate, hreturn⟩ := yields_call_iff.mp hrest
    cases reply with
    | some err => cases (yields_done_iff.mp hreturn).1
    | none =>
      obtain ⟨hcerts, rfl⟩ := yields_done_iff.mp hreturn
      obtain rfl := Except.ok.inj hcerts
      rw [handles_updateSecret_none hupdate, storedCerts_putSecret]

theorem stored_of_createIfNotExists {certs : Artifacts} {changed : Bool}
    (h : Yields (faulty Rest Err) s (w.createIfNotExists dnsName) (.ok (some certs), changed) s') :
    s'.storedCerts w.secret = some certs := by
  obtain ⟨found, mid, hread, hrest⟩ := yields_bind_iff.mp h
  cases found with
  | ok found =>
    obtain ⟨hout, rfl⟩ := yields_done_iff.mp hrest
    obtain rfl := Except.ok.inj (Prod.mk.inj hout).1
    exact stored_of_read hread
  | error err =>
    cases err with
    | plain err | alreadyExistError err => cases (yields_done_iff.mp hrest).1
    | notFoundError err =>
      obtain ⟨written, mid', hwrite, hreturn⟩ := yields_bind_iff.mp hrest
      cases written with
      | ok written =>
        obtain ⟨hout, rfl⟩ := yields_done_iff.mp hreturn
        obtain rfl := Option.some.inj (Except.ok.inj (Prod.mk.inj hout).1)
        exact stored_of_write hwrite
      | error err =>
        cases err with
        | plain err | notFoundError err => cases (yields_done_iff.mp hreturn).1
        | alreadyExistError err =>
          obtain ⟨again, mid'', hagain, hdone⟩ := yields_bind_iff.mp hreturn
          obtain ⟨hout, rfl⟩ := yields_done_iff.mp hdone
          obtain rfl := (Prod.mk.inj hout).1
          exact stored_of_read hagain

theorem stored_of_replaceInvalid {found : Option Artifacts} {certs : Artifacts}
    {changed changed' : Bool}
    (hfound : ∀ stored, found = some stored → s.storedCerts w.secret = some stored)
    (h : Yields (faulty Rest Err) s (w.replaceInvalid std dnsName found changed)
      (.ok certs, changed') s') : s'.storedCerts w.secret = some certs := by
  obtain ⟨next, hcall, hnext⟩ := w.replaceInvalid_cases Rest std dnsName found changed
  rw [hcall] at h
  obtain ⟨now, mid, hnow, hrest⟩ := yields_call_iff.mp h
  obtain rfl := eq_of_isRead hnow rfl
  rcases hnext now with ⟨stored, hstored, -, hdone⟩ | ⟨-, hoverwrite⟩
  · rw [hdone] at hrest
    obtain ⟨hout, rfl⟩ := yields_done_iff.mp hrest
    obtain rfl := Except.ok.inj (Prod.mk.inj hout).1
    exact hfound _ hstored
  · rw [hoverwrite] at hrest
    obtain ⟨written, mid', hyields, hreturn⟩ := yields_bind_iff.mp hrest
    cases written with
    | error err => cases (yields_done_iff.mp hreturn).1
    | ok written =>
      obtain ⟨hout, rfl⟩ := yields_done_iff.mp hreturn
      obtain rfl := Except.ok.inj (Prod.mk.inj hout).1
      exact stored_of_overwrite hyields

/-- Whatever fails, the certificates that `EnsureCert` returns are those of the Secret, and nothing
but the Secret has changed. -/
theorem stored_of_ensureCert {certs : Artifacts} {changed : Bool}
    (h : Yields (faulty Rest Err) s (w.ensureCert std dnsName) (.ok certs, changed) s') :
    s'.storedCerts w.secret = some certs ∧ s'.apartFrom w.secret = s.apartFrom w.secret := by
  refine ⟨?_, only_ensureCert.observe_eq (fun _ _ _ _ ↦ apartFrom_of_handles) h⟩
  unfold SecretCertWriter.ensureCert SecretCertWriter.handleCommon at h
  split at h
  · cases (yields_done_iff.mp h).1
  · obtain ⟨⟨created, changed'⟩, mid, hcreate, hrest⟩ := yields_bind_iff.mp h
    cases created with
    | error err => cases (yields_done_iff.mp hrest).1
    | ok found =>
      apply stored_of_replaceInvalid _ hrest
      rintro stored rfl
      exact stored_of_createIfNotExists hcreate

end Writer

/-! ## CA bundles in objects -/

section Objects

variable {bundle : Bytes}

omit [StatusErrors Err]

def WebhookConfiguration.withBundle (config : WebhookConfiguration Rest) (bundle : Bytes) :
    WebhookConfiguration Rest :=
  { config with webhooks := config.webhooks.map fun wh ↦
      { wh with clientConfig := { wh.clientConfig with caBundle := bundle } } }

def CustomResourceDefinition.withBundle (crd : CustomResourceDefinition Rest) (bundle : Bytes) :
    CustomResourceDefinition Rest :=
  { crd with conversion := crd.conversion.map fun conversion ↦
      { conversion with webhook := conversion.webhook.map fun webhook ↦
        { webhook with
          clientConfig := webhook.clientConfig.map ({ · with caBundle := bundle }) } } }

def ClientObject.withBundle (bundle : Bytes) : ClientObject Rest → ClientObject Rest
  | .webhooks kind config => .webhooks kind (config.withBundle bundle)
  | .crd definition => .crd (definition.withBundle bundle)
  | .other gvk => .other gvk

/-- An object that has a CA bundle. -/
inductive ObjectRef where
  | webhooks (kind : WebhookKind) (n : NamespacedName)
  | crd (n : NamespacedName)
  deriving DecidableEq, Repr

def ClientObject.ref? : ClientObject Rest → Option ObjectRef
  | .webhooks kind config => some (.webhooks kind config.namespacedName)
  | .crd definition => some (.crd definition.namespacedName)
  | .other _ => none

/-- The object is stored, under its own name. -/
def World.Stores (s : World Rest) : ClientObject Rest → Prop
  | .webhooks kind config => s.webhooks kind config.namespacedName = some config
  | .crd crd => s.crds crd.namespacedName = some crd
  | .other _ => False

/-- The CA bundles of some objects are replaced. -/
def World.withBundles (s : World Rest) (bundle : Bytes) (refs : List ObjectRef) : World Rest :=
  { s with
    webhooks := fun kind n ↦
      if .webhooks kind n ∈ refs then (s.webhooks kind n).map (·.withBundle bundle)
      else s.webhooks kind n
    crds := fun n ↦ if .crd n ∈ refs then (s.crds n).map (·.withBundle bundle) else s.crds n }

theorem withBundles_nil : s.withBundles bundle [] = s := by
  simp [World.withBundles]

theorem putObject_withBundles {obj : ClientObject Rest} (hobj : s.Stores obj)
    (refs : List ObjectRef) :
    (s.withBundles bundle refs).putObject (obj.withBundle bundle) =
      s.withBundles bundle (refs ++ obj.ref?.toList) := by
  cases obj with
  | other gvk => exact hobj.elim
  | webhooks kind config =>
    have hconfig : s.webhooks kind config.namespacedName = some config := hobj
    simp only [World.withBundles, World.putObject, ClientObject.withBundle, ClientObject.ref?,
      WebhookConfiguration.withBundle, World.mk.injEq, true_and, Option.toList_some,
      List.mem_append, List.mem_singleton]
    refine ⟨?_, by simp⟩
    funext kind' n
    by_cases hkind : kind' = kind
    · subst hkind
      by_cases hn : n = config.namespacedName
      · subst hn
        simp [hconfig]
      · simp [hn]
    · simp [hkind]
  | crd crd =>
    have hcrd : s.crds crd.namespacedName = some crd := hobj
    simp only [World.withBundles, World.putObject, ClientObject.withBundle, ClientObject.ref?,
      CustomResourceDefinition.withBundle, World.mk.injEq, true_and, Option.toList_some,
      List.mem_append, List.mem_singleton, and_true]
    refine ⟨by simp, ?_⟩
    funext n
    by_cases hn : n = crd.namespacedName
    · subst hn
      simp [hcrd]
    · simp [hn]

/-- Writing back all objects replaces their bundles, also if some are written twice. -/
theorem foldl_putObject (bundle : Bytes) {objs : List (ClientObject Rest)}
    (hobjs : ∀ obj ∈ objs, s.Stores obj) (refs : List ObjectRef) :
    (objs.map (·.withBundle bundle)).foldl World.putObject (s.withBundles bundle refs) =
      s.withBundles bundle (refs ++ objs.filterMap ClientObject.ref?) := by
  induction objs generalizing refs with
  | nil => simp
  | cons obj objs ih =>
    rw [List.forall_mem_cons] at hobjs
    rw [List.map_cons, List.foldl_cons, putObject_withBundles hobjs.1, ih hobjs.2,
      List.append_assoc]
    cases hobj : obj.ref? <;> simp [hobj]

theorem contains_append (bytes subslice : Bytes) : contains (bytes ++ subslice) subslice := by
  induction bytes with
  | nil => cases subslice <;> simp [contains]
  | cons b bytes ih => simp [contains, ih]

/-- The bundle that is injected for a CA certificate. -/
def extendBundle (bundle caCert : Bytes) : Bytes :=
  if contains bundle caCert then bundle else bundle ++ caCert

theorem contains_extendBundle (bundle caCert : Bytes) :
    contains (extendBundle bundle caCert) caCert := by
  unfold extendBundle
  split
  next h => exact h
  next => exact contains_append bundle caCert

theorem prefix_extendBundle (bundle caCert : Bytes) : bundle <+: extendBundle bundle caCert := by
  unfold extendBundle
  split
  · exact List.prefix_rfl
  · exact List.prefix_append bundle caCert

end Objects

theorem injectObject_eq {cc : WebhookClientConfig} {obj obj' : ClientObject Rest}
    (h : injectObject cc obj = (.ok obj' : Except (CertError Err) _)) :
    obj' = obj.withBundle cc.caBundle := by
  cases obj with
  | webhooks kind config => cases kind <;> exact (Except.ok.inj h).symm
  | crd crd => exact (Except.ok.inj h).symm
  | other gvk => cases h

theorem inject_eq {cc : WebhookClientConfig} {objs objs' : List (ClientObject Rest)}
    (h : inject cc objs = (.ok objs' : Except (CertError Err) _)) :
    objs' = objs.map (·.withBundle cc.caBundle) := by
  unfold inject at h
  induction objs generalizing objs' with
  | nil => exact (Except.ok.inj h).symm
  | cons obj objs ih =>
    rw [List.mapM_cons] at h
    cases hobj : (injectObject cc obj : Except (CertError Err) _) with
    | error err =>
      rw [hobj] at h
      cases h
    | ok obj' =>
      cases hobjs : (objs.mapM (injectObject cc) : Except (CertError Err) _) with
      | error err =>
        rw [hobj, hobjs] at h
        cases h
      | ok rest =>
        rw [hobj, hobjs] at h
        rw [← Except.ok.inj h, ih hobjs, injectObject_eq hobj, List.map_cons]

theorem injectCerts_eq {cc : WebhookClientConfig} {objs objs' : List (ClientObject Rest)}
    {certs : Artifacts} {changed changed' : Bool}
    (h : injectCerts cc objs certs changed = (.ok (changed', objs') : Except (CertError Err) _)) :
    objs' = objs.map (·.withBundle (extendBundle cc.caBundle certs.caCert)) := by
  unfold injectCerts at h
  unfold extendBundle
  split at h
  all_goals
    obtain ⟨injected, hinject, hpair⟩ := exists_of_map_eq_ok h
    obtain rfl := (Prod.mk.inj hpair).2
    simp_all [inject_eq hinject]

/-! ## The configurations -/

section Configs

variable {m : Manager}

/-- Every object is stored under its own name. -/
structure World.Named (s : World Rest) : Prop where
  webhooks : ∀ kind n config, s.webhooks kind n = some config → config.namespacedName = n
  crds : ∀ n crd, s.crds n = some crd → crd.namespacedName = n

def Manager.webhookRefs (m : Manager) : WebhookKind → List NamespacedName
  | .mutating => m.options.mutatingWebhookConfigRefs
  | .validating => m.options.validatingWebhookConfigRefs

def Manager.configRefs (m : Manager) : List ObjectRef :=
  (m.webhookRefs .mutating).map (.webhooks .mutating) ++
    (m.webhookRefs .validating).map (.webhooks .validating) ++ m.options.crdRefs.map .crd

/-- All objects that the manager refers to exist, and the CRDs have a conversion webhook. -/
structure Manager.Resolved (m : Manager) (s : World Rest) : Prop where
  webhooks : ∀ kind, ∀ n ∈ m.webhookRefs kind, (s.webhooks kind n).isSome
  crds : ∀ n ∈ m.options.crdRefs, (s.configuredCrd n).isSome

theorem handles_getWebhooks_ok {kind : WebhookKind} {n : NamespacedName}
    {config : WebhookConfiguration Rest}
    (h : (faulty Rest Err).Handles s (.getWebhooks kind n) (.ok config : Except Err _) s') :
    s' = s ∧ s.webhooks kind n = some config := by
  obtain ⟨_, hanswer⟩ := answered_of_handles h rfl
  exact ⟨eq_of_isRead h rfl, World.webhooks_of_answer hanswer⟩

theorem handles_getCrd_ok {n : NamespacedName} {crd : CustomResourceDefinition Rest}
    (h : (faulty Rest Err).Handles s (.getCrd n) (.ok crd : Except Err _) s') :
    s' = s ∧ s.crds n = some crd := by
  obtain ⟨_, hanswer⟩ := answered_of_handles h rfl
  exact ⟨eq_of_isRead h rfl, World.crd_of_answer hanswer⟩

theorem handles_update_none {obj : ClientObject Rest}
    (h : (faulty Rest Err).Handles s (.update obj) (none : Option Err) s') :
    s' = s.putObject obj := by
  obtain ⟨_, hanswer⟩ := answered_of_handles h rfl
  rw [World.answer] at hanswer
  split at hanswer
  · exact (Prod.mk.inj hanswer).2.symm
  · cases (Prod.mk.inj hanswer).1

theorem faulty_fetchWebhooks {kind : WebhookKind} {refs : List NamespacedName}
    {fetched out : Fetched Rest}
    (h : Yields (faulty Rest Err) s (fetchWebhooks kind refs fetched) (.ok out) s') :
    s' = s ∧ (∀ n ∈ refs, (s.webhooks kind n).isSome) ∧
      out = (refs.filterMap (s.webhooks kind)).foldl (·.addWebhooks kind ·) fetched := by
  induction refs generalizing fetched with
  | nil =>
    obtain ⟨hout, rfl⟩ := yields_done_iff.mp h
    exact ⟨rfl, by simp, Except.ok.inj hout⟩
  | cons nn refs ih =>
    obtain ⟨reply, mid, hget, hrest⟩ := yields_call_iff.mp h
    cases reply with
    | error err => cases (yields_done_iff.mp hrest).1
    | ok config =>
      obtain ⟨rfl, hconfig⟩ := handles_getWebhooks_ok hget
      obtain ⟨rfl, hresolved, hout⟩ := ih hrest
      refine ⟨rfl, List.forall_mem_cons.mpr ⟨by rw [hconfig]; rfl, hresolved⟩, ?_⟩
      rw [List.filterMap_cons_some hconfig, List.foldl_cons]
      exact hout

theorem faulty_fetchCrds {refs : List NamespacedName} {fetched out : Fetched Rest}
    (h : Yields (faulty Rest Err) s (fetchCrds refs fetched) (.ok out) s') :
    s' = s ∧ (∀ n ∈ refs, (s.configuredCrd n).isSome) ∧
      out = (refs.filterMap s.configuredCrd).foldl
        (fun fetched (crd, clientConfig) ↦ fetched.addCrd crd clientConfig) fetched := by
  induction refs generalizing fetched with
  | nil =>
    obtain ⟨hout, rfl⟩ := yields_done_iff.mp h
    exact ⟨rfl, by simp, Except.ok.inj hout⟩
  | cons nn refs ih =>
    obtain ⟨reply, mid, hget, hrest⟩ := yields_call_iff.mp h
    cases reply with
    | error err => cases (yields_done_iff.mp hrest).1
    | ok crd =>
      obtain ⟨rfl, hcrd⟩ := handles_getCrd_ok hget
      cases hconfig : crd.clientConfig with
      | none =>
        simp only [Program.bind, hconfig] at hrest
        cases (yields_done_iff.mp hrest).1
      | some clientConfig =>
        simp only [Program.bind, hconfig] at hrest
        obtain ⟨rfl, hresolved, hout⟩ := ih hrest
        have hconfigured : s'.configuredCrd nn = some (crd, clientConfig) := by
          simp [World.configuredCrd, hcrd, hconfig]
        refine ⟨rfl, List.forall_mem_cons.mpr ⟨by rw [hconfigured]; rfl, hresolved⟩, ?_⟩
        rw [List.filterMap_cons_some hconfigured, List.foldl_cons]
        exact hout

theorem faulty_fetchConfigs {out : Fetched Rest}
    (h : Yields (faulty Rest Err) s m.fetchConfigs (.ok out) s') :
    s' = s ∧ m.Resolved s ∧ out = m.fetched s := by
  obtain ⟨mutating, mid, hmutating, hrest⟩ := yields_bind_iff.mp h
  cases mutating with
  | error err => cases (yields_done_iff.mp hrest).1
  | ok mutating =>
    obtain ⟨rfl, hresolved, rfl⟩ := faulty_fetchWebhooks hmutating
    obtain ⟨validating, mid', hvalidating, hcrds⟩ := yields_bind_iff.mp hrest
    cases validating with
    | error err => cases (yields_done_iff.mp hcrds).1
    | ok validating =>
      obtain ⟨rfl, hresolved', rfl⟩ := faulty_fetchWebhooks hvalidating
      obtain ⟨rfl, hresolved'', rfl⟩ := faulty_fetchCrds hcrds
      refine ⟨rfl, ⟨?_, hresolved''⟩, rfl⟩
      intro kind
      cases kind with
      | mutating => exact hresolved
      | validating => exact hresolved'

theorem faulty_batchUpdate {objs : List (ClientObject Rest)}
    (h : Yields (faulty Rest Err) s (batchUpdate objs) none s') :
    s' = objs.foldl World.putObject s := by
  induction objs generalizing s with
  | nil => exact (yields_done_iff.mp h).2
  | cons obj objs ih =>
    obtain ⟨reply, mid, hupdate, hrest⟩ := yields_call_iff.mp h
    cases reply with
    | some err => cases (yields_done_iff.mp hrest).1
    | none =>
      rw [List.foldl_cons, ← handles_update_none hupdate]
      exact ih hrest

/-! ### What was fetched -/

/-- The bundles of the webhooks, in the order in which they are compared. -/
def Manager.storedWebhookBundles (m : Manager) (s : World Rest) : List Bytes :=
  ((m.webhookRefs .mutating).filterMap (s.webhooks .mutating) ++
    (m.webhookRefs .validating).filterMap (s.webhooks .validating)).flatMap (·.bundles)

def Manager.storedCrdBundles (m : Manager) (s : World Rest) : List Bytes :=
  (m.options.crdRefs.filterMap s.configuredCrd).map (·.2.caBundle)

omit [StatusErrors Err] in
theorem fetched_eq (m : Manager) (s : World Rest) :
    (m.fetched s).caBundle = commonBundle (m.storedWebhookBundles s) (m.storedCrdBundles s) ∧
      (m.fetched s).whConfigs =
        ((m.webhookRefs .mutating).filterMap (s.webhooks .mutating)).map (.webhooks .mutating) ++
          ((m.webhookRefs .validating).filterMap (s.webhooks .validating)).map
            (.webhooks .validating) ++
          (m.options.crdRefs.filterMap s.configuredCrd).map (.crd ·.1) := by
  unfold Manager.fetched
  simp only [foldl_addCrd, foldl_addWebhooks, List.nil_append]
  refine ⟨?_, rfl⟩
  rw [commonBundle, Manager.storedWebhookBundles, List.flatMap_append, compareAll_append]
  rfl

omit [StatusErrors Err] in
theorem configuredCrd_eq_some_iff {n : NamespacedName} {crd : CustomResourceDefinition Rest}
    {clientConfig : ClientConfig Rest} :
    s.configuredCrd n = some (crd, clientConfig) ↔
      s.crds n = some crd ∧ crd.clientConfig = some clientConfig := by
  unfold World.configuredCrd
  cases hcrd : s.crds n with
  | none => simp
  | some stored =>
    cases hconfig : stored.clientConfig with
    | none =>
      simp only [hconfig, Option.bind_eq_bind, Option.bind_some, Option.bind_none]
      grind
    | some config =>
      simp only [hconfig, Option.bind_eq_bind, Option.bind_some, Option.pure_def]
      grind

omit [StatusErrors Err] in
theorem stores_fetched (hnamed : s.Named) {obj : ClientObject Rest}
    (hobj : obj ∈ (m.fetched s).whConfigs) : s.Stores obj := by
  have hwebhooks (kind : WebhookKind) {config : WebhookConfiguration Rest}
      (hconfig : config ∈ (m.webhookRefs kind).filterMap (s.webhooks kind)) :
      s.Stores (.webhooks kind config) := by
    obtain ⟨n, -, hn⟩ := List.mem_filterMap.mp hconfig
    rw [World.Stores, hnamed.webhooks kind n config hn, hn]
  rw [(fetched_eq m s).2, List.mem_append, List.mem_append] at hobj
  simp only [List.mem_map] at hobj
  rcases hobj with (⟨config, hconfig, rfl⟩ | ⟨config, hconfig, rfl⟩) | ⟨crd, hcrd, rfl⟩
  · exact hwebhooks .mutating hconfig
  · exact hwebhooks .validating hconfig
  · obtain ⟨n, -, hn⟩ := List.mem_filterMap.mp hcrd
    have hstored := (configuredCrd_eq_some_iff.mp hn).1
    rw [World.Stores, hnamed.crds n _ hstored, hstored]

/-- The names of what is found under some names. -/
theorem map_filterMap_of_name {α : Type} {find : NamespacedName → Option α}
    {name : α → NamespacedName} (hname : ∀ n a, find n = some a → name a = n)
    {refs : List NamespacedName} (hfound : ∀ n ∈ refs, (find n).isSome) :
    (refs.filterMap find).map name = refs := by
  induction refs with
  | nil => rfl
  | cons n refs ih =>
    rw [List.forall_mem_cons] at hfound
    obtain ⟨a, ha⟩ := Option.isSome_iff_exists.mp hfound.1
    rw [List.filterMap_cons_some ha, List.map_cons, hname n a ha, ih hfound.2]

omit [StatusErrors Err] in
theorem refs_fetched (hnamed : s.Named) (hresolved : m.Resolved s) :
    (m.fetched s).whConfigs.filterMap ClientObject.ref? = m.configRefs := by
  have hwebhooks (kind : WebhookKind) :
      (((m.webhookRefs kind).filterMap (s.webhooks kind)).map (.webhooks kind)).filterMap
        ClientObject.ref? = (m.webhookRefs kind).map (.webhooks kind) := by
    have hnames := map_filterMap_of_name (hnamed.webhooks kind) (hresolved.webhooks kind)
    nth_rewrite 2 [← hnames]
    rw [List.filterMap_map, List.map_map, ← List.filterMap_eq_map]
    rfl
  have hcrds : ((m.options.crdRefs.filterMap s.configuredCrd).map (.crd ·.1)).filterMap
      ClientObject.ref? = m.options.crdRefs.map .crd := by
    have hname : ∀ n configured, s.configuredCrd n = some configured →
        configured.1.namespacedName = n := fun n configured hn ↦
      hnamed.crds n _ (configuredCrd_eq_some_iff.mp hn).1
    have hnames := map_filterMap_of_name hname hresolved.crds
    nth_rewrite 2 [← hnames]
    rw [List.filterMap_map, List.map_map, ← List.filterMap_eq_map]
    rfl
  rw [(fetched_eq m s).2, List.filterMap_append, List.filterMap_append, hwebhooks, hwebhooks,
    hcrds, Manager.configRefs]

end Configs

/-! ## The refresh -/

/-- All webhooks and CRDs that the manager refers to have the bundle, which contains the CA of the
Secret and begins with the previous bundle if there was only one. Apart from the Secret, only the
bundles have changed. -/
structure Refreshed (m : Manager) (s s' : World Rest) (bundle : Bytes) : Prop where
  webhooks : ∀ kind, ∀ n ∈ m.webhookRefs kind, ∃ config, s'.webhooks kind n = some config ∧
    ∀ wh ∈ config.webhooks, wh.clientConfig.caBundle = bundle
  crds : ∀ n ∈ m.options.crdRefs, ∃ crd clientConfig, s'.crds n = some crd ∧
    crd.clientConfig = some clientConfig ∧ clientConfig.caBundle = bundle
  contains_ca : ∃ certs, s'.storedCerts m.secretRef = some certs ∧ contains bundle certs.caCert
  begins : ∀ previous, m.storedWebhookBundles s ++ m.storedCrdBundles s ≠ [] →
    (∀ other ∈ m.storedWebhookBundles s ++ m.storedCrdBundles s, other = previous) →
      previous <+: bundle
  frame : s'.apartFrom m.secretRef = (s.withBundles bundle m.configRefs).apartFrom m.secretRef

section Refresh

omit [StatusErrors Err] in
theorem objects_of_apartFrom {n : NamespacedName} (h : s'.apartFrom n = s.apartFrom n) :
    s'.webhooks = s.webhooks ∧ s'.crds = s.crds :=
  have hfields := World.mk.inj h
  ⟨hfields.2.2.1, hfields.2.2.2.1⟩

omit [StatusErrors Err] in
theorem stores_congr {n : NamespacedName} (h : s'.apartFrom n = s.apartFrom n)
    {obj : ClientObject Rest} : s'.Stores obj ↔ s.Stores obj := by
  obtain ⟨hwebhooks, hcrds⟩ := objects_of_apartFrom h
  cases obj <;> simp [World.Stores, hwebhooks, hcrds]

omit [StatusErrors Err] in
theorem apartFrom_withBundles (bundle : Bytes) (refs : List ObjectRef) (n : NamespacedName) :
    (s.withBundles bundle refs).apartFrom n = (s.apartFrom n).withBundles bundle refs :=
  rfl

variable {m : Manager} {std : Stdlib Err} {cc : WebhookClientConfig}

theorem faulty_provision {objs objs' : List (ClientObject Rest)} {changed : Bool}
    (h : Yields (faulty Rest Err) s (m.certProvisioner.provision std cc objs)
      (.ok (changed, objs')) s') :
    s'.apartFrom m.secretRef = s.apartFrom m.secretRef ∧ ∃ certs,
      s'.storedCerts m.secretRef = some certs ∧
        objs' = objs.map (·.withBundle (extendBundle cc.caBundle certs.caCert)) := by
  rw [m.certProvisioner_eq, Provisioner.provision] at h
  cases hname : dnsNameFromClientConfig std cc with
  | error err =>
    rw [hname] at h
    cases (yields_done_iff.mp h).1
  | ok dnsName =>
    rw [hname] at h
    obtain ⟨⟨out, ensured⟩, mid, hensure, hrest⟩ := yields_bind_iff.mp h
    cases out with
    | error err => cases (yields_done_iff.mp hrest).1
    | ok certs =>
      obtain ⟨hinject, rfl⟩ := yields_done_iff.mp hrest
      obtain ⟨hstored, hframe⟩ := stored_of_ensureCert hensure
      exact ⟨hframe, certs, hstored, injectCerts_eq hinject.symm⟩

theorem faulty_refreshCert {changed : Bool} (hnamed : s.Named)
    (h : Yields (faulty Rest Err) s (m.refreshCert std) (changed, none) s') :
    ∃ (mid : World Rest) (certs : Artifacts), m.Resolved s ∧
      mid.apartFrom m.secretRef = s.apartFrom m.secretRef ∧
      mid.storedCerts m.secretRef = some certs ∧
        s' = mid.withBundles (extendBundle (m.fetched s).caBundle certs.caCert) m.configRefs := by
  unfold Manager.refreshCert at h
  cases hcc : m.getClientConfig std with
  | error err =>
    rw [hcc] at h
    cases (yields_done_iff.mp h).1
  | ok cc =>
    rw [hcc] at h
    obtain ⟨out, mid, hfetch, hupdate⟩ := yields_bind_iff.mp h
    cases out with
    | error err => cases (yields_done_iff.mp hupdate).1
    | ok fetched =>
      obtain ⟨rfl, hresolved, rfl⟩ := faulty_fetchConfigs hfetch
      obtain ⟨provided, mid', hprovision, hrest⟩ := yields_bind_iff.mp hupdate
      cases provided with
      | error err => cases (yields_done_iff.mp hrest).1
      | ok provided =>
        obtain ⟨changed', objs⟩ := provided
        obtain ⟨hframe, certs, hstored, rfl⟩ := faulty_provision hprovision
        obtain ⟨err, last, hbatch, hdone⟩ := yields_bind_iff.mp hrest
        obtain ⟨hout, rfl⟩ := yields_done_iff.mp hdone
        obtain rfl := (Prod.mk.inj hout).2
        have hstores : ∀ obj ∈ (m.fetched mid).whConfigs, mid'.Stores obj := by
          intro obj hobj
          rw [stores_congr hframe]
          exact stores_fetched hnamed hobj
        have hrefs := foldl_putObject (extendBundle (m.fetched mid).caBundle certs.caCert)
          hstores []
        rw [withBundles_nil, List.nil_append, refs_fetched hnamed hresolved] at hrefs
        exact ⟨mid', certs, hresolved, hframe, hstored, (faulty_batchUpdate hbatch).trans hrefs⟩

omit [StatusErrors Err] in
theorem mem_configRefs_webhooks {kind : WebhookKind} {n : NamespacedName} :
    .webhooks kind n ∈ m.configRefs ↔ n ∈ m.webhookRefs kind := by
  cases kind <;> simp [Manager.configRefs]

omit [StatusErrors Err] in
theorem mem_configRefs_crd {n : NamespacedName} :
    .crd n ∈ m.configRefs ↔ n ∈ m.options.crdRefs := by
  simp [Manager.configRefs]

omit [StatusErrors Err] in
theorem clientConfig_withBundle (crd : CustomResourceDefinition Rest) (bundle : Bytes) :
    (crd.withBundle bundle).clientConfig =
      crd.clientConfig.map ({ · with caBundle := bundle }) := by
  unfold CustomResourceDefinition.withBundle CustomResourceDefinition.clientConfig
  cases crd.conversion with
  | none => rfl
  | some conversion => cases hwebhook : conversion.webhook <;> simp [hwebhook]

/-- **What a successful refresh leaves behind**, whichever calls fail. -/
theorem refreshCert_refreshed {changed : Bool} (hnamed : s.Named)
    (h : Yields (faulty Rest Err) s (m.refreshCert std) (changed, none) s') :
    ∃ bundle, Refreshed m s s' bundle := by
  obtain ⟨mid, certs, hresolved, hframe, hstored, rfl⟩ := faulty_refreshCert hnamed h
  set bundle := extendBundle (m.fetched s).caBundle certs.caCert with hbundle
  obtain ⟨hwebhooks, hcrds⟩ := objects_of_apartFrom hframe
  refine ⟨bundle, ?_, ?_, ?_, ?_, ?_⟩
  · intro kind n hn
    obtain ⟨config, hconfig⟩ := Option.isSome_iff_exists.mp (hresolved.webhooks kind n hn)
    refine ⟨config.withBundle bundle, ?_, ?_⟩
    · simp [World.withBundles, mem_configRefs_webhooks, hn, hwebhooks, hconfig]
    · simp [WebhookConfiguration.withBundle]
  · intro n hn
    obtain ⟨⟨crd, clientConfig⟩, hconfigured⟩ :=
      Option.isSome_iff_exists.mp (hresolved.crds n hn)
    obtain ⟨hcrd, hconfig⟩ := configuredCrd_eq_some_iff.mp hconfigured
    refine ⟨crd.withBundle bundle, { clientConfig with caBundle := bundle }, ?_, ?_, rfl⟩
    · simp [World.withBundles, mem_configRefs_crd, hn, hcrds, hcrd]
    · rw [clientConfig_withBundle, hconfig, Option.map_some]
  · exact ⟨certs, hstored, contains_extendBundle _ _⟩
  · intro previous hne hall
    rw [hbundle, (fetched_eq m s).1, commonBundle_of_all hne hall]
    exact prefix_extendBundle _ _
  · rw [apartFrom_withBundles, hframe, apartFrom_withBundles]

end Refresh

/-- Two webhooks with the same CA bundle, and a Secret. -/
def bundledWorld : World Unit where
  now := 0
  secrets n := some (certsToSecret (certsAt 0) n)
  webhooks _ n := some ⟨n, [⟨⟨[7], ()⟩, ()⟩, ⟨⟨[7], ()⟩, ()⟩], ()⟩
  crds _ := none
  files _ _ := none

/-- The Secret cannot be read, and nothing else fails. -/
def refuseReads (s : World Unit) :
    (request : CertRequest Unit) → (certCalls Unit GoError).Reply request × World Unit
  | .getSecret _ => ((.error ⟨["connection refused"]⟩ : Except GoError Secret), s)
  | request => respond s request

def refusedRefresh : List (certCalls Unit GoError).Call × (Bool × Option (CertError GoError)) ×
    World Unit :=
  ((replica "/a").refreshCert byteStdlib).interpret refuseReads bundledWorld

theorem handles_refuseReads (s : World Unit) (request : CertRequest Unit) :
    (faulty Unit GoError).Handles s request (refuseReads s request).1
      (refuseReads s request).2 := by
  cases request with
  | getSecret n => exact .inr ⟨rfl, rfl⟩
  | _ => exact .inl ⟨certsAt s.now, rfl⟩

/-- The certificate is replaced, and its CA is appended to the bundle. -/
theorem refreshCert_refreshed_refused :
    bundledWorld.Named ∧ refusedRefresh.2.1 = (true, none) ∧
      (refusedRefresh.2.2.webhooks .mutating ⟨"", "test-mutating-webhook-config"⟩).map (·.bundles) =
        some [[7, 1], [7, 1]] ∧
      ∃ bundle, Refreshed (replica "/a") bundledWorld refusedRefresh.2.2 bundle := by
  have hnamed : bundledWorld.Named := by
    constructor
    · intro kind n config hconfig
      exact congrArg WebhookConfiguration.namespacedName (Option.some.inj hconfig.symm)
    · intro n crd hcrd
      cases hcrd
  have hruns := @Program.runs_interpret _ _ _ refuseReads
    ((replica "/a").refreshCert byteStdlib) bundledWorld
  have hserved := Program.served_interpret handles_refuseReads
    ((replica "/a").refreshCert byteStdlib) bundledWorld
  have hyields : Yields (faulty Unit GoError) bundledWorld
      ((replica "/a").refreshCert byteStdlib) (true, none) refusedRefresh.2.2 :=
    yields_of_served hruns hserved fun _ _ _ _ hhandles ↦ hhandles
  exact ⟨hnamed, by decide, by decide, refreshCert_refreshed hnamed hyields⟩

end OperatorToolkit.Cert
