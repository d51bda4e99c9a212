import OperatorToolkit.Cert.Manager

/-!
# The common CA bundle

`refreshCert` looks for a CA bundle that all webhook configurations have in common, and is meant to
pass an empty one to the provisioner if two of them differ. The empty bundle also stands for a
bundle that has not been found yet: empty bundles in front of others are not noticed, and after a
difference the loop over the CRDs starts anew.
-/

namespace OperatorToolkit.Cert

open Interaction Object

variable {Rest Err : Type}

/-- The bundle for a list of bundles: the common one, and an empty one if two of them differ. -/
structure IsCommonBundle (bundles : List Bytes) (caBundle : Bytes) : Prop where
  eq_of_all : ∀ bundle, bundles ≠ [] → (∀ other ∈ bundles, other = bundle) → caBundle = bundle
  empty_of_differ : (∃ bundle ∈ bundles, ∃ other ∈ bundles, bundle ≠ other) → caBundle = []

/-! ## Comparing a list of bundles -/

/-- The common bundle as the loop over the CRDs carries it on. -/
def nextBundle (common bundle : Bytes) : Bytes := (compareCABundles common bundle).1

/-- The loops over the webhooks of all configurations in one. -/
def compareAll : List Bytes → Bytes × Bool → Bytes × Bool
  | [], bundles => bundles
  | bundle :: rest, (common, differ) =>
    if differ then (common, differ) else compareAll rest (compareCABundles common bundle)

section Comparing

variable {common bundle : Bytes}

@[simp] theorem compareCABundles_nil (bundle : Bytes) :
    compareCABundles [] bundle = (bundle, false) := by
  simp [compareCABundles]

@[simp] theorem compareCABundles_self (bundle : Bytes) :
    compareCABundles bundle bundle = (bundle, false) := by
  simp [compareCABundles]

theorem compareCABundles_of_ne (hcommon : common ≠ []) (hne : bundle ≠ common) :
    compareCABundles common bundle = ([], true) := by
  simp [compareCABundles, hcommon, Ne.symm hne]

@[simp] theorem nextBundle_nil (bundle : Bytes) : nextBundle [] bundle = bundle := by
  simp [nextBundle]

@[simp] theorem nextBundle_self (bundle : Bytes) : nextBundle bundle bundle = bundle := by
  simp [nextBundle]

theorem nextBundle_of_ne (hcommon : common ≠ []) (hne : bundle ≠ common) :
    nextBundle common bundle = [] := by
  rw [nextBundle, compareCABundles_of_ne hcommon hne]

theorem compareAll_true (bundles : List Bytes) (common : Bytes) :
    compareAll bundles (common, true) = (common, true) := by
  cases bundles <;> rfl

theorem compareAll_append (bundles more : List Bytes) (start : Bytes × Bool) :
    compareAll (bundles ++ more) start = compareAll more (compareAll bundles start) := by
  induction bundles generalizing start with
  | nil => rfl
  | cons bundle bundles ih =>
    obtain ⟨common, differ⟩ := start
    cases differ with
    | true => rw [compareAll_true, compareAll_true, compareAll_true]
    | false => exact ih _

theorem compareWebhooks_eq (webhooks : List (Webhook Rest)) (start : Bytes × Bool) :
    compareWebhooks webhooks start =
      compareAll (webhooks.map (·.clientConfig.caBundle)) start := by
  induction webhooks generalizing start with
  | nil => rfl
  | cons wh webhooks ih =>
    rw [compareWebhooks, List.map_cons, compareAll, ih]

theorem foldl_nextBundle_replicate (n : ℕ) (bundle : Bytes) :
    (List.replicate n bundle).foldl nextBundle bundle = bundle := by
  induction n with
  | zero => rfl
  | succ n ih => rw [List.replicate_succ, List.foldl_cons, nextBundle_self, ih]

/-- From a bundle on, the webhooks either all have it, or the loops end with a difference. -/
theorem compareAll_of_ne_nil (hcommon : common ≠ []) (bundles : List Bytes) :
    compareAll bundles (common, false) =
      if ∀ bundle ∈ bundles, bundle = common then (common, false) else ([], true) := by
  induction bundles with
  | nil => simp [compareAll]
  | cons bundle bundles ih =>
    rw [compareAll, if_neg Bool.false_ne_true]
    by_cases heq : bundle = common
    · rw [heq, compareCABundles_self, ih]
      simp
    · rw [compareCABundles_of_ne hcommon heq, compareAll_true]
      simp [heq]

end Comparing

/-! ## Cancelling bundles -/

/-- Bundles that leave no common one: they fall into empty bundles, and runs of a bundle that is not
empty, each of which ends with another bundle. -/
inductive Cancelling : List Bytes → Prop where
  | nil : Cancelling []
  | empty {bundles} : Cancelling bundles → Cancelling ([] :: bundles)
  | run {bundles} (n : ℕ) (bundle other : Bytes) : bundle ≠ [] → other ≠ bundle →
      Cancelling bundles → Cancelling (bundle :: (List.replicate n bundle ++ other :: bundles))

theorem foldl_of_cancelling {bundles : List Bytes} (h : Cancelling bundles) :
    bundles.foldl nextBundle [] = [] := by
  induction h with
  | nil => rfl
  | empty _ ih => rw [List.foldl_cons, nextBundle_nil, ih]
  | run n bundle other hbundle hother _ ih =>
    rw [List.foldl_cons, nextBundle_nil, List.foldl_append, foldl_nextBundle_replicate,
      List.foldl_cons, nextBundle_of_ne hbundle hother, ih]

/-- The second part is the state of the loop within a run. -/
theorem cancelling_of_foldl (bundles : List Bytes) :
    (bundles.foldl nextBundle [] = [] → Cancelling bundles) ∧
      ∀ common, common ≠ [] → bundles.foldl nextBundle common = [] → ∃ n other rest,
        bundles = List.replicate n common ++ other :: rest ∧ other ≠ common ∧ Cancelling rest := by
  induction bundles with
  | nil => exact ⟨fun _ ↦ .nil, fun common hcommon hfold ↦ absurd hfold hcommon⟩
  | cons bundle bundles ih =>
    constructor
    · intro hfold
      rw [List.foldl_cons, nextBundle_nil] at hfold
      by_cases hbundle : bundle = []
      · rw [hbundle] at hfold ⊢
        exact .empty (ih.1 hfold)
      · obtain ⟨n, other, rest, rfl, hother, hrest⟩ := ih.2 bundle hbundle hfold
        exact .run n bundle other hbundle hother hrest
    · intro common hcommon hfold
      rw [List.foldl_cons] at hfold
      by_cases heq : bundle = common
      · rw [heq, nextBundle_self] at hfold
        obtain ⟨n, other, rest, rfl, hother, hrest⟩ := ih.2 common hcommon hfold
        exact ⟨n + 1, other, rest, by rw [heq, List.replicate_succ, List.cons_append], hother,
          hrest⟩
      · rw [nextBundle_of_ne hcommon heq] at hfold
        exact ⟨0, bundle, bundles, rfl, heq, ih.1 hfold⟩

theorem cancelling_iff {bundles : List Bytes} :
    Cancelling bundles ↔ bundles.foldl nextBundle [] = [] :=
  ⟨foldl_of_cancelling, (cancelling_of_foldl bundles).1⟩

/-! ## The webhooks -/

/-- The webhooks have one bundle in common, apart from empty ones in front. -/
def Agreeing (bundles : List Bytes) : Prop :=
  ∀ bundle ∈ bundles.dropWhile (· = []), ∀ other ∈ bundles.dropWhile (· = []), bundle = other

/-- The loops over the webhook configurations carry on the common bundle as long as there is one. -/
theorem compareAll_eq (bundles : List Bytes) :
    (Agreeing bundles → (compareAll bundles ([], false)).1 = bundles.foldl nextBundle []) ∧
      (¬Agreeing bundles → (compareAll bundles ([], false)).1 = []) := by
  induction bundles with
  | nil => exact ⟨fun _ ↦ rfl, fun _ ↦ rfl⟩
  | cons bundle bundles ih =>
    rw [compareAll, if_neg Bool.false_ne_true, compareCABundles_nil, List.foldl_cons,
      nextBundle_nil]
    by_cases hbundle : bundle = []
    · have hagreeing : Agreeing (bundle :: bundles) ↔ Agreeing bundles := by
        simp [Agreeing, hbundle]
      rw [hagreeing, hbundle]
      exact ih
    · have hagreeing : Agreeing (bundle :: bundles) ↔ ∀ other ∈ bundles, other = bundle := by
        simp only [Agreeing, hbundle, List.dropWhile_cons, decide_false, Bool.false_eq_true,
          if_false]
        constructor
        · intro hall other hother
          exact hall other (List.mem_cons_of_mem _ hother) bundle List.mem_cons_self
        · intro hall other hother other' hother'
          have heq : ∀ other ∈ bundle :: bundles, other = bundle :=
            List.forall_mem_cons.mpr ⟨rfl, hall⟩
          exact (heq other hother).trans (heq other' hother').symm
      rw [hagreeing, compareAll_of_ne_nil hbundle]
      constructor
      · intro hall
        rw [if_pos hall, List.eq_replicate_of_mem hall, foldl_nextBundle_replicate]
      · intro hdiffer
        rw [if_neg hdiffer]

/-! ## The bundle of all configurations -/

def WebhookConfiguration.bundles (config : WebhookConfiguration Rest) : List Bytes :=
  config.webhooks.map (·.clientConfig.caBundle)

/-- The bundle for the bundles of the webhooks and those of the CRDs. -/
def commonBundle (webhooks crds : List Bytes) : Bytes :=
  crds.foldl nextBundle (compareAll webhooks ([], false)).1

theorem foldl_addWebhooks (kind : WebhookKind) (configs : List (WebhookConfiguration Rest))
    (fetched : Fetched Rest) :
    configs.foldl (·.addWebhooks kind ·) fetched =
      { whConfigs := fetched.whConfigs ++ configs.map (.webhooks kind)
        caBundle := (compareAll (configs.flatMap (·.bundles))
          (fetched.caBundle, fetched.differentCABundles)).1
        differentCABundles := (compareAll (configs.flatMap (·.bundles))
          (fetched.caBundle, fetched.differentCABundles)).2 } := by
  induction configs generalizing fetched with
  | nil => simp [compareAll]
  | cons config configs ih =>
    rw [List.foldl_cons, ih, List.flatMap_cons, compareAll_append]
    simp [Fetched.addWebhooks, compareWebhooks_eq, WebhookConfiguration.bundles]

theorem foldl_addCrd (crds : List (CustomResourceDefinition Rest × ClientConfig Rest))
    (fetched : Fetched Rest) :
    crds.foldl (fun fetched (crd, clientConfig) ↦ fetched.addCrd crd clientConfig) fetched =
      { fetched with
        whConfigs := fetched.whConfigs ++ crds.map (.crd ·.1)
        caBundle := (crds.map (·.2.caBundle)).foldl nextBundle fetched.caBundle } := by
  induction crds generalizing fetched with
  | nil => simp
  | cons crd crds ih =>
    rw [List.foldl_cons, ih]
    simp [Fetched.addCrd, nextBundle]

/-- When the bundle is the right one: all bundles are equal, or they cancel each other out. If the
webhooks do not agree, then only the bundles of the CRDs count. -/
def Settled (webhooks crds : List Bytes) : Prop :=
  (∀ bundle ∈ webhooks ++ crds, ∀ other ∈ webhooks ++ crds, bundle = other) ∨
    (Agreeing webhooks ∧ Cancelling (webhooks ++ crds)) ∨ (¬Agreeing webhooks ∧ Cancelling crds)

theorem commonBundle_of_agreeing {webhooks crds : List Bytes} (h : Agreeing webhooks) :
    commonBundle webhooks crds = (webhooks ++ crds).foldl nextBundle [] := by
  rw [commonBundle, (compareAll_eq webhooks).1 h, List.foldl_append]

theorem commonBundle_of_not_agreeing {webhooks crds : List Bytes} (h : ¬Agreeing webhooks) :
    commonBundle webhooks crds = crds.foldl nextBundle [] := by
  rw [commonBundle, (compareAll_eq webhooks).2 h]

/-- Equal bundles are what they have in common. -/
theorem commonBundle_of_all {webhooks crds : List Bytes} {bundle : Bytes}
    (hne : webhooks ++ crds ≠ []) (hall : ∀ other ∈ webhooks ++ crds, other = bundle) :
    commonBundle webhooks crds = bundle := by
  have hagreeing : Agreeing webhooks := by
    have hdropped : ∀ other ∈ webhooks.dropWhile (· = []), other = bundle := fun other hother ↦
      hall other (List.mem_append_left _ ((List.dropWhile_sublist _).mem hother))
    exact fun other hother other' hother' ↦
      (hdropped other hother).trans (hdropped other' hother').symm
  rw [commonBundle_of_agreeing hagreeing, List.eq_replicate_of_mem hall]
  cases hlength : (webhooks ++ crds).length with
  | zero => exact absurd (List.length_eq_zero_iff.mp hlength) hne
  | succ n =>
    rw [List.replicate_succ, List.foldl_cons, nextBundle_nil, foldl_nextBundle_replicate]

theorem commonBundle_eq_nil_iff {webhooks crds : List Bytes} :
    commonBundle webhooks crds = [] ↔
      (Agreeing webhooks ∧ Cancelling (webhooks ++ crds)) ∨
        (¬Agreeing webhooks ∧ Cancelling crds) := by
  by_cases hagreeing : Agreeing webhooks
  · rw [commonBundle_of_agreeing hagreeing]
    simp [hagreeing, cancelling_iff]
  · rw [commonBundle_of_not_agreeing hagreeing]
    simp [hagreeing, cancelling_iff]

theorem isCommonBundle_iff (webhooks crds : List Bytes) :
    IsCommonBundle (webhooks ++ crds) (commonBundle webhooks crds) ↔ Settled webhooks crds := by
  rw [Settled, ← commonBundle_eq_nil_iff]
  constructor
  · intro hcommon
    by_cases hall : ∀ bundle ∈ webhooks ++ crds, ∀ other ∈ webhooks ++ crds, bundle = other
    · exact .inl hall
    · right
      apply hcommon.empty_of_differ
      simpa only [not_forall, exists_prop] using hall
  · intro hsettled
    refine ⟨fun bundle hne hall ↦ commonBundle_of_all hne hall, ?_⟩
    intro hdiffer
    cases hsettled with
    | inl hall =>
      obtain ⟨bundle, hbundle, other, hother, hne⟩ := hdiffer
      exact absurd (hall bundle hbundle other hother) hne
    | inr hempty => exact hempty

/-- There is one common bundle, whatever the order of the bundles. -/
theorem IsCommonBundle.eq_of_perm {bundles bundles' : List Bytes} {caBundle caBundle' : Bytes}
    (h : IsCommonBundle bundles caBundle) (h' : IsCommonBundle bundles' caBundle')
    (hperm : bundles'.Perm bundles) (hne : bundles ≠ []) : caBundle' = caBundle := by
  by_cases hall : ∀ bundle ∈ bundles, ∀ other ∈ bundles, bundle = other
  · obtain ⟨bundle, rest, rfl⟩ := List.exists_cons_of_ne_nil hne
    have hbundle : ∀ other ∈ bundle :: rest, other = bundle := fun other hother ↦
      hall other hother bundle List.mem_cons_self
    have hne' : bundles' ≠ [] := by
      rintro rfl
      exact hne hperm.nil_eq.symm
    rw [h.eq_of_all bundle hne hbundle,
      h'.eq_of_all bundle hne' fun other hother ↦ hbundle other (hperm.mem_iff.mp hother)]
  · have hdiffer : ∃ bundle ∈ bundles, ∃ other ∈ bundles, bundle ≠ other := by
      simpa only [not_forall, exists_prop] using hall
    rw [h.empty_of_differ hdiffer]
    apply h'.empty_of_differ
    simpa only [hperm.mem_iff] using hdiffer

/-! ## The bundle of a run -/

/-- The bundles of the webhooks that were fetched. -/
def webhookBundles (calls : List (certCalls Rest Err).Call) : List Bytes :=
  calls.flatMap fun
    | ⟨.getWebhooks _ _, .ok config⟩ => config.bundles
    | _ => []

/-- The bundles of the CRDs that were fetched. -/
def crdBundles (calls : List (certCalls Rest Err).Call) : List Bytes :=
  calls.flatMap fun
    | ⟨.getCrd _, .ok crd⟩ => crd.clientConfig.toList.map (·.caBundle)
    | _ => []

theorem runs_fetchWebhooks {kind : WebhookKind} {refs : List NamespacedName}
    {fetched out : Fetched Rest} {calls : List (certCalls Rest Err).Call}
    (h : Program.Runs (fetchWebhooks kind refs fetched) calls (.ok out)) :
    (out.caBundle, out.differentCABundles) =
        compareAll (webhookBundles calls) (fetched.caBundle, fetched.differentCABundles) ∧
      crdBundles calls = [] := by
  induction refs generalizing fetched calls with
  | nil =>
    obtain ⟨rfl, hout⟩ := Program.runs_done_iff.mp h
    rw [Except.ok.inj hout]
    exact ⟨rfl, rfl⟩
  | cons nn refs ih =>
    obtain ⟨reply, rest, rfl, hrest⟩ := Program.runs_call_iff.mp h
    cases reply with
    | error err => cases (Program.runs_done_iff.mp hrest).2
    | ok config =>
      obtain ⟨hbundles, hcrds⟩ := ih hrest
      refine ⟨?_, hcrds⟩
      rw [hbundles]
      change _ = compareAll (config.bundles ++ webhookBundles rest) _
      rw [compareAll_append, Fetched.addWebhooks, compareWebhooks_eq]
      rfl

theorem runs_fetchCrds [StatusErrors Err] {refs : List NamespacedName}
    {fetched out : Fetched Rest} {calls : List (certCalls Rest Err).Call}
    (h : Program.Runs (fetchCrds refs fetched) calls (.ok out)) :
    out.caBundle = (crdBundles calls).foldl nextBundle fetched.caBundle ∧
      webhookBundles calls = [] := by
  induction refs generalizing fetched calls with
  | nil =>
    obtain ⟨rfl, hout⟩ := Program.runs_done_iff.mp h
    rw [Except.ok.inj hout]
    exact ⟨rfl, rfl⟩
  | cons nn refs ih =>
    obtain ⟨reply, rest, rfl, hrest⟩ := Program.runs_call_iff.mp h
    cases reply with
    | error err => cases (Program.runs_done_iff.mp hrest).2
    | ok crd =>
      cases hconfig : crd.clientConfig with
      | none =>
        simp only [Program.bind, hconfig] at hrest
        cases (Program.runs_done_iff.mp hrest).2
      | some clientConfig =>
        simp only [Program.bind, hconfig] at hrest
        obtain ⟨hbundle, hwebhooks⟩ := ih hrest
        refine ⟨?_, hwebhooks⟩
        rw [hbundle]
        change _ = (crd.clientConfig.toList.map (·.caBundle) ++ crdBundles rest).foldl _ _
        rw [hconfig]
        rfl

theorem runs_fetchConfigs [StatusErrors Err] {m : Manager} {fetched : Fetched Rest}
    {calls : List (certCalls Rest Err).Call}
    (h : Program.Runs m.fetchConfigs calls (.ok fetched)) :
    fetched.caBundle = commonBundle (webhookBundles calls) (crdBundles calls) := by
  obtain ⟨first, mutating, rest, rfl, hmutating, hrest⟩ := Program.runs_bind_iff.mp h
  cases mutating with
  | error err => cases (Program.runs_done_iff.mp hrest).2
  | ok mutating =>
    obtain ⟨second, validating, third, rfl, hvalidating, hcrds⟩ := Program.runs_bind_iff.mp hrest
    cases validating with
    | error err => cases (Program.runs_done_iff.mp hcrds).2
    | ok validating =>
      obtain ⟨hbundles, hno⟩ := runs_fetchWebhooks hmutating
      obtain ⟨hbundles', hno'⟩ := runs_fetchWebhooks hvalidating
      obtain ⟨hbundle, hnone⟩ := runs_fetchCrds hcrds
      simp only [webhookBundles, crdBundles, List.flatMap_append] at *
      rw [hno, hno', hnone, List.nil_append, List.nil_append, List.append_nil, hbundle,
        commonBundle, compareAll_append, ← hbundles, ← hbundles']

/-- The bundle that is passed to the provisioner is the common one, or empty if there is none, if
and only if the bundles are settled; then their order does not matter. -/
theorem fetchConfigs_caBundle_iff [StatusErrors Err] (m : Manager) (fetched : Fetched Rest)
    (calls : List (certCalls Rest Err).Call)
    (hruns : Program.Runs m.fetchConfigs calls (.ok fetched)) :
    (IsCommonBundle (webhookBundles calls ++ crdBundles calls) fetched.caBundle ↔
      Settled (webhookBundles calls) (crdBundles calls)) ∧
    (Settled (webhookBundles calls) (crdBundles calls) →
      ∀ (m' : Manager) (fetched' : Fetched Rest) (calls' : List (certCalls Rest Err).Call),
        Program.Runs m'.fetchConfigs calls' (.ok fetched') →
        Settled (webhookBundles calls') (crdBundles calls') →
        (webhookBundles calls' ++ crdBundles calls').Perm
          (webhookBundles calls ++ crdBundles calls) →
        fetched'.caBundle = fetched.caBundle) := by
  have hiff := isCommonBundle_iff (webhookBundles calls) (crdBundles calls)
  rw [runs_fetchConfigs hruns]
  refine ⟨hiff, ?_⟩
  intro hsettled m' fetched' calls' hruns' hsettled' hperm
  rw [runs_fetchConfigs hruns']
  by_cases hnone : webhookBundles calls ++ crdBundles calls = []
  · rw [hnone, List.perm_nil, List.append_eq_nil_iff] at hperm
    rw [List.append_eq_nil_iff] at hnone
    rw [hnone.1, hnone.2, hperm.1, hperm.2]
  · exact (hiff.mpr hsettled).eq_of_perm ((isCommonBundle_iff _ _).mpr hsettled') hperm hnone

/-- A manager of one mutating webhook configuration and a CRD. -/
def hooksManager (crdRefs : List NamespacedName) : Manager where
  options :=
    { mutatingWebhookConfigRefs := [⟨"", "hooks"⟩]
      crdRefs := crdRefs
      secretRef := some ⟨"default", "cert"⟩ }
  certProvisioner := ⟨some ⟨⟨"default", "cert"⟩⟩⟩
  secretRef_isSome := rfl
  certProvisioner_eq := rfl

def hooks (bundles : List Bytes) : WebhookConfiguration Unit :=
  ⟨⟨"", "hooks"⟩, bundles.map fun bundle ↦ ⟨⟨bundle, ()⟩, ()⟩, ()⟩

def gamesCrd (bundle : Bytes) : CustomResourceDefinition Unit :=
  ⟨⟨"", "games"⟩, some ⟨some ⟨some ⟨bundle, ()⟩, ()⟩, ()⟩, ()⟩

def fetchHooks (bundles : List Bytes) : (certCalls Unit GoError).Call :=
  ⟨.getWebhooks .mutating ⟨"", "hooks"⟩, .ok (hooks bundles)⟩

def fetchGames (bundle : Bytes) : (certCalls Unit GoError).Call :=
  ⟨.getCrd ⟨"", "games"⟩, .ok (gamesCrd bundle)⟩

theorem fetchConfigs_caBundle_differ :
    ¬Agreeing [[1], [2]] ∧
      Program.Runs (hooksManager []).fetchConfigs [fetchHooks [[1], [2]]]
        (.ok ⟨[.webhooks .mutating (hooks [[1], [2]])], [], true⟩) ∧
      IsCommonBundle [[1], [2]] [] := by
  have hagreeing : ¬Agreeing [[1], [2]] := by
    intro hagree
    have heq := hagree [1] (by decide) [2] (by decide)
    revert heq
    decide
  have hruns : Program.Runs (hooksManager []).fetchConfigs [fetchHooks [[1], [2]]]
      (.ok ⟨[.webhooks .mutating (hooks [[1], [2]])], [], true⟩) := .call (.done _)
  refine ⟨hagreeing, hruns, ?_⟩
  exact (fetchConfigs_caBundle_iff _ _ _ hruns).1.mpr (.inr (.inr ⟨hagreeing, .nil⟩))

/-- An empty bundle is noticed after another one but not before it, and the bundle of a CRD is taken
for the common one although two webhooks differ. -/
theorem fetchConfigs_caBundle_slips :
    Program.Runs (hooksManager []).fetchConfigs [fetchHooks [[], [1]]]
        (.ok ⟨[.webhooks .mutating (hooks [[], [1]])], [1], false⟩) ∧
      Program.Runs (hooksManager []).fetchConfigs [fetchHooks [[1], []]]
        (.ok ⟨[.webhooks .mutating (hooks [[1], []])], [], true⟩) ∧
      Program.Runs (hooksManager [⟨"", "games"⟩]).fetchConfigs
        [fetchHooks [[1], [2]], fetchGames [3]]
        (.ok ⟨[.webhooks .mutating (hooks [[1], [2]]), .crd (gamesCrd [3])], [3], true⟩) ∧
      ¬IsCommonBundle [[], [1]] [1] ∧ ¬IsCommonBundle [[1], [2], [3]] [3] := by
  refine ⟨.call (.done _), .call (.done _), .call (.call (.done _)), ?_, ?_⟩
  · intro hcommon
    have hempty := hcommon.empty_of_differ ⟨[], by decide, [1], by decide, by decide⟩
    cases hempty
  · intro hcommon
    have hempty := hcommon.empty_of_differ ⟨[1], by decide, [2], by decide, by decide⟩
    cases hempty

end OperatorToolkit.Cert
