import OperatorToolkit.Grouping.Keys
import OperatorToolkit.Rbac.Result

/-!
# What the recorded rules grant

The roles that `Result` produces are meant to grant what the recorded calls need. Reordering loses
no permission and adds none, so that the roles grant exactly what was recorded. What the API server
asks of a call is stated beside it: most calls are recorded under that very permission, but a
`DeleteAllOf` is recorded as `delete`, and a `List` for the resource guessed from the kind of the
list object.
-/

namespace OperatorToolkit.Rbac

open Grouping Interaction Object

structure Permission where
  group : String
  resource : String
  verb : String
  deriving DecidableEq, Repr

structure PolicyRule.Grants (rule : PolicyRule) (p : Permission) : Prop where
  group : p.group ∈ rule.apiGroups
  resource : p.resource ∈ rule.resources
  verb : p.verb ∈ rule.verbs

instance (rule : PolicyRule) (p : Permission) : Decidable (rule.Grants p) :=
  decidable_of_iff (p.group ∈ rule.apiGroups ∧ p.resource ∈ rule.resources ∧ p.verb ∈ rule.verbs)
    ⟨fun h ↦ ⟨h.1, h.2.1, h.2.2⟩, fun h ↦ ⟨h.group, h.resource, h.verb⟩⟩

def Grants (rules : List PolicyRule) (p : Permission) : Prop := ∃ rule ∈ rules, rule.Grants p

instance (rules : List PolicyRule) (p : Permission) : Decidable (Grants rules p) :=
  inferInstanceAs (Decidable (∃ rule ∈ rules, rule.Grants p))

/-- A rule for one API group that can be told from the resource in `<group>_<resource>`. -/
structure PolicyRule.OneGroup (rule : PolicyRule) : Prop where
  apiGroups_eq : rule.apiGroups = [rule.group]
  separated : '_' ∉ rule.group.toList

/-! ## Reordering -/

theorem groupResourceName_inj {group resource group' resource' : String}
    (hgroup : '_' ∉ group.toList) (hgroup' : '_' ∉ group'.toList)
    (heq : groupResourceName group resource = groupResourceName group' resource') :
    group = group' ∧ resource = resource' :=
  joined_inj hgroup hgroup' heq

/-- One resource of a rule, with the rule's verbs. -/
structure Entry where
  group : String
  resource : String
  verbs : List String

def Entry.name (entry : Entry) : String := groupResourceName entry.group entry.resource

def Entry.merge (entry : Entry) : Option PolicyRule → PolicyRule
  | some prule => entry.verbs.foldl PolicyRule.appendVerb prule
  | none => .about entry.group entry.resource entry.verbs

def PolicyRule.entries (rule : PolicyRule) : List Entry :=
  rule.resources.map fun resource ↦ ⟨rule.group, resource, rule.verbs⟩

/-- Reordering groups the entries of all rules by their names. -/
theorem reorderRules_eq (rules : List PolicyRule) :
    reorderRules rules =
      (OrderedMap.collect Entry.name Entry.merge (rules.flatMap PolicyRule.entries)).values := by
  rw [reorderRules, OrderedMap.collect, List.foldl_flatMap]
  simp only [PolicyRule.entries, List.foldl_map]
  rfl

theorem mem_verbs_foldl_appendVerb {verbs : List String} {prule : PolicyRule} {verb : String} :
    verb ∈ (verbs.foldl PolicyRule.appendVerb prule).verbs ↔ verb ∈ prule.verbs ∨ verb ∈ verbs := by
  induction verbs generalizing prule with
  | nil => simp
  | cons v verbs ih =>
    rw [List.foldl_cons, ih, PolicyRule.appendVerb]
    split
    next hv =>
      have hmem : v ∈ prule.verbs := by simpa [contains] using hv
      grind
    next => simp [or_assoc]

theorem foldl_appendVerb_about (verbs : List String) (prule : PolicyRule) :
    (verbs.foldl PolicyRule.appendVerb prule).apiGroups = prule.apiGroups ∧
      (verbs.foldl PolicyRule.appendVerb prule).resources = prule.resources := by
  induction verbs generalizing prule with
  | nil => exact ⟨rfl, rfl⟩
  | cons v verbs ih =>
    rw [List.foldl_cons, (ih _).1, (ih _).2, PolicyRule.appendVerb]
    split <;> exact ⟨rfl, rfl⟩

/-- A rule made of some entries: it is about the first of them and has the verbs of all. -/
structure Merges (first : Entry) (entries : List Entry) (rule : PolicyRule) : Prop where
  apiGroups_eq : rule.apiGroups = [first.group]
  resources_eq : rule.resources = [first.resource]
  mem_verbs_iff : ∀ verb, verb ∈ rule.verbs ↔ ∃ entry ∈ entries, verb ∈ entry.verbs

theorem merges_foldl (first : Entry) (entries : List Entry) :
    ∃ rule, (first :: entries).foldl (fun old entry ↦ some (entry.merge old)) none = some rule ∧
      Merges first (first :: entries) rule := by
  induction entries using List.reverseRecOn with
  | nil => exact ⟨first.merge none, rfl, rfl, rfl, by simp [Entry.merge, PolicyRule.about]⟩
  | append_singleton entries entry ih =>
    obtain ⟨rule, hfold, hrule⟩ := ih
    obtain ⟨hgroups, hresources⟩ := foldl_appendVerb_about entry.verbs rule
    refine ⟨entry.merge (some rule), ?_, hgroups.trans hrule.apiGroups_eq,
      hresources.trans hrule.resources_eq, fun verb ↦ ?_⟩
    · rw [← List.cons_append, List.foldl_append, hfold]
      rfl
    · rw [Entry.merge, mem_verbs_foldl_appendVerb, hrule.mem_verbs_iff]
      simp only [List.mem_cons, List.mem_append, List.not_mem_nil, or_false]
      grind

/-- A rule of the result is made of the entries of one name. -/
theorem mem_reorderRules_iff {rules : List PolicyRule} {rule : PolicyRule} :
    rule ∈ reorderRules rules ↔ ∃ name first entries,
      (rules.flatMap PolicyRule.entries).filter (·.name = name) = first :: entries ∧
        (first :: entries).foldl (fun old entry ↦ some (entry.merge old)) none = some rule := by
  rw [reorderRules_eq, OrderedMap.mem_values_iff]
  refine exists_congr fun name ↦ ?_
  rw [OrderedMap.lookup_collect]
  cases (rules.flatMap PolicyRule.entries).filter (·.name = name) <;> simp

theorem mem_entries_iff {rule : PolicyRule} {entry : Entry} :
    entry ∈ rule.entries ↔
      entry.group = rule.group ∧ entry.resource ∈ rule.resources ∧ entry.verbs = rule.verbs := by
  rw [PolicyRule.entries, List.mem_map]
  constructor
  · rintro ⟨resource, hresource, rfl⟩
    exact ⟨rfl, hresource, rfl⟩
  · rintro ⟨hgroup, hresource, hverbs⟩
    exact ⟨entry.resource, hresource, by rw [← hgroup, ← hverbs]⟩

/-- In terms of entries: a permission is granted if one has its group, resource and verb. -/
theorem grants_iff_entries {rules : List PolicyRule} (hone : ∀ rule ∈ rules, rule.OneGroup)
    {p : Permission} : Grants rules p ↔ ∃ entry ∈ rules.flatMap PolicyRule.entries,
      entry.group = p.group ∧ entry.resource = p.resource ∧ p.verb ∈ entry.verbs := by
  simp only [List.mem_flatMap]
  constructor
  · rintro ⟨rule, hrule, hgrants⟩
    have hgroup : p.group = rule.group := by
      simpa [(hone rule hrule).apiGroups_eq] using hgrants.group
    exact ⟨⟨p.group, p.resource, rule.verbs⟩,
      ⟨rule, hrule, mem_entries_iff.mpr ⟨hgroup, hgrants.resource, rfl⟩⟩, rfl, rfl, hgrants.verb⟩
  · rintro ⟨entry, ⟨rule, hrule, hentry⟩, hgroup, hresource, hverb⟩
    obtain ⟨hg, hr, hv⟩ := mem_entries_iff.mp hentry
    refine ⟨rule, hrule, ?_, hresource ▸ hr, hv ▸ hverb⟩
    rw [(hone rule hrule).apiGroups_eq, ← hg, hgroup]
    exact List.mem_singleton_self _

theorem grants_reorderRules_iff {rules : List PolicyRule} (hone : ∀ rule ∈ rules, rule.OneGroup)
    {p : Permission} : Grants (reorderRules rules) p ↔ Grants rules p := by
  have hseparated {entry : Entry} (hentry : entry ∈ rules.flatMap PolicyRule.entries) :
      '_' ∉ entry.group.toList := by
    obtain ⟨rule, hrule, hmem⟩ := List.mem_flatMap.mp hentry
    rw [(mem_entries_iff.mp hmem).1]
    exact (hone rule hrule).separated
  -- All entries of one name are about the same group and resource.
  have hsame {name : String} {first entry : Entry} {rest : List Entry}
      (hfilter : (rules.flatMap PolicyRule.entries).filter (·.name = name) = first :: rest)
      (hentry : entry ∈ first :: rest) : entry ∈ rules.flatMap PolicyRule.entries ∧
        entry.group = first.group ∧ entry.resource = first.resource := by
    rw [← hfilter] at hentry
    have hfirst : first ∈ (rules.flatMap PolicyRule.entries).filter (·.name = name) := by
      rw [hfilter]
      exact List.mem_cons_self
    simp only [List.mem_filter, decide_eq_true_eq] at hentry hfirst
    exact ⟨hentry.1, groupResourceName_inj (hseparated hentry.1) (hseparated hfirst.1)
      (hentry.2.trans hfirst.2.symm)⟩
  rw [grants_iff_entries hone]
  constructor
  · rintro ⟨rule, hrule, hgrants⟩
    obtain ⟨name, first, rest, hfilter, hfold⟩ := mem_reorderRules_iff.mp hrule
    obtain ⟨rule', hfold', hmerges⟩ := merges_foldl first rest
    obtain rfl : rule = rule' := Option.some.inj (hfold.symm.trans hfold')
    obtain ⟨entry, hentry, hverb⟩ := (hmerges.mem_verbs_iff _).mp hgrants.verb
    obtain ⟨hmem, hgroup, hresource⟩ := hsame hfilter hentry
    have hpgroup := hgrants.group
    have hpresource := hgrants.resource
    rw [hmerges.apiGroups_eq, List.mem_singleton] at hpgroup
    rw [hmerges.resources_eq, List.mem_singleton] at hpresource
    exact ⟨entry, hmem, hgroup.trans hpgroup.symm, hresource.trans hpresource.symm, hverb⟩
  · rintro ⟨entry, hentry, hgroup, hresource, hverb⟩
    have hfiltered : entry ∈ (rules.flatMap PolicyRule.entries).filter (·.name = entry.name) :=
      List.mem_filter.mpr ⟨hentry, by simp⟩
    obtain ⟨first, rest, hfilter⟩ := List.exists_cons_of_ne_nil (List.ne_nil_of_mem hfiltered)
    obtain ⟨rule, hfold, hmerges⟩ := merges_foldl first rest
    rw [hfilter] at hfiltered
    obtain ⟨-, hgroup', hresource'⟩ := hsame hfilter hfiltered
    refine ⟨rule, mem_reorderRules_iff.mpr ⟨entry.name, first, rest, hfilter, hfold⟩, ?_, ?_, ?_⟩
    · rw [hmerges.apiGroups_eq, ← hgroup, hgroup']
      exact List.mem_singleton_self _
    · rw [hmerges.resources_eq, ← hresource, hresource']
      exact List.mem_singleton_self _
    · exact (hmerges.mem_verbs_iff _).mpr ⟨entry, hfiltered, hverb⟩

/-! ## What the API server requires -/

variable {Obj Err : Type}

def deleteCollection : String := "deletecollection"

/-- The verb that the API server authorises a call with. -/
def Call.requiredVerb : Call Obj → String
  | .create _ => verbCreate
  | .update _ | .statusUpdate _ => verbUpdate
  | .delete _ => verbDelete
  | .deleteAllOf _ => deleteCollection
  | .patch _ | .statusPatch _ => verbPatch
  | .get _ => verbGet
  | .list _ => verbList

/-- The permission that a call on the items of kind `gvk` requires, where `resourceOf` names the
resource under which the API serves a kind. -/
def Call.requires (resourceOf : GroupVersionKind → String) (call : Call Obj)
    (gvk : GroupVersionKind) : Permission :=
  ⟨gvk.group, subresource call.status (resourceOf gvk), call.requiredVerb⟩

/-- The kind of the lists of a kind. -/
def listKind (gvk : GroupVersionKind) : GroupVersionKind :=
  { gvk with kind := gvk.kind ++ "List" }

/-- The kind that the scheme must give the object of a call on items of kind `gvk`. -/
def Call.objectKind (gvk : GroupVersionKind) : Call Obj → GroupVersionKind
  | .list _ => listKind gvk
  | _ => gvk

/-- The REST mapper knows the kind. -/
def Machinery.Maps (api : Machinery Obj Err) (gvk : GroupVersionKind) : Prop :=
  ∃ scope, api.restMapping ⟨gvk.group, gvk.kind⟩ = .ok scope

/-- The call is about items of the kind `gvk`, which the scheme and the REST mapper know. -/
structure Call.Concerns (api : Machinery Obj Err) (call : Call Obj) (gvk : GroupVersionKind) :
    Prop where
  known : api.gvkForObject call.obj = .ok (call.objectKind gvk)
  mapped : api.Maps gvk

/-- What the recorder relies on: the kinds that the REST mapper maps have a name, and their API
groups are DNS names; guessing keeps the group of a kind that has a name, and finds the resource of
the kinds that the REST mapper maps. -/
structure Machinery.Serves (api : Machinery Obj Err) (resourceOf : GroupVersionKind → String) :
    Prop where
  kind_ne : ∀ gvk : GroupVersionKind, api.Maps gvk → gvk.kind ≠ ""
  group_separated : ∀ gvk : GroupVersionKind, api.Maps gvk → '_' ∉ gvk.group.toList
  guess_group : ∀ gvk : GroupVersionKind, gvk.kind ≠ "" →
    (api.unsafeGuessKindToResource gvk).group = gvk.group
  guess_resource : ∀ gvk : GroupVersionKind, api.Maps gvk →
    (api.unsafeGuessKindToResource gvk).resource = resourceOf gvk

section Required

variable {api : Machinery Obj Err} {resourceOf : GroupVersionKind → String} {call : Call Obj}
  {gvk : GroupVersionKind}

theorem guessed_of_concerns (hcall : call.Concerns api gvk) :
    api.guessed call.obj = api.unsafeGuessKindToResource (call.objectKind gvk) := by
  rw [Machinery.guessed, hcall.known]

theorem guessed_group (hserves : api.Serves resourceOf) (hcall : call.Concerns api gvk) :
    (api.guessed call.obj).group = gvk.group := by
  rw [guessed_of_concerns hcall]
  have hkind : (call.objectKind gvk).kind ≠ "" ∧ (call.objectKind gvk).group = gvk.group := by
    cases call <;>
      simp [Call.objectKind, listKind, hserves.kind_ne gvk hcall.mapped]
  rw [hserves.guess_group _ hkind.1, hkind.2]

theorem rule_oneGroup (hserves : api.Serves resourceOf) (hcall : call.Concerns api gvk) :
    (call.rule api).OneGroup := by
  refine ⟨rfl, ?_⟩
  have hgroup : (call.rule api).group = gvk.group := guessed_group hserves hcall
  rw [hgroup]
  exact hserves.group_separated gvk hcall.mapped

/-- Apart from lists and collections, a call is recorded under the permission it requires. -/
theorem rule_grants (hserves : api.Serves resourceOf) (hcall : call.Concerns api gvk)
    (hlist : call.verb ≠ verbList) (hverb : call.verb = call.requiredVerb) :
    (call.rule api).Grants (call.requires resourceOf gvk) := by
  have hkind : call.objectKind gvk = gvk := by
    cases call <;> first | rfl | exact absurd rfl hlist
  have hresource : (api.guessed call.obj).resource = resourceOf gvk := by
    rw [guessed_of_concerns hcall, hkind]
    exact hserves.guess_resource gvk hcall.mapped
  constructor
  · exact List.mem_singleton.mpr (guessed_group hserves hcall).symm
  · exact List.mem_singleton.mpr (by rw [Call.requires, hresource])
  · exact List.mem_singleton.mpr hverb.symm

theorem grants_rule_iff {p : Permission} :
    (call.rule api).Grants p ↔ p.group = (api.guessed call.obj).group ∧
      p.resource = subresource call.status (api.guessed call.obj).resource ∧
        p.verb = call.verb := by
  constructor
  · rintro ⟨hgroup, hresource, hverb⟩
    exact ⟨List.mem_singleton.mp hgroup, List.mem_singleton.mp hresource,
      List.mem_singleton.mp hverb⟩
  · rintro ⟨hgroup, hresource, hverb⟩
    exact ⟨List.mem_singleton.mpr hgroup, List.mem_singleton.mpr hresource,
      List.mem_singleton.mpr hverb⟩

/-- The roles grant a permission if and only if some call was recorded with it. -/
theorem grants_result_iff [ErrorValues Err] {calls : List (Call Obj)} {opts : List ClientOption}
    (hone : ∀ call ∈ calls, (call.rule api).OneGroup) {p : Permission} :
    Grants ((newClient opts : Client Err).makeAll api calls).reordered.rules p ↔
      ∃ call ∈ calls, (call.rule api).Grants p := by
  set c := (newClient opts : Client Err).makeAll api calls with hc
  have hmem (rule : PolicyRule) : rule ∈ c.rules ↔ ∃ call ∈ calls, rule = call.rule api := by
    rw [hc, mem_rules_makeAll, rules_newClient]
    simp
  have hrole (rule : PolicyRule) (hrule : rule ∈ c.rules) : rule.OneGroup := by
    obtain ⟨call, hcall, rfl⟩ := (hmem rule).mp hrule
    exact hone call hcall
  have happend (rules rules' : List PolicyRule) :
      Grants (rules ++ rules') p ↔ Grants rules p ∨ Grants rules' p := by
    simp only [Grants, List.mem_append, or_and_right, exists_or]
  calc Grants c.reordered.rules p
      ↔ Grants (reorderRules c.role.rules) p ∨ Grants (reorderRules c.clusterRole.rules) p :=
        happend _ _
    _ ↔ Grants c.role.rules p ∨ Grants c.clusterRole.rules p := by
        rw [grants_reorderRules_iff fun rule h ↦ hrole rule (List.mem_append_left _ h),
          grants_reorderRules_iff fun rule h ↦ hrole rule (List.mem_append_right _ h)]
    _ ↔ Grants c.rules p := (happend _ _).symm
    _ ↔ ∃ call ∈ calls, (call.rule api).Grants p := by
        simp only [Grants, hmem]
        grind

end Required

/-! ## The recorded calls and their permissions -/

/-- For the calls to be granted, none may delete a collection, and the resource of every listed kind
must be what the kind of some list object among the calls is guessed to be. -/
structure Recordable (api : Machinery Obj Err) (resourceOf : GroupVersionKind → String)
    (calls : List (Call Obj)) : Prop where
  no_deleteAllOf : ∀ obj, .deleteAllOf obj ∉ calls
  lists : ∀ obj gvk, .list obj ∈ calls → (Call.list obj).Concerns api gvk →
    ∃ obj', .list obj' ∈ calls ∧ (api.guessed obj').group = gvk.group ∧
      (api.guessed obj').resource = resourceOf gvk

theorem eq_list_of_verb {call : Call Obj} (hverb : call.verb = verbList) :
    ∃ obj, call = .list obj := by
  cases call <;> first
    | exact ⟨_, rfl⟩
    | simp [Call.verb, verbCreate, verbUpdate, verbDelete, verbPatch, verbGet, verbList] at hverb

theorem verb_ne_deleteCollection (call : Call Obj) : call.verb ≠ deleteCollection := by
  cases call <;> simp [Call.verb, verbCreate, verbUpdate, verbDelete, verbPatch, verbGet, verbList,
    deleteCollection]

theorem result_grants_iff [ErrorValues Err] (api : Machinery Obj Err)
    (resourceOf : GroupVersionKind → String) (hserves : api.Serves resourceOf)
    (calls : List (Call Obj)) (hknown : ∀ call ∈ calls, ∃ gvk, call.Concerns api gvk)
    (opts : List ClientOption) (marshal : Role → Except Err String) (errorWriter : Bool)
    (writes : List (writers Err).Call) (c : Client Err) (err : Option Err)
    (hruns : Program.Runs (result marshal errorWriter ((newClient opts).makeAll api calls)) writes
      (c, err)) :
    (∀ call ∈ calls, ∀ gvk, call.Concerns api gvk →
      Grants (c.role.rules ++ c.clusterRole.rules) (call.requires resourceOf gvk)) ↔
      Recordable api resourceOf calls := by
  have hone : ∀ call ∈ calls, (call.rule api).OneGroup := by
    intro call hcall
    obtain ⟨gvk, hgvk⟩ := hknown call hcall
    exact rule_oneGroup hserves hgvk
  obtain rfl := runs_result hruns
  have hgrants (p : Permission) :
      Grants (((newClient opts).makeAll api calls).reordered.role.rules ++
        ((newClient opts).makeAll api calls).reordered.clusterRole.rules) p ↔
      ∃ call ∈ calls, (call.rule api).Grants p := grants_result_iff hone
  simp only [hgrants]
  constructor
  · intro hgranted
    refine ⟨fun obj hobj ↦ ?_, fun obj gvk hobj hgvk ↦ ?_⟩
    · obtain ⟨gvk, hgvk⟩ := hknown _ hobj
      obtain ⟨call, -, hcall⟩ := hgranted _ hobj gvk hgvk
      exact verb_ne_deleteCollection call (grants_rule_iff.mp hcall).2.2.symm
    · obtain ⟨call, hmem, hcall⟩ := hgranted _ hobj gvk hgvk
      obtain ⟨hgroup, hresource, hverb⟩ := grants_rule_iff.mp hcall
      obtain ⟨obj', rfl⟩ := eq_list_of_verb hverb.symm
      exact ⟨obj', hmem, hgroup.symm, hresource.symm⟩
  · intro hrec call hcall gvk hgvk
    by_cases hlist : call.verb = verbList
    · obtain ⟨obj, rfl⟩ := eq_list_of_verb hlist
      obtain ⟨obj', hobj', hgroup, hresource⟩ := hrec.lists obj gvk hcall hgvk
      exact ⟨.list obj', hobj', grants_rule_iff.mpr ⟨hgroup.symm, hresource.symm, rfl⟩⟩
    · have hverb : call.verb = call.requiredVerb := by
        cases call <;> first | rfl | exact absurd hcall (hrec.no_deleteAllOf _)
      exact ⟨call, hcall, rule_grants hserves hgvk hlist hverb⟩

/-- Lower-case, with an `s` after it. -/
def pluralName (gvk : GroupVersionKind) : String :=
  String.ofList (gvk.kind.toList.map Char.toLower) ++ "s"

/-- An API with one kind, whose objects are typed ones. -/
def gameApi : Machinery GroupVersionKind GoError where
  gvkForObject obj := .ok obj
  isUnstructured _ := false
  groupVersionKind obj := obj
  restMapping gk :=
    if gk = ⟨"app.example.com", "Game"⟩ then .ok "namespace" else .error ⟨["no matches for kind"]⟩
  unsafeGuessKindToResource gvk :=
    if gvk.kind = "" then ⟨"", "", ""⟩ else ⟨gvk.group, gvk.version, pluralName gvk⟩

def game : GroupVersionKind := ⟨"app.example.com", "v1alpha1", "Game"⟩

theorem maps_game_iff {gvk : GroupVersionKind} :
    gameApi.Maps gvk ↔ gvk.group = "app.example.com" ∧ gvk.kind = "Game" := by
  simp only [Machinery.Maps, gameApi, GroupKind.mk.injEq]
  split <;> simp_all

theorem gameApi_serves : gameApi.Serves pluralName where
  kind_ne gvk hgvk := by
    rw [(maps_game_iff.mp hgvk).2]
    decide
  group_separated gvk hgvk := by
    rw [(maps_game_iff.mp hgvk).1]
    decide
  guess_group gvk hkind := by simp [gameApi, hkind]
  guess_resource gvk hgvk := by
    simp [gameApi, (maps_game_iff.mp hgvk).2]

theorem concerns_game {call : Call GroupVersionKind} (hobj : call.obj = call.objectKind game) :
    call.Concerns gameApi game :=
  ⟨congrArg Except.ok hobj, maps_game_iff.mpr ⟨rfl, rfl⟩⟩

/-- The client after some calls on games and their lists. -/
def gameClient (calls : List (Call GroupVersionKind)) : Client GoError :=
  (newClient []).makeAll gameApi calls

/-- `Result` without an error writer, when both manifests are written. -/
def manifestWrites (c : Client GoError) : List (writers GoError).Call :=
  [⟨.manifest yamlSeparator, none⟩, ⟨.manifest c.role.name, none⟩,
    ⟨.manifest yamlSeparator, none⟩, ⟨.manifest c.clusterRole.name, none⟩]

theorem runs_manifestWrites (c : Client GoError) :
    Program.Runs (result (fun role ↦ .ok role.name) false c) (manifestWrites c)
      (c.reordered, none) :=
  .call (.call (.call (.call (.done _))))

def gameCalls : List (Call GroupVersionKind) :=
  [.create game, .get game, .update game, .statusUpdate game, .delete game]

theorem result_grants_game :
    gameApi.Serves pluralName ∧ ∀ call ∈ gameCalls, ∀ gvk, call.Concerns gameApi gvk →
      Grants ((gameClient gameCalls).reordered.role.rules ++
        (gameClient gameCalls).reordered.clusterRole.rules) (call.requires pluralName gvk) := by
  refine ⟨gameApi_serves, (result_grants_iff gameApi pluralName gameApi_serves _
    (fun call hcall ↦ ?_) [] _ false _ _ none (runs_manifestWrites _)).mpr
    ⟨by simp [gameCalls], by simp [gameCalls]⟩⟩
  refine ⟨game, concerns_game ?_⟩
  simp only [gameCalls, List.mem_cons, List.not_mem_nil, or_false] at hcall
  rcases hcall with rfl | rfl | rfl | rfl | rfl <;> rfl

/-- Listing the games is recorded for a resource `gamelists`, deleting them all as deleting one. -/
theorem list_and_deleteAllOf_not_granted :
    let calls := [.list (listKind game), .deleteAllOf game]
    let c := (gameClient calls).reordered
    Program.Runs (result (fun role ↦ .ok role.name) false (gameClient calls))
        (manifestWrites (gameClient calls)) (c, none) ∧
      (Call.list (listKind game)).Concerns gameApi game ∧
      (Call.deleteAllOf game).Concerns gameApi game ∧
      c.role.rules = [.single "app.example.com" "games" "delete"] ∧
      c.clusterRole.rules = [.single "app.example.com" "gamelists" "list"] ∧
      ¬ Grants (c.role.rules ++ c.clusterRole.rules)
        ((Call.list (listKind game)).requires pluralName game) ∧
      ¬ Grants (c.role.rules ++ c.clusterRole.rules)
        ((Call.deleteAllOf game).requires pluralName game) :=
  ⟨runs_manifestWrites _, concerns_game rfl, concerns_game rfl, by decide, by decide, by decide,
    by decide⟩

end OperatorToolkit.Rbac
