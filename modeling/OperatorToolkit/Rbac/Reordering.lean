import OperatorToolkit.Grouping.Summaries
import OperatorToolkit.Rbac.Grants

/-!
# Reordering between recordings

`Result` replaces the rules of each role by the reordered ones, and later calls are recorded after
them. A reordered rule stands for the recorded rules it was made of, so that the final rules do not
depend on when `Result` was called: they are those of all recorded rules, one for each API group
and resource, in the order of first occurrence, with each verb once.
-/

namespace OperatorToolkit.Rbac

open Grouping Interaction Object

/-! ## Reordering as summaries -/

def Entry.rule (entry : Entry) : PolicyRule := .about entry.group entry.resource entry.verbs

/-- The entry of a group of entries: about the first of them, with the verbs of all. -/
def Entry.represent : List Entry → Option Entry
  | [] => none
  | first :: entries =>
    some { first with verbs := ((first :: entries).flatMap (·.verbs)).eraseDups }

/-- Verbs are appended in the order of first occurrence. -/
theorem foldl_appendVerb_eq (group resource : String) {verbs : List String} (hverbs : verbs.Nodup)
    (more : List String) :
    more.foldl PolicyRule.appendVerb (.about group resource verbs) =
      .about group resource (verbs ++ more).eraseDups := by
  induction more generalizing verbs with
  | nil => rw [List.append_nil, eraseDups_of_nodup hverbs, List.foldl_nil]
  | cons verb more ih =>
    have happend : PolicyRule.appendVerb (.about group resource verbs) verb =
        .about group resource (verbs ++ [verb]).eraseDups := by
      rw [eraseDups_concat, eraseDups_of_nodup hverbs, PolicyRule.appendVerb]
      by_cases hverb : verb ∈ verbs
      · simp [contains, PolicyRule.about, hverb]
      · simp [contains, PolicyRule.about, hverb]
    rw [List.foldl_cons, happend, ih (nodup_eraseDups _), eraseDups_append_left, List.append_assoc,
      List.singleton_append]

theorem foldl_merge_eq {first : Entry} (hfirst : first.verbs.Nodup) (entries : List Entry) :
    (first :: entries).foldl (fun old entry ↦ some (entry.merge old)) none =
      (Entry.represent (first :: entries)).map Entry.rule := by
  induction entries using List.reverseRecOn with
  | nil => simp [Entry.merge, Entry.represent, Entry.rule, eraseDups_of_nodup hfirst]
  | append_singleton entries entry ih =>
    rw [← List.cons_append, List.foldl_append, ih]
    simp only [Entry.represent, Option.map_some, List.foldl_cons, List.foldl_nil, Entry.rule,
      Entry.merge, foldl_appendVerb_eq _ _ (nodup_eraseDups _), List.cons_append]
    rw [eraseDups_append_left, ← List.cons_append, List.flatMap_append]
    simp

/-- A group is represented whatever is made the key of the API group and the resource. -/
theorem represents_represent {κ : Type} [DecidableEq κ] (key : String → String → κ) :
    Represents (fun entry : Entry ↦ key entry.group entry.resource) Entry.represent where
  nil := rfl
  key_eq k group hgroup hkeys := by
    obtain ⟨first, entries, rfl⟩ := List.exists_cons_of_ne_nil hgroup
    exact ⟨_, rfl, hkeys first List.mem_cons_self⟩

theorem represents_name : Represents Entry.name Entry.represent :=
  represents_represent groupResourceName

/-- The rules as entries whose verbs are told apart. -/
def DistinctVerbs (rules : List PolicyRule) : Prop :=
  ∀ entry ∈ rules.flatMap PolicyRule.entries, entry.verbs.Nodup

theorem reorderRules_eq_map {rules : List PolicyRule} (hverbs : DistinctVerbs rules) :
    reorderRules rules =
      (summaries Entry.name Entry.represent (rules.flatMap PolicyRule.entries)).map Entry.rule := by
  rw [reorderRules_eq, values_collect, map_summaries]
  apply List.filterMap_congr
  intro name _
  cases hgroup : (rules.flatMap PolicyRule.entries).filter (·.name = name) with
  | nil => rfl
  | cons first entries =>
    apply foldl_merge_eq
    apply hverbs first
    apply List.mem_of_mem_filter (p := (·.name = name))
    rw [hgroup]
    exact List.mem_cons_self

theorem entries_map_rule (entries : List Entry) :
    (entries.map Entry.rule).flatMap PolicyRule.entries = entries := by
  induction entries with
  | nil => rfl
  | cons entry entries ih =>
    rw [List.map_cons, List.flatMap_cons, ih]
    rfl

theorem distinctVerbs_reorderRules {rules : List PolicyRule} (hverbs : DistinctVerbs rules) :
    DistinctVerbs (reorderRules rules) := by
  rw [DistinctVerbs, reorderRules_eq_map hverbs, entries_map_rule]
  intro entry hentry
  obtain ⟨name, -, hname⟩ := List.mem_filterMap.mp hentry
  cases hgroup : (rules.flatMap PolicyRule.entries).filter (·.name = name) with
  | nil =>
    rw [hgroup] at hname
    cases hname
  | cons first entries =>
    rw [hgroup] at hname
    obtain rfl := Option.some.inj hname
    exact nodup_eraseDups _

theorem DistinctVerbs.append {rules rules' : List PolicyRule} (h : DistinctVerbs rules)
    (h' : DistinctVerbs rules') : DistinctVerbs (rules ++ rules') := by
  intro entry hentry
  rw [List.flatMap_append, List.mem_append] at hentry
  exact hentry.elim (h entry) (h' entry)

/-- Rules may be reordered before more of them are recorded. -/
theorem reorderRules_append_left {rules rules' : List PolicyRule} (hverbs : DistinctVerbs rules)
    (hverbs' : DistinctVerbs rules') :
    reorderRules (reorderRules rules ++ rules') = reorderRules (rules ++ rules') := by
  have hstands : ∀ group entry rest, Entry.represent group = some entry →
      Entry.represent (entry :: rest) = Entry.represent (group ++ rest) := by
    intro group entry rest hentry
    cases group with
    | nil => cases hentry
    | cons first entries =>
      obtain rfl := Option.some.inj hentry
      simp only [Entry.represent, List.flatMap_cons, List.cons_append, List.flatMap_append]
      rw [← List.append_assoc, eraseDups_append_left]
  have hreordered := (distinctVerbs_reorderRules hverbs).append hverbs'
  rw [reorderRules_eq_map hreordered, reorderRules_eq_map (hverbs.append hverbs'),
    List.flatMap_append, List.flatMap_append, reorderRules_eq_map hverbs, entries_map_rule,
    summaries_append_left represents_name hstands]

/-! ## The rules for a list of permissions -/

def Permission.rule (p : Permission) : PolicyRule := .single p.group p.resource p.verb

/-- What a rule is about. -/
structure Subject where
  apiGroups : List String
  resources : List String
  deriving DecidableEq, Repr

def PolicyRule.subject (rule : PolicyRule) : Subject := ⟨rule.apiGroups, rule.resources⟩

def Permission.subject (p : Permission) : Subject := ⟨[p.group], [p.resource]⟩

/-- The rules grant what was recorded: there is one rule for each pair of an API group and a
resource, with each of its verbs once, and both are in the order of first occurrence. -/
structure Reordered (recorded : List Permission) (rules : List PolicyRule) : Prop where
  grants_iff : ∀ p, Grants rules p ↔ p ∈ recorded
  subjects_eq : rules.map PolicyRule.subject = (recorded.map Permission.subject).eraseDups
  subjects_nodup : (rules.map PolicyRule.subject).Nodup
  verbs_eq : ∀ rule ∈ rules,
    rule.verbs = ((recorded.filter (·.subject = rule.subject)).map (·.verb)).eraseDups
  verbs_nodup : ∀ rule ∈ rules, rule.verbs.Nodup

def Permission.entry (p : Permission) : Entry := ⟨p.group, p.resource, [p.verb]⟩

def Entry.subject (entry : Entry) : Subject := ⟨[entry.group], [entry.resource]⟩

theorem entries_recorded (recorded : List Permission) :
    (recorded.map Permission.rule).flatMap PolicyRule.entries = recorded.map Permission.entry := by
  have hrules : recorded.map Permission.rule = (recorded.map Permission.entry).map Entry.rule := by
    rw [List.map_map]
    rfl
  rw [hrules, entries_map_rule]

theorem distinctVerbs_recorded (recorded : List Permission) :
    DistinctVerbs (recorded.map Permission.rule) := by
  intro entry hentry
  rw [entries_recorded] at hentry
  obtain ⟨p, -, rfl⟩ := List.mem_map.mp hentry
  exact List.nodup_singleton _

theorem grants_recorded_iff (recorded : List Permission) (p : Permission) :
    Grants (recorded.map Permission.rule) p ↔ p ∈ recorded := by
  constructor
  · intro hgrants
    obtain ⟨rule, hrule, hgroup, hresource, hverb⟩ := hgrants
    obtain ⟨q, hq, rfl⟩ := List.mem_map.mp hrule
    have heq : p = q := by
      cases p
      cases q
      simp_all [Permission.rule, PolicyRule.single, PolicyRule.about]
    exact heq ▸ hq
  · intro hp
    refine ⟨p.rule, List.mem_map_of_mem hp, ?_, ?_, ?_⟩ <;> exact List.mem_singleton_self _

/-- API groups without the separator are told apart from the resources. -/
theorem reorderRules_recorded {recorded : List Permission}
    (hgroups : ∀ p ∈ recorded, '_' ∉ p.group.toList) :
    reorderRules (recorded.map Permission.rule) =
      (summaries Entry.subject Entry.represent (recorded.map Permission.entry)).map Entry.rule := by
  rw [reorderRules_eq_map (distinctVerbs_recorded recorded), entries_recorded]
  congr 1
  -- The name is a function of the subject.
  apply @summaries_of_injOn _ _ _ _ _ _ Entry.subject fun subject ↦
    groupResourceName (subject.apiGroups.headD "") (subject.resources.headD "")
  intro entry hentry entry' hentry' heq
  obtain ⟨p, hp, rfl⟩ := List.mem_map.mp hentry
  obtain ⟨p', hp', rfl⟩ := List.mem_map.mp hentry'
  have hinj : p.group = p'.group ∧ p.resource = p'.resource :=
    groupResourceName_inj (hgroups p hp) (hgroups p' hp') heq
  simp [Entry.subject, Permission.entry, hinj]

theorem represents_subject : Represents Entry.subject Entry.represent :=
  represents_represent fun group resource ↦ Subject.mk [group] [resource]

theorem subjects_reorderRules {recorded : List Permission}
    (hgroups : ∀ p ∈ recorded, '_' ∉ p.group.toList) :
    (reorderRules (recorded.map Permission.rule)).map PolicyRule.subject =
      (recorded.map Permission.subject).eraseDups :=
  calc (reorderRules (recorded.map Permission.rule)).map PolicyRule.subject
      = (summaries Entry.subject Entry.represent (recorded.map Permission.entry)).map
          Entry.subject := by
        rw [reorderRules_recorded hgroups, List.map_map]
        rfl
    _ = ((recorded.map Permission.entry).map Entry.subject).eraseDups :=
        map_key_summaries represents_subject _
    _ = (recorded.map Permission.subject).eraseDups := by
        rw [List.map_map]
        rfl

theorem verbs_reorderRules {recorded : List Permission}
    (hgroups : ∀ p ∈ recorded, '_' ∉ p.group.toList) {rule : PolicyRule}
    (hrule : rule ∈ reorderRules (recorded.map Permission.rule)) :
    rule.verbs = ((recorded.filter (·.subject = rule.subject)).map (·.verb)).eraseDups := by
  rw [reorderRules_recorded hgroups] at hrule
  obtain ⟨entry, hentry, rfl⟩ := List.mem_map.mp hrule
  obtain ⟨subject, hsubject, hrepresent⟩ := List.mem_filterMap.mp hentry
  obtain ⟨entry', hentry', rfl⟩ :=
    represents_subject.exists_of_mem (List.mem_eraseDups.mp hsubject)
  obtain rfl : entry' = entry := Option.some.inj (hentry'.symm.trans hrepresent)
  have hfilter : (recorded.map Permission.entry).filter (·.subject = entry'.subject) =
      (recorded.filter (·.subject = entry'.rule.subject)).map Permission.entry := by
    rw [List.filter_map]
    rfl
  rw [hfilter] at hrepresent
  cases hgroup : recorded.filter (·.subject = entry'.rule.subject) with
  | nil =>
    rw [hgroup] at hrepresent
    cases hrepresent
  | cons first rest =>
    rw [hgroup] at hrepresent
    have hverbs := congrArg Entry.verbs (Option.some.inj hrepresent)
    rw [Entry.rule, PolicyRule.about, ← hverbs, ← List.map_cons, List.flatMap_map]
    exact congrArg List.eraseDups List.map_eq_flatMap.symm

theorem reordered_reorderRules {recorded : List Permission}
    (hgroups : ∀ p ∈ recorded, '_' ∉ p.group.toList) :
    Reordered recorded (reorderRules (recorded.map Permission.rule)) := by
  constructor
  · intro p
    rw [grants_reorderRules_iff, grants_recorded_iff]
    intro rule hrule
    obtain ⟨q, hq, rfl⟩ := List.mem_map.mp hrule
    exact ⟨rfl, hgroups q hq⟩
  · exact subjects_reorderRules hgroups
  · rw [subjects_reorderRules hgroups]
    exact nodup_eraseDups _
  · intro rule hrule
    exact verbs_reorderRules hgroups hrule
  · intro rule hrule
    rw [verbs_reorderRules hgroups hrule]
    exact nodup_eraseDups _

/-! ## Sessions -/

variable {Obj Err : Type}

/-- The permission that a call is recorded with. -/
def Call.permission (api : Machinery Obj Err) (call : Call Obj) : Permission :=
  ⟨(api.guessed call.obj).group, subresource call.status (api.guessed call.obj).resource, call.verb⟩

/-- The Role or the ClusterRole. -/
def Client.roleOf (c : Client Err) (namespaced : Bool) : Role :=
  if namespaced then c.role else c.clusterRole

variable [ErrorValues Err]

/-- Whether a call is recorded in the Role. -/
def Call.namespaced (api : Machinery Obj Err) (call : Call Obj) : Bool :=
  match isNamespaced api call.obj with
  | .ok namespaced => namespaced
  | .error _ => false

/-- What the calls leave in the Role, or in the ClusterRole. -/
def recorded (api : Machinery Obj Err) (namespaced : Bool) (calls : List (Call Obj)) :
    List Permission :=
  (calls.filter (·.namespaced api = namespaced)).map (·.permission api)

/-- A client after some calls, with any number of results taken after any of them. The writers of a
result may fail. -/
inductive Session (api : Machinery Obj Err) (marshal : Role → Except Err String)
    (opts : List ClientOption) : List (Call Obj) → Client Err → Prop where
  | start : Session api marshal opts [] (newClient opts)
  | call {calls c} (call : Call Obj) : Session api marshal opts calls c →
      Session api marshal opts (calls ++ [call]) (c.make api call)
  | result {calls c errorWriter writes c' err} : Session api marshal opts calls c →
      Program.Runs (Rbac.result marshal errorWriter c) writes (c', err) →
      Session api marshal opts calls c'

/-- The rules can stand for what was recorded, whatever is recorded after it. -/
structure StandFor (rules : List PolicyRule) (recorded : List Permission) : Prop where
  distinctVerbs : DistinctVerbs rules
  append_eq : ∀ rules', DistinctVerbs rules' →
    reorderRules (rules ++ rules') = reorderRules (recorded.map Permission.rule ++ rules')

theorem rules_make (api : Machinery Obj Err) (c : Client Err) (call : Call Obj)
    (namespaced : Bool) : ((c.make api call).roleOf namespaced).rules =
      (c.roleOf namespaced).rules ++ (recorded api namespaced [call]).map Permission.rule := by
  have hrecorded : recorded api namespaced [call] =
      if call.namespaced api = namespaced then [call.permission api] else [] := by
    by_cases hrole : call.namespaced api = namespaced <;> simp [recorded, hrole]
  rw [make_eq, hrecorded]
  unfold Client.recordRuleWithStatus Call.permission Machinery.guessed subresource Call.namespaced
    Client.roleOf
  rcases isNamespaced api call.obj with err | (_ | _) <;> cases api.gvkForObject call.obj <;>
    cases namespaced <;> simp [Permission.rule]

theorem StandFor.record {rules : List PolicyRule} {earlier : List Permission}
    (h : StandFor rules earlier) (later : List Permission) :
    StandFor (rules ++ later.map Permission.rule) (earlier ++ later) := by
  have hlater := distinctVerbs_recorded later
  refine ⟨h.distinctVerbs.append hlater, fun rules' hrules' ↦ ?_⟩
  rw [List.append_assoc, h.append_eq _ (hlater.append hrules'), List.map_append, List.append_assoc]

theorem StandFor.reorder {rules : List PolicyRule} {recorded : List Permission}
    (h : StandFor rules recorded) : StandFor (reorderRules rules) recorded := by
  refine ⟨distinctVerbs_reorderRules h.distinctVerbs, fun rules' hrules' ↦ ?_⟩
  rw [reorderRules_append_left h.distinctVerbs hrules', h.append_eq rules' hrules']

theorem StandFor.reorderRules_eq {rules : List PolicyRule} {recorded : List Permission}
    (h : StandFor rules recorded) :
    reorderRules rules = reorderRules (recorded.map Permission.rule) := by
  simpa using h.append_eq [] (by simp [DistinctVerbs])

theorem recorded_append (api : Machinery Obj Err) (namespaced : Bool)
    (calls calls' : List (Call Obj)) :
    recorded api namespaced (calls ++ calls') =
      recorded api namespaced calls ++ recorded api namespaced calls' := by
  simp [recorded]

omit [ErrorValues Err] in
theorem rules_roleOf_newClient (opts : List ClientOption) (namespaced : Bool) :
    ((newClient opts : Client Err).roleOf namespaced).rules = [] := by
  have hempty : (newClient opts : Client Err).rules = [] := rules_newClient opts
  have hrules := List.append_eq_nil_iff.mp hempty
  cases namespaced with
  | true => exact hrules.1
  | false => exact hrules.2

section Sessions

variable {api : Machinery Obj Err} {marshal : Role → Except Err String} {opts : List ClientOption}
  {calls : List (Call Obj)} {c : Client Err}

theorem standFor_session (hsession : Session api marshal opts calls c) (namespaced : Bool) :
    StandFor (c.roleOf namespaced).rules (recorded api namespaced calls) := by
  induction hsession with
  | start =>
    rw [rules_roleOf_newClient]
    exact ⟨by simp [DistinctVerbs], fun rules' _ ↦ rfl⟩
  | call call _ ih =>
    rw [rules_make, recorded_append]
    exact ih.record _
  | result _ hruns ih =>
    obtain rfl := runs_result hruns
    cases namespaced <;> exact ih.reorder

theorem session_makeAll (calls : List (Call Obj)) :
    Session api marshal opts calls ((newClient opts).makeAll api calls) := by
  induction calls using List.reverseRecOn with
  | nil => exact .start
  | append_singleton calls call ih =>
    rw [Client.makeAll, List.foldl_append]
    exact ih.call call

/-- Whatever results were taken between the calls, the next one leaves the rules of all recorded
permissions, those that it would have left without them. -/
theorem reorderRules_session (hsession : Session api marshal opts calls c)
    (hgroups : ∀ call ∈ calls, '_' ∉ (call.permission api).group.toList) (namespaced : Bool) :
    let rules := reorderRules (c.roleOf namespaced).rules
    Reordered (recorded api namespaced calls) rules ∧ reorderRules rules = rules ∧
      rules = reorderRules (((newClient opts).makeAll api calls).roleOf namespaced).rules ∧
      ∀ errorWriter writes c' err,
        Program.Runs (result marshal errorWriter c) writes (c', err) →
          (c'.roleOf namespaced).rules = rules := by
  intro rules
  have hstand := standFor_session hsession namespaced
  have hrules : rules = reorderRules ((recorded api namespaced calls).map Permission.rule) :=
    hstand.reorderRules_eq
  have hrecorded : ∀ p ∈ recorded api namespaced calls, '_' ∉ p.group.toList := by
    intro p hp
    obtain ⟨call, hcall, rfl⟩ := List.mem_map.mp hp
    exact hgroups call (List.mem_of_mem_filter hcall)
  refine ⟨?_, ?_, ?_, ?_⟩
  · rw [hrules]
    exact reordered_reorderRules hrecorded
  · exact hstand.reorder.reorderRules_eq.trans hrules.symm
  · have hall : Session api marshal opts calls ((newClient opts).makeAll api calls) :=
      session_makeAll calls
    exact hrules.trans (standFor_session hall namespaced).reorderRules_eq.symm
  · intro errorWriter writes c' err hruns
    rw [runs_result hruns]
    cases namespaced <;> rfl

end Sessions

/-- A result is taken, and a second verb is recorded after it. -/
theorem reorderRules_session_game :
    let c := ((gameClient [.create game, .statusUpdate game]).reordered.make gameApi
      (.get game)).make gameApi (.create game)
    Session gameApi (fun role ↦ .ok role.name) []
        [.create game, .statusUpdate game, .get game, .create game] c ∧
      (c.roleOf true).rules.length = 4 ∧
      reorderRules (c.roleOf true).rules =
        [.about "app.example.com" "games" ["create", "get"],
          .about "app.example.com" "games/status" ["update"]] ∧
      Reordered (recorded gameApi true
          [.create game, .statusUpdate game, .get game, .create game])
        (reorderRules (c.roleOf true).rules) := by
  intro c
  have hsession : Session gameApi (fun role ↦ .ok role.name) []
      [.create game, .statusUpdate game, .get game, .create game] c :=
    (((session_makeAll [.create game, .statusUpdate game]).result
      (runs_manifestWrites _)).call (.get game)).call (.create game)
  exact ⟨hsession, by decide, by decide, (reorderRules_session hsession (by decide) true).1⟩

end OperatorToolkit.Rbac
