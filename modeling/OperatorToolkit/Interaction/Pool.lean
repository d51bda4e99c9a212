import Mathlib.Data.List.Forall2
import OperatorToolkit.Interaction.Execution

/-!
# Programs that run at the same time

A pool is a list of programs over one shared state. Each step is one call of one of them, answered
by the service at once, so the runs of a pool are all interleavings of the calls of its members. For
a member the others are other parties: if the guarded calls of each member are steps that the others
rely on, then members that are safe each on its own are safe together.
-/

namespace OperatorToolkit.Interaction

variable {S : Signature} {α β σ : Type}

/-- What is left of each program, and the state they share. -/
structure Pool (S : Signature) (α σ : Type) where
  members : List (Program S α)
  state : σ

inductive PoolStep (svc : Service S σ) : Pool S α σ → Pool S α σ → Prop where
  | call {before after request next reply s s'} : svc.Handles s request reply s' →
      PoolStep svc ⟨before ++ .call request next :: after, s⟩ ⟨before ++ next reply :: after, s'⟩

/-- Some interleaving leads from the first pool to the second one. -/
def PoolReaches (svc : Service S σ) : Pool S α σ → Pool S α σ → Prop :=
  Relation.ReflTransGen (PoolStep svc)

variable {svc : Service S σ}

/-! ## One member at a time -/

/-- The first calls of a program, made on its own. -/
inductive Advances (svc : Service S σ) : σ → Program S α → σ → Program S α → Prop where
  | refl {s program} : Advances svc s program s program
  | call {s request reply s' next s'' program} : svc.Handles s request reply s' →
      Advances svc s' (next reply) s'' program → Advances svc s (.call request next) s'' program

theorem Advances.bind {s s' : σ} {program program' : Program S α}
    (h : Advances svc s program s' program') (next : α → Program S β) :
    Advances svc s (program >>= next) s' (program' >>= next) := by
  induction h with
  | refl => exact .refl
  | call hhandles _ ih => exact .call hhandles ih

theorem Advances.trans {s s' s'' : σ} {program program' program'' : Program S α}
    (h : Advances svc s program s' program') (h' : Advances svc s' program' s'' program'') :
    Advances svc s program s'' program'' := by
  induction h with
  | refl => exact h'
  | call hhandles _ ih => exact .call hhandles (ih h')

theorem yields_iff_advances {s s' : σ} {program : Program S α} {value : α} :
    Yields svc s program value s' ↔ Advances svc s program s' (.done value) := by
  constructor
  · intro h
    induction h with
    | done => exact .refl
    | call hhandles _ ih => exact .call hhandles ih
  · intro h
    generalize hdone : Program.done value = last at h
    induction h with
    | refl =>
      subst hdone
      exact .done
    | call hhandles _ ih => exact .call hhandles (ih hdone)

theorem Advances.poolReaches {s s' : σ} {program program' : Program S α}
    (h : Advances svc s program s' program') (before after : List (Program S α)) :
    PoolReaches svc ⟨before ++ program :: after, s⟩ ⟨before ++ program' :: after, s'⟩ := by
  induction h with
  | refl => exact .refl
  | call hhandles _ ih => exact .head (.call hhandles) ih

/-- A member that is alone makes its calls on its own. -/
theorem PoolReaches.advances {s : σ} {program : Program S α} {pool : Pool S α σ}
    (h : PoolReaches svc ⟨[program], s⟩ pool) :
    ∃ program', pool.members = [program'] ∧ Advances svc s program pool.state program' := by
  induction h with
  | refl => exact ⟨program, rfl, .refl⟩
  | tail _ hstep ih =>
    obtain ⟨program', hmembers, hadvances⟩ := ih
    cases hstep with
    | @call before after request next reply s₁ s₂ hhandles =>
      obtain ⟨rfl, rfl, rfl⟩ : before = [] ∧ after = [] ∧ program' = .call request next := by
        cases before <;> simp_all
      exact ⟨_, rfl, hadvances.trans (.call hhandles .refl)⟩

/-- Members whose runs leave the state as it is can run one after the other. -/
theorem poolReaches_replicate {s : σ} {program : Program S α} {value : α}
    (h : Yields svc s program value s) (before : List (Program S α)) (count : ℕ) :
    PoolReaches svc ⟨before ++ List.replicate count program, s⟩
      ⟨before ++ List.replicate count (.done value), s⟩ := by
  induction count generalizing before with
  | zero => exact .refl
  | succ count ih =>
    have hfirst := (yields_iff_advances.mp h).poolReaches before (List.replicate count program)
    have hrest := ih (before ++ [.done value])
    rw [List.append_assoc, List.append_assoc] at hrest
    exact hfirst.trans hrest

/-! ## All members together -/

/-- What a member of a pool relies on, which calls it may make, and what it returns with. -/
structure Role (S : Signature) (α σ : Type) where
  rely : σ → σ → Prop
  guard : σ → S.Request → Prop
  post : α → σ → Prop

section Safety

variable {Inv : σ → Prop} {Guard : σ → S.Request → Prop} {Q : α → σ → Prop}

/-- What a member has established stands when it has returned. -/
theorem Safe.post {P : σ → Prop} {value : α} {s : σ}
    (h : Safe svc Inv Guard P (.done value) Q) (hs : P s) : Q value s := by
  cases h with
  | done _ hpost => exact (hpost s hs).2

/-- From this state on the member is safe in its role. -/
def Role.Follows (svc : Service S σ) (Inv : σ → Prop) (role : Role S α σ) (s : σ)
    (program : Program S α) : Prop :=
  ∃ P, Safe { svc with Rely := role.rely } Inv role.guard P program role.post ∧ P s

/-- The guarded calls of the first role are what the second one relies on. -/
def Role.Respects (svc : Service S σ) (Inv : σ → Prop) (role other : Role S α σ) : Prop :=
  ∀ s request reply s', Inv s → role.guard s request → svc.Handles s request reply s' →
    other.rely s s'

theorem Role.Follows.disturbed {role : Role S α σ} {s s' : σ} {program : Program S α}
    (h : role.Follows svc Inv s program) (hrely : role.rely s s') :
    role.Follows svc Inv s' program := by
  obtain ⟨P, hsafe, hP⟩ := h
  exact ⟨P, hsafe, hsafe.stable s s' hP hrely⟩

theorem Role.Follows.called {role : Role S α σ} {s s' : σ} {request : S.Request}
    {next : S.Reply request → Program S α} {reply : S.Reply request}
    (h : role.Follows svc Inv s (.call request next)) (hhandles : svc.Handles s request reply s') :
    Inv s ∧ role.guard s request ∧ role.Follows svc Inv s' (next reply) := by
  obtain ⟨P, hsafe, hP⟩ := h
  cases hsafe with
  | call post _ hinv _ hpost hnext =>
    exact ⟨(hinv s hP).1, (hinv s hP).2, post reply, hnext reply, hpost s reply s' hP hhandles⟩

theorem Role.Follows.guarded {role : Role S α σ} {s : σ} {request : S.Request}
    {next : S.Reply request → Program S α} (h : role.Follows svc Inv s (.call request next)) :
    role.guard s request := by
  obtain ⟨P, hsafe, hP⟩ := h
  cases hsafe with
  | call _ _ hguard _ _ _ => exact (hguard s hP).2

theorem Role.Follows.inv {role : Role S α σ} {s : σ} {program : Program S α}
    (h : role.Follows svc Inv s program) : Inv s := by
  obtain ⟨P, hsafe, hP⟩ := h
  exact hsafe.inv hP

theorem Role.Follows.returned {role : Role S α σ} {s : σ} {value : α}
    (h : role.Follows svc Inv s (.done value)) : role.post value s := by
  obtain ⟨P, hsafe, hP⟩ := h
  exact hsafe.post hP

theorem forall₂_disturbed {roles : List (Role S α σ)} {members : List (Program S α)} {s s' : σ}
    (h : List.Forall₂ (fun role ↦ role.Follows svc Inv s) roles members)
    (hrely : ∀ role ∈ roles, role.rely s s') :
    List.Forall₂ (fun role ↦ role.Follows svc Inv s') roles members := by
  induction h with
  | nil => exact .nil
  | cons hmember _ ih =>
    rw [List.forall_mem_cons] at hrely
    exact .cons (hmember.disturbed hrely.1) (ih hrely.2)

/-- **Rely and guarantee.** Members whose roles respect each other follow them together. -/
theorem PoolReaches.follow {roles : List (Role S α σ)}
    (hroles : roles.Pairwise fun role other ↦
      role.Respects svc Inv other ∧ other.Respects svc Inv role)
    {start pool : Pool S α σ} (h : PoolReaches svc start pool)
    (hstart : List.Forall₂ (fun role ↦ role.Follows svc Inv start.state) roles start.members) :
    List.Forall₂ (fun role ↦ role.Follows svc Inv pool.state) roles pool.members := by
  induction h with
  | refl => exact hstart
  | tail _ hstep ih =>
    cases hstep with
    | @call before after request next reply s s' hhandles =>
      -- The roles split where the members do.
      obtain ⟨roles₁, role, roles₂, rfl, hbefore, hmember, hafter⟩ :
          ∃ roles₁ role roles₂, roles = roles₁ ++ role :: roles₂ ∧
            List.Forall₂ (fun role ↦ role.Follows svc Inv s) roles₁ before ∧
            role.Follows svc Inv s (.call request next) ∧
            List.Forall₂ (fun role ↦ role.Follows svc Inv s) roles₂ after := by
        have hdrop := List.forall₂_drop_append _ _ _ ih
        obtain ⟨role, roles₂, hmember, hafter, heq⟩ := List.forall₂_cons_right_iff.mp hdrop
        exact ⟨_, role, roles₂, by rw [← heq, List.take_append_drop],
          List.forall₂_take_append _ _ _ ih, hmember, hafter⟩
      obtain ⟨hinv, hguard, hnext⟩ := hmember.called hhandles
      obtain ⟨-, hpair₂, hpair₁⟩ := List.pairwise_append.mp hroles
      have hothers₁ : ∀ other ∈ roles₁, other.rely s s' := fun other hother ↦
        (hpair₁ other hother role List.mem_cons_self).2 s request reply s' hinv hguard hhandles
      have hothers₂ : ∀ other ∈ roles₂, other.rely s s' := fun other hother ↦
        ((List.pairwise_cons.mp hpair₂).1 other hother).1 s request reply s' hinv hguard hhandles
      exact List.rel_append (forall₂_disturbed hbefore hothers₁)
        (.cons hnext (forall₂_disturbed hafter hothers₂))

theorem exists_left_of_forall₂ {ρ τ : Type} {R : ρ → τ → Prop} {xs : List ρ} {ys : List τ}
    (h : List.Forall₂ R xs ys) {y : τ} (hy : y ∈ ys) : ∃ x ∈ xs, R x y := by
  induction h with
  | nil => cases hy
  | @cons x y' xs ys hxy _ ih =>
    rcases List.mem_cons.mp hy with rfl | hy
    · exact ⟨x, List.mem_cons_self, hxy⟩
    · obtain ⟨x', hx', hR⟩ := ih hy
      exact ⟨x', List.mem_cons_of_mem _ hx', hR⟩

/-- If all members have the same role, the guarded calls of each are what the service allows to
the others. -/
theorem PoolReaches.safe
    (hguarantee : ∀ s request reply s', Inv s → Guard s request →
      svc.Handles s request reply s' → svc.Rely s s')
    {start pool : Pool S α σ} (h : PoolReaches svc start pool)
    (hstart : ∀ program ∈ start.members, ∃ P, Safe svc Inv Guard P program Q ∧ P start.state) :
    ∀ program ∈ pool.members, ∃ P, Safe svc Inv Guard P program Q ∧ P pool.state := by
  let role : Role S α σ := ⟨svc.Rely, Guard, Q⟩
  have hroles : (start.members.map fun _ ↦ role).Pairwise fun role other ↦
      role.Respects svc Inv other ∧ other.Respects svc Inv role :=
    List.pairwise_map.mpr (List.pairwise_of_forall fun _ _ ↦ ⟨hguarantee, hguarantee⟩)
  have hall := h.follow hroles
    (List.forall₂_map_left_iff.mpr (List.forall₂_same.mpr hstart))
  intro program hprogram
  obtain ⟨other, hother, hfollows⟩ := exists_left_of_forall₂ hall hprogram
  obtain ⟨_, -, rfl⟩ := List.mem_map.mp hother
  exact hfollows

/-- The invariant of safe members stands throughout, also if there are none. -/
theorem PoolReaches.inv
    (hguarantee : ∀ s request reply s', Inv s → Guard s request →
      svc.Handles s request reply s' → svc.Rely s s')
    {start pool : Pool S α σ} (h : PoolReaches svc start pool)
    (hstart : ∀ program ∈ start.members, ∃ P, Safe svc Inv Guard P program Q ∧ P start.state)
    (hinv : Inv start.state) : Inv pool.state := by
  have hall := h.safe hguarantee hstart
  cases h with
  | refl => exact hinv
  | tail _ hstep =>
    cases hstep with
    | @call before after request next reply s s' hhandles =>
      obtain ⟨P, hsafe, hP⟩ := hall (next reply) (List.mem_append_right _ List.mem_cons_self)
      exact hsafe.inv hP

/-- A member that relies on no more than what every call does follows its role in any company. -/
theorem PoolReaches.among {role : Role S α σ}
    (hrely : ∀ s request reply s', svc.Handles s request reply s' → role.rely s s')
    {start pool : Pool S α σ} (h : PoolReaches svc start pool) {k : ℕ}
    (hstart : ∀ program, start.members[k]? = some program →
      role.Follows svc Inv start.state program) :
    ∀ program, pool.members[k]? = some program → role.Follows svc Inv pool.state program := by
  induction h with
  | refl => exact hstart
  | tail _ hstep ih =>
    cases hstep with
    | @call before after request next reply s s' hhandles =>
      intro program hprogram
      by_cases hk : k = before.length
      · -- It is the member's own call.
        rw [hk, List.getElem?_append_right (Nat.le_refl _), Nat.sub_self] at hprogram
        have hcall : (before ++ .call request next :: after)[k]? = some (.call request next) := by
          rw [hk, List.getElem?_append_right (Nat.le_refl _), Nat.sub_self]
          rfl
        rw [← Option.some.inj hprogram]
        exact ((ih _ hcall).called hhandles).2.2
      · have hsame : (before ++ .call request next :: after)[k]? =
            (before ++ next reply :: after)[k]? := by grind
        exact (ih program (hsame.trans hprogram)).disturbed (hrely s request reply s' hhandles)

end Safety

end OperatorToolkit.Interaction
