import OperatorToolkit.Interaction.Program

/-!
# Serialised runs against a shared state

A service answers the calls of a program and changes a shared state while doing so; between any two
calls other parties may change the state as well. A serialised run starts the same program again
and again, never twice at a time, and may abandon it at any point, also in the middle of a call.
`Safe` is a proof system for such programs: an assertion that other parties cannot break stands
before every call, and the rules are sound for the invariant and the guard of every run.
-/

namespace OperatorToolkit.Interaction

/-- How calls are answered, what a call leaves behind that is never answered, and what other
parties can do between the calls. -/
structure Service (S : Signature) (σ : Type) where
  Handles : σ → (request : S.Request) → S.Reply request → σ → Prop
  Breaks : σ → S.Request → σ → Prop
  Rely : σ → σ → Prop

variable {S : Signature} {α σ : Type}

/-- The program that is being run, if any, and the shared state. -/
structure Config (S : Signature) (α σ : Type) where
  program : Option (Program S α)
  state : σ

inductive SerialStep (svc : Service S σ) (main : Program S α) :
    Config S α σ → Config S α σ → Prop where
  | start {s} : SerialStep svc main ⟨none, s⟩ ⟨some main, s⟩
  | call {request next reply s s'} : svc.Handles s request reply s' →
      SerialStep svc main ⟨some (.call request next), s⟩ ⟨some (next reply), s'⟩
  | finish {value s} : SerialStep svc main ⟨some (.done value), s⟩ ⟨none, s⟩
  | abandon {program s} : SerialStep svc main ⟨some program, s⟩ ⟨none, s⟩
  | interrupt {request next s s'} : svc.Breaks s request s' →
      SerialStep svc main ⟨some (.call request next), s⟩ ⟨none, s'⟩
  | environment {program s s'} : svc.Rely s s' → SerialStep svc main ⟨program, s⟩ ⟨program, s'⟩

/-- The configurations that serialised runs from the given initial states pass through. -/
def SerialReachable (svc : Service S σ) (main : Program S α) (Init : σ → Prop)
    (cfg : Config S α σ) : Prop :=
  ∃ s, Init s ∧ Relation.ReflTransGen (SerialStep svc main) ⟨none, s⟩ cfg

/-- The calls are answered one after the other, with nothing in between. -/
inductive Served (svc : Service S σ) : σ → List S.Call → σ → Prop where
  | nil {s} : Served svc s [] s
  | cons {s request reply s' calls s''} : svc.Handles s request reply s' →
      Served svc s' calls s'' → Served svc s (⟨request, reply⟩ :: calls) s''

theorem Served.append {svc : Service S σ} {s s' s'' : σ} {calls calls' : List S.Call}
    (h : Served svc s calls s') (h' : Served svc s' calls' s'') :
    Served svc s (calls ++ calls') s'' := by
  induction h with
  | nil => exact h'
  | cons hhandles _ ih => exact .cons hhandles (ih h')

theorem served_append_iff {svc : Service S σ} {s s' : σ} {calls calls' : List S.Call} :
    Served svc s (calls ++ calls') s' ↔
      ∃ mid, Served svc s calls mid ∧ Served svc mid calls' s' := by
  constructor
  · intro h
    induction calls generalizing s with
    | nil => exact ⟨s, .nil, h⟩
    | cons call calls ih =>
      cases h with
      | cons hhandles hserved =>
        obtain ⟨mid, hfirst, hrest⟩ := ih hserved
        exact ⟨mid, .cons hhandles hfirst, hrest⟩
  · intro h
    obtain ⟨mid, hfirst, hrest⟩ := h
    exact hfirst.append hrest

theorem SerialReachable.step {svc : Service S σ} {main : Program S α} {Init : σ → Prop}
    {cfg cfg' : Config S α σ} (h : SerialReachable svc main Init cfg)
    (hstep : SerialStep svc main cfg cfg') : SerialReachable svc main Init cfg' := by
  obtain ⟨s, hs, hrun⟩ := h
  exact ⟨s, hs, hrun.tail hstep⟩

/-- What is left of the program runs to its end and nobody disturbs it. -/
theorem SerialReachable.complete {svc : Service S σ} {main : Program S α} {Init : σ → Prop}
    {s s' : σ} {program : Program S α} {calls : List S.Call} {value : α}
    (hruns : Program.Runs program calls value) (hserved : Served svc s calls s')
    (h : SerialReachable svc main Init ⟨some program, s⟩) :
    SerialReachable svc main Init ⟨none, s'⟩ := by
  induction hruns generalizing s with
  | done value =>
    cases hserved
    exact h.step .finish
  | call _ ih =>
    cases hserved with
    | cons hhandles hserved => exact ih hserved (h.step (.call hhandles))

/-- Other parties cannot break the assertion. -/
def Service.Stable (svc : Service S σ) (P : σ → Prop) : Prop := ∀ s s', P s → svc.Rely s s' → P s'

/-- Started in `P`, the program keeps the invariant, makes only guarded calls, and returns with
its value and the state in `Q`. -/
inductive Safe (svc : Service S σ) (Inv : σ → Prop) (Guard : σ → S.Request → Prop) :
    (σ → Prop) → Program S α → (α → σ → Prop) → Prop where
  | done {P value Q} : svc.Stable P → (∀ s, P s → Inv s ∧ Q value s) →
      Safe svc Inv Guard P (.done value) Q
  | call {P request next Q} (post : S.Reply request → σ → Prop) : svc.Stable P →
      (∀ s, P s → Inv s ∧ Guard s request) →
      (∀ s s', P s → svc.Breaks s request s' → Inv s') →
      (∀ s reply s', P s → svc.Handles s request reply s' → post reply s') →
      (∀ reply, Safe svc Inv Guard (post reply) (next reply) Q) →
      Safe svc Inv Guard P (.call request next) Q

section Rules

variable {svc : Service S σ} {Inv : σ → Prop} {Guard : σ → S.Request → Prop} {P : σ → Prop}
  {program : Program S α} {Q : α → σ → Prop}

theorem Safe.inv (h : Safe svc Inv Guard P program Q) {s : σ} (hs : P s) : Inv s := by
  cases h with
  | done _ hinv => exact (hinv s hs).1
  | call _ _ hinv _ _ _ => exact (hinv s hs).1

theorem Safe.stable (h : Safe svc Inv Guard P program Q) : svc.Stable P := by
  cases h with
  | done hstable _ => exact hstable
  | call _ hstable _ _ _ _ => exact hstable

theorem Safe.strengthen (h : Safe svc Inv Guard P program Q) {P' : σ → Prop}
    (hstable : svc.Stable P') (hP : ∀ s, P' s → P s) : Safe svc Inv Guard P' program Q := by
  cases h with
  | done _ hinv => exact .done hstable fun s hs ↦ hinv s (hP s hs)
  | call post _ hinv hbreaks hpost hnext =>
    exact .call post hstable (fun s hs ↦ hinv s (hP s hs)) (fun s s' hs ↦ hbreaks s s' (hP s hs))
      (fun s reply s' hs ↦ hpost s reply s' (hP s hs)) hnext

theorem Safe.weaken (h : Safe svc Inv Guard P program Q) {Q' : α → σ → Prop}
    (hQ : ∀ value s, Q value s → Q' value s) : Safe svc Inv Guard P program Q' := by
  induction h with
  | done hstable hinv => exact .done hstable fun s hs ↦ ⟨(hinv s hs).1, hQ _ s (hinv s hs).2⟩
  | call post hstable hinv hbreaks hpost _ ih =>
    exact .call post hstable hinv hbreaks hpost fun reply ↦ ih reply hQ

theorem Safe.vacuous (hP : ∀ s, ¬P s) : Safe svc Inv Guard P program Q := by
  have hstable : svc.Stable P := fun s _ hs ↦ absurd hs (hP s)
  induction program generalizing P with
  | done value => exact .done hstable fun s hs ↦ absurd hs (hP s)
  | call request next ih =>
    exact .call (fun _ _ ↦ False) hstable (fun s hs ↦ absurd hs (hP s))
      (fun s _ hs ↦ absurd hs (hP s)) (fun s _ _ hs ↦ absurd hs (hP s))
      fun reply ↦ ih reply (fun _ ↦ id) fun _ _ hs ↦ hs.elim

/-- What holds in every state of the precondition may be assumed. -/
theorem Safe.assume {φ : Prop} (hφ : ∀ s, P s → φ) (h : φ → Safe svc Inv Guard P program Q) :
    Safe svc Inv Guard P program Q := by
  by_cases hcase : φ
  · exact h hcase
  · exact .vacuous fun s hs ↦ hcase (hφ s hs)

/-- The rest of a program is verified from what its first part has established. -/
theorem Safe.bind {β : Type} {next : α → Program S β} {Q' : β → σ → Prop}
    (h : Safe svc Inv Guard P program Q)
    (hnext : ∀ value P', svc.Stable P' → (∀ s, P' s → Q value s) →
      Safe svc Inv Guard P' (next value) Q') :
    Safe svc Inv Guard P (program >>= next) Q' := by
  induction h with
  | done hstable hinv => exact hnext _ _ hstable fun s hs ↦ (hinv s hs).2
  | call post hstable hinv hbreaks hpost _ ih =>
    exact .call post hstable hinv hbreaks hpost fun reply ↦ ih reply hnext

end Rules

section Soundness

variable {svc : Service S σ} {Inv : σ → Prop} {Guard : σ → S.Request → Prop}

/-- A configuration whose program is verified from here on. -/
inductive Verified (svc : Service S σ) (Inv : σ → Prop) (Guard : σ → S.Request → Prop) :
    Config S α σ → Prop where
  | idle {s} : Inv s → Verified svc Inv Guard ⟨none, s⟩
  | running {P program Q s} : Safe svc Inv Guard P program Q → P s →
      Verified svc Inv Guard ⟨some program, s⟩

theorem Verified.inv {cfg : Config S α σ} (h : Verified svc Inv Guard cfg) : Inv cfg.state := by
  cases h with
  | idle hs => exact hs
  | running hsafe hs => exact hsafe.inv hs

theorem Verified.step {main : Program S α} {Q : α → σ → Prop} (hstable : svc.Stable Inv)
    (hmain : Safe svc Inv Guard Inv main Q) {cfg cfg' : Config S α σ}
    (h : Verified svc Inv Guard cfg) (hstep : SerialStep svc main cfg cfg') :
    Verified svc Inv Guard cfg' := by
  cases hstep with
  | start => exact .running hmain h.inv
  | call hhandles =>
    cases h with
    | running hsafe hs =>
      cases hsafe with
      | call post _ _ _ hpost hnext => exact .running (hnext _) (hpost _ _ _ hs hhandles)
  | finish => exact .idle h.inv
  | abandon => exact .idle h.inv
  | interrupt hbreak =>
    cases h with
    | running hsafe hs =>
      cases hsafe with
      | call _ _ _ hbreaks _ _ => exact .idle (hbreaks _ _ hs hbreak)
  | environment hrely =>
    cases h with
    | idle hs => exact .idle (hstable _ _ hs hrely)
    | running hsafe hs => exact .running hsafe (hsafe.stable _ _ hs hrely)

/-- **Soundness.** A program that is safe from its invariant keeps the invariant and the guard in
every serialised run. -/
theorem SerialReachable.verified {main : Program S α} {Q : α → σ → Prop} {Init : σ → Prop}
    (hstable : svc.Stable Inv) (hmain : Safe svc Inv Guard Inv main Q)
    (hinit : ∀ s, Init s → Inv s) {cfg : Config S α σ} (h : SerialReachable svc main Init cfg) :
    Verified svc Inv Guard cfg := by
  obtain ⟨s, hs, hrun⟩ := h
  induction hrun with
  | refl => exact .idle (hinit s hs)
  | tail _ hstep ih => exact ih.step hstable hmain hstep

theorem Verified.guard {request : S.Request} {next : S.Reply request → Program S α} {s : σ}
    (h : Verified svc Inv Guard ⟨some (.call request next), s⟩) : Guard s request := by
  cases h with
  | running hsafe hs =>
    cases hsafe with
    | call _ _ hinv _ _ _ => exact (hinv s hs).2

end Soundness

end OperatorToolkit.Interaction
