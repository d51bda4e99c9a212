import OperatorToolkit.Interaction.Serial

/-!
# Undisturbed executions

A program that nobody disturbs takes a state and leaves a value and a state. `Yields` is that
relation for an arbitrary service, with one inversion rule per construct of a program. A service
that can be computed also runs its programs: `Program.interpret` returns the calls it answered, the
value and the last state.
-/

namespace OperatorToolkit.Interaction

variable {S : Signature} {α β σ : Type}

/-- Started in the first state, the program can return the value and leave the second state. -/
inductive Yields (svc : Service S σ) : σ → Program S α → α → σ → Prop where
  | done {s value} : Yields svc s (.done value) value s
  | call {s request reply s' next value s''} : svc.Handles s request reply s' →
      Yields svc s' (next reply) value s'' → Yields svc s (.call request next) value s''

section Inversion

variable {svc : Service S σ} {s s' : σ}

@[simp] theorem yields_done_iff {value result : α} :
    Yields svc s (.done value : Program S α) result s' ↔ result = value ∧ s' = s := by
  constructor
  · intro h
    cases h
    exact ⟨rfl, rfl⟩
  · rintro ⟨rfl, rfl⟩
    exact .done

theorem yields_call_iff {request : S.Request} {next : S.Reply request → Program S α}
    {result : α} :
    Yields svc s (.call request next) result s' ↔
      ∃ reply mid, svc.Handles s request reply mid ∧ Yields svc mid (next reply) result s' := by
  constructor
  · intro h
    cases h with
    | call hhandles hnext => exact ⟨_, _, hhandles, hnext⟩
  · rintro ⟨reply, mid, hhandles, hnext⟩
    exact .call hhandles hnext

theorem yields_bind_iff {program : Program S α} {next : α → Program S β} {result : β} :
    Yields svc s (program >>= next) result s' ↔
      ∃ value mid, Yields svc s program value mid ∧ Yields svc mid (next value) result s' := by
  induction program generalizing s with
  | done value => simp
  | call request rest ih =>
    simp only [Program.call_bind, yields_call_iff, ih]
    constructor
    · rintro ⟨reply, mid, hhandles, value, mid', hrest, hnext⟩
      exact ⟨value, mid', ⟨reply, mid, hhandles, hrest⟩, hnext⟩
    · rintro ⟨value, mid', ⟨reply, mid, hhandles, hrest⟩, hnext⟩
      exact ⟨reply, mid, hhandles, value, mid', hrest, hnext⟩

/-- A program comes to its end with a service that answers every call. -/
theorem exists_yields (htotal : ∀ s request, ∃ reply s', svc.Handles s request reply s')
    (program : Program S α) (s : σ) : ∃ value s', Yields svc s program value s' := by
  induction program generalizing s with
  | done value => exact ⟨value, s, .done⟩
  | call request next ih =>
    obtain ⟨reply, mid, hhandles⟩ := htotal s request
    obtain ⟨value, s', hnext⟩ := ih reply mid
    exact ⟨value, s', .call hhandles hnext⟩

/-- A run whose calls another service would have answered in the same way. -/
theorem yields_of_served {svc' : Service S σ} {program : Program S α} {calls : List S.Call}
    {value : α} (hruns : Program.Runs program calls value) (hserved : Served svc s calls s')
    (hcalls : ∀ call ∈ calls, ∀ t t', svc.Handles t call.1 call.2 t' →
      svc'.Handles t call.1 call.2 t') :
    Yields svc' s program value s' := by
  induction hruns generalizing s with
  | done value =>
    cases hserved
    exact .done
  | call _ ih =>
    cases hserved with
    | cons hhandles hserved =>
      rw [List.forall_mem_cons] at hcalls
      exact .call (hcalls.1 _ _ hhandles) (ih hserved hcalls.2)

/-- A service that answers at least as much, over a part of the state, yields as much. -/
theorem Yields.map {τ : Type} {svc' : Service S τ} (f : σ → τ)
    (hf : ∀ t request reply t', svc.Handles t request reply t' →
      svc'.Handles (f t) request reply (f t'))
    {program : Program S α} {value : α} (h : Yields svc s program value s') :
    Yields svc' (f s) program value (f s') := by
  induction h with
  | done => exact .done
  | call hhandles _ ih => exact .call (hf _ _ _ _ hhandles) ih

end Inversion

/-! ## Computed executions -/

/-- Runs the program against computed answers. -/
def Program.interpret (respond : σ → (request : S.Request) → S.Reply request × σ) :
    Program S α → σ → List S.Call × α × σ
  | .done value, s => ([], value, s)
  | .call request next, s =>
    let answer := respond s request
    let rest := (next answer.1).interpret respond answer.2
    (⟨request, answer.1⟩ :: rest.1, rest.2)

variable {respond : σ → (request : S.Request) → S.Reply request × σ}

theorem Program.runs_interpret (program : Program S α) (s : σ) :
    Runs program (program.interpret respond s).1 (program.interpret respond s).2.1 := by
  induction program generalizing s with
  | done value => exact .done value
  | call request next ih => exact .call (ih _ _)

theorem Program.served_interpret {svc : Service S σ}
    (h : ∀ s request, svc.Handles s request (respond s request).1 (respond s request).2)
    (program : Program S α) (s : σ) :
    Served svc s (program.interpret respond s).1 (program.interpret respond s).2.2 := by
  induction program generalizing s with
  | done value => exact .nil
  | call request next ih => exact .cons (h s request) (ih _ _)

theorem Program.yields_interpret {svc : Service S σ}
    (h : ∀ s request, svc.Handles s request (respond s request).1 (respond s request).2)
    (program : Program S α) (s : σ) :
    Yields svc s program (program.interpret respond s).2.1 (program.interpret respond s).2.2 :=
  yields_of_served (program.runs_interpret s) (program.served_interpret h s) fun _ _ _ _ hhandles ↦
    hhandles

end OperatorToolkit.Interaction
