import OperatorToolkit.Interaction.Execution

/-!
# Frames of programs

A program that makes only certain calls leaves alone what each of these calls leaves alone. `Only`
says which calls a program can make, whatever replies it receives.
-/

namespace OperatorToolkit.Interaction

variable {S : Signature} {α β σ τ : Type} {p q : S.Request → Prop}

namespace Program

/-- Every call that the program can make satisfies the predicate. -/
inductive Only (p : S.Request → Prop) : Program S α → Prop where
  | done (value : α) : Only p (.done value)
  | call {r : S.Request} {next : S.Reply r → Program S α} :
      p r → (∀ reply, Only p (next reply)) → Only p (.call r next)

theorem Only.bind {program : Program S α} {next : α → Program S β} (h : program.Only p)
    (hnext : ∀ value, (next value).Only p) : (program >>= next).Only p := by
  induction h with
  | done value => exact hnext value
  | call hr _ ih => exact .call hr ih

theorem Only.mono {program : Program S α} (h : program.Only p) (hpq : ∀ r, p r → q r) :
    program.Only q := by
  induction h with
  | done value => exact .done value
  | call hr _ ih => exact .call (hpq _ hr) ih

/-- **The frame rule.** What none of the calls changes, the program does not change. -/
theorem Only.observe_eq {svc : Service S σ} {observe : σ → τ}
    (hcalls : ∀ s r reply s', p r → svc.Handles s r reply s' → observe s' = observe s)
    {program : Program S α} (h : program.Only p) {s s' : σ} {value : α}
    (hyields : Yields svc s program value s') : observe s' = observe s := by
  induction hyields with
  | done => rfl
  | call hhandles _ ih =>
    cases h with
    | call hr hnext => exact (ih (hnext _)).trans (hcalls _ _ _ _ hr hhandles)

end Program

end OperatorToolkit.Interaction
