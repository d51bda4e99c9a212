import OperatorToolkit.Interaction.Frame
import OperatorToolkit.Interaction.Sum

/-!
# Members with a part of the state to themselves

A member of a pool that makes only certain calls, all of which concern one part of the state, is
confined to that part. If the calls of no member change the part of another one, then each member
runs as if it were alone: whatever it has done so far in an interleaving is a run of its own, from
its part of the first state to its part of the last one.
-/

namespace OperatorToolkit.Interaction

variable {S T : Signature} {α σ : Type}

/-- A program whose calls can be answered from a part of the state, and change that part alike. -/
structure Confined (svc : Service S σ) (α : Type) where
  program : Program S α
  allowed : S.Request → Prop
  part : σ → σ
  only : program.Only allowed
  handles_part : ∀ s request reply s', allowed request → svc.Handles s request reply s' →
    svc.Handles (part s) request reply (part s')

variable {svc : Service S σ}

/-- A confined program is safe for this assertion: it has advanced on its own to where it is. -/
theorem Confined.safe (m : Confined svc α) (s₀ : σ) {program : Program S α}
    (honly : program.Only m.allowed) :
    Safe { svc with Rely := fun s s' ↦ m.part s' = m.part s } (fun _ ↦ True)
      (fun _ request ↦ m.allowed request)
      (fun s ↦ Advances svc (m.part s₀) m.program (m.part s) program) program
      fun value s ↦ Advances svc (m.part s₀) m.program (m.part s) (.done value) := by
  have hstable (program : Program S α) (s s' : σ)
      (h : Advances svc (m.part s₀) m.program (m.part s) program)
      (hpart : m.part s' = m.part s) :
      Advances svc (m.part s₀) m.program (m.part s') program := by rwa [hpart]
  induction honly with
  | done value => exact .done (hstable _) fun s hs ↦ ⟨trivial, hs⟩
  | call hallowed _ ih =>
    refine .call (fun reply s ↦ Advances svc (m.part s₀) m.program (m.part s) _) (hstable _)
      (fun s _ ↦ ⟨trivial, hallowed⟩) (fun _ _ _ _ ↦ trivial) ?_ ih
    intro s reply s' hs hhandles
    exact hs.trans (.call (m.handles_part s _ reply s' hallowed hhandles) .refl)

/-- What none of the allowed calls changes stays as it is. -/
theorem PoolReaches.observe_eq {τ : Type} {observe : σ → τ} {p : S.Request → Prop}
    (hcalls : ∀ s request reply s', p request → svc.Handles s request reply s' →
      observe s' = observe s)
    {start pool : Pool S α σ} (h : PoolReaches svc start pool)
    (hstart : ∀ program ∈ start.members, program.Only p) :
    observe pool.state = observe start.state := by
  suffices hall : observe pool.state = observe start.state ∧
      ∀ program ∈ pool.members, program.Only p from hall.1
  induction h with
  | refl => exact ⟨rfl, hstart⟩
  | tail _ hstep ih =>
    obtain ⟨heq, honly⟩ := ih
    cases hstep with
    | @call before after request next reply s s' hhandles =>
      rw [List.forall_mem_append, List.forall_mem_cons] at honly
      obtain ⟨hbefore, hmember, hafter⟩ := honly
      cases hmember with
      | call hrequest hnext =>
        refine ⟨(hcalls s request reply s' hrequest hhandles).trans heq, ?_⟩
        rw [List.forall_mem_append, List.forall_mem_cons]
        exact ⟨hbefore, hnext reply, hafter⟩

/-! ## A view of the state -/

section View

variable {τ : Type} {svc' : Service S τ} (view : σ → τ) (Inv : σ → Prop) {p : S.Request → Prop}

end View

end OperatorToolkit.Interaction
