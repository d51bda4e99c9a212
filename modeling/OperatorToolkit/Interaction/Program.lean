import Mathlib.Logic.Relation
import Mathlib.Tactic.Common

/-!
# Programs as trees of external calls

A program that talks to services it does not own is a finite tree: it either returns, or makes
one call and continues with whatever reply comes back. The tree fixes the code and leaves the
services open. `Runs` lists the calls of one complete run together with their replies, for
statements that hold whatever the services answer.
-/

namespace OperatorToolkit.Interaction

/-- The calls that can be made, and the replies that each of them can receive. -/
structure Signature where
  Request : Type
  Reply : Request → Type

/-- One call together with the reply it received. -/
abbrev Signature.Call (S : Signature) := (request : S.Request) × S.Reply request

inductive Program (S : Signature) (α : Type) : Type where
  | done (value : α)
  | call (request : S.Request) (next : S.Reply request → Program S α)

namespace Program

variable {S : Signature} {α β σ : Type}

def bind (program : Program S α) (next : α → Program S β) : Program S β :=
  match program with
  | .done value => next value
  | .call request rest => .call request fun reply ↦ (rest reply).bind next

instance : Monad (Program S) where
  pure := .done
  bind := bind

/-- The program that makes one call and returns its reply. -/
def request (r : S.Request) : Program S (S.Reply r) := .call r .done

@[simp] theorem pure_eq (value : α) : (pure value : Program S α) = .done value := rfl

@[simp] theorem done_bind (value : α) (next : α → Program S β) :
    (Program.done value >>= next) = next value := rfl

@[simp] theorem call_bind (r : S.Request) (rest : S.Reply r → Program S α)
    (next : α → Program S β) :
    (Program.call r rest >>= next) = .call r fun reply ↦ rest reply >>= next := rfl

@[simp] theorem request_bind (r : S.Request) (next : S.Reply r → Program S β) :
    (request r >>= next) = .call r next := rfl

/-! ## Complete runs -/

/-- `Runs program calls value`: the program can make exactly these calls, receive exactly these
replies, and then return `value`. -/
inductive Runs : Program S α → List S.Call → α → Prop where
  | done (value : α) : Runs (.done value) [] value
  | call {r : S.Request} {next : S.Reply r → Program S α} {reply : S.Reply r}
      {calls : List S.Call} {value : α} :
      Runs (next reply) calls value → Runs (.call r next) (⟨r, reply⟩ :: calls) value

@[simp] theorem runs_done_iff {value result : α} {calls : List S.Call} :
    Runs (.done value : Program S α) calls result ↔ calls = [] ∧ result = value := by
  constructor
  · intro h
    cases h
    exact ⟨rfl, rfl⟩
  · rintro ⟨rfl, rfl⟩
    exact .done _

@[simp] theorem runs_call_iff {r : S.Request} {next : S.Reply r → Program S α}
    {calls : List S.Call} {result : α} :
    Runs (.call r next) calls result ↔
      ∃ reply rest, calls = ⟨r, reply⟩ :: rest ∧ Runs (next reply) rest result := by
  constructor
  · intro h
    cases h with
    | call h => exact ⟨_, _, rfl, h⟩
  · rintro ⟨reply, rest, rfl, h⟩
    exact .call h

theorem runs_bind_iff {program : Program S α} {next : α → Program S β} {calls : List S.Call}
    {result : β} :
    Runs (program >>= next) calls result ↔
      ∃ first value rest, calls = first ++ rest ∧ Runs program first value ∧
        Runs (next value) rest result := by
  induction program generalizing calls with
  | done value =>
    constructor
    · exact fun h ↦ ⟨[], value, calls, rfl, .done value, h⟩
    · rintro ⟨first, value', rest, rfl, hfirst, hrest⟩
      obtain ⟨rfl, rfl⟩ := runs_done_iff.mp hfirst
      exact hrest
  | call r program ih =>
    rw [call_bind, runs_call_iff]
    constructor
    · rintro ⟨reply, calls', rfl, h⟩
      obtain ⟨first, value, rest, rfl, hfirst, hrest⟩ := (ih reply).mp h
      exact ⟨⟨r, reply⟩ :: first, value, rest, rfl, .call hfirst, hrest⟩
    · rintro ⟨first, value, rest, rfl, hfirst, hrest⟩
      obtain ⟨reply, first', rfl, hprogram⟩ := runs_call_iff.mp hfirst
      exact ⟨reply, first' ++ rest, rfl, (ih reply).mpr ⟨first', value, rest, rfl, hprogram, hrest⟩⟩

end Program

end OperatorToolkit.Interaction
