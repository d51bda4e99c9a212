import OperatorToolkit.Base
import OperatorToolkit.Interaction.Program

/-!
# Operands, their run calls and their order

An operand has a name, the names it requires and a requeue strategy. Its remaining methods act on
the world and may answer anything, so they are calls of the signature `operandCalls`. `callEnsure`
and `callCleanup` are the two run calls that the executor is handed; `OperandOrder` is the list of
execution steps that it walks.
-/

namespace OperatorToolkit.Operator

open Interaction

inductive RequeueStrategy where
  | requeueOnError
  | requeueAlways
  deriving DecidableEq, Repr

structure Operand where
  name : String
  requires : List String
  requeueStrategy : RequeueStrategy := .requeueOnError
  deriving DecidableEq, Repr

/-- `metav1.OwnerReference`; the zero value is what `Cleanup` passes along. -/
structure OwnerReference where
  apiVersion : String := ""
  kind : String := ""
  name : String := ""
  uid : String := ""
  deriving DecidableEq, Repr

/-- The event and the error that an operand's run call returns; `none` is nil. -/
structure Outcome (Event Err : Type) where
  event : Option Event
  err : Option Err
  deriving DecidableEq, Repr

/-- The operand methods that act on the world. -/
inductive OperandRequest (Obj : Type) where
  | ensure (op : Operand) (obj : Obj) (ownerRef : OwnerReference)
  | delete (op : Operand) (obj : Obj)
  | readyCheck (op : Operand) (obj : Obj)
  | postReady (op : Operand) (obj : Obj)

def operandCalls (Obj Event Err : Type) : Signature where
  Request := OperandRequest Obj
  Reply
    | .ensure _ _ _ => Outcome Event Err
    | .delete _ _ => Outcome Event Err
    | .readyCheck _ _ => Bool × Option Err
    | .postReady _ _ => Option Err

/-- The package variable `ErrNotReady`, told apart from other errors with `errors.Is`. -/
class OperandErrors (Err : Type) extends ErrorValues Err where
  errNotReady : Err
  is_errNotReady : is errNotReady errNotReady

export OperandErrors (errNotReady)

instance : OperandErrors GoError where
  errNotReady := ⟨["operand not ready"]⟩
  is_errNotReady := by decide

/-- Whether an error is, or wraps, `ErrNotReady`. -/
def NotReady {Err : Type} [OperandErrors Err] (err : Err) : Prop :=
  ErrorValues.is err errNotReady = true

instance {Err : Type} [OperandErrors Err] : DecidablePred (NotReady : Err → Prop) :=
  fun _ ↦ inferInstanceAs (Decidable (_ = true))

section RunCalls

variable {Obj Event Err : Type}

/-- A function that returns an operand's execute call. -/
abbrev OperandRunCall (Obj Event Err : Type) :=
  Operand → Obj → OwnerReference → Program (operandCalls Obj Event Err) (Outcome Event Err)

def Operand.ensure (op : Operand) (obj : Obj) (ownerRef : OwnerReference) :
    Program (operandCalls Obj Event Err) (Outcome Event Err) :=
  Program.request (S := operandCalls Obj Event Err) (OperandRequest.ensure op obj ownerRef)

def Operand.delete (op : Operand) (obj : Obj) :
    Program (operandCalls Obj Event Err) (Outcome Event Err) :=
  Program.request (S := operandCalls Obj Event Err) (OperandRequest.delete op obj)

def Operand.readyCheck (op : Operand) (obj : Obj) :
    Program (operandCalls Obj Event Err) (Bool × Option Err) :=
  Program.request (S := operandCalls Obj Event Err) (OperandRequest.readyCheck op obj)

def Operand.postReady (op : Operand) (obj : Obj) :
    Program (operandCalls Obj Event Err) (Option Err) :=
  Program.request (S := operandCalls Obj Event Err) (OperandRequest.postReady op obj)

section Runs

variable {α : Type} {op : Operand} {obj : Obj} {calls : List (operandCalls Obj Event Err).Call}
  {value : α}

@[simp] theorem runs_ensure_iff {ownerRef : OwnerReference}
    {next : Outcome Event Err → Program (operandCalls Obj Event Err) α} :
    Program.Runs (op.ensure obj ownerRef >>= next) calls value ↔
      ∃ (outcome : Outcome Event Err) (rest : List (operandCalls Obj Event Err).Call),
        calls = ⟨.ensure op obj ownerRef, outcome⟩ :: rest ∧
          Program.Runs (next outcome) rest value :=
  Program.runs_call_iff

@[simp] theorem runs_readyCheck_iff
    {next : Bool × Option Err → Program (operandCalls Obj Event Err) α} :
    Program.Runs (op.readyCheck obj >>= next) calls value ↔
      ∃ (reply : Bool × Option Err) (rest : List (operandCalls Obj Event Err).Call),
        calls = ⟨.readyCheck op obj, reply⟩ :: rest ∧ Program.Runs (next reply) rest value :=
  Program.runs_call_iff

@[simp] theorem runs_postReady_iff
    {next : Option Err → Program (operandCalls Obj Event Err) α} :
    Program.Runs (op.postReady obj >>= next) calls value ↔
      ∃ (err : Option Err) (rest : List (operandCalls Obj Event Err).Call),
        calls = ⟨.postReady op obj, err⟩ :: rest ∧ Program.Runs (next err) rest value :=
  Program.runs_call_iff

@[simp] theorem runs_delete_iff {outcome : Outcome Event Err} :
    Program.Runs (op.delete obj) calls outcome ↔ calls = [⟨.delete op obj, outcome⟩] := by
  constructor
  · intro h
    obtain ⟨reply, rest, rfl, hrest⟩ := Program.runs_call_iff.mp h
    obtain ⟨rfl, rfl⟩ := Program.runs_done_iff.mp hrest
    rfl
  · rintro rfl
    exact .call (.done _)

end Runs

/-- The text in front of the wrapped `ErrNotReady`. -/
def notReadyText (op : Operand) : String :=
  s!"operand {op.name.quote} readiness check failed: not in the desired state yet"

/-- Ensure, then proceed only when the operand is ready. -/
def callEnsure [OperandErrors Err] : OperandRunCall Obj Event Err := fun op obj ownerRef ↦ do
  let ensured ← op.ensure obj ownerRef
  if ensured.err.isSome then
    return ⟨none, ensured.err⟩
  let (ready, readyErr) ← op.readyCheck obj
  if readyErr.isSome then
    return ⟨none, readyErr⟩
  if !ready then
    return ⟨none, some (wrap (notReadyText op) errNotReady)⟩
  let err ← op.postReady obj
  if err.isSome then
    return ⟨none, err⟩
  return ⟨ensured.event, none⟩

/-- The wrapper around `Delete` ignores the owner reference. -/
def callCleanup : OperandRunCall Obj Event Err := fun op obj _ ↦ op.delete obj

end RunCalls

/-- The steps in order of execution; the operands of one step can run in parallel. -/
abbrev OperandOrder := List (List Operand)

/-- The loop of `Reverse`: both ends move inwards and are written crosswise into `r`. -/
def reverseLoop (o r : OperandOrder) (left right : ℕ) : OperandOrder :=
  if left < right then
    reverseLoop o ((r.set left (o.getD right [])).set right (o.getD left [])) (left + 1) (right - 1)
  else
    r
termination_by right - left

/-- `Reverse` fills a fresh slice of nil steps. -/
def OperandOrder.reverse (o : OperandOrder) : OperandOrder :=
  reverseLoop o (List.replicate o.length []) 0 (o.length - 1)

/-- The ends are written until they meet; a step in the middle is never written. -/
theorem getD_reverseLoop (o r : OperandOrder) (left right : ℕ)
    (hsum : left + right + 1 = o.length) (hlength : r.length = o.length) (i : ℕ) :
    (reverseLoop o r left right).getD i [] =
      if left ≤ i ∧ i ≤ right ∧ 2 * i + 1 ≠ o.length then o.getD (o.length - 1 - i) []
      else r.getD i [] := by
  fun_induction reverseLoop o r left right with
  | case1 r left right hlt ih =>
    rw [ih (by omega) (by simpa using hlength)]
    rcases Nat.lt_trichotomy i left with hi | rfl | hi
    · rw [if_neg (by omega), if_neg (by omega)]
      simp [show right ≠ i by omega, show left ≠ i by omega]
    · rw [if_neg (by omega), if_pos (by omega)]
      simp [show right ≠ i by omega, show i < r.length by omega,
        show o.length - 1 - i = right by omega]
    · rcases Nat.lt_trichotomy i right with hi' | rfl | hi'
      · by_cases hmiddle : 2 * i + 1 = o.length
        · rw [if_neg (by omega), if_neg (by omega)]
          simp [show right ≠ i by omega, show left ≠ i by omega]
        · rw [if_pos (by omega), if_pos (by omega)]
      · rw [if_neg (by omega), if_pos (by omega)]
        simp [show i < r.length by omega, show o.length - 1 - i = left by omega]
      · rw [if_neg (by omega), if_neg (by omega)]
        simp [show right ≠ i by omega, show left ≠ i by omega]
  | case2 r left right hge => rw [if_neg (by omega)]

/-- `Reverse` mirrors every step except the middle one of an odd number of steps, which it
replaces by an empty step. -/
theorem OperandOrder.getD_reverse (o : OperandOrder) (i : ℕ) :
    (OperandOrder.reverse o).getD i [] =
      if i < o.length ∧ 2 * i + 1 ≠ o.length then o.getD (o.length - 1 - i) [] else [] := by
  rcases Nat.eq_zero_or_pos o.length with hzero | hpos
  · rw [List.eq_nil_of_length_eq_zero hzero, if_neg (by simp)]
    simp [OperandOrder.reverse, reverseLoop]
  · have hloop := getD_reverseLoop o (List.replicate o.length []) 0 (o.length - 1) (by omega)
      (by simp) i
    rw [OperandOrder.reverse, hloop]
    by_cases hi : i < o.length ∧ 2 * i + 1 ≠ o.length
    · rw [if_pos hi, if_pos (by omega)]
    · rw [if_neg hi, if_neg (by omega)]
      simp [List.getElem?_replicate]
      split <;> rfl

def stepRequeueStrategy : List Operand → RequeueStrategy
  | [] => .requeueOnError
  | o :: rest =>
    if o.requeueStrategy = .requeueAlways then .requeueAlways else stepRequeueStrategy rest

theorem stepRequeueStrategy_eq_always_iff (step : List Operand) :
    stepRequeueStrategy step = .requeueAlways ↔
      ∃ op ∈ step, op.requeueStrategy = .requeueAlways := by
  induction step with
  | nil => simp [stepRequeueStrategy]
  | cons o rest ih =>
    by_cases ho : o.requeueStrategy = .requeueAlways <;> simp [stepRequeueStrategy, ho, ih]

end OperatorToolkit.Operator
