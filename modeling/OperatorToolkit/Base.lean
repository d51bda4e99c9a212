import Mathlib.Data.List.ReduceOption
import Mathlib.Tactic.Common

/-!
# Error values, reads and reconcile results

The toolkit's code handles errors as values: it formats them, wraps them, asks `errors.Is`, and
folds several of them into one with `NewAggregate` of the Kubernetes utility package. The type of
error values stays a parameter, so that operands and controllers may fail with anything. What the
code relies on is recorded as the laws of `ErrorValues`.
-/

namespace OperatorToolkit

/-- Error values with the operations the toolkit applies to them. A nil error is `none`. -/
class ErrorValues (Err : Type) where
  /-- `fmt.Errorf` without a wrapped error, or `errors.New`. -/
  errorf : String → Err
  /-- `fmt.Errorf` with one `%w` operand. -/
  wrap : String → Err → Err
  /-- The text of the error, which `%v` formats. -/
  message : Err → String
  /-- `errors.Is`. -/
  is : Err → Err → Bool
  /-- `NewAggregate` of `k8s.io/apimachinery/pkg/util/errors`. -/
  newAggregate : List (Option Err) → Option Err
  is_wrap : ∀ text err target, is err target → is (wrap text err) target
  newAggregate_eq_none_iff : ∀ errs, newAggregate errs = none ↔ ∀ err ∈ errs, err = none
  is_newAggregate_iff : ∀ errs agg target, newAggregate errs = some agg →
    (is agg target ↔ ∃ err, some err ∈ errs ∧ is err target)

export ErrorValues (errorf wrap message newAggregate)

variable {Err : Type} [ErrorValues Err]

theorem newAggregate_isSome (err : Err) (errs : List (Option Err)) (h : some err ∈ errs) :
    ∃ agg, newAggregate errs = some agg := by
  refine Option.ne_none_iff_exists'.mp fun hnone ↦ ?_
  have := (ErrorValues.newAggregate_eq_none_iff errs).mp hnone _ h
  cases this

theorem reduceOption_eq_nil_iff {α : Type} {entries : List (Option α)} :
    entries.reduceOption = [] ↔ ∀ entry ∈ entries, entry = none := by
  simp only [List.eq_nil_iff_forall_not_mem, List.reduceOption_mem_iff]
  constructor
  · intro h entry hentry
    exact Option.eq_none_iff_forall_ne_some.mpr fun a ha ↦ h a (ha ▸ hentry)
  · intro h a ha
    cases h _ ha

/-- A concrete error: the texts of the errors it is made of. Sentinels are told apart by their
text, and wrapping or aggregating keeps the texts of what is inside. -/
structure GoError where
  texts : List String
  deriving DecidableEq, Repr

/-- Only an error that is not itself composed can be asked for. -/
def GoError.is (err target : GoError) : Bool :=
  match target.texts with
  | [text] => text ∈ err.texts
  | _ => false

def GoError.newAggregate (errs : List (Option GoError)) : Option GoError :=
  match errs.reduceOption with
  | [] => none
  | members => some ⟨members.flatMap (·.texts)⟩

instance : ErrorValues GoError where
  errorf text := ⟨[text]⟩
  wrap text err := ⟨text :: err.texts⟩
  message err := ": ".intercalate err.texts
  is := GoError.is
  newAggregate := GoError.newAggregate
  is_wrap := by
    intro text err target h
    unfold GoError.is at h ⊢
    split at h <;> simp_all
  newAggregate_eq_none_iff := by
    intro errs
    rw [← reduceOption_eq_nil_iff, GoError.newAggregate]
    split <;> simp_all
  is_newAggregate_iff := by
    intro errs agg target h
    rw [GoError.newAggregate] at h
    split at h
    · cases h
    next members hmembers =>
      cases h
      have hmem (err : GoError) : some err ∈ errs ↔ err ∈ errs.reduceOption :=
        List.reduceOption_mem_iff.symm
      simp only [hmem, GoError.is]
      split <;> simp [List.mem_flatMap]

/-- What a read of one object from the API returns. -/
inductive GetReply (Obj Err : Type) where
  | found (obj : Obj)
  | notFound
  | failed (err : Err)

/-- `ctrl.Result`: what a reconciler asks of the work queue. Durations are in nanoseconds. -/
structure Result where
  requeue : Bool := false
  requeueAfter : Int := 0
  deriving DecidableEq, Repr

/-- The controller runtime queues the request again for either field. -/
def Result.requeues (result : Result) : Bool :=
  result.requeue || decide (0 < result.requeueAfter)

end OperatorToolkit
