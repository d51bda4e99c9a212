import Mathlib.Data.List.Induction
import Mathlib.Data.List.Nodup
import Mathlib.Logic.Function.Basic

/-!
# Maps that remember the order of their keys

A map together with the list of its keys in the order in which they were first stored, which is how
a program reads a hash map back in a fixed order. `collect` groups a list by a key: each item is
merged into what the earlier items of its key have built.
-/

namespace OperatorToolkit.Grouping

structure OrderedMap (κ ω : Type) where
  lookup : κ → Option ω
  order : List κ
  mem_order_iff : ∀ key, key ∈ order ↔ (lookup key).isSome
  nodup_order : order.Nodup

namespace OrderedMap

variable {κ ω ε : Type} [DecidableEq κ]

def empty : OrderedMap κ ω := ⟨fun _ ↦ none, [], by simp, List.nodup_nil⟩

/-- Store `f old` under the key, where `old` is what the map holds there. A new key goes last. -/
def upsert (m : OrderedMap κ ω) (key : κ) (f : Option ω → ω) : OrderedMap κ ω where
  lookup := Function.update m.lookup key (some (f (m.lookup key)))
  order := if (m.lookup key).isSome then m.order else m.order ++ [key]
  mem_order_iff := by
    intro k
    have hk := m.mem_order_iff k
    by_cases hkey : k = key
    · subst hkey
      split <;> simp_all
    · split <;> simp [hk, hkey]
  nodup_order := by
    split
    next h => exact m.nodup_order
    next h =>
      have hnew : key ∉ m.order := fun hmem ↦ h ((m.mem_order_iff key).mp hmem)
      exact m.nodup_order.append (List.nodup_singleton key) (by simpa using hnew)

/-- The values in the order of their keys. -/
def values (m : OrderedMap κ ω) : List ω := m.order.filterMap m.lookup

omit [DecidableEq κ] in
theorem mem_values_iff {m : OrderedMap κ ω} {value : ω} :
    value ∈ m.values ↔ ∃ key, m.lookup key = some value := by
  rw [values, List.mem_filterMap]
  constructor
  · rintro ⟨key, -, hkey⟩
    exact ⟨key, hkey⟩
  · rintro ⟨key, hkey⟩
    exact ⟨key, (m.mem_order_iff key).mpr (by rw [hkey]; rfl), hkey⟩

/-! ## Grouping a list -/

def collect (key : ε → κ) (merge : ε → Option ω → ω) (items : List ε) : OrderedMap κ ω :=
  items.foldl (fun m item ↦ m.upsert (key item) (merge item)) empty

theorem collect_concat (key : ε → κ) (merge : ε → Option ω → ω) (items : List ε) (item : ε) :
    collect key merge (items ++ [item]) =
      (collect key merge items).upsert (key item) (merge item) := by
  rw [collect, List.foldl_append]
  rfl

/-- Under a key stands the merger of its items alone, in their order. -/
theorem lookup_collect (key : ε → κ) (merge : ε → Option ω → ω) (items : List ε) (k : κ) :
    (collect key merge items).lookup k =
      (items.filter (key · = k)).foldl (fun old item ↦ some (merge item old)) none := by
  induction items using List.reverseRecOn with
  | nil => rfl
  | append_singleton items item ih =>
    rw [collect_concat, List.filter_append, List.foldl_append, ← ih]
    by_cases hk : key item = k
    · subst hk
      simp [upsert]
    · simp [upsert, hk, Function.update_of_ne (Ne.symm hk)]

end OrderedMap

end OperatorToolkit.Grouping
