import OperatorToolkit.Grouping.Keys
import OperatorToolkit.Informer.Lookup
import OperatorToolkit.Memory.Slices

/-!
# Indexing a field

`IndexField` registers an index function that turns the values extracted from an object into keys:
each value in the namespace of the object and, if it has one, in all namespaces. The indexer calls
its index functions when it stores an object, in the order of a map, and records their keys.

The keys of an object without a namespace are written into the very slice that the extractor has
returned. Strings in slices are therefore kept on a heap here, to which an object may refer: an
extractor either makes the slice it returns or returns one that is there already, such as the
finalizers of the object, and then the object in the cache is written over.
-/

namespace OperatorToolkit.Informer

open Grouping Memory Object

variable {Rest Err : Type}

/-- The part of an object that is left out may refer to strings in memory. -/
class InMemory (Rest : Type) where
  Lies : Heap String → Rest → Prop
  lies_of_grows : ∀ {h h' rest}, Heap.Grows h h' → Lies h rest → Lies h' rest

/-- An extractor returns a slice of its own with some values, or a slice that is there already. -/
inductive Extracted where
  | made (vals : List String)
  | shared (s : Slice)
  deriving DecidableEq, Repr

def Extracted.slice (h : Heap String) : Extracted → Heap String × Slice
  | .made vals => h.alloc vals
  | .shared s => (h, s)

def Extracted.vals (h : Heap String) : Extracted → List String
  | .made vals => vals
  | .shared s => h.contents s

/-- `client.IndexerFunc`: it reads what the object refers to, which was there before anything else
that is put into memory, and changes nothing. -/
structure IndexerFunc (Rest : Type) [InMemory Rest] where
  extract : Heap String → CachedObject Rest → Extracted
  valid : ∀ {h obj s}, InMemory.Lies h obj.rest → extract h obj = .shared s → s.Valid h
  unaffected : ∀ {h h' obj}, InMemory.Lies h obj.rest → Heap.Rel (· = ·) h h' →
    extract h' obj = extract h obj

/-- The values of the field, as they are in memory. -/
def IndexerFunc.vals [InMemory Rest] (extractor : IndexerFunc Rest) (h : Heap String)
    (obj : CachedObject Rest) : List String :=
  (extractor.extract h obj).vals h

/-- `cache.IndexFunc`: the memory afterwards and the keys, or `none` for a panic. -/
abbrev IndexFunc (Rest : Type) := Heap String → CachedObject Rest → Option (Heap String × Slice)

/-- The index functions of an informer, by their names. -/
abbrev Indexers (Rest : Type) := List (String × IndexFunc Rest)

/-- `AddIndexers` of one index function. -/
def Indexers.add [ErrorValues Err] (indexers : Indexers Rest) (name : String)
    (indexFunc : IndexFunc Rest) : Except Err (Indexers Rest) :=
  if name ∈ indexers.map Prod.fst then .error (errorf ("indexer conflict: " ++ name))
  else .ok (indexers ++ [(name, indexFunc)])

/-- An object that is stored, with the keys that have been recorded for each index function. -/
structure Entry (Rest : Type) where
  object : CachedObject Rest
  recorded : List (String × List String)
  deriving DecidableEq, Repr

def Entry.keys (entry : Entry Rest) (name : String) : List String :=
  (entry.recorded.lookup name).getD []

section Loop

variable {R : String → String → Prop} {h base : Heap String} {s rawVals vals : Slice} {i : ℕ}

end Loop

/-! ## The index function -/

/-- The keys of some values of an object in a namespace. -/
def namespacedKeys (ns : String) (rawVals : List String) : List String :=
  rawVals.map (keyToNamespacedKey ns) ++
    if ns = "" then [] else rawVals.map (keyToNamespacedKey "")

/-- What indexing may do to a string in memory: it may get longer, but not where the extractors own
the slices they return. -/
structure Touched (own : Prop) (old new : String) : Prop where
  length_le : old.length ≤ new.length
  eq_of_own : own → old = new

theorem Touched.trans (own : Prop) (a b c : String) (hab : Touched own a b)
    (hbc : Touched own b c) : Touched own a c :=
  ⟨Nat.le_trans hab.length_le hbc.length_le, fun h ↦ (hab.eq_of_own h).trans (hbc.eq_of_own h)⟩

section IndexFunc

variable [InMemory Rest] {extractor : IndexerFunc Rest} {obj : CachedObject Rest}
  {h : Heap String}

end IndexFunc

/-! ## The run -/

section Run

variable {own : Prop} {h h' base after : Heap String} {obj : CachedObject Rest}
  {ranged indexers : Indexers Rest}

/-- The keys were recorded by a call in the course of a run from `h` to `after`. -/
def Recorded (own : Prop) (h after : Heap String) (obj : CachedObject Rest)
    (indexFunc : IndexFunc Rest) (keys : List String) : Prop :=
  ∃ g g' vals, Heap.Rel (Touched own) h g ∧ indexFunc g obj = some (g', vals) ∧
    Heap.Rel (Touched own) g' after ∧ g'.contents vals = keys

end Run

/-! ## The registered index functions -/

section Fields

variable [InMemory Rest] [ErrorValues Err] {fields : List (String × IndexerFunc Rest)}
  {before after : Indexers Rest}

end Fields

end OperatorToolkit.Informer
