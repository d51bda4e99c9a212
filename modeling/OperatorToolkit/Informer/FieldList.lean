import Mathlib.Data.Finset.Max
import OperatorToolkit.Informer.FieldIndex

/-!
# Listing by a field

`List` with an exact field selector asks the index of the field for the value in the requested
namespace, and so finds the objects from which the value was extracted when they were stored. As
long as no namespace contains the separator or is the name that stands for all of them, the keys
can be told apart, and this is what a scan of the cache finds, unless the cache has been written
over: the values of an object without a namespace are replaced by their keys if the extractor
returns a slice of the object itself.
-/

namespace OperatorToolkit.Informer

open Grouping Memory Object

variable {Rest Err : Type}

/-! ## The keys -/

/-- The indexer answers with each stored object whose recorded keys include the one asked for,
once. -/
def Indexer.Answers (indexer : Indexer Rest Err) (names : List String)
    (entries : List (Entry Rest)) : Prop :=
  ∀ name ∈ names, ∀ value, ∃ items, indexer.byIndex name value = .ok items ∧
    items.Perm (((entries.filter (value ∈ ·.keys name)).map Entry.object).map .object)

section Scan

variable [InMemory Rest]

end Scan

section List

variable [ApiErrors Err] {c : CacheReader Rest Err} {entries : List (Entry Rest)}

end List

/-! ## Stored objects -/

section Stored

variable [InMemory Rest] [ApiErrors Err] {fields : List (String × IndexerFunc Rest)}
  {h after : Heap String} {objs : List (CachedObject Rest)} {own : Prop}

/-- What is known of the keys that have been recorded for a field: they are those of the values in
some memory `g` on the way. -/
structure Kept (own : Prop) (h after : Heap String) (extractor : IndexerFunc Rest)
    (obj : CachedObject Rest) (keys : List String) (g : Heap String) : Prop where
  grows : Heap.Grows h g
  keys_eq : keys = namespacedKeys obj.key.ns (extractor.vals g obj)
  rel : Heap.Rel (Touched own) g after
  overwritten : obj.key.ns = "" → ∀ s, extractor.extract g obj = .shared s →
    ∃ g' : Heap String, g'.contents s = (g.contents s).map (keyToNamespacedKey "") ∧
      Heap.Rel (Touched own) g' after

variable {c : CacheReader Rest Err} {names : List String} {entries : List (Entry Rest)}
  {field : String} {extractor : IndexerFunc Rest}

end Stored

/-- Only the finalizers are left of an object here. -/
instance : InMemory Slice where
  Lies h s := s.Valid h
  lies_of_grows hgrows hs := hgrows.valid hs

end OperatorToolkit.Informer
