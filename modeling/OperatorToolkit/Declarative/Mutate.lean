import OperatorToolkit.Grouping.Summaries
import Mathlib.Data.List.AList

/-!
# Mutations of a kustomization

The mutations that the builder offers, and how `Mutate` applies a list of them. In a kustomization
the first entry of an image takes precedence; `AddImages` replaces the entries of the images it
adds, and of several new entries of one image it keeps the last. The Go code changes the
kustomization in place; here it is returned. Maps are values here, so that a mutation does not show
in the map that it was given; `SharedMaps` tells what comes of that.
-/

namespace OperatorToolkit.Declarative

open Grouping

structure Image where
  name : String
  newName : String := ""
  newTag : String := ""
  digest : String := ""
  deriving DecidableEq, Repr

/-- `map[string]string`. -/
abbrev StringMap := AList fun _ : String ↦ String

/-- The fields that the mutations change, and the rest of them. -/
structure Kustomization (Rest : Type) where
  commonLabels : Option StringMap
  commonAnnotations : Option StringMap
  ns : String
  resources : List String
  images : List Image
  namePrefix : String
  nameSuffix : String
  rest : Rest

variable {Rest : Type}

def MutateFunc (Rest : Type) := Kustomization Rest → Kustomization Rest

def mutate (k : Kustomization Rest) (funcs : List (MutateFunc Rest)) : Kustomization Rest :=
  funcs.foldl (fun k f ↦ f k) k

/-- Nil maps are replaced, others are added to. -/
def addEntries (entries : StringMap) : Option StringMap → Option StringMap
  | none => some entries
  | some old => some (entries.foldl (fun new key val ↦ new.insert key val) old)

def addCommonLabels (labels : StringMap) : MutateFunc Rest := fun k ↦
  { k with commonLabels := addEntries labels k.commonLabels }

def addCommonAnnotations (annotations : StringMap) : MutateFunc Rest := fun k ↦
  { k with commonAnnotations := addEntries annotations k.commonAnnotations }

def addNamespace (ns : String) : MutateFunc Rest := fun k ↦ { k with ns := ns }

def addResources (resources : List String) : MutateFunc Rest := fun k ↦
  { k with resources := k.resources ++ resources }

/-- The last entry of each image, in the order in which the images occur first. -/
def uniqueImages (images : List Image) : List Image :=
  (OrderedMap.collect Image.name (fun image _ ↦ image) images).values

def addImages (images : List Image) : MutateFunc Rest := fun k ↦
  let unique := uniqueImages images
  let kept := k.images.filter fun eImage ↦ !unique.any (eImage.name == ·.name)
  { k with images := kept ++ unique }

def addNamePrefix (namePrefix : String) : MutateFunc Rest := fun k ↦
  { k with namePrefix := namePrefix }

def addNameSuffix (nameSuffix : String) : MutateFunc Rest := fun k ↦
  { k with nameSuffix := nameSuffix }

/-! ## Images -/

theorem uniqueImages_eq (images : List Image) :
    uniqueImages images = summaries Image.name List.getLast? images := by
  rw [uniqueImages, values_collect]
  congr 1
  funext group
  induction group using List.reverseRecOn with
  | nil => rfl
  | append_singleton group image _ => simp

theorem names_uniqueImages (images : List Image) :
    (uniqueImages images).map (·.name) = (images.map (·.name)).eraseDups := by
  rw [uniqueImages_eq]
  exact map_key_summaries (represents_getLast? _) images

/-- The entries of one image among the unique ones. -/
theorem filter_uniqueImages (images : List Image) (name : String) :
    (uniqueImages images).filter (·.name = name) =
      (images.filter (·.name = name)).getLast?.toList := by
  rw [uniqueImages_eq]
  exact filter_summaries (represents_getLast? _) images name

theorem any_uniqueImages (images : List Image) (name : String) :
    (uniqueImages images).any (name == ·.name) = decide (name ∈ images.map (·.name)) := by
  have hmem : name ∈ (uniqueImages images).map (·.name) ↔ name ∈ images.map (·.name) := by
    rw [names_uniqueImages, List.mem_eraseDups]
  rw [Bool.eq_iff_iff, decide_eq_true_eq, ← hmem]
  simp only [List.any_eq_true, beq_iff_eq, List.mem_map, @eq_comm _ name]

/-- The other images stay as they are, before the new ones. -/
theorem addImages_eq (images : List Image) (k : Kustomization Rest) :
    addImages images k = { k with
      images := k.images.filter (·.name ∉ images.map (·.name)) ++ uniqueImages images } := by
  simp only [addImages, any_uniqueImages, decide_not]

/-- The entries of one image after the mutation. -/
theorem filter_addImages (images : List Image) (k : Kustomization Rest) (name : String) :
    (addImages images k).images.filter (·.name = name) =
      if name ∈ images.map (·.name) then (images.filter (·.name = name)).getLast?.toList
      else k.images.filter (·.name = name) := by
  rw [addImages_eq, List.filter_append, filter_uniqueImages, List.filter_filter]
  split
  next hname =>
    have hreplaced : (k.images.filter fun image ↦
        decide (image.name = name) && decide (image.name ∉ images.map (·.name))) = [] := by
      apply List.filter_eq_nil_iff.mpr
      intro image _ hkept
      simp only [Bool.and_eq_true, decide_eq_true_eq] at hkept
      exact hkept.2 (hkept.1 ▸ hname)
    rw [hreplaced, List.nil_append]
  next hname =>
    rw [filter_key_eq_nil_iff.mpr hname, List.getLast?_nil, Option.toList_none, List.append_nil]
    apply List.filter_congr
    intro image _
    by_cases heq : image.name = name
    · simp [heq, hname]
    · simp [heq]

theorem addImages_idem (images : List Image) (k : Kustomization Rest) :
    addImages images (addImages images k) = addImages images k := by
  rw [addImages_eq images (addImages images k), addImages_eq]
  have hremoved : (uniqueImages images).filter (·.name ∉ images.map (·.name)) = [] := by
    apply List.filter_eq_nil_iff.mpr
    intro image himage hother
    apply of_decide_eq_true hother
    rw [← List.mem_eraseDups, ← names_uniqueImages]
    exact List.mem_map_of_mem himage
  rw [List.filter_append, hremoved, List.filter_filter, List.append_nil]
  simp only [Bool.and_self]

/-- Of several additions the last one of an image counts. -/
theorem filter_addImages_append (xs ys : List Image) (k : Kustomization Rest) (name : String) :
    (addImages ys (addImages xs k)).images.filter (·.name = name) =
      (addImages (xs ++ ys) k).images.filter (·.name = name) := by
  rw [filter_addImages, filter_addImages, filter_addImages, List.filter_append]
  by_cases hys : name ∈ ys.map (·.name)
  · have hne : ys.filter (·.name = name) ≠ [] := fun hnil ↦ filter_key_eq_nil_iff.mp hnil hys
    rw [if_pos hys, if_pos (by simp only [List.map_append, List.mem_append, hys, or_true]),
      List.getLast?_append_of_ne_nil _ hne]
  · rw [if_neg hys, filter_key_eq_nil_iff.mpr hys, List.append_nil]
    simp only [List.map_append, List.mem_append, hys, or_false]

/-- **Adding images.** Each added image has one entry, the last one given for it; the entries of the
other images stand before them, as they were. Adding again changes nothing, and of two additions the
effective entries are those of adding both lists at once. -/
theorem addImages_spec (k : Kustomization Rest) (images : List Image) :
    (∀ name ∈ images.map (·.name), ∃ image,
      (images.filter (·.name = name)).getLast? = some image ∧
        (addImages images k).images.filter (·.name = name) = [image]) ∧
    (∃ added, addImages images k = { k with
        images := k.images.filter (·.name ∉ images.map (·.name)) ++ added } ∧
      ∀ image ∈ added, image.name ∈ images.map (·.name)) ∧
    mutate k [addImages images, addImages images] = mutate k [addImages images] ∧
    ∀ more name,
      (mutate k [addImages images, addImages more]).images.find? (·.name = name) =
        (mutate k [addImages (images ++ more)]).images.find? (·.name = name) := by
  refine ⟨?_, ?_, ?_, ?_⟩
  · intro name hname
    have hne : images.filter (·.name = name) ≠ [] := fun hnil ↦
      filter_key_eq_nil_iff.mp hnil hname
    refine ⟨_, List.getLast?_eq_some_getLast hne, ?_⟩
    rw [filter_addImages, if_pos hname, List.getLast?_eq_some_getLast hne, Option.toList_some]
  · refine ⟨uniqueImages images, addImages_eq images k, ?_⟩
    intro image himage
    rw [← List.mem_eraseDups, ← names_uniqueImages]
    exact List.mem_map_of_mem himage
  · exact addImages_idem images k
  · intro more name
    rw [← List.head?_filter, ← List.head?_filter]
    exact congrArg List.head? (filter_addImages_append images more k name)

end OperatorToolkit.Declarative
