import OperatorToolkit.Declarative.NewBuilder
import OperatorToolkit.Declarative.SharedLabels

/-!
# Builders that share mutation functions

The mutation functions that builders are given may be the same, or may have been made of the same
maps, and `Mutate` writes into those maps. Here they are a part of the state, beside the file
systems. The mutation of a kustomization is one step: if two builders write to one map at the same
time, the Go program has a data race. As long as the maps are used in the same way by all builders,
the calls are answered as if the functions had no state, and the builders do not disturb each other.
-/

namespace OperatorToolkit.Declarative

open Interaction Files

variable {F Rest Content Err : Type}

/-! ## The functions -/

/-- The mutation functions of the package. The maps that they were given have names, different ones
for labels and annotations. -/
inductive MutateOp (F : Type) where
  | addCommonLabels (labels : F)
  | addCommonAnnotations (annotations : F)
  | addNamespace (ns : String)
  | addResources (resources : List String)
  | addImages (images : List Image)
  | addNamePrefix (namePrefix : String)
  | addNameSuffix (nameSuffix : String)

/-- The maps of labels and of annotations, by their names. -/
structure FieldMaps (F : Type) where
  labels : F → StringMap
  annotations : F → StringMap

/-- Which maps follow a map, in every list of functions in which it is used. -/
structure FieldOrder (F : Type) where
  labels : F → List F
  annotations : F → List F

namespace MutateOp

def labels? : MutateOp F → Option F
  | .addCommonLabels labels => some labels
  | _ => none

def annotations? : MutateOp F → Option F
  | .addCommonAnnotations annotations => some annotations
  | _ => none

/-- The function on values, with the maps as they are. -/
def func (maps : FieldMaps F) : MutateOp F → MutateFunc Rest
  | .addCommonLabels labels => Declarative.addCommonLabels (maps.labels labels)
  | .addCommonAnnotations annotations =>
    Declarative.addCommonAnnotations (maps.annotations annotations)
  | .addNamespace ns => Declarative.addNamespace ns
  | .addResources resources => Declarative.addResources resources
  | .addImages images => Declarative.addImages images
  | .addNamePrefix namePrefix => Declarative.addNamePrefix namePrefix
  | .addNameSuffix nameSuffix => Declarative.addNameSuffix nameSuffix

end MutateOp

/-- A kustomization whose maps may belong to functions. The two maps of `other` do not count. -/
structure SharedKustomization (F Rest : Type) where
  labels : SharedMaps F
  annotations : SharedMaps F
  other : Kustomization Rest

namespace SharedKustomization

/-- The kustomization has just been read. -/
def ofRead (maps : FieldMaps F) (k : Kustomization Rest) : SharedKustomization F Rest where
  labels := ⟨maps.labels, readLabels k.commonLabels⟩
  annotations := ⟨maps.annotations, readLabels k.commonAnnotations⟩
  other := k

def value (s : SharedKustomization F Rest) : Kustomization Rest :=
  { s.other with commonLabels := s.labels.value, commonAnnotations := s.annotations.value }

def maps (s : SharedKustomization F Rest) : FieldMaps F := ⟨s.labels.maps, s.annotations.maps⟩

variable [DecidableEq F]

def apply (s : SharedKustomization F Rest) : MutateOp F → SharedKustomization F Rest
  | .addCommonLabels labels => { s with labels := s.labels.addEntries labels }
  | .addCommonAnnotations annotations =>
    { s with annotations := s.annotations.addEntries annotations }
  | .addNamespace ns => { s with other := addNamespace ns s.other }
  | .addResources resources => { s with other := addResources resources s.other }
  | .addImages images => { s with other := addImages images s.other }
  | .addNamePrefix namePrefix => { s with other := addNamePrefix namePrefix s.other }
  | .addNameSuffix nameSuffix => { s with other := addNameSuffix nameSuffix s.other }

/-- `Mutate`. -/
def mutate (s : SharedKustomization F Rest) (ops : List (MutateOp F)) :
    SharedKustomization F Rest :=
  ops.foldl apply s

end SharedKustomization

/-- `MutateAndKustomize` with functions that share maps: what it does on values, and the maps
afterwards. -/
def mutateAndKustomizeShared [DecidableEq F] (lib : KustomizeLib Rest Content Err)
    (fs : FileSystem Content) (maps : FieldMaps F) (ops : List (MutateOp F)) (path : String) :
    (FileSystem Content × Except (BuildError Err) Content) × FieldMaps F :=
  match loadKustomizationFromPackage lib fs path with
  | .error err => ((fs, .error (.wrap "failed to load kustomization" err)), maps)
  | .ok k =>
    let s := (SharedKustomization.ofRead maps k).mutate ops
    match writeKustomizationInPackage lib fs s.value path with
    | .error err => ((fs, .error (.wrap "failed to write kustomization" err)), s.maps)
    | .ok fs' => ((fs', kustomize lib fs' path), s.maps)

/-! ## The mutated kustomization -/

section Mutated

variable [DecidableEq F]

/-- The kustomization without its maps. -/
def Kustomization.bare (k : Kustomization Rest) : Kustomization Rest :=
  { k with commonLabels := none, commonAnnotations := none }

/-- The kustomizations differ at most in the order of the entries of their maps. -/
structure Alike (k k' : Kustomization Rest) : Prop where
  labels : SameEntries k.commonLabels k'.commonLabels
  annotations : SameEntries k.commonAnnotations k'.commonAnnotations
  bare : k.bare = k'.bare

/-- The YAML library writes the entries of a map in an order of its own. -/
def MarshalsAlike (lib : KustomizeLib Rest Content Err) : Prop :=
  ∀ k k' : Kustomization Rest, Alike k k' → lib.marshal k = lib.marshal k'

omit [DecidableEq F] in
theorem mutate_maps (maps : FieldMaps F) (k : Kustomization Rest) (ops : List (MutateOp F)) :
    (mutate k (ops.map (MutateOp.func maps))).commonLabels =
        mutateValue maps.labels (k.commonLabels, ops.filterMap MutateOp.labels?) ∧
      (mutate k (ops.map (MutateOp.func maps))).commonAnnotations =
        mutateValue maps.annotations
          (k.commonAnnotations, ops.filterMap MutateOp.annotations?) := by
  induction ops generalizing k with
  | nil => exact ⟨rfl, rfl⟩
  | cons op ops ih =>
    obtain ⟨hlabels, hannotations⟩ := ih (op.func maps k)
    cases op <;> exact ⟨hlabels, hannotations⟩

theorem mutate_shared (s : SharedKustomization F Rest) (ops : List (MutateOp F)) :
    (s.mutate ops).labels = s.labels.mutate (ops.filterMap MutateOp.labels?) ∧
      (s.mutate ops).annotations = s.annotations.mutate (ops.filterMap MutateOp.annotations?) := by
  induction ops generalizing s with
  | nil => exact ⟨rfl, rfl⟩
  | cons op ops ih =>
    obtain ⟨hlabels, hannotations⟩ := ih (s.apply op)
    cases op <;> exact ⟨hlabels, hannotations⟩

omit [DecidableEq F] in
/-- What a function does to the rest does not depend on the maps. -/
theorem bare_func (maps : FieldMaps F) (op : MutateOp F) (k : Kustomization Rest) :
    (op.func maps k).bare = (op.func maps k.bare).bare := by
  cases op <;> rfl

theorem bare_apply (maps : FieldMaps F) (s : SharedKustomization F Rest) (op : MutateOp F) :
    (s.apply op).other.bare = (op.func maps s.other).bare := by
  cases op <;> rfl

theorem mutate_bare (maps : FieldMaps F) {s : SharedKustomization F Rest} {k : Kustomization Rest}
    (h : s.other.bare = k.bare) (ops : List (MutateOp F)) :
    (s.mutate ops).value.bare = (mutate k (ops.map (MutateOp.func maps))).bare := by
  induction ops generalizing s k with
  | nil => exact h
  | cons op ops ih =>
    have hop : (s.apply op).other.bare = (op.func maps k).bare := by
      rw [bare_apply maps, bare_func, h, ← bare_func]
    exact ih hop

/-- In this list of functions, the maps of each kind are used as `after` says. -/
structure OpsFollow (after : FieldOrder F) (ops : List (MutateOp F)) : Prop where
  labels : Follows after.labels (ops.filterMap MutateOp.labels?)
  annotations : Follows after.annotations (ops.filterMap MutateOp.annotations?)

structure KeptMaps (after : FieldOrder F) (start maps : FieldMaps F) : Prop where
  labels : Kept after.labels start.labels maps.labels
  annotations : Kept after.annotations start.annotations maps.annotations

variable {lib : KustomizeLib Rest Content Err} {after : FieldOrder F} {start maps : FieldMaps F}
  {ops : List (MutateOp F)}

/-- The kustomization is mutated as on values, and the maps remain as they should be. -/
theorem KeptMaps.mutate (h : KeptMaps after start maps) (hops : OpsFollow after ops)
    (k : Kustomization Rest) :
    Alike ((SharedKustomization.ofRead maps k).mutate ops).value
        (mutate k (ops.map (MutateOp.func start))) ∧
      KeptMaps after start ((SharedKustomization.ofRead maps k).mutate ops).maps := by
  obtain ⟨hlabels, hannotations⟩ := mutate_shared (.ofRead maps k) ops
  obtain ⟨hlabels', hannotations'⟩ := mutate_maps start k ops
  obtain ⟨hsame, hkept⟩ := h.labels.mutate k.commonLabels hops.labels
  obtain ⟨hsame', hkept'⟩ := h.annotations.mutate k.commonAnnotations hops.annotations
  refine ⟨⟨?_, ?_, mutate_bare start rfl ops⟩, ⟨?_, ?_⟩⟩
  · rw [hlabels']
    change SameEntries (SharedMaps.value _) _
    rw [hlabels]
    exact hsame
  · rw [hannotations']
    change SameEntries (SharedMaps.value _) _
    rw [hannotations]
    exact hsame'
  · change Kept _ _ (SharedMaps.maps _)
    rw [hlabels]
    exact hkept
  · change Kept _ _ (SharedMaps.maps _)
    rw [hannotations]
    exact hkept'

/-- The call is answered as with functions on values. -/
theorem KeptMaps.mutateAndKustomizeShared (h : KeptMaps after start maps)
    (hops : OpsFollow after ops) (hmarshal : MarshalsAlike lib) (fs : FileSystem Content)
    (path : String) :
    (mutateAndKustomizeShared lib fs maps ops path).1 =
        mutateAndKustomize lib fs (ops.map (MutateOp.func start)) path ∧
      KeptMaps after start (mutateAndKustomizeShared lib fs maps ops path).2 := by
  unfold Declarative.mutateAndKustomizeShared mutateAndKustomize mutateInPackage
  cases loadKustomizationFromPackage lib fs path with
  | error err => exact ⟨rfl, h⟩
  | ok k =>
    obtain ⟨halike, hkept⟩ := h.mutate hops k
    have hwrite : writeKustomizationInPackage lib fs
        ((SharedKustomization.ofRead maps k).mutate ops).value path =
          writeKustomizationInPackage lib fs (Declarative.mutate k (ops.map (MutateOp.func start)))
            path := by
      rw [writeKustomizationInPackage, writeKustomizationInPackage, hmarshal _ _ halike]
    simp only [hwrite]
    cases writeKustomizationInPackage lib fs (Declarative.mutate k (ops.map (MutateOp.func start)))
      path with
    | error err => exact ⟨rfl, hkept⟩
    | ok fs' => exact ⟨rfl, hkept⟩

end Mutated

/-! ## The state with the maps -/

section Shared

variable {ι TransformFunc Obj Kubectl : Type} [DecidableEq ι] [DecidableEq F]

variable {kustomizeLib : KustomizeLib Rest Content Err}
  {run : TransformFunc → Obj → Except Err Obj} {after : FieldOrder F} {start maps : FieldMaps F}
  {heap heap' : Heap ι Content} {s s' : Heap ι Content × FieldMaps F}
  {request : BuildRequest ι TransformFunc Obj (MutateOp F) Content}
  {reply : (buildCalls ι TransformFunc Obj (MutateOp F) Content Err).Reply request}

omit [DecidableEq ι] in
/-- The mutation functions that a builder is given. -/
def Build.mutateFuncs (lib : BuildLib TransformFunc Obj Content Err Kubectl)
    (b : Build ι TransformFunc (MutateOp F) Kubectl) : List (MutateOp F) :=
  (withOptions lib b.packageName b.opts : Builder TransformFunc _ Content Kubectl).kMutateFuncs

end Shared

/-! ## Two databases -/

/-- The file of a kustomization has its namespace and the label of its tier. -/
def tierLib : KustomizeLib Unit String String :=
  { namespaceLib with
    marshal := fun k ↦ .ok (k.ns ++ " " ++ (k.commonLabels.bind (·.lookup "tier")).getD "") }

def tierBuild : BuildLib String String String String Unit where
  yaml := textYaml
  newKubectl := ()
  iterate := AList.entries

def respondShared (s : Heap ℕ String × FieldMaps Bool) :
    (request : BuildRequest ℕ String String (MutateOp Bool) String) →
    (buildCalls ℕ String String (MutateOp Bool) String String).Reply request ×
      (Heap ℕ String × FieldMaps Bool)
  | .mutateAndKustomize h ops path =>
    let ((fs, result), maps) := mutateAndKustomizeShared tierLib (s.1 h) s.2 ops path
    (result, (Function.update s.1 h fs, maps))
  | request =>
    let (reply, heap) := respondBuild tierLib (MutateOp.func s.2) s.1 request
    (reply, (heap, s.2))

/-- What a builder returns on its own, and the state that it leaves. -/
def built (b : Build ℕ String (MutateOp Bool) Unit) (s : Heap ℕ String × FieldMaps Bool) :
    Except (BuildError String) (Builder String (MutateOp Bool) String Unit) ×
      (Heap ℕ String × FieldMaps Bool) :=
  ((b.program tierBuild).interpret respondShared s).2

end OperatorToolkit.Declarative
