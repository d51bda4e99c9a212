import OperatorToolkit.Declarative.Builder
import OperatorToolkit.Files.Copying
import OperatorToolkit.Interaction.Confined

/-!
# Builders that share a file system

`NewBuilder` copies the file system that it is given and works on the copy: it transforms manifests,
mutates the kustomization and runs kustomize there. The operands of an operator are given one file
system, and they run at the same time. Here the file systems are a heap, so that a builder could
write to any of them. It turns out that builders do not disturb each other, and that each of them
works on the files as they were given.
-/

namespace OperatorToolkit.Declarative

open Interaction Files

/-- The file system that all builders are given, or the copy that one of them has made. -/
inductive Handle (ι : Type) where
  | given
  | copy (i : ι)
  deriving DecidableEq

inductive BuildRequest (ι TransformFunc Obj M Content : Type) where
  | makeFsInMemory (h : Handle ι)
  | fs (h : Handle ι) (request : FsRequest TransformFunc Obj Content)
  | mkdirAll (h : Handle ι) (path : String)
  | mutateAndKustomize (h : Handle ι) (mutateFuncs : List M) (path : String)

def buildCalls (ι TransformFunc Obj M Content Err : Type) : Signature where
  Request := BuildRequest ι TransformFunc Obj M Content
  Reply
    | .makeFsInMemory _ => Unit
    | .fs _ request => (fsCalls TransformFunc Obj Content Err).Reply request
    | .mkdirAll _ _ => Option Err
    | .mutateAndKustomize _ _ _ => Except (BuildError Err) Content

variable {ι TransformFunc Obj M Rest Content Err Kubectl : Type}

/-- The program with all its calls going to one of the file systems. -/
def onFs {α : Type} (h : Handle ι) (program : Program (fsCalls TransformFunc Obj Content Err) α) :
    Program (buildCalls ι TransformFunc Obj M Content Err) α :=
  program.along (.fs h) fun _ reply ↦ reply

namespace BuildCall

variable (TransformFunc Obj M Content Err)

def makeFsInMemory (h : Handle ι) : Program (buildCalls ι TransformFunc Obj M Content Err) Unit :=
  .request (S := buildCalls ι TransformFunc Obj M Content Err) (.makeFsInMemory h)

def mkdirAll (h : Handle ι) (path : String) :
    Program (buildCalls ι TransformFunc Obj M Content Err) (Option Err) :=
  .request (S := buildCalls ι TransformFunc Obj M Content Err) (.mkdirAll h path)

variable {M} in
def mutateAndKustomize (h : Handle ι) (mutateFuncs : List M) (path : String) :
    Program (buildCalls ι TransformFunc Obj M Content Err) (Except (BuildError Err) Content) :=
  .request (S := buildCalls ι TransformFunc Obj M Content Err)
    (.mutateAndKustomize h mutateFuncs path)

end BuildCall

/-! ## DeepCopy -/

/-- The callback of the walk, called for one file or directory after the other. -/
def copyVisits (fs1 fs2 : Handle ι) :
    List (Visit Err) → Program (buildCalls ι TransformFunc Obj M Content Err) (Option Err)
  | [] => return none
  | visit :: visits =>
    match visit.err with
    | some err => return some err
    | none =>
      if visit.isDir then do
        match ← BuildCall.mkdirAll TransformFunc Obj M Content Err fs2 visit.path with
        | some err => return some err
        | none => copyVisits fs1 fs2 visits
      else do
        match ← onFs fs1 (FsCall.readFile TransformFunc Obj Content Err visit.path) with
        | .error err => return some err
        | .ok content =>
          match ← onFs fs2 (FsCall.writeFile TransformFunc Obj Err visit.path content) with
          | some err => return some err
          | none => copyVisits fs1 fs2 visits

def deepCopy (fs1 fs2 : Handle ι) :
    Program (buildCalls ι TransformFunc Obj M Content Err) (Option Err) := do
  match ← onFs fs1 (FsCall.walk TransformFunc Obj Content Err "/") with
  | .error err => return some err
  | .ok visits => copyVisits fs1 fs2 visits

/-! ## NewBuilder -/

/-- The fields that the options set, and the manifest once it is built. -/
structure Builder (TransformFunc M Content Kubectl : Type) where
  packageName : String
  kubectl : Kubectl
  manifestTransform : ManifestTransform TransformFunc := ∅
  commonTransforms : List TransformFunc := []
  kMutateFuncs : List M := []
  manifest : Option Content := none

inductive BuilderOption (TransformFunc M Kubectl : Type) where
  | withKubectlClient (kubectl : Kubectl)
  | withManifestTransform (manifestTransform : ManifestTransform TransformFunc)
  | withCommonTransforms (commonTransforms : List TransformFunc)
  | withKustomizeMutationFunc (kMutateFuncs : List M)

def BuilderOption.apply (b : Builder TransformFunc M Content Kubectl) :
    BuilderOption TransformFunc M Kubectl → Builder TransformFunc M Content Kubectl
  | .withKubectlClient kubectl => { b with kubectl := kubectl }
  | .withManifestTransform manifestTransform => { b with manifestTransform := manifestTransform }
  | .withCommonTransforms commonTransforms => { b with commonTransforms := commonTransforms }
  | .withKustomizeMutationFunc kMutateFuncs => { b with kMutateFuncs := kMutateFuncs }

/-- What `NewBuilder` uses of libraries: YAML, the default kubectl client, and how Go goes through
a map. -/
structure BuildLib (TransformFunc Obj Content Err Kubectl : Type) where
  yaml : YamlLib Obj Content Err
  newKubectl : Kubectl
  iterate : ManifestTransform TransformFunc → List (Sigma fun _ : String ↦ List TransformFunc)

variable (lib : BuildLib TransformFunc Obj Content Err Kubectl)

/-- The part of `NewBuilder` that applies the manifest transforms. -/
def applyManifestTransforms (b : Builder TransformFunc M Content Kubectl) :
    Program (fsCalls TransformFunc Obj Content Err) (Option (BuildError Err)) :=
  if b.manifestTransform.entries.length > 0 then do
    match ← transform lib.yaml [] (lib.iterate b.manifestTransform) with
    | some err =>
      return some (.wrap ("failed to transform package " ++ lib.yaml.quote b.packageName) err)
    | none => return none
  else return none

/-- The part of `NewBuilder` after the options were applied. -/
def build (fs : Handle ι) (b : Builder TransformFunc M Content Kubectl) :
    Program (buildCalls ι TransformFunc Obj M Content Err)
      (Except (BuildError Err) (Builder TransformFunc M Content Kubectl)) := do
  match ← onFs fs (applyManifestTransforms lib b) with
  | some err => return .error err
  | none =>
    match ← onFs fs (applyCommonTransforms lib.yaml lib.iterate b.packageName
        b.commonTransforms) with
    | some err => return .error err
    | none =>
      match ← BuildCall.mutateAndKustomize TransformFunc Obj Content Err fs b.kMutateFuncs
          b.packageName with
      | .error err =>
        return .error (.wrap ("failed to mutate and kustomization package " ++
          lib.yaml.quote b.packageName) err)
      | .ok m => return .ok { b with manifest := some m }

/-- The builder after all options were applied. -/
def withOptions (packageName : String) (opts : List (BuilderOption TransformFunc M Kubectl)) :
    Builder TransformFunc M Content Kubectl :=
  opts.foldl BuilderOption.apply { packageName := packageName, kubectl := lib.newKubectl }

/-- `NewBuilder`, with a name for the copy that it makes. -/
def newBuilder (i : ι) (packageName : String)
    (opts : List (BuilderOption TransformFunc M Kubectl)) :
    Program (buildCalls ι TransformFunc Obj M Content Err)
      (Except (BuildError Err) (Builder TransformFunc M Content Kubectl)) := do
  BuildCall.makeFsInMemory TransformFunc Obj M Content Err (.copy i)
  match ← deepCopy .given (.copy i) with
  | some err => return .error (.wrap "failed to create a copy of the filesystem" (.plain err))
  | none => build lib (.copy i) (withOptions lib packageName opts)

/-! ## The heap -/

abbrev Heap (ι Content : Type) := Handle ι → FileSystem Content

/-- How the calls are answered. Each of them concerns one file system. -/
inductive BuildAnswers [DecidableEq ι] (kustomizeLib : KustomizeLib Rest Content Err)
    (meaning : M → MutateFunc Rest) (run : TransformFunc → Obj → Except Err Obj) :
    Heap ι Content → (request : BuildRequest ι TransformFunc Obj M Content) →
    (buildCalls ι TransformFunc Obj M Content Err).Reply request → Heap ι Content → Prop where
  | makeFsInMemory {heap h} : BuildAnswers kustomizeLib meaning run heap (.makeFsInMemory h) ()
      (Function.update heap h .empty)
  | fs {heap h request reply fs'} : (∀ t obj, request ≠ .transform t obj) →
      Answers (heap h) request reply fs' →
      BuildAnswers kustomizeLib meaning run heap (.fs h request) reply (Function.update heap h fs')
  | transform {heap h t obj} :
      BuildAnswers kustomizeLib meaning run heap (.fs h (.transform t obj)) (run t obj) heap
  | mkdirAll {heap h path fs'} : (heap h).mkdirAll path = .ok fs' →
      BuildAnswers kustomizeLib meaning run heap (.mkdirAll h path) (none : Option Err)
        (Function.update heap h fs')
  | mkdirFails {heap h path reason} {err : Err} : (heap h).mkdirAll path = .error reason →
      BuildAnswers kustomizeLib meaning run heap (.mkdirAll h path) (some err) heap
  | mutateAndKustomize {heap h funcs path} :
      BuildAnswers kustomizeLib meaning run heap (.mutateAndKustomize h funcs path)
        (mutateAndKustomize kustomizeLib (heap h) (funcs.map meaning) path).2
        (Function.update heap h
          (mutateAndKustomize kustomizeLib (heap h) (funcs.map meaning) path).1)

section Heap

variable [DecidableEq ι] (kustomizeLib : KustomizeLib Rest Content Err)
  (meaning : M → MutateFunc Rest) (run : TransformFunc → Obj → Except Err Obj)

def buildService :
    Service (buildCalls ι TransformFunc Obj M Content Err) (Heap ι Content) where
  Handles := BuildAnswers kustomizeLib meaning run
  Breaks _ _ _ := False
  Rely _ _ := False

/-- The given file system, and no copies yet. -/
def heapOf (fs : FileSystem Content) : Heap ι Content
  | .given => fs
  | .copy _ => .empty

end Heap

/-! ## The calls of one builder -/

section Isolation

variable [DecidableEq ι] {kustomizeLib : KustomizeLib Rest Content Err}
  {meaning : M → MutateFunc Rest} {run : TransformFunc → Obj → Except Err Obj}
  {heap heap' : Heap ι Content}

/-- The file systems that a builder works with. -/
def Concerns (i : ι) (h : Handle ι) : Prop := h = .given ∨ h = .copy i

instance (i : ι) (h : Handle ι) : Decidable (Concerns i h) := inferInstanceAs (Decidable (_ ∨ _))

/-- The heap without the copies of other builders. -/
def partOf (i : ι) (heap : Heap ι Content) : Heap ι Content := fun h ↦
  if Concerns i h then heap h else .empty

/-- The file system that a call goes to. -/
def BuildRequest.handle : BuildRequest ι TransformFunc Obj M Content → Handle ι
  | .makeFsInMemory h | .fs h _ | .mkdirAll h _ | .mutateAndKustomize h _ _ => h

/-- The arguments of one call of `NewBuilder`. -/
structure Build (ι TransformFunc M Kubectl : Type) where
  id : ι
  packageName : String
  opts : List (BuilderOption TransformFunc M Kubectl)

def Build.program (b : Build ι TransformFunc M Kubectl) :
    Program (buildCalls ι TransformFunc Obj M Content Err)
      (Except (BuildError Err) (Builder TransformFunc M Content Kubectl)) :=
  newBuilder lib b.id b.packageName b.opts

end Isolation

/-! ## The copy -/

section Copy

variable [DecidableEq ι] {kustomizeLib : KustomizeLib Rest Content Err}
  {meaning : M → MutateFunc Rest} {run : TransformFunc → Obj → Except Err Obj}
  {heap heap' : Heap ι Content} {fs1 fs2 : Handle ι}

/-- What the callback is told about a file or a directory that can be accessed. -/
def visitOf (Err : Type) (node : Path × Bool) : Visit Err :=
  { path := Path.toString node.1, isDir := node.2, err := none }

theorem visitOf_injective : Function.Injective (visitOf Err) := by
  intro node node' h
  obtain ⟨hpath, hdir⟩ : Path.toString node.1 = Path.toString node'.1 ∧ node.2 = node'.2 := by
    simpa [visitOf] using h
  have hparse := congrArg Path.parse hpath
  rw [Path.parse_toString, Path.parse_toString, Option.some_inj] at hparse
  exact Prod.ext hparse hdir

/-- The copy is a part of the original, and has what it had and the given entry. -/
structure Extends (heap : Heap ι Content) (fs1 fs2 : Handle ι) (node : Path × Bool)
    (fs' : FileSystem Content) : Prop where
  partOf : fs'.PartOf (heap fs1)
  has : ∀ node', (heap fs2).Has node' ∨ node' = node → fs'.Has node'

/-- Each visit adds one entry to the copy. -/
theorem extends_of_yields (hclosed : (heap fs1).Closed)
    (hpart : (heap fs2).PartOf (heap fs1)) {node : Path × Bool} (hnode : (heap fs1).Has node)
    {visits : List (Visit Err)} {result : Option Err}
    (h : Yields (buildService kustomizeLib meaning run) heap
      (copyVisits fs1 fs2 (visitOf Err node :: visits)) result heap') :
    ∃ fs', Extends heap fs1 fs2 node fs' ∧
      Yields (buildService kustomizeLib meaning run) (Function.update heap fs2 fs')
        (copyVisits fs1 fs2 visits) result heap' := by
  obtain ⟨path, isDir⟩ := node
  have hparse : Path.parse path.toString = some path := Path.parse_toString path
  cases isDir with
  | true =>
    obtain ⟨fs', hmkdir, hpart'⟩ := hpart.exists_mkdirAll hclosed hparse hnode
    obtain ⟨reply, mid, hanswer, hrest⟩ := yields_call_iff.mp h
    cases hanswer with
    | mkdirAll hmkdir' =>
      obtain rfl := Except.ok.inj (hmkdir.symm.trans hmkdir')
      exact ⟨fs', ⟨hpart', fun _ ↦ FileSystem.has_of_mkdirAll hparse hmkdir⟩, hrest⟩
    | mkdirFails hfails => cases hmkdir.symm.trans hfails
  | false =>
    obtain ⟨content, hcontent⟩ := Option.isSome_iff_exists.mp (AList.lookup_isSome.mpr hnode)
    have hread : (heap fs1).readFile path.toString = .ok content := by
      simp only [FileSystem.readFile, hparse, hcontent]
    obtain ⟨fs', hwrite, hpart'⟩ := hpart.exists_writeFile hparse hcontent
    obtain ⟨reply, mid, hanswer, hrest⟩ := yields_call_iff.mp h
    cases hanswer with
    | fs _ hanswer =>
      cases hanswer with
      | readFails hfails => cases hread.symm.trans hfails
      | readFile hread' =>
        obtain rfl := Except.ok.inj (hread.symm.trans hread')
        rw [Function.update_eq_self] at hrest
        obtain ⟨reply, mid, hanswer, hrest⟩ := yields_call_iff.mp hrest
        cases hanswer with
        | fs _ hanswer =>
          cases hanswer with
          | writeFails hfails => cases hwrite.symm.trans hfails
          | writeFile hwrite' =>
            obtain rfl := Except.ok.inj (hwrite.symm.trans hwrite')
            exact ⟨fs', ⟨hpart', fun _ ↦ FileSystem.has_of_writeFile hparse hwrite⟩, hrest⟩

/-- After the visits, in any order, the copy is a part of the original that has all of them. -/
theorem partOf_of_yields_copyVisits (hne : fs1 ≠ fs2) (hclosed : (heap fs1).Closed)
    (hpart : (heap fs2).PartOf (heap fs1)) {visits : List (Visit Err)}
    (hvisits : ∀ visit ∈ visits, ∃ node, (heap fs1).Has node ∧ visit = visitOf Err node)
    {result : Option Err}
    (h : Yields (buildService kustomizeLib meaning run) heap (copyVisits fs1 fs2 visits) result
      heap') :
    result = none ∧ (heap' fs2).PartOf (heap fs1) ∧
      (∀ node, (heap fs2).Has node ∨ visitOf Err node ∈ visits → (heap' fs2).Has node) ∧
      ∀ other ≠ fs2, heap' other = heap other := by
  induction visits generalizing heap with
  | nil =>
    obtain ⟨rfl, rfl⟩ := yields_done_iff.mp h
    exact ⟨rfl, hpart, fun node hnode ↦ hnode.resolve_right List.not_mem_nil, fun _ _ ↦ rfl⟩
  | cons visit visits ih =>
    rw [List.forall_mem_cons] at hvisits
    obtain ⟨⟨node, hnode, rfl⟩, hvisits⟩ := hvisits
    obtain ⟨fs', hextends, hrest⟩ := extends_of_yields hclosed hpart hnode h
    have hfs1 : Function.update heap fs2 fs' fs1 = heap fs1 := Function.update_of_ne hne fs' heap
    have hfs2 : Function.update heap fs2 fs' fs2 = fs' := Function.update_self fs2 fs' heap
    have hih := ih (by rwa [hfs1]) (by rw [hfs1, hfs2]; exact hextends.partOf)
      (by rwa [hfs1]) hrest
    rw [hfs1, hfs2] at hih
    obtain ⟨hnone, hpart', hhas, hothers⟩ := hih
    refine ⟨hnone, hpart', fun node' hnode' ↦ hhas node' ?_, fun other hother ↦ ?_⟩
    · rw [List.mem_cons, ← or_assoc] at hnode'
      exact hnode'.imp_left fun hold ↦
        hextends.has node' (hold.imp_right fun heq ↦ visitOf_injective heq)
    · rw [hothers other hother, Function.update_of_ne hother]

/-- **DeepCopy copies.** From a file system whose directories are in directories into an empty one,
in whatever order the walk goes through the files: the copy does not fail, the two file systems have
the same files with the same contents and the same directories, and no other file system changes. -/
theorem deepCopy_same (hne : fs1 ≠ fs2) (hclosed : (heap fs1).Closed)
    (hempty : heap fs2 = .empty) {result : Option Err}
    (h : Yields (buildService kustomizeLib meaning run) heap (deepCopy fs1 fs2) result heap') :
    result = none ∧ (heap' fs2).Same (heap fs1) ∧ ∀ other ≠ fs2, heap' other = heap other := by
  obtain ⟨reply, mid, hanswer, hrest⟩ := yields_call_iff.mp h
  have hroot : Path.parse "/" = some [] := by decide
  have hexists : (heap fs1).pathExists "/" = true := by
    simp [FileSystem.pathExists, hroot, (heap fs1).root_mem]
  cases hanswer with
  | fs _ hanswer =>
    cases hanswer with
    | walkFails hfails =>
      rw [hexists] at hfails
      cases hfails
    | @walk _ dir visits hdir _ hvisits =>
      obtain rfl := Option.some.inj (hroot.symm.trans hdir)
      rw [Function.update_eq_self] at hrest
      have hall : ∀ visit ∈ visits, ∃ node, (heap fs1).Has node ∧ visit = visitOf Err node := by
        intro visit hvisit
        obtain ⟨node, hnode, rfl⟩ := List.mem_map.mp (hvisits.mem_iff.mp hvisit)
        exact ⟨node, FileSystem.has_of_mem_below hnode, rfl⟩
      have hpart : (heap fs2).PartOf (heap fs1) := by
        rw [hempty]
        exact FileSystem.partOf_empty _
      obtain ⟨hnone, hpart', hhas, hothers⟩ :=
        partOf_of_yields_copyVisits hne hclosed hpart hall hrest
      refine ⟨hnone, hpart'.same fun node hnode ↦ hhas node (.inr ?_), hothers⟩
      rw [hvisits.mem_iff]
      exact List.mem_map_of_mem (FileSystem.mem_below_root hnode)

end Copy

/-! ## Running a builder -/

section Respond

variable (lib : KustomizeLib Rest String String) (meaning : M → MutateFunc Rest)

def respondBuild (heap : Heap ℕ String) : (request : BuildRequest ℕ String String M String) →
    (buildCalls ℕ String String M String String).Reply request × Heap ℕ String
  | .makeFsInMemory h => ((), Function.update heap h .empty)
  | .fs _ (.transform t obj) => ((.ok (obj ++ t) : Except String String), heap)
  | .fs h request =>
    ((respond (heap h) request).1, Function.update heap h (respond (heap h) request).2)
  | .mkdirAll h path =>
    match (heap h).mkdirAll path with
    | .ok fs' => ((none : Option String), Function.update heap h fs')
    | .error _ => (some "cannot be made", heap)
  | .mutateAndKustomize h funcs path =>
    ((mutateAndKustomize lib (heap h) (funcs.map meaning) path).2,
      Function.update heap h (mutateAndKustomize lib (heap h) (funcs.map meaning) path).1)

def appendText (t obj : String) : Except String String := .ok (obj ++ t)

theorem answers_respondBuild (heap : Heap ℕ String)
    (request : BuildRequest ℕ String String M String) :
    BuildAnswers lib meaning appendText heap request (respondBuild lib meaning heap request).1
      (respondBuild lib meaning heap request).2 := by
  cases request with
  | makeFsInMemory h => exact .makeFsInMemory
  | mutateAndKustomize h funcs path => exact .mutateAndKustomize
  | mkdirAll h path =>
    cases hmkdir : (heap h).mkdirAll path with
    | error reason => simpa [respondBuild, hmkdir] using .mkdirFails hmkdir
    | ok fs' => simpa [respondBuild, hmkdir] using .mkdirAll hmkdir
  | fs h request =>
    have hanswer := answers_respond (heap h) request
    cases request with
    | transform t obj => exact .transform
    | walk path => exact .fs (by simp) hanswer
    | readFile path => exact .fs (by simp) hanswer
    | writeFile path content => exact .fs (by simp) hanswer

end Respond

end OperatorToolkit.Declarative
