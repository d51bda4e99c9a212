import OperatorToolkit.Declarative.Kustomize
import OperatorToolkit.Interaction.Serial

/-!
# Transforming manifests

`Transform` goes through a map from manifest files to transforms. It reads and parses each file,
runs the file's own transforms and then the common ones on the parsed object, and writes the file
back. The order in which Go goes through a map is not specified, so the entries are a list in any
order. A transform is a call, since nothing is known of what it does besides changing the object.
-/

namespace OperatorToolkit.Declarative

open Interaction Files

/-- What `Walk` tells its callback about a file or a directory. -/
structure Visit (Err : Type) where
  path : String
  isDir : Bool
  err : Option Err

inductive FsRequest (TransformFunc Obj Content : Type) where
  | walk (path : String)
  | readFile (path : String)
  | writeFile (path : String) (content : Content)
  | transform (t : TransformFunc) (obj : Obj)

def fsCalls (TransformFunc Obj Content Err : Type) : Signature where
  Request := FsRequest TransformFunc Obj Content
  Reply
    | .walk _ => Except Err (List (Visit Err))
    | .readFile _ => Except Err Content
    | .writeFile _ _ => Option Err
    | .transform _ _ => Except Err Obj

/-- Functions of the YAML library, and how Go quotes strings. -/
structure YamlLib (Obj Content Err : Type) where
  quote : String → String
  parse : Content → Except Err Obj
  string : Obj → Except Err Content

variable {TransformFunc Obj Content Err : Type}

namespace FsCall

variable (TransformFunc Obj Content Err)

def walk (path : String) :
    Program (fsCalls TransformFunc Obj Content Err) (Except Err (List (Visit Err))) :=
  .request (S := fsCalls TransformFunc Obj Content Err) (.walk path)

def readFile (path : String) :
    Program (fsCalls TransformFunc Obj Content Err) (Except Err Content) :=
  .request (S := fsCalls TransformFunc Obj Content Err) (.readFile path)

variable {Content} in
def writeFile (path : String) (content : Content) :
    Program (fsCalls TransformFunc Obj Content Err) (Option Err) :=
  .request (S := fsCalls TransformFunc Obj Content Err) (.writeFile path content)

variable {TransformFunc Obj} in
def transform (t : TransformFunc) (obj : Obj) :
    Program (fsCalls TransformFunc Obj Content Err) (Except Err Obj) :=
  .request (S := fsCalls TransformFunc Obj Content Err) (.transform t obj)

end FsCall

variable (yaml : YamlLib Obj Content Err)

/-- One of the two loops over transforms. -/
def runTransforms (manifest : String) : List TransformFunc → Obj →
    Program (fsCalls TransformFunc Obj Content Err) (Except (BuildError Err) Obj)
  | [], obj => return .ok obj
  | t :: transforms, obj => do
    match ← FsCall.transform Content Err t obj with
    | .error err =>
      return .error (.wrap ("failed to transform " ++ yaml.quote manifest) (.plain err))
    | .ok obj => runTransforms manifest transforms obj

/-- The body of the loop over the manifests. -/
def transformManifest (manifest : String) (transforms commonTransforms : List TransformFunc) :
    Program (fsCalls TransformFunc Obj Content Err) (Option (BuildError Err)) := do
  match ← FsCall.readFile TransformFunc Obj Content Err manifest with
  | .error err => return some (.plain err)
  | .ok o =>
    match yaml.parse o with
    | .error err => return some (.plain err)
    | .ok obj =>
      match ← runTransforms yaml manifest transforms obj with
      | .error err => return some err
      | .ok obj =>
        match ← runTransforms yaml manifest commonTransforms obj with
        | .error err => return some err
        | .ok obj =>
          match yaml.string obj with
          | .error err => return some (.plain err)
          | .ok r => return (← FsCall.writeFile TransformFunc Obj Err manifest r).map .plain

/-- `map[string][]TransformFunc`. -/
abbrev ManifestTransform (TransformFunc : Type) := AList fun _ : String ↦ List TransformFunc

/-- `Transform`, given the entries of the map in the order of the iteration. -/
def transform (commonTransforms : List TransformFunc) :
    List (Sigma fun _ : String ↦ List TransformFunc) →
    Program (fsCalls TransformFunc Obj Content Err) (Option (BuildError Err))
  | [] => return none
  | ⟨manifest, transforms⟩ :: entries => do
    match ← transformManifest yaml manifest transforms commonTransforms with
    | some err => return some err
    | none => transform commonTransforms entries

/-! ## What is called -/

/-- The transforms are called in order, each with what the one before has made of the object. -/
inductive Chain : List TransformFunc → Obj → List (fsCalls TransformFunc Obj Content Err).Call →
    Obj → Prop where
  | nil {obj} : Chain [] obj [] obj
  | cons {t transforms obj obj' calls obj''} : Chain transforms obj' calls obj'' →
      Chain (t :: transforms) obj (⟨.transform t obj, (.ok obj' : Except Err Obj)⟩ :: calls) obj''

/-- A manifest is read, its object is transformed, and the result is written back. -/
inductive Transforms (manifest : String) (transforms : List TransformFunc) :
    List (fsCalls TransformFunc Obj Content Err).Call → Prop where
  | intro {o obj calls obj' r} : yaml.parse o = .ok obj → Chain transforms obj calls obj' →
      yaml.string obj' = .ok r →
      Transforms manifest transforms (⟨.readFile manifest, (.ok o : Except Err Content)⟩ ::
        (calls ++ [⟨.writeFile manifest r, (none : Option Err)⟩]))

variable {yaml}

theorem Chain.append {transforms transforms' : List TransformFunc} {obj obj' obj'' : Obj}
    {calls calls' : List (fsCalls TransformFunc Obj Content Err).Call}
    (h : Chain transforms obj calls obj') (h' : Chain transforms' obj' calls' obj'') :
    Chain (transforms ++ transforms') obj (calls ++ calls') obj'' := by
  induction h with
  | nil => exact h'
  | cons _ ih => exact .cons (ih h')

theorem chain_of_runs {manifest : String} {transforms : List TransformFunc} {obj obj' : Obj}
    {calls : List (fsCalls TransformFunc Obj Content Err).Call}
    (hruns : Program.Runs (runTransforms yaml manifest transforms obj) calls (.ok obj')) :
    Chain transforms obj calls obj' := by
  induction transforms generalizing obj calls with
  | nil =>
    obtain ⟨rfl, heq⟩ := Program.runs_done_iff.mp hruns
    cases heq
    exact .nil
  | cons t transforms ih =>
    obtain ⟨reply, rest, rfl, hrest⟩ := Program.runs_call_iff.mp hruns
    cases reply with
    | error err => simp [Program.bind] at hrest
    | ok next => exact .cons (ih hrest)

theorem transforms_of_runs {manifest : String} {transforms commonTransforms : List TransformFunc}
    {calls : List (fsCalls TransformFunc Obj Content Err).Call}
    (hruns : Program.Runs (transformManifest yaml manifest transforms commonTransforms) calls
      none) :
    Transforms yaml manifest (transforms ++ commonTransforms) calls := by
  obtain ⟨reply, rest, rfl, hread⟩ := Program.runs_call_iff.mp hruns
  cases reply with
  | error err => simp [Program.bind] at hread
  | ok o =>
    cases hparse : yaml.parse o with
    | error err => simp [Program.bind, hparse] at hread
    | ok obj =>
      simp only [Program.bind, hparse] at hread
      obtain ⟨own, outcome, rest, rfl, hown, hrest⟩ := Program.runs_bind_iff.mp hread
      cases outcome with
      | error err => simp at hrest
      | ok obj' =>
        obtain ⟨common, outcome, rest, rfl, hcommon, hrest⟩ := Program.runs_bind_iff.mp hrest
        cases outcome with
        | error err => simp at hrest
        | ok obj'' =>
          cases hstring : yaml.string obj'' with
          | error err => simp [hstring] at hrest
          | ok r =>
            simp only [hstring] at hrest
            obtain ⟨reply, rest, rfl, hwrite⟩ := Program.runs_call_iff.mp hrest
            cases reply with
            | some err => simp [Program.bind] at hwrite
            | none =>
              obtain ⟨rfl, -⟩ := Program.runs_done_iff.mp hwrite
              rw [← List.append_assoc]
              exact .intro hparse ((chain_of_runs hown).append (chain_of_runs hcommon)) hstring

/-- A successful run of `Transform` transforms the manifests one after the other. -/
theorem forall₂_transforms_of_runs {commonTransforms : List TransformFunc}
    {entries : List (Sigma fun _ : String ↦ List TransformFunc)}
    {calls : List (fsCalls TransformFunc Obj Content Err).Call}
    (hruns : Program.Runs (transform yaml commonTransforms entries) calls none) :
    ∃ segments, calls = segments.flatten ∧
      List.Forall₂ (fun entry segment ↦
        Transforms yaml entry.1 (entry.2 ++ commonTransforms) segment) entries segments := by
  induction entries generalizing calls with
  | nil =>
    obtain ⟨rfl, -⟩ := Program.runs_done_iff.mp hruns
    exact ⟨[], rfl, .nil⟩
  | cons entry entries ih =>
    obtain ⟨first, outcome, rest, rfl, hfirst, hrest⟩ := Program.runs_bind_iff.mp hruns
    cases outcome with
    | some err => simp at hrest
    | none =>
      obtain ⟨segments, rfl, hsegments⟩ := ih hrest
      exact ⟨first :: segments, rfl, .cons (transforms_of_runs hfirst) hsegments⟩

/-! ## Files that are transformed, and the others -/

/-- The file that a call reads or writes. -/
def FsRequest.file : FsRequest TransformFunc Obj Content → Option Path
  | .readFile path | .writeFile path _ => Path.parse path
  | .walk _ | .transform _ _ => none

/-- No call reads or writes the file. -/
def Untouched (file : Path) (calls : List (fsCalls TransformFunc Obj Content Err).Call) : Prop :=
  ∀ call ∈ calls, FsRequest.file call.1 ≠ some file

/-- The file is transformed at one place, and neither read nor written anywhere else. -/
def TransformedOnce (yaml : YamlLib Obj Content Err) (transforms : List TransformFunc) (file : Path)
    (calls : List (fsCalls TransformFunc Obj Content Err).Call) : Prop :=
  ∃ manifest before segment after, Path.parse manifest = some file ∧
    calls = before ++ (segment ++ after) ∧ Transforms yaml manifest transforms segment ∧
    Untouched file before ∧ Untouched file after

theorem untouched_append_iff {file : Path}
    {calls calls' : List (fsCalls TransformFunc Obj Content Err).Call} :
    Untouched file (calls ++ calls') ↔ Untouched file calls ∧ Untouched file calls' :=
  List.forall_mem_append

theorem TransformedOnce.append_left {transforms : List TransformFunc} {file : Path}
    {front calls : List (fsCalls TransformFunc Obj Content Err).Call}
    (h : TransformedOnce yaml transforms file calls) (hfront : Untouched file front) :
    TransformedOnce yaml transforms file (front ++ calls) := by
  obtain ⟨manifest, before, segment, after, hmanifest, rfl, hsegment, hbefore, hafter⟩ := h
  refine ⟨manifest, front ++ before, segment, after, hmanifest, ?_, hsegment, ?_, hafter⟩
  · rw [List.append_assoc]
  · exact untouched_append_iff.mpr ⟨hfront, hbefore⟩

theorem Chain.untouched {transforms : List TransformFunc} {obj obj' : Obj}
    {calls : List (fsCalls TransformFunc Obj Content Err).Call}
    (h : Chain transforms obj calls obj') (file : Path) : Untouched file calls := by
  induction h with
  | nil => simp [Untouched]
  | cons _ ih =>
    intro call hcall
    rcases List.mem_cons.mp hcall with rfl | hrest
    · simp [FsRequest.file]
    · exact ih call hrest

theorem Transforms.untouched {manifest : String} {transforms : List TransformFunc}
    {segment : List (fsCalls TransformFunc Obj Content Err).Call}
    (h : Transforms yaml manifest transforms segment) {file : Path}
    (hfile : Path.parse manifest ≠ some file) : Untouched file segment := by
  cases h with
  | intro _ hchain _ =>
    intro call hcall
    rw [List.mem_cons, List.mem_append, List.mem_singleton] at hcall
    rcases hcall with rfl | hcall | rfl
    · exact hfile
    · exact hchain.untouched file call hcall
    · exact hfile

theorem TransformedOnce.not_untouched {transforms : List TransformFunc} {file : Path}
    {calls : List (fsCalls TransformFunc Obj Content Err).Call}
    (h : TransformedOnce yaml transforms file calls) : ¬Untouched file calls := by
  obtain ⟨manifest, before, segment, after, hmanifest, rfl, hsegment, -, -⟩ := h
  rw [untouched_append_iff, untouched_append_iff]
  cases hsegment with
  | intro _ _ _ => exact fun huntouched ↦ huntouched.2.1 _ List.mem_cons_self hmanifest

section Segments

variable {commonTransforms : List TransformFunc} {file : Path}
  {entries : List (Sigma fun _ : String ↦ List TransformFunc)}
  {segments : List (List (fsCalls TransformFunc Obj Content Err).Call)}

theorem untouched_flatten
    (h : List.Forall₂ (fun entry segment ↦
      Transforms yaml entry.1 (entry.2 ++ commonTransforms) segment) entries segments)
    (hfile : ∀ entry ∈ entries, Path.parse entry.1 ≠ some file) :
    Untouched file segments.flatten := by
  induction h with
  | nil => simp [Untouched]
  | cons hsegment _ ih =>
    rw [List.forall_mem_cons] at hfile
    rw [List.flatten_cons, untouched_append_iff]
    exact ⟨hsegment.untouched hfile.1, ih hfile.2⟩

/-- If the manifests are different files, then each of them is transformed once. -/
theorem transformedOnce_flatten
    (h : List.Forall₂ (fun entry segment ↦
      Transforms yaml entry.1 (entry.2 ++ commonTransforms) segment) entries segments)
    (hdistinct : (entries.map fun entry ↦ Path.parse entry.1).Nodup)
    {entry : Sigma fun _ : String ↦ List TransformFunc} (hentry : entry ∈ entries)
    (hfile : Path.parse entry.1 = some file) :
    TransformedOnce yaml (entry.2 ++ commonTransforms) file segments.flatten := by
  induction h with
  | nil => simp at hentry
  | @cons first segment entries segments hsegment hrest ih =>
    rw [List.map_cons, List.nodup_cons, List.mem_map] at hdistinct
    rw [List.flatten_cons]
    rcases List.mem_cons.mp hentry with rfl | hlater
    · have huntouched : Untouched file segments.flatten := by
        apply untouched_flatten hrest
        intro other hother hparse
        exact hdistinct.1 ⟨other, hother, hparse.trans hfile.symm⟩
      exact ⟨entry.1, [], segment, segments.flatten, hfile, rfl, hsegment, by simp [Untouched],
        huntouched⟩
    · have hfirst : Path.parse first.1 ≠ some file := by
        intro hparse
        exact hdistinct.1 ⟨entry, hlater, hfile.trans hparse.symm⟩
      exact (ih hdistinct.2 hlater).append_left (hsegment.untouched hfirst)

end Segments

/-! ## Calls to a file system -/

/-- The visits of a walk from a path. -/
def visitsBelow (Err : Type) (fs : FileSystem Content) (path : Path) : List (Visit Err) :=
  (fs.below path).map fun node ↦ { path := Path.toString node.1, isDir := node.2, err := none }

/-- How a file system answers. A walk visits what is below its path, in some order. Transforms do
not use the file system. -/
inductive Answers : FileSystem Content →
    (request : FsRequest TransformFunc Obj Content) →
    (fsCalls TransformFunc Obj Content Err).Reply request → FileSystem Content → Prop where
  | walk {fs path dir visits} : Path.parse path = some dir → fs.pathExists path = true →
      List.Perm visits (visitsBelow Err fs dir) → Answers fs (.walk path) (.ok visits) fs
  | walkFails {fs path} {err : Err} : fs.pathExists path = false →
      Answers fs (.walk path) (.error err) fs
  | readFile {fs path content} : fs.readFile path = .ok content →
      Answers fs (.readFile path) (.ok content) fs
  | readFails {fs path reason} {err : Err} : fs.readFile path = .error reason →
      Answers fs (.readFile path) (.error err) fs
  | writeFile {fs path content fs'} : fs.writeFile path content = .ok fs' →
      Answers fs (.writeFile path content) (none : Option Err) fs'
  | writeFails {fs path content reason} {err : Err} : fs.writeFile path content = .error reason →
      Answers fs (.writeFile path content) (some err) fs
  | transform {fs t obj reply} : Answers fs (.transform t obj) reply fs

def fileService (TransformFunc Obj Content Err : Type) :
    Service (fsCalls TransformFunc Obj Content Err) (FileSystem Content) where
  Handles := Answers
  Breaks _ _ _ := False
  Rely _ _ := False

theorem Answers.lookup_eq {fs fs' : FileSystem Content}
    {request : FsRequest TransformFunc Obj Content}
    {reply : (fsCalls TransformFunc Obj Content Err).Reply request}
    (h : Answers fs request reply fs') {file : Path} (hfile : request.file ≠ some file) :
    fs'.files.lookup file = fs.files.lookup file := by
  cases h with
  | walk | walkFails | readFile | readFails | writeFails | transform => rfl
  | @writeFile path _ _ hwrite =>
    cases hparse : Path.parse path with
    | none => simp [FileSystem.writeFile, hparse] at hwrite
    | some written =>
      have hne : file ≠ written := by
        rintro rfl
        exact hfile hparse
      rw [(FileSystem.files_of_writeFile hparse hwrite).1, AList.lookup_insert_ne hne]

/-- A file that is not touched keeps its content. -/
theorem Untouched.lookup_eq {fs fs' : FileSystem Content} {file : Path}
    {calls : List (fsCalls TransformFunc Obj Content Err).Call} (h : Untouched file calls)
    (hserved : Served (fileService TransformFunc Obj Content Err) fs calls fs') :
    fs'.files.lookup file = fs.files.lookup file := by
  induction hserved with
  | nil => rfl
  | cons hanswer _ ih =>
    have hcalls := List.forall_mem_cons.mp h
    rw [ih hcalls.2, Answers.lookup_eq hanswer hcalls.1]

end OperatorToolkit.Declarative
