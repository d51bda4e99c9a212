import OperatorToolkit.Files.Paths
import Mathlib.Data.List.AList
import Mathlib.Data.List.Infix

/-!
# File systems

A file system has files with contents, and directories. Every file is in a directory, and no file
is a directory. Writing a file makes the directories that it needs.
-/

namespace OperatorToolkit.Files

/-- The directories that a path goes through. -/
def parents (path : Path) : List Path := path.inits.filter (· ≠ path)

theorem mem_parents {dir path : Path} : dir ∈ parents path ↔ dir <+: path ∧ dir ≠ path := by
  simp [parents]

structure FileSystem (Content : Type) where
  files : AList fun _ : Path ↦ Content
  dirs : List Path
  root_mem : [] ∈ dirs
  parents_mem : ∀ file ∈ files, ∀ dir ∈ parents file, dir ∈ dirs
  not_mem_dirs : ∀ file ∈ files, file ∉ dirs

/-- Why an operation failed. -/
inductive FileError where
  | notFound
  | isDirectory
  | notDirectory
  deriving DecidableEq, Repr

namespace FileSystem

variable {Content : Type} (fs : FileSystem Content)

def isDir (path : Path) : Bool := decide (path ∈ fs.dirs)

/-- Whether there is a file or a directory. -/
def pathExists (text : String) : Bool :=
  (Path.parse text).any fun path ↦ decide (path ∈ fs.files) || fs.isDir path

def readFile (text : String) : Except FileError Content :=
  match Path.parse text with
  | none => .error .notFound
  | some path =>
    match fs.files.lookup path with
    | some content => .ok content
    | none => .error (if fs.isDir path then .isDirectory else .notFound)

/-- The file system with a file, and with the directories that the file needs. -/
def put (path : Path) (content : Content) (hpath : path ∉ fs.dirs)
    (hparents : ∀ dir ∈ parents path, dir ∉ fs.files) : FileSystem Content where
  files := fs.files.insert path content
  dirs := fs.dirs ++ (parents path).filter (· ∉ fs.dirs)
  root_mem := List.mem_append_left _ fs.root_mem
  parents_mem := by
    intro file hfile dir hdir
    rw [List.mem_append, List.mem_filter, decide_eq_true_iff]
    rcases (AList.mem_insert fs.files).mp hfile with rfl | hold
    · exact (em (dir ∈ fs.dirs)).imp_right fun hnew ↦ ⟨hdir, hnew⟩
    · exact .inl (fs.parents_mem file hold dir hdir)
  not_mem_dirs := by
    intro file hfile hdir
    rw [List.mem_append, List.mem_filter] at hdir
    rcases (AList.mem_insert fs.files).mp hfile with rfl | hold
    · rcases hdir with hold | ⟨hnew, -⟩
      · exact hpath hold
      · exact (mem_parents.mp hnew).2 rfl
    · rcases hdir with hdir | ⟨hnew, -⟩
      · exact fs.not_mem_dirs file hold hdir
      · exact hparents file hnew hold

def writeFile (text : String) (content : Content) : Except FileError (FileSystem Content) :=
  match Path.parse text with
  | none => .error .notFound
  | some path =>
    if hpath : path ∈ fs.dirs then .error .isDirectory
    else if hparents : ∀ dir ∈ parents path, dir ∉ fs.files then
      .ok (fs.put path content hpath hparents)
    else .error .notDirectory

/-- The root and nothing else. -/
def empty : FileSystem Content where
  files := ∅
  dirs := [[]]
  root_mem := List.mem_cons_self
  parents_mem := fun file hfile ↦ absurd hfile (AList.notMem_empty file)
  not_mem_dirs := fun file hfile ↦ absurd hfile (AList.notMem_empty file)

/-- The file system after writing files into an empty one. -/
def ofFiles (files : List (String × Content)) : FileSystem Content :=
  files.foldl (fun fs (text, content) ↦ (fs.writeFile text content).toOption.getD fs) empty

/-- All that is at a path and below it, and whether it is a directory. -/
def below (path : Path) : List (Path × Bool) :=
  (fs.dirs.filter (path <+: ·)).map (·, true) ++ (fs.files.keys.filter (path <+: ·)).map (·, false)

variable {fs}

/-! ## Reading -/

@[simp] theorem isDir_iff {path : Path} : fs.isDir path ↔ path ∈ fs.dirs := decide_eq_true_iff

/-- Reading the file at a path is looking it up. -/
theorem toOption_readFile {text : String} {path : Path} (htext : Path.parse text = some path) :
    (fs.readFile text).toOption = fs.files.lookup path := by
  cases hlookup : fs.files.lookup path with
  | none => simp [readFile, htext, hlookup, Except.toOption]
  | some content => simp [readFile, htext, hlookup, Except.toOption]

theorem mem_below_false {path file : Path} :
    (file, false) ∈ fs.below path ↔ file ∈ fs.files ∧ path <+: file := by
  simp [below, AList.mem_keys]

/-! ## Writing -/

/-- A successful write puts the content into the file and leaves all other files alone. -/
theorem files_of_writeFile {fs' : FileSystem Content} {text : String} {path : Path}
    {content : Content} (htext : Path.parse text = some path)
    (hwrite : fs.writeFile text content = .ok fs') :
    fs'.files = fs.files.insert path content ∧
      ((∀ dir ∈ parents path, dir ∈ fs.dirs) → fs'.dirs = fs.dirs) := by
  simp only [writeFile, htext] at hwrite
  split_ifs at hwrite
  simp only [Except.ok.injEq] at hwrite
  subst hwrite
  constructor
  · rfl
  · intro hparents
    have hnew : (parents path).filter (· ∉ fs.dirs) = [] := by
      simpa [List.filter_eq_nil_iff] using hparents
    change fs.dirs ++ (parents path).filter (· ∉ fs.dirs) = fs.dirs
    rw [hnew, List.append_nil]

/-- A file that is there can be written. -/
theorem exists_writeFile {text : String} {path : Path} (htext : Path.parse text = some path)
    (hpath : path ∈ fs.files) (content : Content) : ∃ fs', fs.writeFile text content = .ok fs' := by
  have hparents : ∀ dir ∈ parents path, dir ∉ fs.files := by
    intro dir hdir hfile
    exact fs.not_mem_dirs dir hfile (fs.parents_mem path hpath dir hdir)
  refine ⟨fs.put path content (fs.not_mem_dirs path hpath) hparents, ?_⟩
  simp only [writeFile, htext]
  rw [dif_neg (fs.not_mem_dirs path hpath), dif_pos hparents]

end FileSystem

end OperatorToolkit.Files
