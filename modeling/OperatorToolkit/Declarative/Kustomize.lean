import OperatorToolkit.Declarative.Mutate
import OperatorToolkit.Files.FileSystem

/-!
# Kustomizing a package

`MutateAndKustomize` loads the kustomization of a package, mutates it, writes it into the package
and runs kustomize there. Kustomize recognizes three names of a kustomization file. The loader
takes any of them, and fails if a package has several such files. The mutated kustomization is
always written under the first of the names.
-/

namespace OperatorToolkit.Declarative

open Files

/-- Errors of the libraries as they are, the errors of the builder, and errors with a message
before them. -/
inductive BuildError (Err : Type) where
  | plain (err : Err)
  | file (err : FileError)
  | errorf (message : String)
  | wrap (message : String) (err : BuildError Err)
  deriving DecidableEq, Repr

/-- Functions of kustomize and of the YAML library, and how Go quotes strings. -/
structure KustomizeLib (Rest Content Err : Type) where
  quote : String → String
  /-- The directory of the loader that `New` of a loader at the root returns. -/
  newLoader : FileSystem Content → String → Except Err Path
  unmarshal : Content → Except Err (Kustomization Rest)
  fixKustomizationPostUnmarshalling : Kustomization Rest → Kustomization Rest
  enforceFields : Kustomization Rest → List String
  marshal : Kustomization Rest → Except Err Content
  /-- `Run` of a kustomizer, and `AsYaml` of the result. -/
  run : FileSystem Content → String → Except Err Content

def kustomizationFile : Name := ⟨"kustomization.yaml", by decide⟩

def recognizedKustomizationFileNames : List Name :=
  [⟨"kustomization.yaml", by decide⟩, ⟨"kustomization.yml", by decide⟩,
    ⟨"Kustomization", by decide⟩]

variable {Rest Content Err : Type} (lib : KustomizeLib Rest Content Err)

def kustomize (fs : FileSystem Content) (path : String) : Except (BuildError Err) Content :=
  (lib.run fs path).mapError .plain

/-- The loader of a directory finds the names in that directory. -/
def loadKustFile (fs : FileSystem Content) (root : Path) : Except (BuildError Err) Content :=
  let contents := recognizedKustomizationFileNames.filterMap fun kf ↦
    (fs.readFile (Path.toString (root ++ [kf]))).toOption
  match contents with
  | [] => .error (.errorf ("unable to find kustomization file in " ++ lib.quote root.toString))
  | [content] => .ok content
  | _ => .error (.errorf ("found multiple kustomization files under: " ++ root.toString ++ "\n"))

def loadKustomization (content : Content) : Except (BuildError Err) (Kustomization Rest) :=
  match lib.unmarshal content with
  | .error err => .error (.plain err)
  | .ok k =>
    let k := lib.fixKustomizationPostUnmarshalling k
    let errs := lib.enforceFields k
    if errs.length > 0 then
      .error (.errorf ("failed to read kustomization: " ++ ",".intercalate errs))
    else .ok k

def loadKustomizationFromPackage (fs : FileSystem Content) (path : String) :
    Except (BuildError Err) (Kustomization Rest) :=
  if !fs.pathExists path then .error (.errorf (lib.quote path ++ " path not found"))
  else match lib.newLoader fs path with
    | .error err => .error (.plain err)
    | .ok root =>
      match loadKustFile lib fs root with
      | .error err => .error err
      | .ok kbytes => loadKustomization lib kbytes

/-- `filepath.Join` of the path and the name also cleans the text, as the file system does. -/
def writeKustomizationInPackage (fs : FileSystem Content) (k : Kustomization Rest)
    (path : String) : Except (BuildError Err) (FileSystem Content) :=
  match lib.marshal k with
  | .error err => .error (.plain err)
  | .ok y => (fs.writeFile (path ++ "/" ++ kustomizationFile.text) y).mapError .file

/-- The part of `MutateAndKustomize` before kustomize runs. -/
def mutateInPackage (fs : FileSystem Content) (mutateFuncs : List (MutateFunc Rest))
    (path : String) : Except (BuildError Err) (FileSystem Content) :=
  match loadKustomizationFromPackage lib fs path with
  | .error err => .error (.wrap "failed to load kustomization" err)
  | .ok k =>
    match writeKustomizationInPackage lib fs (mutate k mutateFuncs) path with
    | .error err => .error (.wrap "failed to write kustomization" err)
    | .ok fs' => .ok fs'

/-- The file system afterwards, and the result or the error. -/
def mutateAndKustomize (fs : FileSystem Content) (mutateFuncs : List (MutateFunc Rest))
    (path : String) : FileSystem Content × Except (BuildError Err) Content :=
  match mutateInPackage lib fs mutateFuncs path with
  | .error err => (fs, .error err)
  | .ok fs' => (fs', kustomize lib fs' path)

/-! ## Packages -/

/-- The kustomization files of a directory. -/
def kustomizationFiles (fs : FileSystem Content) (dir : Path) : List Name :=
  recognizedKustomizationFileNames.filter fun name ↦ decide (dir ++ [name] ∈ fs.files)

/-- What is assumed of the loader: it opens the directory that its path stands for, and which
directories it opens does not depend on the files. -/
structure LoaderLaws : Prop where
  parse_eq {fs : FileSystem Content} {path : String} {dir : Path} :
    lib.newLoader fs path = .ok dir → Path.parse path = some dir ∧ dir ∈ fs.dirs
  newLoader_eq {fs fs' : FileSystem Content} (path : String) :
    fs'.dirs = fs.dirs → lib.newLoader fs' path = lib.newLoader fs path

/-- The package has one kustomization file, which holds the kustomization. -/
structure HoldsKustomization (fs : FileSystem Content) (path : String) (dir : Path) (file : Name)
    (k : Kustomization Rest) : Prop where
  opens : lib.newLoader fs path = .ok dir
  files_eq : kustomizationFiles fs dir = [file]
  loads : ∃ content, fs.files.lookup (dir ++ [file]) = some content ∧
    loadKustomization lib content = .ok k

/-- The package has one kustomization file again, from which the kustomization is loaded, and no
other file has changed. -/
structure LeavesKustomization (fs fs' : FileSystem Content) (path : String) (dir : Path)
    (k : Kustomization Rest) (file : Name) : Prop where
  files_eq : kustomizationFiles fs' dir = [file]
  loads : loadKustomizationFromPackage lib fs' path = .ok k
  unchanged : ∀ other ≠ dir ++ [file], fs'.files.lookup other = fs.files.lookup other

variable {lib} {fs fs' : FileSystem Content} {path : String} {dir : Path} {file : Name}
  {k : Kustomization Rest}

theorem filterMap_of_filter_isSome {α β : Type} {f : α → Option β} {l : List α} {a : α} {b : β}
    (hfilter : l.filter (fun x ↦ (f x).isSome) = [a]) (hb : f a = some b) :
    l.filterMap f = [b] := by
  have hf : ∀ x, (if (f x).isSome = true then f x else none) = f x := by
    intro x
    cases f x <;> simp
  calc
    l.filterMap f = (l.filter fun x ↦ (f x).isSome).filterMap f := by
      rw [List.filterMap_filter]
      simp only [hf]
    _ = [a].filterMap f := by rw [hfilter]
    _ = [b] := by simp [hb]

theorem loadKustFile_eq_ok {content : Content} (hfiles : kustomizationFiles fs dir = [file])
    (hcontent : fs.files.lookup (dir ++ [file]) = some content) :
    loadKustFile lib fs dir = .ok content := by
  have hread : ∀ name : Name,
      (fs.readFile (Path.toString (dir ++ [name]))).toOption = fs.files.lookup (dir ++ [name]) :=
    fun name ↦ FileSystem.toOption_readFile (Path.parse_toString _)
  have hcontents : recognizedKustomizationFileNames.filterMap (fun kf ↦
      (fs.readFile (Path.toString (dir ++ [kf]))).toOption) = [content] := by
    apply filterMap_of_filter_isSome (a := file)
    · rw [← hfiles, kustomizationFiles]
      apply List.filter_congr
      intro name _
      rw [hread, Bool.eq_iff_iff, AList.lookup_isSome, decide_eq_true_iff]
    · rw [hread, hcontent]
  rw [loadKustFile]
  simp only [hcontents]

theorem loadKustomizationFromPackage_eq (hlaws : LoaderLaws lib)
    (hopens : lib.newLoader fs path = .ok dir) (hfiles : kustomizationFiles fs dir = [file])
    {content : Content} (hcontent : fs.files.lookup (dir ++ [file]) = some content) :
    loadKustomizationFromPackage lib fs path = loadKustomization lib content := by
  obtain ⟨hparse, hdir⟩ := hlaws.parse_eq hopens
  have hexists : fs.pathExists path = true := by
    simp [FileSystem.pathExists, hparse, hdir]
  rw [loadKustomizationFromPackage, hexists]
  simp [hopens, loadKustFile_eq_ok hfiles hcontent]

/-- After a load, `MutateAndKustomize` writes the mutated kustomization under the first of the
names. -/
theorem mutateInPackage_eq_ok_iff {y : Content} {funcs : List (MutateFunc Rest)}
    (hlaws : LoaderLaws lib) (hpackage : HoldsKustomization lib fs path dir file k)
    (hmarshal : lib.marshal (mutate k funcs) = .ok y) :
    mutateInPackage lib fs funcs path = .ok fs' ↔
      fs.writeFile (path ++ "/" ++ kustomizationFile.text) y = .ok fs' := by
  obtain ⟨content, hcontent, hload⟩ := hpackage.loads
  have hpackageLoads : loadKustomizationFromPackage lib fs path = .ok k := by
    rw [loadKustomizationFromPackage_eq hlaws hpackage.opens hpackage.files_eq hcontent, hload]
  simp only [mutateInPackage, hpackageLoads, writeKustomizationInPackage, hmarshal]
  cases fs.writeFile (path ++ "/" ++ kustomizationFile.text) y with
  | error err => simp [Except.mapError]
  | ok written => simp [Except.mapError]

/-- Writing over the kustomization file of a package leaves the package with that file. -/
theorem leavesKustomization_of_writeFile {y : Content} (hlaws : LoaderLaws lib)
    (hopens : lib.newLoader fs path = .ok dir) (hfiles : kustomizationFiles fs dir = [file])
    (hfile : dir ++ [file] ∈ fs.files) (hload : loadKustomization lib y = .ok k)
    (hwrite : fs.writeFile (path ++ "/" ++ file.text) y = .ok fs') :
    LeavesKustomization lib fs fs' path dir k file := by
  have hparse := Path.parse_append_name (hlaws.parse_eq hopens).1 file
  obtain ⟨hinsert, hdirs⟩ := FileSystem.files_of_writeFile hparse hwrite
  have hfiles' : kustomizationFiles fs' dir = [file] := by
    rw [← hfiles, kustomizationFiles, kustomizationFiles]
    apply List.filter_congr
    intro name _
    rw [decide_eq_decide, hinsert, AList.mem_insert]
    constructor
    · rintro (heq | hold)
      · rwa [heq]
      · exact hold
    · exact .inr
  have hopens' : lib.newLoader fs' path = .ok dir := by
    rw [hlaws.newLoader_eq path (hdirs (fs.parents_mem _ hfile)), hopens]
  have hcontent : fs'.files.lookup (dir ++ [file]) = some y := by
    rw [hinsert, AList.lookup_insert]
  constructor
  · exact hfiles'
  · rw [loadKustomizationFromPackage_eq hlaws hopens' hfiles' hcontent, hload]
  · intro other hother
    rw [hinsert, AList.lookup_insert_ne hother]

/-- Writing the first of the names next to another kustomization file would leave the package with
both, so a package with one file had that file before. -/
theorem eq_kustomizationFile_of_writeFile {y : Content} {name : Name} (hlaws : LoaderLaws lib)
    (hopens : lib.newLoader fs path = .ok dir) (hfiles : kustomizationFiles fs dir = [file])
    (hwrite : fs.writeFile (path ++ "/" ++ kustomizationFile.text) y = .ok fs')
    (hfiles' : kustomizationFiles fs' dir = [name]) : file = kustomizationFile := by
  have hparse := Path.parse_append_name (hlaws.parse_eq hopens).1 kustomizationFile
  have hinsert := (FileSystem.files_of_writeFile hparse hwrite).1
  have hold : file ∈ kustomizationFiles fs' dir := by
    have hfile : file ∈ kustomizationFiles fs dir := by simp [hfiles]
    rw [kustomizationFiles, List.mem_filter, decide_eq_true_iff] at hfile ⊢
    rw [hinsert, AList.mem_insert]
    exact ⟨hfile.1, .inr hfile.2⟩
  have hnew : kustomizationFile ∈ kustomizationFiles fs' dir := by
    rw [kustomizationFiles, List.mem_filter, decide_eq_true_iff, hinsert, AList.mem_insert]
    exact ⟨by decide, .inl rfl⟩
  rw [hfiles', List.mem_singleton] at hold hnew
  rw [hold, hnew]

/-- Mutating a package leaves it with one kustomization file, the mutated one, if and only if the
package's file has the name under which the mutated kustomization is written. -/
theorem mutateInPackage_leaves_iff {y : Content} {funcs : List (MutateFunc Rest)}
    (hlaws : LoaderLaws lib) (hpackage : HoldsKustomization lib fs path dir file k)
    (hmarshal : lib.marshal (mutate k funcs) = .ok y)
    (hreload : loadKustomization lib y = .ok (mutate k funcs)) :
    (∃ fs' name, mutateInPackage lib fs funcs path = .ok fs' ∧
      mutateAndKustomize lib fs funcs path = (fs', kustomize lib fs' path) ∧
      LeavesKustomization lib fs fs' path dir (mutate k funcs) name) ↔
    file = kustomizationFile := by
  constructor
  · rintro ⟨fs', name, hmutate, -, hleaves⟩
    rw [mutateInPackage_eq_ok_iff hlaws hpackage hmarshal] at hmutate
    exact eq_kustomizationFile_of_writeFile hlaws hpackage.opens hpackage.files_eq hmutate
      hleaves.files_eq
  · rintro rfl
    have hfile : dir ++ [kustomizationFile] ∈ fs.files := by
      obtain ⟨content, hcontent, -⟩ := hpackage.loads
      rw [← AList.lookup_isSome, hcontent, Option.isSome_some]
    have hparse := Path.parse_append_name (hlaws.parse_eq hpackage.opens).1 kustomizationFile
    obtain ⟨fs', hwrite⟩ := FileSystem.exists_writeFile hparse hfile y
    have hmutate := (mutateInPackage_eq_ok_iff hlaws hpackage hmarshal).mpr hwrite
    refine ⟨fs', kustomizationFile, hmutate, ?_, ?_⟩
    · rw [mutateAndKustomize, hmutate]
    · exact leavesKustomization_of_writeFile hlaws hpackage.opens hpackage.files_eq hfile hreload
        hwrite

/-! ## A package for each name -/

def namespaceKustomization (ns : String) : Kustomization Unit where
  commonLabels := none
  commonAnnotations := none
  ns := ns
  resources := []
  images := []
  namePrefix := ""
  nameSuffix := ""
  rest := ()

/-- Kustomize for kustomizations that are nothing but a namespace. -/
def namespaceLib : KustomizeLib Unit String String where
  quote s := "\"" ++ s ++ "\""
  newLoader fs path := (Path.parse path).elim (.error "not found") fun dir ↦
    if fs.isDir dir then .ok dir else .error "not a directory"
  unmarshal content := .ok (namespaceKustomization content)
  fixKustomizationPostUnmarshalling k := k
  enforceFields _ := []
  marshal k := .ok k.ns
  run fs path :=
    if (Path.parse path).any fun dir ↦ (kustomizationFiles fs dir).length == 1 then .ok path
    else .error "no kustomization file, or several"

theorem loaderLaws_namespaceLib : LoaderLaws namespaceLib where
  parse_eq {fs path dir} h := by
    simp only [namespaceLib] at h
    cases hparse : Path.parse path with
    | none => simp [hparse] at h
    | some parsed =>
      simp only [hparse, Option.elim_some] at h
      split_ifs at h with hdir
      cases h
      exact ⟨rfl, FileSystem.isDir_iff.mp hdir⟩
  newLoader_eq {fs fs'} path hdirs := by
    have hdir : ∀ dir, fs'.isDir dir = fs.isDir dir := by
      intro dir
      rw [Bool.eq_iff_iff, FileSystem.isDir_iff, FileSystem.isDir_iff, hdirs]
    simp only [namespaceLib, hdir]

/-- A package with one file. -/
def database (file : String) : FileSystem String := .ofFiles [("db/" ++ file, "games")]

def databaseDir : Path := [⟨"db", by decide⟩]

theorem holdsKustomization_database {file : Name}
    (hfile : file ∈ recognizedKustomizationFileNames) :
    HoldsKustomization namespaceLib (database file.text) "db" databaseDir file
      (namespaceKustomization "games") := by
  have hfiles : ∀ name ∈ recognizedKustomizationFileNames,
      kustomizationFiles (database name.text) databaseDir = [name] ∧
      (database name.text).isDir databaseDir = true ∧
      (database name.text).files.lookup (databaseDir ++ [name]) = some "games" := by
    decide +kernel
  obtain ⟨hone, hdir, hcontent⟩ := hfiles file hfile
  constructor
  · have hparse : Path.parse "db" = some databaseDir := by decide
    simp only [namespaceLib, hparse, Option.elim_some, hdir, if_true]
  · exact hone
  · exact ⟨"games", hcontent, rfl⟩

theorem mutateInPackage_leaves_iff_yaml :
    HoldsKustomization namespaceLib (database "kustomization.yaml") "db" databaseDir
      kustomizationFile (namespaceKustomization "games") ∧
    ∃ fs' name,
      mutateInPackage namespaceLib (database "kustomization.yaml") [addNamespace "tools"] "db" =
        .ok fs' ∧
      mutateAndKustomize namespaceLib (database "kustomization.yaml") [addNamespace "tools"] "db" =
        (fs', kustomize namespaceLib fs' "db") ∧
      LeavesKustomization namespaceLib (database "kustomization.yaml") fs' "db" databaseDir
        (mutate (namespaceKustomization "games") [addNamespace "tools"]) name := by
  have hpackage := holdsKustomization_database (show kustomizationFile ∈ _ by decide)
  exact ⟨hpackage, (mutateInPackage_leaves_iff loaderLaws_namespaceLib hpackage rfl rfl).mpr rfl⟩

/-- A package whose file is `kustomization.yml` has two kustomization files afterwards, and can be
neither loaded nor kustomized. -/
theorem mutateInPackage_yml_leaves_two :
    HoldsKustomization namespaceLib (database "kustomization.yml") "db" databaseDir
      ⟨"kustomization.yml", by decide⟩ (namespaceKustomization "games") ∧
    (∃ fs',
      mutateInPackage namespaceLib (database "kustomization.yml") [addNamespace "tools"] "db" =
        .ok fs' ∧
      loadKustomizationFromPackage namespaceLib fs' "db" =
        .error (.errorf "found multiple kustomization files under: /db\n") ∧
      kustomize namespaceLib fs' "db" =
        .error (.plain "no kustomization file, or several")) ∧
    ¬∃ fs' name,
      mutateInPackage namespaceLib (database "kustomization.yml") [addNamespace "tools"] "db" =
        .ok fs' ∧
      mutateAndKustomize namespaceLib (database "kustomization.yml") [addNamespace "tools"] "db" =
        (fs', kustomize namespaceLib fs' "db") ∧
      LeavesKustomization namespaceLib (database "kustomization.yml") fs' "db" databaseDir
        (mutate (namespaceKustomization "games") [addNamespace "tools"]) name := by
  let yml : Name := ⟨"kustomization.yml", by decide⟩
  have hpackage := holdsKustomization_database (show yml ∈ _ by decide)
  refine ⟨hpackage, ⟨_, rfl, rfl, rfl⟩, ?_⟩
  rintro ⟨fs', name, hmutate, -, hleaves⟩
  rw [mutateInPackage_eq_ok_iff loaderLaws_namespaceLib hpackage rfl] at hmutate
  have hname := eq_kustomizationFile_of_writeFile loaderLaws_namespaceLib hpackage.opens
    hpackage.files_eq hmutate hleaves.files_eq
  exact absurd hname (by decide)

end OperatorToolkit.Declarative
