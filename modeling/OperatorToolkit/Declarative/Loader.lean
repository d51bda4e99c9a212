import OperatorToolkit.Declarative.NewBuilder

/-!
# Loading the packages of a channel

`LoadPackages` reads a channel from the disk and copies the packages of the channel into a file
system in memory, each below a directory that is named after the package, without the version. A
failure leaves what was copied before it. A file is copied in parts, and it is up to the file system
in memory what several writes to one file add up to. If they append, what `NewBuilder` finds in its
copy of the loaded file system is what is on the disk.
-/

namespace OperatorToolkit.Declarative

open Files Interaction

/-! ## The disk -/

/-- A file of the disk: it can be read, or opening it fails, or reading it fails after a part. -/
inductive Source (Content Err : Type) where
  | readable (content : Content)
  | locked (err : Err)
  | torn (part : Content) (err : Err)

/-- The entries of a directory of the disk, in the order of `ReadDir`. Links are followed, as `Stat`
does, so that no entry is a link. -/
inductive Listing (Content Err : Type) where
  | nil
  | file (name : Name) (source : Source Content Err) (rest : Listing Content Err)
  | dir (name : Name) (entries : Listing Content Err) (rest : Listing Content Err)
  /-- A directory that cannot be read. -/
  | barred (name : Name) (err : Err) (rest : Listing Content Err)
  /-- An entry that `Stat` fails on. -/
  | missing (name : Name) (err : Err) (rest : Listing Content Err)

/-- The channel type of the declarative pattern: the packages, and their versions. -/
structure Manifest where
  package : String
  version : String
  deriving DecidableEq, Repr

/-- The disk, the functions of libraries that the loader uses, and how Go prints. -/
structure Disk (Content Err : Type) where
  readDir : String → Except Err (Listing Content Err)
  readFile : String → Except Err Content
  /-- `filepath.Join`. -/
  join : List String → String
  unmarshalChannel : Content → Except Err (List Manifest)
  /-- `os.ErrInvalid`. -/
  errInvalid : Err
  noContent : Content
  /-- The parts in which `io.Copy` reads a content. -/
  parts : Content → List Content
  /-- What a file in memory holds after a `Write` to it. -/
  write : Content → Content → Content
  quote : String → String
  describe : FileError → String

variable {Content Err : Type} (disk : Disk Content Err)

/-! ## The loader -/

def createIfNotExists (fs : FileSystem Content) (dir : String) :
    FileSystem Content × Option (BuildError Err) :=
  if fs.pathExists dir then (fs, none)
  else match fs.mkdirAll dir with
    | .ok fs' => (fs', none)
    | .error err => (fs, some (.errorf ("failed to create directory: " ++ disk.quote dir ++
        ", error: " ++ disk.describe err)))

/-- What `io.Copy` leaves in a new file. -/
def Disk.written (content : Content) : Content :=
  (disk.parts content).foldl disk.write disk.noContent

/-- A `Write` to a file in memory appends, so that the parts add up to the content. -/
def Disk.Appends : Prop := ∀ content, disk.written content = content

/-- The file system after `io.Copy` into a new file. -/
def fill (fs : FileSystem Content) (dstFile : String) (content : Content) :
    FileSystem Content :=
  (fs.writeFile dstFile (disk.written content)).toOption.getD fs

/-- The file is made before the source is opened. If that fails, closing the source fails as well,
and that error is returned in its place. -/
def copy (fs : FileSystem Content) (dstFile : String) (source : Source Content Err) :
    FileSystem Content × Option (BuildError Err) :=
  match fs.writeFile dstFile disk.noContent with
  | .error err => (fs, some (.file err))
  | .ok created =>
    match source with
    | .locked _ => (created, some (.plain disk.errInvalid))
    | .torn part err => (fill disk created dstFile part, some (.plain err))
    | .readable content => (fill disk created dstFile content, none)

/-- `CopyDirectory`, given the entries of the source directory. -/
def copyDirectory (fs : FileSystem Content) (dest : String) :
    Listing Content Err → FileSystem Content × Option (BuildError Err)
  | .nil => (fs, none)
  | .file name source rest =>
    match copy disk fs (dest ++ "/" ++ name.text) source with
    | (fs', some err) => (fs', some err)
    | (fs', none) => copyDirectory fs' dest rest
  | .dir name entries rest =>
    match createIfNotExists disk fs (dest ++ "/" ++ name.text) with
    | (fs', some err) => (fs', some err)
    | (fs', none) =>
      match copyDirectory fs' (dest ++ "/" ++ name.text) entries with
      | (fs'', some err) => (fs'', some err)
      | (fs'', none) => copyDirectory fs'' dest rest
  | .barred name err _ =>
    match createIfNotExists disk fs (dest ++ "/" ++ name.text) with
    | (fs', some err) => (fs', some err)
    | (fs', none) => (fs', some (.plain err))
  | .missing _ err _ => (fs, some (.plain err))

def packagePath (baseDir : String) (manifest : Manifest) : String :=
  disk.join [baseDir, "packages", manifest.package, manifest.version]

def loadManifests (baseDir : String) :
    List Manifest → FileSystem Content → FileSystem Content × Option (BuildError Err)
  | [], fs => (fs, none)
  | manifest :: manifests, fs =>
    let path := packagePath disk baseDir manifest
    match disk.readDir path with
    | .error err =>
      (fs, some (.wrap ("failed to load manifests at " ++ disk.quote path) (.plain err)))
    | .ok listing =>
      match copyDirectory disk fs manifest.package listing with
      | (fs', some err) =>
        (fs', some (.wrap ("failed to load manifests at " ++ disk.quote path) err))
      | (fs', none) => loadManifests baseDir manifests fs'

/-- The default, if the text is empty. -/
def orDefault (text default : String) : String := if text = "" then default else text

def loadPackages (fs : FileSystem Content) (baseDir channel : String) :
    FileSystem Content × Option (BuildError Err) :=
  let baseDir := orDefault baseDir "channels"
  let p := disk.join [baseDir, orDefault channel "stable"]
  match disk.readFile p with
  | .error err => (fs, some (.wrap ("failed to read file " ++ disk.quote p) (.plain err)))
  | .ok b =>
    match disk.unmarshalChannel b with
    | .error err =>
      (fs, some (.wrap ("failed to unmarshal channel " ++ disk.quote p) (.plain err)))
    | .ok manifests => loadManifests disk baseDir manifests fs

def newLoadedManifestFileSystem (baseDir channel : String) :
    Except (BuildError Err) (FileSystem Content) :=
  match loadPackages disk .empty (orDefault baseDir "channels") (orDefault channel "stable") with
  | (_, some err) => .error (.wrap "failed to load channel packages" err)
  | (fs, none) => .ok fs

/-! ## What is on the disk -/

/-- The content of a file below a directory of the disk. -/
def Listing.lookup : Listing Content Err → Path → Option Content
  | .nil, _ => none
  | .file name (.readable content) rest, path =>
    (rest.lookup path).or (if path = [name] then some content else none)
  | .dir name entries rest, path =>
    (rest.lookup path).or
      (if path.head? = some name then entries.lookup path.tail else none)
  | .file _ _ rest, path | .barred _ _ rest, path | .missing _ _ rest, path => rest.lookup path

/-- The directory in memory that a package is copied to. -/
def destDir (dest : String) : Option Path := if dest = "" then some [] else Path.parse dest

/-- The content that the package has for a path in memory. -/
def inPackage (baseDir : String) (manifest : Manifest) (path : Path) : Option Content := do
  let listing ← (disk.readDir (packagePath disk baseDir manifest)).toOption
  let dir ← destDir manifest.package
  if dir <+: path then listing.lookup (path.drop dir.length) else none

/-- The content that the last of the packages that have the file has for it. -/
def onDisk (baseDir : String) : List Manifest → Path → Option Content
  | [], _ => none
  | manifest :: manifests, path =>
    (onDisk baseDir manifests path).or (inPackage disk baseDir manifest path)

/-- The channel, as `LoadPackages` reads it. -/
def readChannel (baseDir channel : String) : Except Err (List Manifest) := do
  disk.unmarshalChannel (← disk.readFile (disk.join [baseDir, channel]))

/-! ## What is loaded -/

variable {disk} {fs fs' : FileSystem Content} {dest : String} {dir : Path}

theorem parse_in_dest (dest : String) (name : Name) :
    Path.parse (dest ++ "/" ++ name.text) = (destDir dest).map (· ++ [name]) := by
  unfold destDir
  split_ifs with hempty
  · subst hempty
    have htext : "" ++ "/" ++ name.text = Path.toString [name] := by
      simp [Path.toString, Path.chars]
    rw [htext, Path.parse_toString]
    rfl
  · exact Path.parse_append_name_eq hempty name

theorem destDir_in_dest (dest : String) (name : Name) :
    destDir (dest ++ "/" ++ name.text) = (destDir dest).map (· ++ [name]) := by
  have htext : dest ++ "/" ++ name.text ≠ "" := by
    intro hnil
    simpa using congrArg String.toList hnil
  rw [destDir, if_neg htext, parse_in_dest]

/-- The files of the listing are in the directory, and no other file has changed. -/
structure Overlays (disk : Disk Content Err) (dir : Path) (listing : Listing Content Err)
    (fs fs' : FileSystem Content) : Prop where
  inside : ∀ rel, fs'.files.lookup (dir ++ rel) =
    ((listing.lookup rel).map disk.written).or (fs.files.lookup (dir ++ rel))
  outside : ∀ path, ¬dir <+: path → fs'.files.lookup path = fs.files.lookup path
  closed : fs.Closed → fs'.Closed

theorem createIfNotExists_eq (h : createIfNotExists disk fs dest = (fs', none)) :
    fs'.files = fs.files ∧ (fs.Closed → fs'.Closed) := by
  unfold createIfNotExists at h
  split_ifs at h
  · cases h
    exact ⟨rfl, id⟩
  · cases hmkdir : fs.mkdirAll dest with
    | error err => simp [hmkdir] at h
    | ok made =>
      simp only [hmkdir] at h
      cases h
      exact ⟨FileSystem.files_of_mkdirAll hmkdir, fun hclosed ↦ hclosed.mkdirAll hmkdir⟩

/-- A copy without an error is of a file that can be read. -/
theorem copy_eq {source : Source Content Err} (h : copy disk fs dest source = (fs', none)) :
    ∃ path content, Path.parse dest = some path ∧ source = .readable content ∧
      fs'.files = fs.files.insert path (disk.written content) ∧ (fs.Closed → fs'.Closed) := by
  unfold copy at h
  cases hdest : Path.parse dest with
  | none => simp [FileSystem.writeFile, hdest] at h
  | some path =>
  cases hcreate : fs.writeFile dest disk.noContent with
  | error err => simp [hcreate] at h
  | ok created =>
    simp only [hcreate] at h
    cases source with
    | locked err => simp at h
    | torn part err => simp at h
    | readable content =>
      obtain ⟨hfiles, -⟩ := FileSystem.files_of_writeFile hdest hcreate
      have hpath : path ∈ created.files := by
        rw [hfiles, AList.mem_insert]
        exact .inl rfl
      obtain ⟨filled, hfill⟩ := FileSystem.exists_writeFile hdest hpath (disk.written content)
      obtain rfl : filled = fs' := by
        simpa [fill, hfill, Except.toOption] using h
      refine ⟨path, content, rfl, rfl, ?_,
        fun hclosed ↦ (hclosed.writeFile hcreate).writeFile hfill⟩
      rw [(FileSystem.files_of_writeFile hdest hfill).1, hfiles, AList.insert_insert]

theorem Overlays.nil (fs : FileSystem Content) :
    Overlays disk dir (.nil : Listing Content Err) fs fs :=
  ⟨fun _ ↦ rfl, fun _ _ ↦ rfl, id⟩

theorem overlays_file {name : Name} {content : Content} {rest : Listing Content Err}
    {mid : FileSystem Content}
    (hfiles : mid.files = fs.files.insert (dir ++ [name]) (disk.written content))
    (hclosed : fs.Closed → mid.Closed) (hrest : Overlays disk dir rest mid fs') :
    Overlays disk dir (.file name (.readable content) rest) fs fs' where
  inside rel := by
    rw [hrest.inside rel, Listing.lookup, hfiles, Option.map_or, Option.or_assoc]
    congr 1
    by_cases hrel : rel = [name]
    · rw [hrel, AList.lookup_insert, if_pos rfl, Option.map_some, Option.some_or]
    · have hne : dir ++ rel ≠ dir ++ [name] := fun heq ↦ hrel (List.append_cancel_left heq)
      rw [AList.lookup_insert_ne hne, if_neg hrel, Option.map_none, Option.none_or]
  outside path hpath := by
    have hne : path ≠ dir ++ [name] := by
      rintro rfl
      exact hpath (List.prefix_append dir [name])
    rw [hrest.outside path hpath, hfiles, AList.lookup_insert_ne hne]
  closed := hrest.closed ∘ hclosed

theorem overlays_dir {name : Name} {entries rest : Listing Content Err}
    {made mid : FileSystem Content} (hfiles : made.files = fs.files)
    (hclosed : fs.Closed → made.Closed) (hentries : Overlays disk (dir ++ [name]) entries made mid)
    (hrest : Overlays disk dir rest mid fs') :
    Overlays disk dir (.dir name entries rest) fs fs' where
  inside rel := by
    rw [hrest.inside rel, Listing.lookup, Option.map_or, Option.or_assoc]
    congr 1
    by_cases hhead : rel.head? = some name
    · obtain ⟨tail, rfl⟩ := List.head?_eq_some_iff.mp hhead
      have hinside := hentries.inside tail
      rw [List.append_assoc, List.singleton_append, hfiles] at hinside
      rw [hinside, if_pos hhead, List.tail_cons]
    · have houtside : ¬dir ++ [name] <+: dir ++ rel := by
        rw [List.prefix_append_right_inj]
        rintro ⟨tail, rfl⟩
        exact hhead rfl
      rw [hentries.outside _ houtside, hfiles, if_neg hhead, Option.map_none, Option.none_or]
  outside path hpath := by
    have houtside : ¬dir ++ [name] <+: path := fun hleads ↦
      hpath ((List.prefix_append dir [name]).trans hleads)
    rw [hrest.outside path hpath, hentries.outside path houtside, hfiles]
  closed := hrest.closed ∘ hentries.closed ∘ hclosed

/-- The induction is on the entries, with what was copied before them in the file system. -/
theorem overlays_copyDirectory {listing : Listing Content Err} (hdest : destDir dest = some dir)
    (h : copyDirectory disk fs dest listing = (fs', none)) : Overlays disk dir listing fs fs' := by
  induction listing generalizing fs fs' dest dir with
  | nil =>
    cases h
    exact .nil fs
  | file name source rest ih =>
    rw [copyDirectory] at h
    split at h
    next => cases h
    next mid hcopy =>
      obtain ⟨path, content, hpath, rfl, hfiles, hclosed⟩ := copy_eq hcopy
      rw [parse_in_dest, hdest, Option.map_some, Option.some_inj] at hpath
      subst hpath
      exact overlays_file hfiles hclosed (ih hdest h)
  | dir name entries rest ihentries ihrest =>
    rw [copyDirectory] at h
    split at h
    next => cases h
    next made hmade =>
      split at h
      next => cases h
      next mid hmid =>
        obtain ⟨hfiles, hclosed⟩ := createIfNotExists_eq hmade
        have hinner : destDir (dest ++ "/" ++ name.text) = some (dir ++ [name]) := by
          rw [destDir_in_dest, hdest, Option.map_some]
        exact overlays_dir hfiles hclosed (ihentries hinner hmid) (ihrest hdest h)
  | barred name err rest =>
    rw [copyDirectory] at h
    split at h <;> cases h
  | missing name err rest => cases h

/-- A package without a place in memory has nothing that can be copied. -/
theorem copyDirectory_of_destDir_none {listing : Listing Content Err} (hdest : destDir dest = none)
    (h : copyDirectory disk fs dest listing = (fs', none)) : fs' = fs := by
  cases listing with
  | nil =>
    cases h
    rfl
  | file name source rest =>
    rw [copyDirectory] at h
    split at h
    next => cases h
    next mid hcopy =>
      obtain ⟨path, _, hpath, -⟩ := copy_eq hcopy
      rw [parse_in_dest, hdest] at hpath
      cases hpath
  | dir name entries rest =>
    have hparse : Path.parse (dest ++ "/" ++ name.text) = none := by rw [parse_in_dest, hdest]; rfl
    simp [copyDirectory, createIfNotExists, FileSystem.pathExists, FileSystem.mkdirAll, hparse] at h
  | barred name err rest =>
    rw [copyDirectory] at h
    split at h <;> cases h
  | missing name err rest => cases h

theorem lookup_copyDirectory {baseDir : String} {manifest : Manifest}
    {listing : Listing Content Err}
    (hlisting : disk.readDir (packagePath disk baseDir manifest) = .ok listing)
    (h : copyDirectory disk fs manifest.package listing = (fs', none)) :
    (∀ path, fs'.files.lookup path =
      ((inPackage disk baseDir manifest path).map disk.written).or (fs.files.lookup path)) ∧
      (fs.Closed → fs'.Closed) := by
  cases hdest : destDir manifest.package with
  | none =>
    rw [copyDirectory_of_destDir_none hdest h]
    refine ⟨fun path ↦ ?_, id⟩
    simp [inPackage, hlisting, hdest, Except.toOption]
  | some dir =>
    have hoverlays := overlays_copyDirectory hdest h
    refine ⟨fun path ↦ ?_, hoverlays.closed⟩
    by_cases hleads : dir <+: path
    · obtain ⟨rel, rfl⟩ := hleads
      rw [hoverlays.inside rel]
      simp [inPackage, hlisting, hdest, Except.toOption]
    · rw [hoverlays.outside path hleads]
      simp [inPackage, hlisting, hdest, Except.toOption, hleads]

theorem lookup_loadManifests {baseDir : String} {manifests : List Manifest}
    (h : loadManifests disk baseDir manifests fs = (fs', none)) :
    (∀ path, fs'.files.lookup path =
      ((onDisk disk baseDir manifests path).map disk.written).or (fs.files.lookup path)) ∧
      (fs.Closed → fs'.Closed) := by
  induction manifests generalizing fs with
  | nil =>
    cases h
    exact ⟨fun _ ↦ rfl, id⟩
  | cons manifest manifests ih =>
    rw [loadManifests] at h
    split at h
    next => cases h
    next listing hlisting =>
      split at h
      next => cases h
      next mid hcopy =>
        obtain ⟨hlookup, hclosed⟩ := lookup_copyDirectory hlisting hcopy
        obtain ⟨hlookup', hclosed'⟩ := ih h
        refine ⟨fun path ↦ ?_, hclosed' ∘ hclosed⟩
        rw [hlookup' path, hlookup path, onDisk, Option.map_or, Option.or_assoc]

/-- A loaded file system has the files of the channel's packages, as `io.Copy` has left them. -/
theorem lookup_newLoadedManifestFileSystem {baseDir channel : String}
    (h : newLoadedManifestFileSystem disk baseDir channel = .ok fs) :
    ∃ manifests, readChannel disk (orDefault baseDir "channels") (orDefault channel "stable") =
        .ok manifests ∧
      (∀ path, fs.files.lookup path =
        (onDisk disk (orDefault baseDir "channels") manifests path).map disk.written) ∧
      fs.Closed := by
  have horDefault (text default : String) (hdefault : default ≠ "") :
      orDefault (orDefault text default) default = orDefault text default := by
    unfold orDefault
    split_ifs <;> simp_all
  unfold newLoadedManifestFileSystem at h
  split at h
  next => cases h
  next loaded hload =>
    cases h
    rw [loadPackages, horDefault baseDir "channels" (by decide),
      horDefault channel "stable" (by decide)] at hload
    split at hload
    next => cases hload
    next b hread =>
      split at hload
      next => cases hload
      next manifests hmanifests =>
        obtain ⟨hlookup, hclosed⟩ := lookup_loadManifests hload
        refine ⟨manifests, ?_, fun path ↦ ?_, hclosed FileSystem.closed_empty⟩
        · rw [readChannel, hread]
          exact hmanifests
        · rw [hlookup path]
          simp [FileSystem.empty]

/-- **From the disk to a builder.** If the packages of a channel are loaded without an error, a
builder's copy of the loaded file system is made without an error, and a file of the copy holds what
`io.Copy` leaves of the content of the disk: that of the last package of the channel that has the
file. If a `Write` in memory appends, that is the content itself. A file that no package has is not
there. -/
theorem loaded_copied {ι TransformFunc Obj M Rest : Type} [DecidableEq ι]
    {kustomizeLib : KustomizeLib Rest Content Err} {meaning : M → MutateFunc Rest}
    {run : TransformFunc → Obj → Except Err Obj}
    {baseDir channel : String} (hload : newLoadedManifestFileSystem disk baseDir channel = .ok fs)
    (i : ι) {result : Option Err} {heap' : Heap ι Content}
    (hcopy : Yields (buildService kustomizeLib meaning run) (heapOf fs)
      (deepCopy .given (.copy i)) result heap') :
    result = none ∧
      ∃ manifests, readChannel disk (orDefault baseDir "channels") (orDefault channel "stable") =
          .ok manifests ∧
        (∀ path, (heap' (.copy i)).files.lookup path =
          (onDisk disk (orDefault baseDir "channels") manifests path).map disk.written) ∧
        (disk.Appends → ∀ path, (heap' (.copy i)).files.lookup path =
          onDisk disk (orDefault baseDir "channels") manifests path) := by
  obtain ⟨manifests, hchannel, hlookup, hclosed⟩ := lookup_newLoadedManifestFileSystem hload
  obtain ⟨hnone, hsame, -⟩ := deepCopy_same (by simp) hclosed rfl hcopy
  have hcopied (path : Path) : (heap' (.copy i)).files.lookup path =
      (onDisk disk (orDefault baseDir "channels") manifests path).map disk.written := by
    rw [hsame.lookup path, ← hlookup path]
    rfl
  refine ⟨hnone, manifests, hchannel, hcopied, fun happends path ↦ ?_⟩
  rw [hcopied path, funext happends, Option.map_id']

/-- A disk with one package, which has a file and a directory with another one. A content is read in
two parts. -/
def registryDisk : Disk String String where
  readDir path :=
    if path = "channels/packages/db/0.1.0" then
      .ok (.file ⟨"role.yaml", by decide⟩ (.readable "role")
        (.dir ⟨"crd", by decide⟩ (.file ⟨"db.yaml", by decide⟩ (.readable "crd") .nil) .nil))
    else .error "not found"
  readFile path := if path = "channels/stable" then .ok "db" else .error "not found"
  join := "/".intercalate
  unmarshalChannel content := .ok [⟨content, "0.1.0"⟩]
  errInvalid := "invalid argument"
  noContent := ""
  parts content := [.ofList (content.toList.take 2), .ofList (content.toList.drop 2)]
  write old part := old ++ part
  quote text := "\"" ++ text ++ "\""
  describe _ := "cannot be made"

def crdPath : Path := databaseDir ++ [⟨"crd", by decide⟩, ⟨"db.yaml", by decide⟩]

theorem appends_registryDisk : registryDisk.Appends := by
  intro content
  apply String.toList_inj.mp
  simp [Disk.written, registryDisk]

theorem loaded_copied_registry :
    ∃ fs heap', newLoadedManifestFileSystem registryDisk "" "" = .ok fs ∧
      Yields (buildService namespaceLib id appendText) (heapOf fs) (deepCopy .given (.copy 0)) none
        heap' ∧
      (heap' (.copy 0)).files.lookup crdPath = some "crd" := by
  obtain ⟨fs, hload⟩ : ∃ fs, newLoadedManifestFileSystem registryDisk "" "" = .ok fs := ⟨_, rfl⟩
  have hcopy : Yields (buildService namespaceLib id appendText) (heapOf fs)
      (deepCopy .given (.copy 0)) _ _ :=
    Program.yields_interpret (answers_respondBuild namespaceLib id) _ _
  obtain ⟨hnone, manifests, hchannel, -, hlookup⟩ := loaded_copied hload 0 hcopy
  have hmanifests : readChannel registryDisk (orDefault "" "channels") (orDefault "" "stable") =
      .ok [⟨"db", "0.1.0"⟩] := rfl
  obtain rfl := Except.ok.inj (hmanifests.symm.trans hchannel)
  rw [hnone] at hcopy
  refine ⟨fs, _, hload, hcopy, ?_⟩
  rw [hlookup appends_registryDisk crdPath]
  decide +kernel

end OperatorToolkit.Declarative
