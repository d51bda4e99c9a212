import OperatorToolkit.Declarative.Transform
import OperatorToolkit.Interaction.Execution

/-!
# The common transforms of a builder

A builder runs its common transforms on all manifests of its package. `ManifestTransformForPackage`
walks through the package and picks the files that are not kustomization files. Which files these
are is decided by the ends of their paths: every file whose name ends in the name of a kustomization
file is taken for one.
-/

namespace OperatorToolkit.Declarative

open Interaction Files

variable {TransformFunc Obj Content Err : Type}

def isKustomization (path : String) : Bool :=
  recognizedKustomizationFileNames.any fun name ↦ hasSuffix path name.text

/-- The callback of the walk, called for one file or directory after the other. -/
def pickManifests (quote : String → String) : List (Visit Err) → ManifestTransform TransformFunc →
    Except (BuildError Err) (ManifestTransform TransformFunc)
  | [], mt => .ok mt
  | visit :: visits, mt =>
    match visit.err with
    | some err => .error (.wrap ("failed accessing path " ++ quote visit.path) (.plain err))
    | none =>
      if visit.isDir || isKustomization visit.path then pickManifests quote visits mt
      else pickManifests quote visits (mt.insert visit.path [])

variable (yaml : YamlLib Obj Content Err)

def manifestTransformForPackage (packageName : String) :
    Program (fsCalls TransformFunc Obj Content Err)
      (Except (BuildError Err) (ManifestTransform TransformFunc)) := do
  match ← FsCall.walk TransformFunc Obj Content Err packageName with
  | .error err => return .error (.plain err)
  | .ok visits => return pickManifests yaml.quote visits ∅

/-- The part of `NewBuilder` that applies the common transforms. `iterate` is how Go goes through a
map. -/
def applyCommonTransforms
    (iterate : ManifestTransform TransformFunc → List (Sigma fun _ : String ↦ List TransformFunc))
    (packageName : String) (commonTransforms : List TransformFunc) :
    Program (fsCalls TransformFunc Obj Content Err) (Option (BuildError Err)) :=
  if commonTransforms.length > 0 then do
    match ← manifestTransformForPackage yaml packageName with
    | .error err =>
      return some (.wrap ("failed to get ManifestTransform for package " ++
        yaml.quote packageName) err)
    | .ok mt =>
      match ← transform yaml commonTransforms (iterate mt) with
      | some err =>
        return some (.wrap ("failed to transform package " ++ yaml.quote packageName) err)
      | none => return none
  else return none

/-! ## The files that are picked -/

/-- The file is at or below the package's path. -/
def InPackage (packageName : String) (file : Path) : Prop :=
  ∃ dir, Path.parse packageName = some dir ∧ dir <+: file

/-- The file belongs to the package, and its name is not one of those of a kustomization file. -/
def IsManifest (packageName : String) (file : Path) : Prop :=
  InPackage packageName file ∧ ∀ name ∈ file.base, name ∉ recognizedKustomizationFileNames

/-- No file of the package has a name that ends in the name of a kustomization file, other than
these names. -/
def NoSuffixedNames (fs : FileSystem Content) (packageName : String) : Prop :=
  ∀ file ∈ fs.files, InPackage packageName file → ∀ name ∈ file.base,
    isKustomization name.text → name ∈ recognizedKustomizationFileNames

/-- The files whose paths `IsKustomization` does not take for a kustomization file. -/
def Picked (fs : FileSystem Content) (packageName : String) (file : Path) : Prop :=
  file ∈ fs.files ∧ InPackage packageName file ∧ isKustomization file.toString = false

theorem isKustomization_toString {file : Path} {name : Name} (hname : name ∈ file.base) :
    isKustomization file.toString = isKustomization name.text := by
  obtain ⟨dir, rfl⟩ := List.getLast?_eq_some_iff.mp hname
  rw [isKustomization, isKustomization]
  congr 1
  funext recognized
  exact hasSuffix_toString dir name recognized.isName.2.2.2

theorem isKustomization_of_mem {name : Name} (hname : name ∈ recognizedKustomizationFileNames) :
    isKustomization name.text = true := by
  apply List.any_eq_true.mpr
  exact ⟨name, hname, List.isSuffixOf_iff_suffix.mpr (List.suffix_refl _)⟩

theorem exists_base {fs : FileSystem Content} {file : Path} (hfile : file ∈ fs.files) :
    ∃ name, name ∈ file.base := by
  cases hbase : file.base with
  | some name => exact ⟨name, rfl⟩
  | none =>
    rw [List.getLast?_eq_none_iff.mp hbase] at hfile
    exact absurd fs.root_mem (fs.not_mem_dirs [] hfile)

theorem Picked.isManifest {fs : FileSystem Content} {packageName : String} {file : Path}
    (h : Picked fs packageName file) : IsManifest packageName file := by
  obtain ⟨_, hpackage, hkustomization⟩ := h
  refine ⟨hpackage, fun name hname hrecognized ↦ ?_⟩
  rw [isKustomization_toString hname, isKustomization_of_mem hrecognized] at hkustomization
  cases hkustomization

/-- All manifests are picked if no manifest has a name like that of a kustomization file. -/
theorem noSuffixedNames_iff {fs : FileSystem Content} {packageName : String} :
    NoSuffixedNames fs packageName ↔
      ∀ file ∈ fs.files, IsManifest packageName file → Picked fs packageName file := by
  constructor
  · intro h file hfile hmanifest
    obtain ⟨name, hname⟩ := exists_base hfile
    refine ⟨hfile, hmanifest.1, ?_⟩
    rw [isKustomization_toString hname, Bool.eq_false_iff]
    intro hsuffix
    exact hmanifest.2 name hname (h file hfile hmanifest.1 name hname hsuffix)
  · intro h file hfile hpackage name hname hsuffix
    by_contra hrecognized
    have hmanifest : IsManifest packageName file := by
      refine ⟨hpackage, fun other hother ↦ ?_⟩
      rwa [Option.mem_unique hother hname]
    have hpicked := (h file hfile hmanifest).2.2
    rw [isKustomization_toString hname, hsuffix] at hpicked
    cases hpicked

/-! ## The walk -/

/-- One step of a walk without errors. -/
theorem pickManifests_cons_eq_ok_iff {quote : String → String} {visit : Visit Err}
    {visits : List (Visit Err)} {mt mt' : ManifestTransform TransformFunc} :
    pickManifests quote (visit :: visits) mt = .ok mt' ↔
      visit.err = none ∧ pickManifests quote visits
        (if visit.isDir || isKustomization visit.path then mt else mt.insert visit.path []) =
          .ok mt' := by
  rw [pickManifests]
  cases visit.err with
  | some err => simp
  | none => split_ifs <;> simp

theorem mem_pickManifests {quote : String → String} {visits : List (Visit Err)}
    {mt mt' : ManifestTransform TransformFunc} (h : pickManifests quote visits mt = .ok mt')
    (path : String) :
    path ∈ mt' ↔ path ∈ mt ∨ ∃ visit ∈ visits,
      (visit.isDir || isKustomization visit.path) = false ∧ path = visit.path := by
  induction visits generalizing mt with
  | nil =>
    cases h
    simp
  | cons visit visits ih =>
    rw [ih (pickManifests_cons_eq_ok_iff.mp h).2, List.exists_mem_cons_iff]
    cases visit.isDir || isKustomization visit.path with
    | true => simp
    | false => simp [AList.mem_insert, or_assoc, or_left_comm]

/-- The manifests have no transforms of their own. -/
theorem eq_nil_of_pickManifests {quote : String → String} {visits : List (Visit Err)}
    {mt mt' : ManifestTransform TransformFunc} (h : pickManifests quote visits mt = .ok mt')
    (hmt : ∀ path, ∀ transforms ∈ mt.lookup path, transforms = []) :
    ∀ path, ∀ transforms ∈ mt'.lookup path, transforms = [] := by
  induction visits generalizing mt with
  | nil =>
    cases h
    exact hmt
  | cons visit visits ih =>
    apply ih (pickManifests_cons_eq_ok_iff.mp h).2
    split_ifs
    · exact hmt
    · intro path transforms hlookup
      by_cases hpath : path = visit.path
      · subst hpath
        simpa [eq_comm] using hlookup
      · rw [AList.lookup_insert_ne hpath] at hlookup
        exact hmt path transforms hlookup

section Phase

variable {yaml : YamlLib Obj Content Err} {fs fs' : FileSystem Content} {packageName : String}
  {commonTransforms : List TransformFunc}
  {calls : List (fsCalls TransformFunc Obj Content Err).Call}
  {iterate : ManifestTransform TransformFunc → List (Sigma fun _ : String ↦ List TransformFunc)}

/-- The walk through a package finds the picked files. -/
theorem mem_manifests_iff {dir : Path} {visits : List (Visit Err)}
    {mt : ManifestTransform TransformFunc} (hdir : Path.parse packageName = some dir)
    (hvisits : List.Perm visits (visitsBelow Err fs dir))
    (hpick : pickManifests yaml.quote visits ∅ = .ok mt) (path : String) :
    path ∈ mt ↔ ∃ file, Picked fs packageName file ∧ path = file.toString := by
  rw [mem_pickManifests hpick]
  constructor
  · rintro (hempty | ⟨visit, hvisit, hskip, rfl⟩)
    · exact absurd hempty (AList.notMem_empty path)
    · rw [hvisits.mem_iff, visitsBelow, List.mem_map] at hvisit
      obtain ⟨⟨file, isDir⟩, hnode, rfl⟩ := hvisit
      obtain ⟨rfl, hkustomization⟩ := Bool.or_eq_false_iff.mp hskip
      obtain ⟨hfile, hbelow⟩ := FileSystem.mem_below_false.mp hnode
      exact ⟨file, ⟨hfile, ⟨dir, hdir, hbelow⟩, hkustomization⟩, rfl⟩
  · rintro ⟨file, ⟨hfile, ⟨dir', hdir', hbelow⟩, hkustomization⟩, rfl⟩
    obtain rfl : dir = dir' := by rwa [hdir, Option.some_inj] at hdir'
    have hnode : (file, false) ∈ fs.below dir := FileSystem.mem_below_false.mpr ⟨hfile, hbelow⟩
    refine .inr ⟨{ path := file.toString, isDir := false, err := none }, ?_, ?_, rfl⟩
    · rw [hvisits.mem_iff, visitsBelow]
      exact List.mem_map_of_mem hnode
    · simpa using hkustomization

theorem walk_of_runs {mt : ManifestTransform TransformFunc}
    (hruns : Program.Runs (manifestTransformForPackage yaml packageName) calls (.ok mt)) :
    ∃ visits, pickManifests yaml.quote visits ∅ = .ok mt ∧
      calls = [⟨.walk packageName, (.ok visits : Except Err (List (Visit Err)))⟩] := by
  obtain ⟨reply, rest, rfl, hrest⟩ := Program.runs_call_iff.mp hruns
  cases reply with
  | error err => simp [Program.bind] at hrest
  | ok visits =>
    obtain ⟨rfl, hpick⟩ := Program.runs_done_iff.mp hrest
    exact ⟨visits, hpick.symm, rfl⟩

/-- A successful run walks through the package and transforms what it has picked. -/
theorem transform_of_runs (hcommon : commonTransforms ≠ [])
    (hruns : Program.Runs (applyCommonTransforms yaml iterate packageName commonTransforms) calls
      none) :
    ∃ visits mt rest, pickManifests yaml.quote visits ∅ = .ok mt ∧
      calls = ⟨.walk packageName, (.ok visits : Except Err (List (Visit Err)))⟩ :: rest ∧
      Program.Runs (transform yaml commonTransforms (iterate mt)) rest none := by
  rw [applyCommonTransforms, if_pos (List.length_pos_of_ne_nil hcommon)] at hruns
  obtain ⟨first, outcome, rest, rfl, hfirst, hrest⟩ := Program.runs_bind_iff.mp hruns
  cases outcome with
  | error err => simp at hrest
  | ok mt =>
    obtain ⟨visits, hpick, rfl⟩ := walk_of_runs hfirst
    obtain ⟨second, outcome, last, rfl, hsecond, hlast⟩ := Program.runs_bind_iff.mp hrest
    cases outcome with
    | some err => simp at hlast
    | none =>
      obtain ⟨rfl, -⟩ := Program.runs_done_iff.mp hlast
      exact ⟨visits, mt, second, hpick, by simp, hsecond⟩

/-- Different entries of the picked manifests are different files. -/
theorem nodup_parse_manifests {mt : ManifestTransform TransformFunc}
    {entries : List (Sigma fun _ : String ↦ List TransformFunc)}
    (hentries : entries.Perm mt.entries)
    (hmt : ∀ path ∈ mt, ∃ file : Path, path = file.toString) :
    (entries.map fun entry ↦ Path.parse entry.1).Nodup := by
  have hkeys : (entries.map Sigma.fst).Nodup := (hentries.map Sigma.fst).nodup_iff.mpr mt.nodupKeys
  have hmap : (entries.map fun entry ↦ Path.parse entry.1) =
      (entries.map Sigma.fst).map Path.parse := by
    rw [List.map_map]
    rfl
  rw [hmap]
  apply hkeys.map_on
  intro path hpath other hother hparse
  have hmem : ∀ key, key ∈ entries.map Sigma.fst → key ∈ mt := fun key hkey ↦
    (hentries.map Sigma.fst).mem_iff.mp hkey
  obtain ⟨file, rfl⟩ := hmt path (hmem path hpath)
  obtain ⟨file', rfl⟩ := hmt other (hmem other hother)
  rw [Path.parse_toString, Path.parse_toString, Option.some_inj] at hparse
  rw [hparse]

/-- A successful run transforms the picked files once, and touches no other file. -/
theorem transformedOnce_of_runs (hiterate : ∀ mt, List.Perm (iterate mt) mt.entries)
    (hcommon : commonTransforms ≠ [])
    (hruns : Program.Runs (applyCommonTransforms yaml iterate packageName commonTransforms) calls
      none)
    (hserved : Served (fileService TransformFunc Obj Content Err) fs calls fs') :
    (∀ file, Picked fs packageName file → TransformedOnce yaml commonTransforms file calls) ∧
      ∀ file, ¬Picked fs packageName file → Untouched file calls := by
  obtain ⟨visits, mt, rest, hpick, rfl, htransform⟩ := transform_of_runs hcommon hruns
  obtain ⟨segments, rfl, hsegments⟩ := forall₂_transforms_of_runs htransform
  cases hserved with
  | cons hwalk _ =>
  cases hwalk with
  | walk hdir _ hvisits =>
  have hmem := mem_manifests_iff hdir hvisits hpick
  have hentries : ∀ entry ∈ iterate mt, entry.1 ∈ mt ∧ entry.2 = [] := by
    intro entry hentry
    have hlookup := AList.mem_lookup_iff.mpr ((hiterate mt).mem_iff.mp hentry)
    refine ⟨AList.lookup_isSome.mp (Option.isSome_of_mem hlookup), ?_⟩
    exact eq_nil_of_pickManifests hpick (by simp) entry.1 entry.2 hlookup
  -- The walk itself touches no file.
  let walked : (fsCalls TransformFunc Obj Content Err).Call :=
    ⟨.walk packageName, (.ok visits : Except Err (List (Visit Err)))⟩
  have hwalked : ∀ file, Untouched file [walked] := by
    simp [Untouched, FsRequest.file, walked]
  constructor
  · intro file hfile
    have hkey : file.toString ∈ mt := (hmem _).mpr ⟨file, hfile, rfl⟩
    obtain ⟨entry, hentry, hpath⟩ := List.mem_map.mp hkey
    rw [← (hiterate mt).mem_iff] at hentry
    have hparse : Path.parse entry.1 = some file := by rw [hpath, Path.parse_toString]
    have hdistinct := nodup_parse_manifests (hiterate mt) fun path hpath ↦
      ((hmem path).mp hpath).imp fun _ h ↦ h.2
    have honce := transformedOnce_flatten hsegments hdistinct hentry hparse
    rw [(hentries entry hentry).2, List.nil_append] at honce
    exact honce.append_left (hwalked file)
  · intro file hfile
    have hsegmentsUntouched : Untouched file segments.flatten := by
      apply untouched_flatten hsegments
      intro entry hentry hparse
      obtain ⟨picked, hpicked, hpath⟩ := (hmem _).mp (hentries entry hentry).1
      rw [hpath, Path.parse_toString, Option.some_inj] at hparse
      exact hfile (hparse ▸ hpicked)
    exact untouched_append_iff.mpr ⟨hwalked file, hsegmentsUntouched⟩

/-! ## The manifests of a package -/

/-- Each manifest of the package is transformed once, with all common transforms in order, and no
other file is touched. -/
structure TransformsManifests (yaml : YamlLib Obj Content Err) (fs fs' : FileSystem Content)
    (packageName : String) (commonTransforms : List TransformFunc)
    (calls : List (fsCalls TransformFunc Obj Content Err).Call) : Prop where
  manifests : commonTransforms ≠ [] → ∀ file ∈ fs.files, IsManifest packageName file →
    TransformedOnce yaml commonTransforms file calls
  others : ∀ file, (file ∈ fs.files → ¬IsManifest packageName file) →
    Untouched file calls ∧ fs'.files.lookup file = fs.files.lookup file

/-- A successful run transforms all manifests of the package and nothing else if and only if there
are no common transforms, or no file of the package has a name that merely ends in the name of a
kustomization file. -/
theorem applyCommonTransforms_transforms_iff
    (hiterate : ∀ mt, List.Perm (iterate mt) mt.entries)
    (hruns : Program.Runs (applyCommonTransforms yaml iterate packageName commonTransforms) calls
      none)
    (hserved : Served (fileService TransformFunc Obj Content Err) fs calls fs') :
    TransformsManifests yaml fs fs' packageName commonTransforms calls ↔
      commonTransforms = [] ∨ NoSuffixedNames fs packageName := by
  by_cases hcommon : commonTransforms = []
  · subst hcommon
    obtain ⟨rfl, -⟩ := Program.runs_done_iff.mp hruns
    cases hserved
    rw [eq_self_iff_true, true_or, iff_true]
    constructor
    · intro h
      exact absurd rfl h
    · intro file _
      exact ⟨List.forall_mem_nil _, rfl⟩
  · obtain ⟨hpicked, hothers⟩ := transformedOnce_of_runs hiterate hcommon hruns hserved
    rw [or_iff_right hcommon, noSuffixedNames_iff]
    constructor
    · intro h file hfile hmanifest
      by_contra hnot
      exact (h.manifests hcommon file hfile hmanifest).not_untouched (hothers file hnot)
    · intro h
      constructor
      · intro _ file hfile hmanifest
        exact hpicked file (h file hfile hmanifest)
      · intro file hfile
        have huntouched := hothers file fun hpick ↦ hfile hpick.1 hpick.isManifest
        exact ⟨huntouched, huntouched.lookup_eq hserved⟩

end Phase

/-! ## Two packages -/

/-- Manifests are texts, and a transform appends to them. -/
def textYaml : YamlLib String String String where
  quote s := "\"" ++ s ++ "\""
  parse content := .ok content
  string obj := .ok obj

def respond (fs : FileSystem String) : (request : FsRequest String String String) →
    (fsCalls String String String String).Reply request × FileSystem String
  | .walk path =>
    (((if fs.pathExists path then Path.parse path else none).elim (.error "no such path")
      fun dir ↦ .ok (visitsBelow String fs dir) : Except String (List (Visit String))), fs)
  | .readFile path =>
    ((fs.readFile path).mapError fun _ ↦ "cannot be read", fs)
  | .writeFile path content =>
    match fs.writeFile path content with
    | .ok fs' => ((none : Option String), fs')
    | .error _ => (some "cannot be written", fs)
  | .transform t obj => ((.ok (obj ++ t) : Except String String), fs)

theorem answers_respond (fs : FileSystem String) (request : FsRequest String String String) :
    Answers fs request (respond fs request).1 (respond fs request).2 := by
  cases request with
  | walk path =>
    cases hexists : fs.pathExists path with
    | false => simpa [respond, hexists] using .walkFails hexists
    | true =>
      cases hparse : Path.parse path with
      | none => simp [FileSystem.pathExists, hparse] at hexists
      | some dir => simpa [respond, hexists, hparse] using .walk hparse hexists (.refl _)
  | readFile path =>
    cases hread : fs.readFile path with
    | error reason => simpa [respond, hread, Except.mapError] using .readFails hread
    | ok content => simpa [respond, hread, Except.mapError] using .readFile hread
  | writeFile path content =>
    cases hwrite : fs.writeFile path content with
    | error reason => simpa [respond, hwrite] using .writeFails hwrite
    | ok fs' => simpa [respond, hwrite] using .writeFile hwrite
  | transform t obj => exact .transform

/-- A package with a manifest and another file. -/
def registry (file : String) : FileSystem String :=
  .ofFiles [("db/role.yaml", "role"), ("db/" ++ file, "db")]

def labels : List String := [" app", " tier"]

def labelledRun (file : String) : List (fsCalls String String String String).Call ×
    Option (BuildError String) × FileSystem String :=
  (applyCommonTransforms textYaml AList.entries "db" labels).interpret respond (registry file)

theorem runs_labelledRun {file : String} (h : (labelledRun file).2.1 = none) :
    Program.Runs (applyCommonTransforms textYaml AList.entries "db" labels) (labelledRun file).1
      none := by
  rw [← h]
  exact Program.runs_interpret _ _

theorem served_labelledRun (file : String) :
    Served (fileService String String String String) (registry file) (labelledRun file).1
      (labelledRun file).2.2 :=
  Program.served_interpret answers_respond _ _

theorem applyCommonTransforms_transforms_iff_role :
    NoSuffixedNames (registry "kustomization.yaml") "db" ∧
    (labelledRun "kustomization.yaml").2.2.readFile "db/role.yaml" = .ok "role app tier" ∧
    TransformsManifests textYaml (registry "kustomization.yaml")
      (labelledRun "kustomization.yaml").2.2 "db" labels (labelledRun "kustomization.yaml").1 := by
  have hnames : NoSuffixedNames (registry "kustomization.yaml") "db" := by
    have hkeys : ∀ file ∈ (registry "kustomization.yaml").files.keys, ∀ name ∈ file.base,
        isKustomization name.text → name ∈ recognizedKustomizationFileNames := by
      decide +kernel
    exact fun file hfile _ ↦ hkeys file hfile
  obtain ⟨hnone, hrole⟩ : (labelledRun "kustomization.yaml").2.1 = none ∧
      (labelledRun "kustomization.yaml").2.2.readFile "db/role.yaml" = .ok "role app tier" := by
    decide +kernel
  refine ⟨hnames, hrole, ?_⟩
  exact (applyCommonTransforms_transforms_iff (fun _ ↦ .refl _) (runs_labelledRun hnone)
    (served_labelledRun "kustomization.yaml")).mpr (.inr hnames)

/-- A manifest whose name ends in `kustomization.yaml` is left out without an error. -/
theorem applyCommonTransforms_leaves_out :
    (labelledRun "my-kustomization.yaml").2.1 = none ∧
    (labelledRun "my-kustomization.yaml").2.2.readFile "db/my-kustomization.yaml" = .ok "db" ∧
    ¬TransformsManifests textYaml (registry "my-kustomization.yaml")
      (labelledRun "my-kustomization.yaml").2.2 "db" labels
      (labelledRun "my-kustomization.yaml").1 := by
  let file : Path := [⟨"db", by decide⟩, ⟨"my-kustomization.yaml", by decide⟩]
  obtain ⟨hnone, hfile⟩ : (labelledRun "my-kustomization.yaml").2.1 = none ∧
      (labelledRun "my-kustomization.yaml").2.2.readFile "db/my-kustomization.yaml" =
        .ok "db" := by
    decide +kernel
  refine ⟨hnone, hfile, fun h ↦ ?_⟩
  have hmanifest : IsManifest "db" file :=
    ⟨⟨[⟨"db", by decide⟩], by decide +kernel, by decide +kernel⟩, by decide +kernel⟩
  have hpicked : ¬Picked (registry "my-kustomization.yaml") "db" file := by
    intro hpicked
    exact absurd hpicked.2.2 (by decide +kernel)
  have huntouched := (transformedOnce_of_runs (fun _ ↦ .refl _) (by decide) (runs_labelledRun hnone)
    (served_labelledRun "my-kustomization.yaml")).2 file hpicked
  exact (h.manifests (by decide) file (by decide +kernel) hmanifest).not_untouched huntouched

end OperatorToolkit.Declarative
