import OperatorToolkit.Declarative.Builder
import OperatorToolkit.Interaction.Execution

/-!
# The order of the manifests does not matter

Go goes through the entries of a map in any order, and `Transform` stops at the first failure. If
the transforms are functions of the object and the keys are different files, then what happens to a
manifest does not depend on the manifests before it: whether all of them succeed is decided by the
file system at the beginning, and so is the content that each of them gets. Files that can be read
but not written are allowed for.
-/

namespace OperatorToolkit.Declarative

open Interaction Files

variable {TransformFunc Obj Content Err : Type}

/-- How a file system answers when the transforms are functions; `readOnly` are the files that
cannot be written. -/
inductive PureAnswers (apply : TransformFunc → Obj → Except Err Obj) (readOnly : Path → Prop) :
    FileSystem Content → (request : FsRequest TransformFunc Obj Content) →
    (fsCalls TransformFunc Obj Content Err).Reply request → FileSystem Content → Prop where
  | walk {fs path reply fs'} : Answers fs (.walk path) reply fs' →
      PureAnswers apply readOnly fs (.walk path) reply fs'
  | readFile {fs path content} : fs.readFile path = .ok content →
      PureAnswers apply readOnly fs (.readFile path) (.ok content) fs
  | readFails {fs path reason} {err : Err} : fs.readFile path = .error reason →
      PureAnswers apply readOnly fs (.readFile path) (.error err) fs
  | writeFile {fs path content fs'} : (∀ file, Path.parse path = some file → ¬readOnly file) →
      fs.writeFile path content = .ok fs' →
      PureAnswers apply readOnly fs (.writeFile path content) (none : Option Err) fs'
  | writeFails {fs path content reason} {err : Err} : fs.writeFile path content = .error reason →
      PureAnswers apply readOnly fs (.writeFile path content) (some err) fs
  | writeDenied {fs path content file} {err : Err} : Path.parse path = some file → readOnly file →
      PureAnswers apply readOnly fs (.writeFile path content) (some err) fs
  | transform {fs t obj} : PureAnswers apply readOnly fs (.transform t obj) (apply t obj) fs

def pureService (Content : Type) (apply : TransformFunc → Obj → Except Err Obj)
    (readOnly : Path → Prop) :
    Service (fsCalls TransformFunc Obj Content Err) (FileSystem Content) where
  Handles := PureAnswers apply readOnly
  Breaks _ _ _ := False
  Rely _ _ := False

/-- What the transforms make of an object, one after the other. -/
def applyAll (apply : TransformFunc → Obj → Except Err Obj) :
    List TransformFunc → Obj → Except Err Obj
  | [], obj => .ok obj
  | t :: transforms, obj => apply t obj >>= applyAll apply transforms

/-- A manifest with its own transforms and then the common ones applied. -/
def transformContent (yaml : YamlLib Obj Content Err)
    (apply : TransformFunc → Obj → Except Err Obj)
    (transforms commonTransforms : List TransformFunc)
    (content : Content) : Except Err Content := do
  let obj ← yaml.parse content
  let obj ← applyAll apply transforms obj
  let obj ← applyAll apply commonTransforms obj
  yaml.string obj

section Manifest

variable {yaml : YamlLib Obj Content Err} {apply : TransformFunc → Obj → Except Err Obj}
  {readOnly : Path → Prop} {fs fs' : FileSystem Content} {manifest : String}
  {transforms commonTransforms : List TransformFunc}

theorem exists_pureAnswers [Inhabited Err] (fs : FileSystem Content)
    (request : FsRequest TransformFunc Obj Content) :
    ∃ reply fs', PureAnswers apply readOnly fs request reply fs' := by
  cases request with
  | walk path =>
    cases hexists : fs.pathExists path with
    | false => exact ⟨.error default, fs, .walk (.walkFails hexists)⟩
    | true =>
      cases hparse : Path.parse path with
      | none => simp [FileSystem.pathExists, hparse] at hexists
      | some dir => exact ⟨.ok _, fs, .walk (.walk hparse hexists (.refl _))⟩
  | readFile path =>
    cases hread : fs.readFile path with
    | error reason => exact ⟨.error default, fs, .readFails hread⟩
    | ok content => exact ⟨.ok content, fs, .readFile hread⟩
  | writeFile path content =>
    by_cases hdenied : ∃ file, Path.parse path = some file ∧ readOnly file
    · obtain ⟨file, hfile, hreadOnly⟩ := hdenied
      exact ⟨some default, fs, .writeDenied hfile hreadOnly⟩
    · cases hwrite : fs.writeFile path content with
      | error reason => exact ⟨some default, fs, .writeFails hwrite⟩
      | ok fs' =>
        exact ⟨none, fs', .writeFile (fun file hfile hro ↦ hdenied ⟨file, hfile, hro⟩) hwrite⟩
  | transform t obj => exact ⟨apply t obj, fs, .transform⟩

theorem yields_runTransforms {obj : Obj} {outcome : Except (BuildError Err) Obj}
    (h : Yields (pureService Content apply readOnly) fs (runTransforms yaml manifest transforms obj)
      outcome fs') :
    fs' = fs ∧ outcome.toOption = (applyAll apply transforms obj).toOption := by
  induction transforms generalizing obj with
  | nil =>
    obtain ⟨rfl, rfl⟩ := yields_done_iff.mp h
    exact ⟨rfl, rfl⟩
  | cons t transforms ih =>
    obtain ⟨reply, mid, hanswer, hrest⟩ := yields_call_iff.mp h
    cases hanswer with
    | transform =>
      rw [applyAll]
      cases happly : apply t obj with
      | error err =>
        rw [happly] at hrest
        obtain ⟨rfl, rfl⟩ := yields_done_iff.mp hrest
        exact ⟨rfl, rfl⟩
      | ok next =>
        rw [happly] at hrest
        exact ih hrest

/-- A list of transforms in front of a program that gives up after an error. -/
theorem yields_runTransforms_bind {obj : Obj} {err : Option (BuildError Err)}
    {next : Except (BuildError Err) Obj →
      Program (fsCalls TransformFunc Obj Content Err) (Option (BuildError Err))}
    (hnext : ∀ e, next (.error e) = .done (some e))
    (h : Yields (pureService Content apply readOnly) fs
      (runTransforms yaml manifest transforms obj >>= next) err fs') :
    (err ≠ none ∧ ∃ e, applyAll apply transforms obj = .error e) ∨
      ∃ obj', applyAll apply transforms obj = .ok obj' ∧
        Yields (pureService Content apply readOnly) fs (next (.ok obj')) err fs' := by
  obtain ⟨outcome, mid, htransforms, hrest⟩ := yields_bind_iff.mp h
  obtain ⟨rfl, houtcome⟩ := yields_runTransforms htransforms
  cases happlied : applyAll apply transforms obj with
  | error e =>
    cases outcome with
    | error e' =>
      rw [hnext] at hrest
      obtain ⟨rfl, -⟩ := yields_done_iff.mp hrest
      exact .inl ⟨by simp, e, rfl⟩
    | ok obj' => simp [happlied, Except.toOption] at houtcome
  | ok obj' =>
    cases outcome with
    | error e => simp [happlied, Except.toOption] at houtcome
    | ok obj'' =>
      obtain rfl : obj'' = obj' := by simpa [happlied, Except.toOption] using houtcome
      exact .inr ⟨obj'', rfl, hrest⟩

/-- The manifest is a file that can be transformed and written; `text` is what it then holds. -/
structure Becomes (yaml : YamlLib Obj Content Err) (apply : TransformFunc → Obj → Except Err Obj)
    (readOnly : Path → Prop) (fs : FileSystem Content) (commonTransforms : List TransformFunc)
    (manifest : String) (transforms : List TransformFunc) (file : Path) (text : Content) :
    Prop where
  parse_eq : Path.parse manifest = some file
  content : ∃ content, fs.files.lookup file = some content ∧
    transformContent yaml apply transforms commonTransforms content = .ok text
  writable : ¬readOnly file

/-- The file system after one file got a new content. -/
structure Replaced (fs : FileSystem Content) (file : Path) (text : Content)
    (fs' : FileSystem Content) : Prop where
  lookup_self : fs'.files.lookup file = some text
  lookup_other : ∀ other ≠ file, fs'.files.lookup other = fs.files.lookup other
  dirs_eq : fs'.dirs = fs.dirs

theorem replaced_of_writeFile {file : Path} {text : Content}
    (hfile : Path.parse manifest = some file) (hmem : file ∈ fs.files)
    (hwrite : fs.writeFile manifest text = .ok fs') : Replaced fs file text fs' := by
  obtain ⟨hfiles, hdirs⟩ := FileSystem.files_of_writeFile hfile hwrite
  constructor
  · rw [hfiles, AList.lookup_insert]
  · intro other hne
    rw [hfiles, AList.lookup_insert_ne hne]
  · exact hdirs (fs.parents_mem file hmem)

theorem exists_file_of_readFile {content : Content} (hread : fs.readFile manifest = .ok content) :
    ∃ file, Path.parse manifest = some file ∧ fs.files.lookup file = some content := by
  cases hfile : Path.parse manifest with
  | none => simp [FileSystem.readFile, hfile] at hread
  | some file =>
    have hlookup : (fs.readFile manifest).toOption = fs.files.lookup file :=
      FileSystem.toOption_readFile hfile
    rw [hread] at hlookup
    exact ⟨file, rfl, hlookup.symm⟩

/-- For a manifest that was read it only depends on its content what it becomes. -/
theorem becomes_iff {file file' : Path} {content text : Content}
    (hfile : Path.parse manifest = some file) (hlookup : fs.files.lookup file = some content) :
    Becomes yaml apply readOnly fs commonTransforms manifest transforms file' text ↔
      file' = file ∧ transformContent yaml apply transforms commonTransforms content = .ok text ∧
        ¬readOnly file := by
  constructor
  · intro h
    obtain rfl : file = file' := Option.some.inj (hfile.symm.trans h.parse_eq)
    obtain ⟨content', hcontent', htext⟩ := h.content
    obtain rfl : content = content' := Option.some.inj (hlookup.symm.trans hcontent')
    exact ⟨rfl, htext, h.writable⟩
  · rintro ⟨rfl, htext, hwritable⟩
    exact ⟨hfile, ⟨content, hlookup, htext⟩, hwritable⟩

/-- A file that is there can be written unless it is read-only. -/
theorem yields_writeFile {err : Option (BuildError Err)} {file : Path} {content text : Content}
    (hfile : Path.parse manifest = some file) (hlookup : fs.files.lookup file = some content)
    (h : Yields (pureService Content apply readOnly) fs (do
      return (← FsCall.writeFile TransformFunc Obj Err manifest text).map .plain) err fs') :
    (err ≠ none ∧ readOnly file) ∨ (err = none ∧ ¬readOnly file ∧ Replaced fs file text fs') := by
  obtain ⟨reply, mid, hwrite, hdone⟩ := yields_call_iff.mp h
  obtain ⟨rfl, rfl⟩ := yields_done_iff.mp hdone
  have hmem : file ∈ fs.files := AList.lookup_isSome.mp (by rw [hlookup]; rfl)
  cases hwrite with
  | writeFile hwritable hwrite =>
    exact .inr ⟨rfl, hwritable file hfile, replaced_of_writeFile hfile hmem hwrite⟩
  | writeFails hwrite =>
    obtain ⟨fs', hok⟩ := FileSystem.exists_writeFile hfile hmem text
    rw [hwrite] at hok
    cases hok
  | @writeDenied _ _ file' _ hfile' hreadOnly =>
    obtain rfl : file = file' := Option.some.inj (hfile.symm.trans hfile')
    exact .inl ⟨by simp, hreadOnly⟩

/-- One manifest: either it can be transformed and is, or it cannot and there is an error. -/
theorem yields_transformManifest {err : Option (BuildError Err)}
    (h : Yields (pureService Content apply readOnly) fs
      (transformManifest yaml manifest transforms commonTransforms) err fs') :
    (err ≠ none ∧ ∀ file text,
        ¬Becomes yaml apply readOnly fs commonTransforms manifest transforms file text) ∨
      (err = none ∧ ∃ file text,
        Becomes yaml apply readOnly fs commonTransforms manifest transforms file text ∧
          Replaced fs file text fs') := by
  obtain ⟨reply, mid, hread, hrest⟩ := yields_call_iff.mp h
  cases hread with
  | readFails hread =>
    obtain ⟨rfl, -⟩ := yields_done_iff.mp hrest
    refine .inl ⟨by simp, fun file text hbecomes ↦ ?_⟩
    obtain ⟨content, hlookup, -⟩ := hbecomes.content
    have hoption : (fs.readFile manifest).toOption = fs.files.lookup file :=
      FileSystem.toOption_readFile hbecomes.parse_eq
    rw [hread, hlookup] at hoption
    cases hoption
  | @readFile _ content hread =>
    obtain ⟨file, hfile, hlookup⟩ := exists_file_of_readFile hread
    have hfailed (herr : err ≠ none) (e : Err)
        (hcontent : transformContent yaml apply transforms commonTransforms content = .error e) :
        err ≠ none ∧ ∀ file text,
          ¬Becomes yaml apply readOnly fs commonTransforms manifest transforms file text := by
      simp [herr, becomes_iff hfile hlookup, hcontent]
    cases hobj : yaml.parse content with
    | error e =>
      simp only [Program.bind, hobj] at hrest
      obtain ⟨rfl, -⟩ := yields_done_iff.mp hrest
      exact .inl (hfailed (by simp) e (by simp [transformContent, hobj, bind, Except.bind]))
    | ok obj =>
      simp only [Program.bind, hobj] at hrest
      rcases yields_runTransforms_bind (fun _ ↦ rfl) hrest with
        ⟨herr, e, hown⟩ | ⟨obj₁, hown, hrest⟩
      · exact .inl (hfailed herr e (by simp [transformContent, hobj, hown, bind, Except.bind]))
      rcases yields_runTransforms_bind (fun _ ↦ rfl) hrest with
        ⟨herr, e, hcommon⟩ | ⟨obj₂, hcommon, hrest⟩
      · exact .inl (hfailed herr e
          (by simp [transformContent, hobj, hown, hcommon, bind, Except.bind]))
      have hcontent : transformContent yaml apply transforms commonTransforms content =
          yaml.string obj₂ := by
        simp [transformContent, hobj, hown, hcommon, bind, Except.bind]
      cases hstring : yaml.string obj₂ with
      | error e =>
        simp only [hstring] at hrest
        obtain ⟨rfl, -⟩ := yields_done_iff.mp hrest
        exact .inl (hfailed (by simp) e (hcontent.trans hstring))
      | ok text =>
        simp only [hstring] at hrest
        rcases yields_writeFile hfile hlookup hrest with
          ⟨herr, hreadOnly⟩ | ⟨rfl, hwritable, hreplaced⟩
        · exact .inl ⟨herr, by simp [becomes_iff hfile hlookup, hreadOnly]⟩
        · have hbecomes := (becomes_iff hfile hlookup).mpr
            ⟨rfl, hcontent.trans hstring, hwritable⟩
          exact .inr ⟨rfl, file, text, hbecomes, hreplaced⟩

theorem Becomes.text_unique {file file' : Path} {text text' : Content}
    (h : Becomes yaml apply readOnly fs commonTransforms manifest transforms file text)
    (h' : Becomes yaml apply readOnly fs commonTransforms manifest transforms file' text') :
    file = file' ∧ text = text' := by
  obtain ⟨content, hlookup, htext⟩ := h.content
  obtain ⟨rfl, htext', -⟩ := (becomes_iff h.parse_eq hlookup).mp h'
  exact ⟨rfl, Except.ok.inj (htext.symm.trans htext')⟩

/-- A new content in one file does not matter to a manifest in another one. -/
theorem Replaced.becomes_iff {file file' : Path} {text text' : Content}
    (h : Replaced fs file text fs') (hother : Path.parse manifest ≠ some file) :
    Becomes yaml apply readOnly fs' commonTransforms manifest transforms file' text' ↔
      Becomes yaml apply readOnly fs commonTransforms manifest transforms file' text' := by
  have hlookup (hparse : Path.parse manifest = some file') :
      fs'.files.lookup file' = fs.files.lookup file' := by
    apply h.lookup_other
    rintro rfl
    exact hother hparse
  constructor
  · intro hbecomes
    exact ⟨hbecomes.parse_eq, hlookup hbecomes.parse_eq ▸ hbecomes.content, hbecomes.writable⟩
  · intro hbecomes
    exact ⟨hbecomes.parse_eq, (hlookup hbecomes.parse_eq).symm ▸ hbecomes.content,
      hbecomes.writable⟩

end Manifest

/-! ## All manifests -/

/-- No two entries have the same file. -/
def DistinctFiles (entries : List (Sigma fun _ : String ↦ List TransformFunc)) : Prop :=
  entries.Pairwise fun entry entry' ↦
    ∀ file, Path.parse entry.1 = some file → Path.parse entry'.1 ≠ some file

theorem DistinctFiles.perm {entries entries' : List (Sigma fun _ : String ↦ List TransformFunc)}
    (h : DistinctFiles entries) (hperm : entries.Perm entries') : DistinctFiles entries' := by
  have hsymm : ∀ {entry entry' : Sigma fun _ : String ↦ List TransformFunc},
      (∀ file, Path.parse entry.1 = some file → Path.parse entry'.1 ≠ some file) →
        ∀ file, Path.parse entry'.1 = some file → Path.parse entry.1 ≠ some file :=
    fun hne file hparse hparse' ↦ hne file hparse' hparse
  exact (hperm.pairwise_iff hsymm).mp h

theorem distinctFiles_of_nodup {entries : List (Sigma fun _ : String ↦ List TransformFunc)}
    (h : (entries.map fun entry ↦ Path.parse entry.1).Nodup) : DistinctFiles entries := by
  rw [List.Nodup, List.pairwise_map] at h
  exact h.imp fun hne file hparse hparse' ↦ hne (hparse.trans hparse'.symm)

section Entries

variable {yaml : YamlLib Obj Content Err} {apply : TransformFunc → Obj → Except Err Obj}
  {readOnly : Path → Prop} {fs fs' : FileSystem Content} {commonTransforms : List TransformFunc}
  {entries entries' : List (Sigma fun _ : String ↦ List TransformFunc)}

/-- Every manifest has been transformed, and nothing else has changed. -/
structure TransformedAll (yaml : YamlLib Obj Content Err)
    (apply : TransformFunc → Obj → Except Err Obj) (readOnly : Path → Prop)
    (fs : FileSystem Content) (commonTransforms : List TransformFunc)
    (entries : List (Sigma fun _ : String ↦ List TransformFunc)) (fs' : FileSystem Content) :
    Prop where
  becomes : ∀ entry ∈ entries, ∃ file text,
    Becomes yaml apply readOnly fs commonTransforms entry.1 entry.2 file text ∧
      fs'.files.lookup file = some text
  others : ∀ file, (∀ entry ∈ entries, Path.parse entry.1 ≠ some file) →
    fs'.files.lookup file = fs.files.lookup file
  dirs_eq : fs'.dirs = fs.dirs

theorem TransformedAll.nil : TransformedAll yaml apply readOnly fs commonTransforms [] fs :=
  ⟨by simp, fun _ _ ↦ rfl, rfl⟩

theorem TransformedAll.cons {manifest : String} {transforms : List TransformFunc} {file : Path}
    {text : Content} {mid : FileSystem Content}
    (hbecomes : Becomes yaml apply readOnly fs commonTransforms manifest transforms file text)
    (hreplaced : Replaced fs file text mid)
    (hother : ∀ entry ∈ entries, Path.parse entry.1 ≠ some file)
    (h : TransformedAll yaml apply readOnly mid commonTransforms entries fs') :
    TransformedAll yaml apply readOnly fs commonTransforms (⟨manifest, transforms⟩ :: entries)
      fs' where
  becomes := by
    intro entry hentry
    rcases List.mem_cons.mp hentry with rfl | hlater
    · refine ⟨file, text, hbecomes, ?_⟩
      rw [h.others file hother, hreplaced.lookup_self]
    · obtain ⟨file', text', hbecomes', hlookup⟩ := h.becomes entry hlater
      exact ⟨file', text', (hreplaced.becomes_iff (hother entry hlater)).mp hbecomes', hlookup⟩
  others := by
    intro file' hfile'
    rw [List.forall_mem_cons] at hfile'
    have hne : file' ≠ file := by
      rintro rfl
      exact hfile'.1 hbecomes.parse_eq
    rw [h.others file' hfile'.2, hreplaced.lookup_other file' hne]
  dirs_eq := h.dirs_eq.trans hreplaced.dirs_eq

/-- The loop over the manifests: it fails if one of them cannot be transformed as it was at the
beginning, and otherwise transforms them all. -/
theorem yields_transform (hdistinct : DistinctFiles entries) {err : Option (BuildError Err)}
    (h : Yields (pureService Content apply readOnly) fs (transform yaml commonTransforms entries)
      err fs') :
    (err ≠ none ∧ ∃ entry ∈ entries, ∀ file text,
        ¬Becomes yaml apply readOnly fs commonTransforms entry.1 entry.2 file text) ∨
      (err = none ∧ TransformedAll yaml apply readOnly fs commonTransforms entries fs') := by
  induction entries generalizing fs with
  | nil =>
    obtain ⟨rfl, rfl⟩ := yields_done_iff.mp h
    exact .inr ⟨rfl, .nil⟩
  | cons entry entries ih =>
    obtain ⟨hfirst, hrest⟩ := List.pairwise_cons.mp hdistinct
    obtain ⟨outcome, mid, hmanifest, hloop⟩ := yields_bind_iff.mp h
    rcases yields_transformManifest hmanifest with
      ⟨herr, hfailed⟩ | ⟨rfl, file, text, hbecomes, hreplaced⟩
    · obtain ⟨e, rfl⟩ := Option.ne_none_iff_exists'.mp herr
      obtain ⟨rfl, -⟩ := yields_done_iff.mp hloop
      exact .inl ⟨by simp, entry, List.mem_cons_self, hfailed⟩
    · have hother : ∀ later ∈ entries, Path.parse later.1 ≠ some file :=
        fun later hlater ↦ hfirst later hlater file hbecomes.parse_eq
      rcases ih hrest hloop with ⟨herr, later, hlater, hfailed⟩ | ⟨rfl, hall⟩
      · refine .inl ⟨herr, later, List.mem_cons_of_mem _ hlater, fun file' text' h ↦ ?_⟩
        exact hfailed file' text' ((hreplaced.becomes_iff (hother later hlater)).mpr h)
      · exact .inr ⟨rfl, .cons hbecomes hreplaced hother hall⟩

/-- The file system afterwards is determined by the set of the entries. -/
theorem TransformedAll.lookup_eq {fs₁ fs₂ : FileSystem Content} (hperm : entries.Perm entries')
    (h₁ : TransformedAll yaml apply readOnly fs commonTransforms entries fs₁)
    (h₂ : TransformedAll yaml apply readOnly fs commonTransforms entries' fs₂) (file : Path) :
    fs₁.files.lookup file = fs₂.files.lookup file := by
  by_cases hfile : ∃ entry ∈ entries, Path.parse entry.1 = some file
  · obtain ⟨entry, hentry, hparse⟩ := hfile
    obtain ⟨file₁, text₁, hbecomes₁, hlookup₁⟩ := h₁.becomes entry hentry
    obtain ⟨file₂, text₂, hbecomes₂, hlookup₂⟩ := h₂.becomes entry (hperm.mem_iff.mp hentry)
    obtain ⟨rfl, rfl⟩ := hbecomes₁.text_unique hbecomes₂
    obtain rfl : file = file₁ := Option.some.inj (hparse.symm.trans hbecomes₁.parse_eq)
    rw [hlookup₁, hlookup₂]
  · have hnone : ∀ entry ∈ entries, Path.parse entry.1 ≠ some file :=
      fun entry hentry hparse ↦ hfile ⟨entry, hentry, hparse⟩
    rw [h₁.others file hnone,
      h₂.others file fun entry hentry ↦ hnone entry (hperm.mem_iff.mpr hentry)]

end Entries

/-- In any two orders of the map `Transform` succeeds or fails alike; if it succeeds, both leave the
same file system, in which every manifest is the serialisation of its object after its own
transforms and the common ones, and every other file is as before. -/
theorem transform_order_independent [Inhabited Err] (yaml : YamlLib Obj Content Err)
    (apply : TransformFunc → Obj → Except Err Obj) (readOnly : Path → Prop)
    (fs : FileSystem Content) (commonTransforms : List TransformFunc)
    (manifestTransform : ManifestTransform TransformFunc)
    (hdistinct : DistinctFiles manifestTransform.entries)
    (entries entries' : List (Sigma fun _ : String ↦ List TransformFunc))
    (hentries : entries.Perm manifestTransform.entries)
    (hentries' : entries'.Perm manifestTransform.entries) :
    (∃ err fs', Yields (pureService Content apply readOnly) fs
        (transform yaml commonTransforms entries) err fs') ∧
      ∀ err₁ fs₁ err₂ fs₂,
        Yields (pureService Content apply readOnly) fs (transform yaml commonTransforms entries)
          err₁ fs₁ →
        Yields (pureService Content apply readOnly) fs (transform yaml commonTransforms entries')
          err₂ fs₂ →
        (err₁ = none ↔ err₂ = none) ∧
          (err₁ = none →
            (∀ file, fs₁.files.lookup file = fs₂.files.lookup file) ∧ fs₁.dirs = fs₂.dirs ∧
            (∀ entry ∈ manifestTransform.entries, ∃ file content text,
              Path.parse entry.1 = some file ∧ fs.files.lookup file = some content ∧
              transformContent yaml apply entry.2 commonTransforms content = .ok text ∧
              fs₁.files.lookup file = some text) ∧
            ∀ file, (∀ entry ∈ manifestTransform.entries, Path.parse entry.1 ≠ some file) →
              fs₁.files.lookup file = fs.files.lookup file) := by
  refine ⟨exists_yields exists_pureAnswers _ fs, fun err₁ fs₁ err₂ fs₂ h₁ h₂ ↦ ?_⟩
  have hperm : entries.Perm entries' := hentries.trans hentries'.symm
  rcases yields_transform (hdistinct.perm hentries.symm) h₁ with
    ⟨herr₁, entry, hentry, hfailed⟩ | ⟨rfl, hall₁⟩
  · rcases yields_transform (hdistinct.perm hentries'.symm) h₂ with ⟨herr₂, -⟩ | ⟨-, hall₂⟩
    · exact ⟨iff_of_false herr₁ herr₂, fun hnone ↦ absurd hnone herr₁⟩
    · obtain ⟨file, text, hbecomes, -⟩ := hall₂.becomes entry (hperm.mem_iff.mp hentry)
      exact absurd hbecomes (hfailed file text)
  · rcases yields_transform (hdistinct.perm hentries'.symm) h₂ with
      ⟨-, entry, hentry, hfailed⟩ | ⟨rfl, hall₂⟩
    · obtain ⟨file, text, hbecomes, -⟩ := hall₁.becomes entry (hperm.mem_iff.mpr hentry)
      exact absurd hbecomes (hfailed file text)
    · refine ⟨Iff.rfl, fun _ ↦ ⟨hall₁.lookup_eq hperm hall₂,
        hall₁.dirs_eq.trans hall₂.dirs_eq.symm, fun entry hentry ↦ ?_, fun file hfile ↦ ?_⟩⟩
      · obtain ⟨file, text, hbecomes, hlookup⟩ := hall₁.becomes entry (hentries.mem_iff.mpr hentry)
        obtain ⟨content, hcontent, htext⟩ := hbecomes.content
        exact ⟨file, content, text, hbecomes.parse_eq, hcontent, htext, hlookup⟩
      · exact hall₁.others file fun entry hentry ↦ hfile entry (hentries.mem_iff.mp hentry)

/-- Two manifests of `registry`, one of them with a transform of its own. -/
def labelledManifests : ManifestTransform String :=
  [⟨"db/role.yaml", [" reader"]⟩, ⟨"db/db.yaml", []⟩].toAList

theorem pureAnswers_respond (fs : FileSystem String) (request : FsRequest String String String) :
    PureAnswers (fun t obj ↦ .ok (obj ++ t)) (fun _ ↦ False) fs request (respond fs request).1
      (respond fs request).2 := by
  cases request with
  | walk path => exact .walk (answers_respond fs (.walk path))
  | readFile path =>
    cases hread : fs.readFile path with
    | error reason => simpa [respond, hread, Except.mapError] using .readFails hread
    | ok content => simpa [respond, hread, Except.mapError] using .readFile hread
  | writeFile path content =>
    cases hwrite : fs.writeFile path content with
    | error reason => simpa [respond, hwrite] using .writeFails hwrite
    | ok fs' => simpa [respond, hwrite] using .writeFile (by simp) hwrite
  | transform t obj => exact .transform

/-- What the transforms return and leave, in the order of the entries. -/
def labelledTransforms : Option (BuildError String) × FileSystem String :=
  ((transform textYaml labels labelledManifests.entries).interpret respond
    (registry "db.yaml")).2

/-- In the reverse order the transforms succeed too, and leave the same files. -/
theorem transform_order_independent_labelled :
    ∃ fs₁ fs₂,
      Yields (pureService String (fun t obj ↦ .ok (obj ++ t)) fun _ ↦ False) (registry "db.yaml")
        (transform textYaml labels labelledManifests.entries) none fs₁ ∧
      Yields (pureService String (fun t obj ↦ .ok (obj ++ t)) fun _ ↦ False) (registry "db.yaml")
        (transform textYaml labels labelledManifests.entries.reverse) none fs₂ ∧
      fs₁.readFile "db/role.yaml" = .ok "role reader app tier" ∧
      fs₁.readFile "db/db.yaml" = .ok "db app tier" ∧
      ∀ file, fs₁.files.lookup file = fs₂.files.lookup file := by
  have hdistinct : DistinctFiles labelledManifests.entries :=
    distinctFiles_of_nodup (by decide +kernel)
  have h₁ : Yields (pureService String (fun t obj ↦ .ok (obj ++ t)) fun _ ↦ False)
      (registry "db.yaml") (transform textYaml labels labelledManifests.entries)
      labelledTransforms.1 labelledTransforms.2 :=
    Program.yields_interpret pureAnswers_respond _ _
  have hnone : labelledTransforms.1 = none := by
    rw [← Option.isNone_iff_eq_none]
    decide +kernel
  have hfiles : labelledTransforms.2.readFile "db/role.yaml" = .ok "role reader app tier" ∧
      labelledTransforms.2.readFile "db/db.yaml" = .ok "db app tier" := by
    decide +kernel
  rw [hnone] at h₁
  have horders := transform_order_independent textYaml (fun t obj ↦ .ok (obj ++ t))
    (fun _ ↦ False) (registry "db.yaml") labels labelledManifests hdistinct
  have hreverse := List.reverse_perm labelledManifests.entries
  obtain ⟨⟨err₂, fs₂, h₂⟩, -⟩ := horders _ _ hreverse (.refl _)
  obtain ⟨hiff, hsame⟩ := (horders _ _ (.refl _) hreverse).2 none _ err₂ fs₂ h₁ h₂
  obtain rfl : err₂ = none := hiff.mp rfl
  exact ⟨_, fs₂, h₁, h₂, hfiles.1, hfiles.2, (hsame rfl).1⟩

end OperatorToolkit.Declarative
