import OperatorToolkit.Files.FileSystem

/-!
# Parts of file systems

Directories are made with those that they are in. A file system is a part of another one if the
other one has all of its files, with the same contents, and all of its directories. Writing a file
and making a directory of the whole keep a part a part, and never fail there, so a copy that is made
one entry at a time, in any order, is a part of the original until it is the same.
-/

namespace OperatorToolkit.Files.FileSystem

variable {Content : Type} (fs : FileSystem Content)

/-- The file system with a directory, and with those that it is in. -/
def makeDir (path : Path) (hpath : ∀ dir ∈ path.inits, dir ∉ fs.files) : FileSystem Content where
  files := fs.files
  dirs := fs.dirs ++ path.inits.filter (!fs.isDir ·)
  root_mem := List.mem_append_left _ fs.root_mem
  parents_mem file hfile dir hdir := List.mem_append_left _ (fs.parents_mem file hfile dir hdir)
  not_mem_dirs := by
    intro file hfile hdir
    rcases List.mem_append.mp hdir with hold | hnew
    · exact fs.not_mem_dirs file hfile hold
    · exact hpath file (List.mem_of_mem_filter hnew) hfile

def mkdirAll (text : String) : Except FileError (FileSystem Content) :=
  match Path.parse text with
  | none => .error .notFound
  | some path =>
    if hpath : ∀ dir ∈ path.inits, dir ∉ fs.files then .ok (fs.makeDir path hpath)
    else .error .notDirectory

/-- Directories are in directories. -/
def Closed : Prop := ∀ dir ∈ fs.dirs, ∀ outer, outer <+: dir → outer ∈ fs.dirs

variable {fs} {fs' whole : FileSystem Content} {text : String} {path : Path} {content : Content}

/-! ## What the operations change -/

theorem mem_dirs_of_writeFile (htext : Path.parse text = some path)
    (hwrite : fs.writeFile text content = .ok fs') (dir : Path) :
    dir ∈ fs'.dirs ↔ dir ∈ fs.dirs ∨ dir ∈ parents path := by
  simp only [writeFile, htext] at hwrite
  split_ifs at hwrite
  cases hwrite
  change dir ∈ fs.dirs ++ (parents path).filter (· ∉ fs.dirs) ↔ _
  rw [List.mem_append, List.mem_filter, decide_eq_true_iff]
  constructor
  · exact Or.imp_right And.left
  · intro h
    by_cases hdir : dir ∈ fs.dirs
    · exact .inl hdir
    · exact .inr ⟨h.resolve_left hdir, hdir⟩

theorem files_of_mkdirAll (hmkdir : fs.mkdirAll text = .ok fs') : fs'.files = fs.files := by
  unfold mkdirAll at hmkdir
  split at hmkdir
  · cases hmkdir
  · split_ifs at hmkdir
    cases hmkdir
    rfl

theorem mem_dirs_of_mkdirAll (htext : Path.parse text = some path)
    (hmkdir : fs.mkdirAll text = .ok fs') (dir : Path) :
    dir ∈ fs'.dirs ↔ dir ∈ fs.dirs ∨ dir <+: path := by
  simp only [mkdirAll, htext] at hmkdir
  split_ifs at hmkdir
  cases hmkdir
  change dir ∈ fs.dirs ++ path.inits.filter (!fs.isDir ·) ↔ _
  rw [List.mem_append, List.mem_filter, List.mem_inits, Bool.not_eq_true', ← Bool.not_eq_true,
    isDir_iff]
  constructor
  · exact Or.imp_right And.left
  · intro h
    by_cases hdir : dir ∈ fs.dirs
    · exact .inl hdir
    · exact .inr ⟨h.resolve_left hdir, hdir⟩

theorem closed_empty : (empty : FileSystem Content).Closed := by
  intro dir hdir outer houter
  rw [List.mem_singleton.mp hdir, List.prefix_nil] at houter
  rw [houter]
  exact List.mem_cons_self

theorem Closed.writeFile (h : fs.Closed) (hwrite : fs.writeFile text content = .ok fs') :
    fs'.Closed := by
  intro dir hdir outer houter
  cases htext : Path.parse text with
  | none => simp [FileSystem.writeFile, htext] at hwrite
  | some path =>
  rw [mem_dirs_of_writeFile htext hwrite] at hdir ⊢
  rcases hdir with hold | hparent
  · exact .inl (h dir hold outer houter)
  · obtain ⟨hleads, hne⟩ := mem_parents.mp hparent
    refine .inr (mem_parents.mpr ⟨houter.trans hleads, ?_⟩)
    rintro rfl
    exact hne (hleads.eq_of_length_le houter.length_le)

theorem Closed.mkdirAll (h : fs.Closed) (hmkdir : fs.mkdirAll text = .ok fs') : fs'.Closed := by
  intro dir hdir outer houter
  cases htext : Path.parse text with
  | none => simp [FileSystem.mkdirAll, htext] at hmkdir
  | some path =>
    rw [mem_dirs_of_mkdirAll htext hmkdir] at hdir ⊢
    exact hdir.imp (fun hold ↦ h dir hold outer houter) houter.trans

/-! ## Entries -/

/-- The file system has a file at the path, or a directory. -/
def Has (fs : FileSystem Content) (node : Path × Bool) : Prop :=
  if node.2 then node.1 ∈ fs.dirs else node.1 ∈ fs.files

theorem has_of_mem_below {node : Path × Bool} (h : node ∈ fs.below path) : fs.Has node := by
  rcases List.mem_append.mp h with hdirs | hfiles
  · obtain ⟨dir, hdir, rfl⟩ := List.mem_map.mp hdirs
    exact List.mem_of_mem_filter hdir
  · obtain ⟨file, hfile, rfl⟩ := List.mem_map.mp hfiles
    exact List.mem_of_mem_filter hfile

/-- Everything is below the root. -/
theorem mem_below_root {node : Path × Bool} (h : fs.Has node) : node ∈ fs.below [] := by
  obtain ⟨path, isDir⟩ := node
  cases isDir with
  | true =>
    apply List.mem_append_left
    exact List.mem_map_of_mem (f := (·, true)) (List.mem_filter.mpr ⟨h, by simp⟩)
  | false =>
    apply List.mem_append_right
    exact List.mem_map_of_mem (f := (·, false)) (List.mem_filter.mpr ⟨h, by simp⟩)

theorem has_of_writeFile (htext : Path.parse text = some path)
    (hwrite : fs.writeFile text content = .ok fs') {node : Path × Bool}
    (h : fs.Has node ∨ node = (path, false)) : fs'.Has node := by
  obtain ⟨other, isDir⟩ := node
  cases isDir with
  | true =>
    have hold : other ∈ fs.dirs := h.resolve_right (by simp)
    exact (mem_dirs_of_writeFile htext hwrite other).mpr (.inl hold)
  | false =>
    change other ∈ fs'.files
    rw [(files_of_writeFile htext hwrite).1, AList.mem_insert]
    rcases h with hold | hnew
    · exact .inr hold
    · cases hnew
      exact .inl rfl

theorem has_of_mkdirAll (htext : Path.parse text = some path)
    (hmkdir : fs.mkdirAll text = .ok fs') {node : Path × Bool}
    (h : fs.Has node ∨ node = (path, true)) : fs'.Has node := by
  obtain ⟨other, isDir⟩ := node
  cases isDir with
  | true =>
    refine (mem_dirs_of_mkdirAll htext hmkdir other).mpr (h.imp_right fun hnew ↦ ?_)
    cases hnew
    exact List.prefix_refl path
  | false =>
    have hold : other ∈ fs.files := h.resolve_right (by simp)
    change other ∈ fs'.files
    rwa [files_of_mkdirAll hmkdir]

/-! ## Parts -/

structure PartOf (fs whole : FileSystem Content) : Prop where
  lookup : ∀ path content, fs.files.lookup path = some content →
    whole.files.lookup path = some content
  dirs : ∀ dir ∈ fs.dirs, dir ∈ whole.dirs

/-- The same files and directories. -/
structure Same (fs fs' : FileSystem Content) : Prop where
  lookup : ∀ path, fs.files.lookup path = fs'.files.lookup path
  dirs : ∀ dir, dir ∈ fs.dirs ↔ dir ∈ fs'.dirs

theorem partOf_empty (whole : FileSystem Content) : PartOf empty whole where
  lookup path content h := by simp [empty] at h
  dirs dir hdir := by
    rw [List.mem_singleton.mp hdir]
    exact whole.root_mem

theorem PartOf.not_mem_dirs (h : PartOf fs whole) (hpath : path ∈ whole.files) :
    path ∉ fs.dirs := fun hdir ↦ whole.not_mem_dirs path hpath (h.dirs path hdir)

theorem PartOf.not_mem_files (h : PartOf fs whole) (hpath : path ∈ whole.dirs) :
    path ∉ fs.files := by
  intro hfile
  obtain ⟨content, hcontent⟩ := Option.isSome_iff_exists.mp (AList.lookup_isSome.mpr hfile)
  have hwhole : path ∈ whole.files := by
    rw [← AList.lookup_isSome, h.lookup path content hcontent]
    rfl
  exact whole.not_mem_dirs path hwhole hpath

/-- A file of the whole can be written, and then it is there. -/
theorem PartOf.exists_writeFile (h : PartOf fs whole) (htext : Path.parse text = some path)
    (hcontent : whole.files.lookup path = some content) :
    ∃ fs', fs.writeFile text content = .ok fs' ∧ PartOf fs' whole := by
  have hpath : path ∈ whole.files := by
    rw [← AList.lookup_isSome, hcontent]
    rfl
  have hparents : ∀ dir ∈ parents path, dir ∉ fs.files := fun dir hdir ↦
    h.not_mem_files (whole.parents_mem path hpath dir hdir)
  have hwrite : fs.writeFile text content =
      .ok (fs.put path content (h.not_mem_dirs hpath) hparents) := by
    simp only [FileSystem.writeFile, htext]
    rw [dif_neg (h.not_mem_dirs hpath), dif_pos hparents]
  refine ⟨_, hwrite, ?_, ?_⟩
  · intro other content' hlookup
    rw [(files_of_writeFile htext hwrite).1] at hlookup
    by_cases heq : other = path
    · subst heq
      rw [AList.lookup_insert] at hlookup
      rw [← hlookup, hcontent]
    · rw [AList.lookup_insert_ne heq] at hlookup
      exact h.lookup other content' hlookup
  · intro dir hdir
    rcases (mem_dirs_of_writeFile htext hwrite dir).mp hdir with hold | hparent
    · exact h.dirs dir hold
    · exact whole.parents_mem path hpath dir hparent

/-- A directory of the whole can be made. -/
theorem PartOf.exists_mkdirAll (h : PartOf fs whole) (hclosed : whole.Closed)
    (htext : Path.parse text = some path) (hpath : path ∈ whole.dirs) :
    ∃ fs', fs.mkdirAll text = .ok fs' ∧ PartOf fs' whole := by
  have hinits : ∀ dir ∈ path.inits, dir ∉ fs.files := fun dir hdir ↦
    h.not_mem_files (hclosed path hpath dir ((List.mem_inits dir path).mp hdir))
  have hmkdir : fs.mkdirAll text = .ok (fs.makeDir path hinits) := by
    simp only [FileSystem.mkdirAll, htext]
    rw [dif_pos hinits]
  refine ⟨_, hmkdir, fun other content' hlookup ↦ h.lookup other content' hlookup, ?_⟩
  intro dir hdir
  rcases (mem_dirs_of_mkdirAll htext hmkdir dir).mp hdir with hold | hleads
  · exact h.dirs dir hold
  · exact hclosed path hpath dir hleads

/-- A part that has everything is the same. -/
theorem PartOf.same (h : PartOf fs whole) (hall : ∀ node, whole.Has node → fs.Has node) :
    Same fs whole where
  lookup path := by
    cases hlookup : fs.files.lookup path with
    | some content => exact (h.lookup path content hlookup).symm
    | none =>
      rw [AList.lookup_eq_none] at hlookup
      exact (AList.lookup_eq_none.mpr fun hpath ↦ hlookup (hall (path, false) hpath)).symm
  dirs dir := ⟨h.dirs dir, hall (dir, true)⟩

end OperatorToolkit.Files.FileSystem
