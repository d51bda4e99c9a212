import Mathlib.Data.List.Basic

/-!
# Paths of files

A path is the list of the names on the way from the root to a file or a directory. Programs use
texts of paths. Several texts stand for one path: empty components and `.` are skipped, `..` goes
back to the parent, and it does not matter whether a text begins at the root.
-/

namespace OperatorToolkit.Files

def IsName (text : String) : Prop :=
  text ≠ "" ∧ text ≠ "." ∧ text ≠ ".." ∧ '/' ∉ text.toList

instance : DecidablePred IsName := fun _ ↦ inferInstanceAs (Decidable (_ ∧ _))

/-- The name of a file or a directory within its directory. -/
structure Name where
  text : String
  isName : IsName text
  deriving DecidableEq

/-- The names on the way from the root. -/
abbrev Path := List Name

namespace Path

def chars (path : Path) : List Char :=
  path.flatMap fun name ↦ '/' :: name.text.toList

/-- The text that begins at the root. -/
def toString (path : Path) : String :=
  if path = [] then "/" else String.ofList path.chars

/-- The last name, if the path is not the root. -/
def base (path : Path) : Option Name := path.getLast?

/-- Follows one component of a text. There is nothing above the root. -/
def enter (path : Option Path) (component : List Char) : Option Path :=
  if h : IsName (String.ofList component) then path.map (· ++ [⟨_, h⟩])
  else if component = ['.', '.'] then
    path.bind fun names ↦ if names = [] then none else some names.dropLast
  else path

/-- The path that a text stands for. -/
def parse (text : String) : Option Path :=
  if text = "" then none else (text.toList.splitOn '/').foldl enter (some [])

/-! ## Reading texts -/

theorem enter_name (path : Option Path) (name : Name) :
    enter path name.text.toList = path.map (· ++ [name]) := by
  have hname : IsName (String.ofList name.text.toList) := by
    rw [String.ofList_toList]
    exact name.isName
  rw [enter, dif_pos hname]
  simp only [String.ofList_toList]

@[simp] theorem enter_nil (path : Option Path) : enter path [] = path := by
  have hname : ¬IsName (String.ofList []) := by decide
  rw [enter, dif_neg hname, if_neg (by decide)]

theorem foldl_enter_names (path names : Path) :
    (names.map fun name ↦ name.text.toList).foldl enter (some path) = some (path ++ names) := by
  induction names generalizing path with
  | nil => simp
  | cons name rest ih =>
    rw [List.map_cons, List.foldl_cons, enter_name, Option.map_some, ih, List.append_assoc,
      List.singleton_append]

theorem splitOn_append_chars (component : List Char) (hcomponent : '/' ∉ component)
    (path : Path) :
    (component ++ path.chars).splitOn '/' = component :: path.map fun name ↦ name.text.toList := by
  induction path generalizing component with
  | nil => simpa [chars] using List.splitOn_eq_singleton hcomponent
  | cons name rest ih =>
    have hchars : chars (name :: rest) = '/' :: (name.text.toList ++ chars rest) := by
      simp [chars]
    rw [hchars, List.splitOn_append_cons_self_of_not_mem hcomponent,
      ih _ name.isName.2.2.2, List.map_cons]

/-- The text of a path stands for that path. -/
@[simp] theorem parse_toString (path : Path) : parse path.toString = some path := by
  by_cases hroot : path = []
  · subst hroot
    decide
  · obtain ⟨name, rest, rfl⟩ := List.exists_cons_of_ne_nil hroot
    have hsplit := splitOn_append_chars [] (by simp) (name :: rest)
    rw [List.nil_append] at hsplit
    have htext : String.ofList (chars (name :: rest)) ≠ "" := by
      simp [chars, ← String.toList_inj]
    rw [toString, if_neg hroot, parse, if_neg htext, String.toList_ofList, hsplit,
      List.foldl_cons, enter_nil, foldl_enter_names, List.nil_append]

/-- A name after a text is looked for where the text leads. -/
theorem parse_append_name_eq {text : String} (htext : text ≠ "") (name : Name) :
    parse (text ++ "/" ++ name.text) = (parse text).map (· ++ [name]) := by
  have hchars : (text ++ "/" ++ name.text).toList = text.toList ++ '/' :: name.text.toList := by
    simp
  have hjoined : text ++ "/" ++ name.text ≠ "" := by
    intro h
    rw [h] at hchars
    simp at hchars
  rw [parse, parse, if_neg htext, if_neg hjoined, hchars, List.splitOn_append_cons_self,
    List.splitOn_eq_singleton name.isName.2.2.2, List.foldl_append, List.foldl_cons,
    List.foldl_nil, enter_name]

/-- A name after the text of a directory stands for the entry of that name. -/
theorem parse_append_name {text : String} {dir : Path} (hdir : parse text = some dir)
    (name : Name) : parse (text ++ "/" ++ name.text) = some (dir ++ [name]) := by
  have htext : text ≠ "" := by
    rintro rfl
    simp [parse] at hdir
  rw [parse_append_name_eq htext, hdir, Option.map_some]

end Path

/-! ## Suffixes -/

/-- A text ends in another. -/
def hasSuffix (text suffix : String) : Bool := suffix.toList.isSuffixOf text.toList

/-- What has no separator and is at the end of a text is at the end of the text's last component. -/
theorem suffix_append_separator_iff {α : Type} {separator : α} {suffix : List α}
    (hsuffix : separator ∉ suffix) (front last : List α) :
    suffix <:+ front ++ separator :: last ↔ suffix <:+ last := by
  constructor
  · intro h
    rcases List.suffix_or_suffix_of_suffix h (List.suffix_append front (separator :: last)) with
      hshort | hlong
    · rcases List.suffix_cons_iff.mp hshort with heq | hlast
      · exact absurd (heq ▸ List.mem_cons_self) hsuffix
      · exact hlast
    · exact absurd (hlong.subset List.mem_cons_self) hsuffix
  · intro h
    have hlast : suffix <:+ separator :: last := h.trans (List.suffix_cons _ _)
    exact hlast.trans (List.suffix_append _ _)

/-- The text of a path ends in a name if the last name of the path does. -/
theorem hasSuffix_toString (dir : Path) (name : Name) {suffix : String}
    (hsuffix : '/' ∉ suffix.toList) :
    hasSuffix (Path.toString (dir ++ [name])) suffix = hasSuffix name.text suffix := by
  have hchars : (Path.toString (dir ++ [name])).toList = dir.chars ++ '/' :: name.text.toList := by
    simp [Path.toString, Path.chars]
  rw [Bool.eq_iff_iff, hasSuffix, hasSuffix, List.isSuffixOf_iff_suffix,
    List.isSuffixOf_iff_suffix, hchars, suffix_append_separator_iff hsuffix]

end OperatorToolkit.Files
