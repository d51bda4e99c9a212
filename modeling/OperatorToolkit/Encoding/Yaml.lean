import Mathlib.Data.List.Forall2
import Mathlib.Tactic.Common

/-!
# YAML nodes that are read from text

A template that writes YAML puts texts in the places of values, without quotes and with the
characters escaped that are special in HTML. `blockText` is the layout, a sequence of mappings in
block style. A `Reader` reads such a text back as intended if the texts in it are plain scalars, and
a plain scalar need not be a string: it is resolved to a number, a Boolean or null if it looks like
one. `lineReader` is a reader of this layout only, line by line.
-/

namespace OperatorToolkit.Encoding.Yaml

inductive Scalar where
  | null
  | bool (value : Bool)
  | number (literal : String)
  | str (text : String)
  deriving DecidableEq, Repr

inductive Node where
  | scalar (value : Scalar)
  | seq (items : List Node)
  | map (entries : List (String × Node))

def Node.lookup (key : String) : Node → Option Node
  | .map entries => entries.lookup key
  | _ => none

/-! ## Escaping for HTML -/

/-- The replacements of characters, by their code points. -/
def htmlReplacementTable : List (ℕ × String) :=
  [(0, "\uFFFD"), (34, "&#34;"), (38, "&amp;"), (39, "&#39;"), (43, "&#43;"), (60, "&lt;"),
    (62, "&gt;")]

def htmlEscapeChar (c : Char) : List Char :=
  ((htmlReplacementTable.lookup c.toNat).map String.toList).getD [c]

def htmlEscape (text : String) : String := String.ofList (text.toList.flatMap htmlEscapeChar)

theorem newline_mem_htmlEscapeChar {c : Char} (h : '\n' ∈ htmlEscapeChar c) : c = '\n' := by
  have htable : ∀ entry ∈ htmlReplacementTable, '\n' ∉ entry.2.toList := by decide
  unfold htmlEscapeChar at h
  cases hlookup : htmlReplacementTable.lookup c.toNat with
  | none =>
    rw [hlookup] at h
    exact (List.mem_singleton.mp h).symm
  | some word =>
    rw [hlookup] at h
    obtain ⟨front, back, hsplit, -⟩ := List.lookup_eq_some_iff.mp hlookup
    exact absurd h (htable (c.toNat, word) (hsplit ▸ by simp))

theorem newline_not_mem_htmlEscape {text : String} (h : '\n' ∉ text.toList) :
    '\n' ∉ (htmlEscape text).toList := by
  rw [htmlEscape, String.toList_ofList, List.mem_flatMap]
  rintro ⟨c, hc, hnewline⟩
  exact h (newline_mem_htmlEscapeChar hnewline ▸ hc)

/-! ## Sequences of mappings in block style -/

/-- A mapping, with the texts that stand in the places of its values. -/
abbrev Texts := List (String × String)

def entryText (entry : String × String) : String := entry.1 ++ ": " ++ entry.2

/-- The lines of one mapping, after an empty one. -/
def itemLines : Texts → List String
  | [] => [""]
  | first :: rest => "" :: ("- " ++ entryText first) :: rest.map fun entry ↦ "  " ++ entryText entry

def blockText (items : List Texts) : String :=
  String.join ((items.flatMap itemLines).map (· ++ "\n"))

def IsKey (key : String) : Prop := key ≠ "" ∧ key.toList.all Char.isAlpha = true

instance (key : String) : Decidable (IsKey key) := inferInstanceAs (Decidable (_ ∧ _))

/-- The mapping has entries, under keys that are words. -/
structure IsItem (item : Texts) : Prop where
  ne_nil : item ≠ []
  isKey : ∀ entry ∈ item, IsKey entry.1
  nodup : (item.map Prod.fst).Nodup

/-- The node is a sequence of mappings in which every entry of the items is found, with a scalar
that is related to its text. -/
def ReadsAs (Related : String → Scalar → Prop) (node : Node) (items : List Texts) : Prop :=
  ∃ nodes, node = .seq nodes ∧ List.Forall₂ (fun item mapping ↦ ∀ entry ∈ item, ∃ value,
    Node.lookup entry.1 mapping = some (.scalar value) ∧ Related entry.2 value) items nodes

theorem exists_of_forall₂ {α β : Type} {R : α → β → Prop} {xs : List α} {ys : List β}
    (h : List.Forall₂ R xs ys) {x : α} (hx : x ∈ xs) : ∃ y ∈ ys, R x y := by
  induction h with
  | nil => cases hx
  | cons hhead _ ih =>
    cases hx with
    | head => exact ⟨_, List.mem_cons_self, hhead⟩
    | tail _ hx =>
      obtain ⟨y, hy, hrel⟩ := ih hx
      exact ⟨y, List.mem_cons_of_mem _ hy, hrel⟩

/-- A YAML reader. `isPlain` tells which texts are plain scalars on one line when they stand in the
place of a value, and `resolve` what a plain scalar is resolved to. -/
structure Reader (Err : Type) where
  parse : String → Except Err Node
  isPlain : String → Bool
  resolve : String → Scalar
  parse_empty : ∃ err, parse "" = .error err
  parse_blockText : ∀ items, items ≠ [] → (∀ item ∈ items, IsItem item) →
    (∀ item ∈ items, ∀ entry ∈ item, isPlain entry.2 = true) →
    parse (blockText items) = .ok (.seq (items.map fun item ↦
      .map (item.map fun entry ↦ (entry.1, .scalar (resolve entry.2)))))
  /-- A text that is not plain loses something when it is read, be it an indicator, a comment, a
  line break or white space. Where all other texts are plain, or are the escaped forms of the
  strings that they are read as, so is this one. -/
  isPlain_of_readsAs : ∀ items node, (∀ item ∈ items, IsItem item) →
    parse (blockText items) = .ok node →
    ReadsAs (fun text value ↦
      isPlain text = true ∨ ∃ string, value = .str string ∧ text = htmlEscape string) node items →
    ∀ item ∈ items, ∀ entry ∈ item, isPlain entry.2 = true
  resolve_str : ∀ text string, resolve text = .str string → string = text
  resolve_bool : ∀ value : Bool, isPlain (toString value) = true ∧
    resolve (toString value) = .bool value

/-! ## Reading line by line -/

namespace Lines

def indicators : List Char := "-?:,[]\x7b\x7d#&*!|>\x27\x22%@\x60".toList

/-- The rest of a plain scalar after a character: no comment, no end of a key, no break. -/
def plainAfter (previous : Char) : List Char → Bool
  | [] => previous != ' ' && previous != ':'
  | c :: rest => 32 ≤ c.toNat && !(previous == ' ' && c == '#') && !(previous == ':' && c == ' ') &&
      plainAfter c rest

def plainChars : List Char → Bool
  | [] => false
  | c :: rest => 32 < c.toNat && !indicators.contains c && plainAfter c rest

def isPlain (text : String) : Bool := plainChars text.toList

def isNumber (text : String) : Bool :=
  text.toList.all fun c ↦ c.isDigit || c == '.'

def resolve (text : String) : Scalar :=
  if text ∈ ["null", "Null", "NULL", "~"] then .null
  else if text ∈ ["true", "True", "TRUE"] then .bool true
  else if text ∈ ["false", "False", "FALSE"] then .bool false
  else if isNumber text then .number text
  else .str text

/-- The entry of a mapping, a word, a colon and a plain scalar. -/
def readEntry (line : List Char) : Option (String × Node) :=
  match line.dropWhile Char.isAlpha with
  | ':' :: ' ' :: text =>
    if isPlain (String.ofList text) then
      some (String.ofList (line.takeWhile Char.isAlpha), .scalar (resolve (String.ofList text)))
    else none
  | _ => none

/-- One line in front of the entries that continue a mapping and the mappings after them. -/
def readLine (entries : List (String × Node)) (nodes : List Node) :
    List Char → Option (List (String × Node) × List Node)
  | [] => some (entries, nodes)
  | '-' :: ' ' :: line => (readEntry line).map fun entry ↦ ([], .map (entry :: entries) :: nodes)
  | ' ' :: ' ' :: line => (readEntry line).map fun entry ↦ (entry :: entries, nodes)
  | _ => none

def readLines : List (List Char) → Option (List (String × Node) × List Node)
  | [] => some ([], [])
  | line :: lines => (readLines lines).bind fun read ↦ readLine read.1 read.2 line

def parse {Err : Type} (fail : String → Err) (text : String) : Except Err Node :=
  match readLines (text.toList.splitOn '\n') with
  | some ([], node :: nodes) => .ok (.seq (node :: nodes))
  | some ([], []) => .error (fail "EOF")
  | _ => .error (fail "yaml: unexpected line")

/-! ### Plain texts -/

theorem newline_not_mem_of_plainAfter {previous : Char} {chars : List Char}
    (h : plainAfter previous chars = true) : '\n' ∉ chars := by
  induction chars generalizing previous with
  | nil => simp
  | cons c rest ih =>
    simp only [plainAfter, Bool.and_eq_true, decide_eq_true_eq] at h
    have hc : '\n' ≠ c := by
      rintro rfl
      exact absurd h.1.1.1 (by decide)
    simp [hc, ih h.2]

theorem newline_not_mem_of_isPlain {text : String} (h : isPlain text = true) :
    '\n' ∉ text.toList := by
  unfold isPlain at h
  cases htext : text.toList with
  | nil => simp
  | cons c rest =>
    simp only [htext, plainChars, Bool.and_eq_true, decide_eq_true_eq] at h
    have hc : '\n' ≠ c := by
      rintro rfl
      exact absurd h.1.1 (by decide)
    simp [hc, newline_not_mem_of_plainAfter h.2]

theorem resolve_eq_str {text string : String} (h : resolve text = .str string) : string = text := by
  unfold resolve at h
  split_ifs at h
  cases h
  rfl

/-! ### What is read -/

/-- The entry was read from a plain text. -/
def Resolved (entry : String × Node) : Prop :=
  ∃ text, isPlain text = true ∧ entry.2 = .scalar (resolve text)

theorem resolved_of_readEntry {line : List Char} {entry : String × Node}
    (h : readEntry line = some entry) : Resolved entry := by
  unfold readEntry at h
  split at h
  next text _ =>
    split at h
    next hplain =>
      cases h
      exact ⟨String.ofList text, hplain, rfl⟩
    next => cases h
  next => cases h

theorem resolved_of_readLines {lines : List (List Char)} {entries : List (String × Node)}
    {nodes : List Node} (h : readLines lines = some (entries, nodes)) :
    (∀ entry ∈ entries, Resolved entry) ∧
      ∀ node ∈ nodes, ∃ entries, node = .map entries ∧ ∀ entry ∈ entries, Resolved entry := by
  induction lines generalizing entries nodes with
  | nil =>
    cases h
    simp
  | cons line lines ih =>
    obtain ⟨⟨entries', nodes'⟩, hlines, hline⟩ := Option.bind_eq_some_iff.mp h
    have hread := ih hlines
    unfold readLine at hline
    split at hline
    next =>
      cases hline
      exact hread
    next =>
      obtain ⟨entry, hentry, hpair⟩ := Option.map_eq_some_iff.mp hline
      cases hpair
      refine ⟨by simp, List.forall_mem_cons.mpr ⟨⟨_, rfl, ?_⟩, hread.2⟩⟩
      exact List.forall_mem_cons.mpr ⟨resolved_of_readEntry hentry, hread.1⟩
    next =>
      obtain ⟨entry, hentry, hpair⟩ := Option.map_eq_some_iff.mp hline
      cases hpair
      exact ⟨List.forall_mem_cons.mpr ⟨resolved_of_readEntry hentry, hread.1⟩, hread.2⟩
    next => cases hline

/-! ### Lines of a block -/

theorem readEntry_entryText {entry : String × String} (hkey : IsKey entry.1) :
    readEntry (entryText entry).toList =
      if isPlain entry.2 then some (entry.1, .scalar (resolve entry.2)) else none := by
  have hchars : (entryText entry).toList = entry.1.toList ++ ':' :: ' ' :: entry.2.toList := by
    simp [entryText]
  have htake : (entryText entry).toList.takeWhile Char.isAlpha = entry.1.toList := by
    rw [hchars, List.takeWhile_append_of_pos (List.all_eq_true.mp hkey.2)]
    simp [List.takeWhile]
  have hdrop : (entryText entry).toList.dropWhile Char.isAlpha =
      ':' :: ' ' :: entry.2.toList := by
    rw [hchars, List.dropWhile_append_of_pos (List.all_eq_true.mp hkey.2)]
    simp [List.dropWhile]
  simp only [readEntry, htake, hdrop, String.ofList_toList]

theorem splitOn_join_lines {lines : List String} (h : ∀ line ∈ lines, '\n' ∉ line.toList) :
    (String.join (lines.map (· ++ "\n"))).toList.splitOn '\n' =
      lines.map String.toList ++ [[]] := by
  induction lines with
  | nil => rfl
  | cons line lines ih =>
    have hchars : (String.join ((line :: lines).map (· ++ "\n"))).toList =
        line.toList ++ '\n' :: (String.join (lines.map (· ++ "\n"))).toList := by
      simp [String.toList_join]
    rw [hchars, List.splitOn_append_cons_self_of_not_mem (h line (by simp)),
      ih fun other hother ↦ h other (by simp [hother])]
    simp

theorem newline_not_mem_of_mem_itemLines {item : Texts} (hitem : IsItem item)
    (htexts : ∀ entry ∈ item, '\n' ∉ entry.2.toList) {line : String}
    (hline : line ∈ itemLines item) : '\n' ∉ line.toList := by
  have hentry (entry : String × String) (hmem : entry ∈ item) :
      '\n' ∉ (entryText entry).toList := by
    have hkey : '\n' ∉ entry.1.toList := fun hnewline ↦
      absurd (List.all_eq_true.mp (hitem.isKey entry hmem).2 _ hnewline) (by decide)
    simp [entryText, hkey, htexts entry hmem]
  cases item with
  | nil => exact absurd rfl hitem.ne_nil
  | cons first rest =>
    simp only [itemLines, List.mem_cons, List.mem_map] at hline
    rcases hline with rfl | rfl | ⟨entry, hmem, rfl⟩
    · simp
    · simp [hentry first (by simp)]
    · simp [hentry entry (by simp [hmem])]

def plainTexts (item : Texts) : Bool := item.all fun entry ↦ isPlain entry.2

theorem plainTexts_cons {entry : String × String} {rest : Texts} :
    plainTexts (entry :: rest) = (isPlain entry.2 && plainTexts rest) := List.all_cons

def plainEntry (entry : String × String) : String × Node := (entry.1, .scalar (resolve entry.2))

theorem readLines_rest {rest : Texts} (hkeys : ∀ entry ∈ rest, IsKey entry.1)
    (more : List (List Char)) :
    readLines ((rest.map fun entry ↦ ("  " ++ entryText entry).toList) ++ more) =
      (readLines more).bind fun read ↦
        if plainTexts rest then some (rest.map plainEntry ++ read.1, read.2) else none := by
  induction rest with
  | nil => cases hmore : readLines more <;> simp [plainTexts, hmore]
  | cons entry rest ih =>
    have hline : ("  " ++ entryText entry).toList = ' ' :: ' ' :: (entryText entry).toList := by
      simp
    have hentry := readEntry_entryText (hkeys entry (by simp))
    rw [List.map_cons, List.cons_append, readLines, hline,
      ih fun other hother ↦ hkeys other (by simp [hother]), Option.bind_assoc]
    refine congrArg _ (funext fun read ↦ ?_)
    cases hplain : isPlain entry.2 <;> cases hrest : plainTexts rest <;>
      simp [hplain, hrest, plainTexts_cons, readLine, hentry, plainEntry]

theorem readLines_item {item : Texts} (hitem : IsItem item) (more : List (List Char)) :
    readLines ((itemLines item).map String.toList ++ more) =
      (readLines more).bind fun read ↦
        if plainTexts item then some ([], .map (item.map plainEntry ++ read.1) :: read.2)
        else none := by
  cases item with
  | nil => exact absurd rfl hitem.ne_nil
  | cons first rest =>
    have hline : ("- " ++ entryText first).toList = '-' :: ' ' :: (entryText first).toList := by
      simp
    have hentry := readEntry_entryText (hitem.isKey first (by simp))
    have hrest : ∀ entry ∈ rest, IsKey entry.1 :=
      fun entry hmem ↦ hitem.isKey entry (List.mem_cons_of_mem _ hmem)
    simp only [itemLines, List.map_cons, List.map_map, Function.comp_def, List.cons_append,
      readLines, readLines_rest hrest, hline, Option.bind_assoc]
    refine congrArg _ (funext fun read ↦ ?_)
    cases hplain : isPlain first.2 <;> cases hplains : plainTexts rest <;>
      simp [hplain, hplains, plainTexts_cons, readLine, hentry, plainEntry]

theorem readLines_items {items : List Texts} (hitems : ∀ item ∈ items, IsItem item) :
    readLines ((items.flatMap itemLines).map String.toList ++ [[]]) =
      if items.all plainTexts then some ([], items.map fun item ↦ .map (item.map plainEntry))
      else none := by
  induction items with
  | nil => simp [readLines, readLine]
  | cons item items ih =>
    rw [List.flatMap_cons, List.map_append, List.append_assoc,
      readLines_item (hitems item (by simp)),
      ih fun other hother ↦ hitems other (by simp [hother])]
    cases hitem : plainTexts item <;> cases hrest : items.all plainTexts <;> simp [hitem, hrest]

theorem plainTexts_iff {items : List Texts} : items.all plainTexts = true ↔
    ∀ item ∈ items, ∀ entry ∈ item, isPlain entry.2 = true := by
  simp [plainTexts, List.all_eq_true]

/-- A block in which no text spans lines is read if all texts are plain. -/
theorem readLines_blockText {items : List Texts} (hitems : ∀ item ∈ items, IsItem item)
    (htexts : ∀ item ∈ items, ∀ entry ∈ item, '\n' ∉ entry.2.toList) :
    readLines ((blockText items).toList.splitOn '\n') =
      if items.all plainTexts then some ([], items.map fun item ↦ .map (item.map plainEntry))
      else none := by
  have hlines : ∀ line ∈ items.flatMap itemLines, '\n' ∉ line.toList := by
    intro line hline
    obtain ⟨item, hitem, hmem⟩ := List.mem_flatMap.mp hline
    exact newline_not_mem_of_mem_itemLines (hitems item hitem) (htexts item hitem) hmem
  rw [blockText, splitOn_join_lines hlines, readLines_items hitems]

variable {Err : Type} {fail : String → Err}

theorem parse_blockText {items : List Texts} (hne : items ≠ [])
    (hitems : ∀ item ∈ items, IsItem item)
    (hplain : ∀ item ∈ items, ∀ entry ∈ item, isPlain entry.2 = true) :
    parse fail (blockText items) =
      .ok (.seq (items.map fun item ↦ .map (item.map plainEntry))) := by
  have hread := readLines_blockText hitems fun item hitem entry hentry ↦
    newline_not_mem_of_isPlain (hplain item hitem entry hentry)
  rw [if_pos (plainTexts_iff.mpr hplain)] at hread
  cases items with
  | nil => exact absurd rfl hne
  | cons item items => simp [parse, hread]

theorem readLines_of_parse {text : String} {nodes : List Node}
    (h : parse fail text = .ok (.seq nodes)) :
    readLines (text.toList.splitOn '\n') = some ([], nodes) := by
  unfold parse at h
  split at h
  next node nodes' hread =>
    cases h
    exact hread
  next => cases h
  next => cases h

/-- A string that is read from a block spans no lines. -/
theorem newline_not_mem_of_lookup {nodes : List Node} {lines : List (List Char)} {key : String}
    {node : Node} {string : String} (hread : readLines lines = some ([], nodes))
    (hnode : node ∈ nodes) (hlookup : node.lookup key = some (.scalar (.str string))) :
    '\n' ∉ string.toList := by
  obtain ⟨entries, rfl, hentries⟩ := (resolved_of_readLines hread).2 node hnode
  obtain ⟨front, back, hsplit, -⟩ := List.lookup_eq_some_iff.mp hlookup
  obtain ⟨text, hplain, hvalue⟩ := hentries (key, .scalar (.str string)) (hsplit ▸ by simp)
  cases hvalue' : resolve text with
  | str string' =>
    rw [hvalue'] at hvalue
    cases hvalue
    rw [resolve_eq_str hvalue']
    exact newline_not_mem_of_isPlain hplain
  | null | bool | number =>
    rw [hvalue'] at hvalue
    cases hvalue

theorem isPlain_of_readsAs {items : List Texts} {node : Node}
    (hitems : ∀ item ∈ items, IsItem item) (hparse : parse fail (blockText items) = .ok node)
    (hreads : ReadsAs (fun text value ↦
      isPlain text = true ∨ ∃ string, value = .str string ∧ text = htmlEscape string) node items) :
    ∀ item ∈ items, ∀ entry ∈ item, isPlain entry.2 = true := by
  obtain ⟨nodes, rfl, hnodes⟩ := hreads
  have hread := readLines_of_parse hparse
  have htexts : ∀ item ∈ items, ∀ entry ∈ item, '\n' ∉ entry.2.toList := by
    intro item hitem entry hentry
    obtain ⟨mapping, hmapping, hfound⟩ := exists_of_forall₂ hnodes hitem
    obtain ⟨value, hlookup, hplain | ⟨string, rfl, hescaped⟩⟩ := hfound entry hentry
    · exact newline_not_mem_of_isPlain hplain
    · rw [hescaped]
      exact newline_not_mem_htmlEscape (newline_not_mem_of_lookup hread hmapping hlookup)
  rw [readLines_blockText hitems htexts] at hread
  split at hread
  next hplain => exact plainTexts_iff.mp hplain
  next => cases hread

end Lines

/-- A reader of blocks of mappings with plain scalars. -/
def lineReader {Err : Type} (fail : String → Err) : Reader Err where
  parse := Lines.parse fail
  isPlain := Lines.isPlain
  resolve := Lines.resolve
  parse_empty := ⟨fail "EOF", rfl⟩
  parse_blockText _ := Lines.parse_blockText
  isPlain_of_readsAs _ _ := Lines.isPlain_of_readsAs
  resolve_str _ _ := Lines.resolve_eq_str
  resolve_bool := by decide

end OperatorToolkit.Encoding.Yaml
