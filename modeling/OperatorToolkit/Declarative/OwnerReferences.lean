import OperatorToolkit.Base
import OperatorToolkit.Encoding.Yaml
import OperatorToolkit.Object.Metadata
import OperatorToolkit.Object.Names

/-!
# Owner references of a manifest

`SetOwnerReference` writes the owner references as YAML with an HTML template, parses the text and
puts the result into `metadata.ownerReferences` of the manifest. The template does not quote what it
writes. The references are read back as they were exactly if there is at least one of them and every
text in them is the same after escaping, is a plain scalar and does not look like a number, a
Boolean or null.
-/

namespace OperatorToolkit.Declarative

open Encoding.Yaml Object

/-! ## The template -/

structure OwnerRefTemplateParam where
  apiVersion : String
  kind : String
  name : String
  uid : String
  controller : Bool
  blockOwnerDeletion : Bool
  deriving DecidableEq, Repr

def getOwnerRefTemplateParamFor (ownerRef : OwnerReference) : OwnerRefTemplateParam where
  apiVersion := ownerRef.apiVersion
  kind := ownerRef.kind
  name := ownerRef.name
  uid := ownerRef.uid
  controller := ownerRef.controller.getD false
  blockOwnerDeletion := ownerRef.blockOwnerDeletion.getD false

/-- Text of a template, or an action that prints a value. -/
inductive TemplatePart (Param : Type) where
  | text (content : String)
  | action (value : Param → String)

/-- What `html/template` writes: the text as it is, and the values escaped. -/
def TemplatePart.execute {Param : Type} (param : Param) : TemplatePart Param → String
  | .text content => content
  | .action value => htmlEscape (value param)

def ownerRefTemplate : List (TemplatePart OwnerRefTemplateParam) :=
  [.text "\n- apiVersion: ", .action (·.apiVersion),
    .text "\n  blockOwnerDeletion: ", .action (toString ·.blockOwnerDeletion),
    .text "\n  controller: ", .action (toString ·.controller),
    .text "\n  kind: ", .action (·.kind),
    .text "\n  name: ", .action (·.name),
    .text "\n  uid: ", .action (·.uid),
    .text "\n"]

def executeTemplate (param : OwnerRefTemplateParam) : String :=
  String.join (ownerRefTemplate.map (TemplatePart.execute param))

/-! ## Nodes of a manifest -/

/-- The YAML library, with the error that it returns for a node of the wrong kind. -/
structure KYaml (Err : Type) extends Reader Err where
  wrongKind : Node → Err

variable {Err : Type}

/-- The entries with the value under the key replaced, or added at the end. -/
def putEntry (key : String) (value : Node) : List (String × Node) → List (String × Node)
  | [] => [(key, value)]
  | entry :: entries =>
    if entry.1 = key then (key, value) :: entries else entry :: putEntry key value entries

/-- `yaml.SetField`. A null clears the field. -/
def setField (yaml : KYaml Err) (name : String) (value : Node) : Node → Except Err Node
  | .map entries =>
    match value with
    | .scalar .null => .ok (.map (entries.filter (·.1 ≠ name)))
    | value => .ok (.map (putEntry name value entries))
  | node => .error (yaml.wrongKind node)

/-- `LookupCreate(SequenceNode, "metadata")` followed by `SetField`: a manifest without metadata is
given a sequence, in which no field can be set. -/
def setMetadataField (yaml : KYaml Err) (name : String) (value obj : Node) : Except Err Node :=
  match obj with
  | .map entries => do
    let metadata := (entries.lookup "metadata").getD (.seq [])
    let metadata ← setField yaml name value metadata
    return .map (putEntry "metadata" metadata entries)
  | node => .error (yaml.wrongKind node)

/-- `SetOwnerReference`. -/
def setOwnerReference [ErrorValues Err] (yaml : KYaml Err) (ownerRefs : List OwnerReference)
    (obj : Node) : Except Err Node := do
  let stringOwnerRefs := ownerRefs.foldl
    (fun text ownerRef ↦ text ++ executeTemplate (getOwnerRefTemplateParamFor ownerRef)) ""
  let parsedOR ← Except.mapError (wrap "failed to parse string OwnerReferences")
    (yaml.parse stringOwnerRefs)
  setMetadataField yaml "ownerReferences" parsedOR obj

/-! ## Reading the references -/

def readString (key : String) (node : Node) : Option String :=
  match node.lookup key with
  | some (.scalar (.str text)) => some text
  | _ => none

def readBool (key : String) (node : Node) : Option Bool :=
  match node.lookup key with
  | some (.scalar (.bool value)) => some value
  | _ => none

/-- A reference in which the texts are strings and the other two fields Booleans. -/
def readReference (node : Node) : Option OwnerRefTemplateParam := do
  let apiVersion ← readString "apiVersion" node
  let kind ← readString "kind" node
  let name ← readString "name" node
  let uid ← readString "uid" node
  let controller ← readBool "controller" node
  let blockOwnerDeletion ← readBool "blockOwnerDeletion" node
  return { apiVersion, kind, name, uid, controller, blockOwnerDeletion }

/-- The list in `metadata.ownerReferences`. -/
def readOwnerReferences (obj : Node) : Option (List OwnerRefTemplateParam) := do
  let metadata ← obj.lookup "metadata"
  match ← metadata.lookup "ownerReferences" with
  | .seq nodes => nodes.mapM readReference
  | _ => none

/-! ## The text that is written -/

/-- The mapping that the template writes. -/
def paramTexts (param : OwnerRefTemplateParam) : Texts :=
  [("apiVersion", htmlEscape param.apiVersion),
    ("blockOwnerDeletion", toString param.blockOwnerDeletion),
    ("controller", toString param.controller), ("kind", htmlEscape param.kind),
    ("name", htmlEscape param.name), ("uid", htmlEscape param.uid)]

theorem isItem_paramTexts (param : OwnerRefTemplateParam) : IsItem (paramTexts param) where
  ne_nil := List.cons_ne_nil _ _
  isKey := by
    simp only [paramTexts, List.forall_mem_cons, List.not_mem_nil, IsEmpty.forall_iff,
      implies_true, and_true]
    decide +kernel
  nodup := by
    change ["apiVersion", "blockOwnerDeletion", "controller", "kind", "name", "uid"].Nodup
    decide +kernel

theorem htmlEscape_toString (value : Bool) : htmlEscape (toString value) = toString value := by
  cases value <;> decide

theorem executeTemplate_eq (param : OwnerRefTemplateParam) :
    executeTemplate param = blockText [paramTexts param] := by
  rw [← String.toList_inj]
  simp [executeTemplate, ownerRefTemplate, TemplatePart.execute, blockText, itemLines, paramTexts,
    entryText, htmlEscape_toString]

theorem blockText_cons {item : Texts} {items : List Texts} :
    blockText (item :: items) = blockText [item] ++ blockText items := by
  rw [← String.toList_inj]
  simp [blockText, String.toList_join]

theorem foldl_executeTemplate (ownerRefs : List OwnerReference) (text : String) :
    ownerRefs.foldl
        (fun text ownerRef ↦ text ++ executeTemplate (getOwnerRefTemplateParamFor ownerRef)) text =
      text ++ blockText (ownerRefs.map fun ownerRef ↦
        paramTexts (getOwnerRefTemplateParamFor ownerRef)) := by
  induction ownerRefs generalizing text with
  | nil => simp [blockText]
  | cons ownerRef ownerRefs ih =>
    rw [List.foldl_cons, ih, List.map_cons, blockText_cons, executeTemplate_eq, String.append_assoc]

/-! ## Setting and reading the field -/

theorem lookup_putEntry {key : String} {value : Node} {entries : List (String × Node)} :
    (putEntry key value entries).lookup key = some value := by
  induction entries with
  | nil => exact Encoding.lookup_cons_self
  | cons entry entries ih =>
    obtain ⟨other, first⟩ := entry
    unfold putEntry
    split
    · exact Encoding.lookup_cons_self
    next hne => rw [Encoding.lookup_cons_of_ne (Ne.symm hne), ih]

theorem lookup_filter_ne {key : String} {entries : List (String × Node)} :
    (entries.filter (·.1 ≠ key)).lookup key = none := by
  refine Encoding.lookup_eq_none_iff.mpr fun entry hentry ↦ ?_
  exact of_decide_eq_true (List.mem_filter.mp hentry).2

section Set

variable {yaml : KYaml Err} {entries metadata : List (String × Node)} {value out : Node}

/-- The references that are read afterwards are those in the node that was set. -/
theorem readOwnerReferences_of_set (hmetadata : entries.lookup "metadata" = some (.map metadata))
    (hset : setMetadataField yaml "ownerReferences" value (.map entries) = .ok out)
    {params : List OwnerRefTemplateParam} (hread : readOwnerReferences out = some params) :
    ∃ nodes, value = .seq nodes ∧ nodes.mapM readReference = some params := by
  simp only [setMetadataField, hmetadata, Option.getD_some, setField] at hset
  split at hset <;> cases hset <;>
    simp only [readOwnerReferences, Node.lookup, lookup_putEntry, lookup_filter_ne,
      Option.bind_eq_bind, Option.bind_some, Option.bind_none] at hread
  · cases hread
  · cases value with
    | seq nodes => exact ⟨nodes, rfl, hread⟩
    | scalar | map => cases hread

theorem exists_setMetadataField (yaml : KYaml Err)
    (hmetadata : entries.lookup "metadata" = some (.map metadata))
    (nodes : List Node) : ∃ out,
      setMetadataField yaml "ownerReferences" (.seq nodes) (.map entries) = .ok out ∧
        readOwnerReferences out = nodes.mapM readReference := by
  simp only [setMetadataField, hmetadata, Option.getD_some, setField]
  refine ⟨_, rfl, ?_⟩
  simp [readOwnerReferences, Node.lookup, lookup_putEntry]

end Set

theorem readString_eq_some_iff {key text : String} {node : Node} :
    readString key node = some text ↔ node.lookup key = some (.scalar (.str text)) := by
  unfold readString
  split
  next found hfound => simp [hfound]
  next hother =>
    have hne : node.lookup key ≠ some (.scalar (.str text)) := hother text
    simp [hne]

theorem readBool_eq_some_iff {key : String} {value : Bool} {node : Node} :
    readBool key node = some value ↔ node.lookup key = some (.scalar (.bool value)) := by
  unfold readBool
  split
  next found hfound => simp [hfound]
  next hother =>
    have hne : node.lookup key ≠ some (.scalar (.bool value)) := hother value
    simp [hne]

theorem readReference_eq_some_iff {node : Node} {param : OwnerRefTemplateParam} :
    readReference node = some param ↔
      node.lookup "apiVersion" = some (.scalar (.str param.apiVersion)) ∧
      node.lookup "kind" = some (.scalar (.str param.kind)) ∧
      node.lookup "name" = some (.scalar (.str param.name)) ∧
      node.lookup "uid" = some (.scalar (.str param.uid)) ∧
      node.lookup "controller" = some (.scalar (.bool param.controller)) ∧
      node.lookup "blockOwnerDeletion" = some (.scalar (.bool param.blockOwnerDeletion)) := by
  simp only [← readString_eq_some_iff, ← readBool_eq_some_iff, readReference,
    Option.bind_eq_bind, Option.bind_eq_some_iff, Option.pure_def, Option.some.injEq]
  constructor
  · rintro ⟨_, h₁, _, h₂, _, h₃, _, h₄, _, h₅, _, h₆, rfl⟩
    exact ⟨h₁, h₂, h₃, h₄, h₅, h₆⟩
  · rintro ⟨h₁, h₂, h₃, h₄, h₅, h₆⟩
    exact ⟨_, h₁, _, h₂, _, h₃, _, h₄, _, h₅, _, h₆, rfl⟩

/-! ## References that survive -/

/-- The texts of a reference. -/
def OwnerRefTemplateParam.strings (param : OwnerRefTemplateParam) : List String :=
  [param.apiVersion, param.kind, param.name, param.uid]

/-- The text is written as it is, and is a plain scalar that is resolved to a string. -/
structure Survives (yaml : KYaml Err) (text : String) : Prop where
  htmlEscape_eq : htmlEscape text = text
  isPlain : yaml.isPlain text = true
  resolve_eq : yaml.resolve text = .str text

theorem survives_iff {yaml : KYaml Err} {text : String} : Survives yaml text ↔
    yaml.isPlain (htmlEscape text) = true ∧ yaml.resolve (htmlEscape text) = .str text := by
  constructor
  · intro h
    rw [h.htmlEscape_eq]
    exact ⟨h.isPlain, h.resolve_eq⟩
  · intro h
    have hescape : htmlEscape text = text := (yaml.resolve_str _ _ h.2).symm
    rw [hescape] at h
    exact ⟨hescape, h.1, h.2⟩

/-- The mapping that a reader makes of the texts of a reference. -/
def resolvedNode (yaml : KYaml Err) (item : Texts) : Node :=
  .map (item.map fun entry ↦ (entry.1, .scalar (yaml.resolve entry.2)))

theorem readReference_resolvedNode_iff {yaml : KYaml Err} {param : OwnerRefTemplateParam} :
    readReference (resolvedNode yaml (paramTexts param)) = some param ↔
      ∀ text ∈ param.strings, yaml.resolve (htmlEscape text) = .str text := by
  have hcontroller := (yaml.resolve_bool param.controller).2
  have hblock := (yaml.resolve_bool param.blockOwnerDeletion).2
  simp [readReference_eq_some_iff, resolvedNode, paramTexts, Node.lookup, List.lookup_cons,
    OwnerRefTemplateParam.strings, hcontroller, hblock]

theorem mapM_map_eq_some_iff {α β : Type} {f : α → β} {g : β → Option α} {xs : List α} :
    (xs.map f).mapM g = some xs ↔ ∀ x ∈ xs, g (f x) = some x := by
  induction xs with
  | nil => simp
  | cons x xs ih =>
    simp only [List.map_cons, List.mapM_cons, Option.bind_eq_bind, Option.bind_eq_some_iff,
      Option.pure_def, Option.some.injEq, List.cons.injEq, List.forall_mem_cons, ← ih]
    constructor
    · rintro ⟨_, hx, _, hxs, rfl, rfl⟩
      exact ⟨hx, hxs⟩
    · rintro ⟨hx, hxs⟩
      exact ⟨x, hx, xs, hxs, rfl, rfl⟩

theorem forall₂_of_mapM {α β : Type} {g : β → Option α} {xs : List α} {ys : List β}
    (h : ys.mapM g = some xs) : List.Forall₂ (fun x y ↦ g y = some x) xs ys := by
  induction ys generalizing xs with
  | nil =>
    cases h
    exact .nil
  | cons y ys ih =>
    simp only [List.mapM_cons, Option.bind_eq_bind, Option.bind_eq_some_iff, Option.pure_def,
      Option.some.injEq] at h
    obtain ⟨x, hx, xs', hxs, rfl⟩ := h
    exact .cons hx (ih hxs)

section Roundtrip

variable {yaml : KYaml Err} {params : List OwnerRefTemplateParam}

/-- What is read as the references gives back, entry by entry, what was escaped. -/
theorem readsAs_of_mapM {nodes : List Node} (h : nodes.mapM readReference = some params) :
    ReadsAs (fun text value ↦ yaml.isPlain text = true ∨
      ∃ string, value = .str string ∧ text = htmlEscape string) (.seq nodes)
      (params.map paramTexts) := by
  refine ⟨nodes, rfl, ?_⟩
  rw [List.forall₂_map_left_iff]
  refine (forall₂_of_mapM h).imp fun param node hread ↦ ?_
  obtain ⟨hapiVersion, hkind, hname, huid, hcontroller, hblock⟩ :=
    readReference_eq_some_iff.mp hread
  simp only [paramTexts, List.forall_mem_cons, List.not_mem_nil, IsEmpty.forall_iff, implies_true,
    and_true]
  refine ⟨⟨_, hapiVersion, Or.inr ⟨_, rfl, rfl⟩⟩, ⟨_, hblock, Or.inl ?_⟩,
    ⟨_, hcontroller, Or.inl ?_⟩, ⟨_, hkind, Or.inr ⟨_, rfl, rfl⟩⟩,
    ⟨_, hname, Or.inr ⟨_, rfl, rfl⟩⟩, ⟨_, huid, Or.inr ⟨_, rfl, rfl⟩⟩⟩
  · exact (yaml.resolve_bool param.blockOwnerDeletion).1
  · exact (yaml.resolve_bool param.controller).1

theorem isItem_of_mem {item : Texts} (h : item ∈ params.map paramTexts) : IsItem item := by
  obtain ⟨param, -, rfl⟩ := List.mem_map.mp h
  exact isItem_paramTexts param

theorem isPlain_paramTexts_iff {param : OwnerRefTemplateParam} :
    (∀ entry ∈ paramTexts param, yaml.isPlain entry.2 = true) ↔
      ∀ text ∈ param.strings, yaml.isPlain (htmlEscape text) = true := by
  have hcontroller := (yaml.resolve_bool param.controller).1
  have hblock := (yaml.resolve_bool param.blockOwnerDeletion).1
  simp [paramTexts, OwnerRefTemplateParam.strings, hcontroller, hblock]

/-- The text of the references is parsed into nodes that read as the references exactly if there
are references and all texts in them survive. -/
theorem parse_reads_iff (yaml : KYaml Err) (params : List OwnerRefTemplateParam) :
    (∃ nodes, yaml.parse (blockText (params.map paramTexts)) = .ok (.seq nodes) ∧
      nodes.mapM readReference = some params) ↔
    params ≠ [] ∧ ∀ param ∈ params, ∀ text ∈ param.strings, Survives yaml text := by
  have hparse (hne : params ≠ [])
      (hplain : ∀ param ∈ params, ∀ text ∈ param.strings, yaml.isPlain (htmlEscape text) = true) :
      yaml.parse (blockText (params.map paramTexts)) =
        .ok (.seq ((params.map fun param ↦ resolvedNode yaml (paramTexts param)))) := by
    have hplain' : ∀ item ∈ params.map paramTexts, ∀ entry ∈ item,
        yaml.isPlain entry.2 = true := by
      intro item hitem
      obtain ⟨param, hparam, rfl⟩ := List.mem_map.mp hitem
      exact isPlain_paramTexts_iff.mpr (hplain param hparam)
    have hblock := yaml.parse_blockText (params.map paramTexts) (by simpa using hne)
      (fun item ↦ isItem_of_mem) hplain'
    rw [hblock, List.map_map]
    rfl
  constructor
  · rintro ⟨nodes, hnodes, hread⟩
    have hne : params ≠ [] := by
      rintro rfl
      obtain ⟨err, herr⟩ := yaml.parse_empty
      cases herr.symm.trans hnodes
    have hplain : ∀ param ∈ params, ∀ text ∈ param.strings,
        yaml.isPlain (htmlEscape text) = true := by
      intro param hparam
      have hitems := yaml.isPlain_of_readsAs (params.map paramTexts) (.seq nodes)
        (fun item ↦ isItem_of_mem) hnodes (readsAs_of_mapM hread)
      exact isPlain_paramTexts_iff.mp (hitems _ (List.mem_map_of_mem hparam))
    have hresolved := hnodes.symm.trans (hparse hne hplain)
    cases hresolved
    have hreads := mapM_map_eq_some_iff.mp hread
    refine ⟨hne, fun param hparam text htext ↦ ?_⟩
    refine survives_iff.mpr ⟨hplain param hparam text htext, ?_⟩
    exact readReference_resolvedNode_iff.mp (hreads param hparam) text htext
  · rintro ⟨hne, hsurvive⟩
    refine ⟨_, hparse hne fun param hparam text htext ↦
      (survives_iff.mp (hsurvive param hparam text htext)).1, ?_⟩
    refine mapM_map_eq_some_iff.mpr fun param hparam ↦ readReference_resolvedNode_iff.mpr ?_
    exact fun text htext ↦ (survives_iff.mp (hsurvive param hparam text htext)).2

end Roundtrip

theorem setOwnerReference_eq [ErrorValues Err] (yaml : KYaml Err) (ownerRefs : List OwnerReference)
    (obj : Node) : setOwnerReference yaml ownerRefs obj =
      Except.mapError (wrap "failed to parse string OwnerReferences")
        (yaml.parse (blockText ((ownerRefs.map getOwnerRefTemplateParamFor).map paramTexts))) >>=
      fun parsedOR ↦ setMetadataField yaml "ownerReferences" parsedOR obj := by
  rw [setOwnerReference, foldl_executeTemplate, List.map_map, String.empty_append]
  rfl

/-- **Round trip.** On a manifest with metadata, `SetOwnerReference` succeeds and the references are
read back in order, unset Booleans as false, exactly if there are references and all texts in them
survive. -/
theorem setOwnerReference_reads_back_iff [ErrorValues Err] (yaml : KYaml Err)
    (ownerRefs : List OwnerReference) (entries metadata : List (String × Node))
    (hmetadata : entries.lookup "metadata" = some (.map metadata)) :
    (∃ out, setOwnerReference yaml ownerRefs (.map entries) = .ok out ∧
      readOwnerReferences out = some (ownerRefs.map getOwnerRefTemplateParamFor)) ↔
    ownerRefs ≠ [] ∧ ∀ ownerRef ∈ ownerRefs,
      ∀ text ∈ [ownerRef.apiVersion, ownerRef.kind, ownerRef.name, ownerRef.uid],
        Survives yaml text := by
  have hparse := parse_reads_iff yaml (ownerRefs.map getOwnerRefTemplateParamFor)
  rw [List.forall_mem_map, ne_eq, List.map_eq_nil_iff] at hparse
  refine Iff.trans ?_ hparse
  rw [setOwnerReference_eq]
  constructor
  · rintro ⟨out, hout, hread⟩
    obtain ⟨parsed, hparsed, hset⟩ := Encoding.bind_eq_ok_iff.mp hout
    obtain ⟨nodes, rfl, hnodes⟩ := readOwnerReferences_of_set hmetadata hset hread
    exact ⟨nodes, mapError_eq_ok.mp hparsed, hnodes⟩
  · rintro ⟨nodes, hparsed, hnodes⟩
    obtain ⟨out, hset, hread⟩ := exists_setMetadataField yaml hmetadata nodes
    rw [hparsed]
    exact ⟨out, hset, hread.trans hnodes⟩

/-! ## The manifest of the test data -/

def lineKYaml : KYaml GoError where
  toReader := lineReader errorf
  wrongKind _ := errorf "wrong Node Kind"

/-- The manifest of a database. -/
def dbManifest : List (String × Node) :=
  [("apiVersion", .scalar (.str "example.com/v1")), ("kind", .scalar (.str "DB")),
    ("metadata", .map [("name", .scalar (.str "test-db"))])]

def someRef (name : String) : OwnerReference where
  apiVersion := "v1"
  kind := "DB"
  name := name
  uid := "17d16671"

theorem setOwnerReference_reads_back_somename :
    ∃ out, setOwnerReference lineKYaml [someRef "somename"] (.map dbManifest) = .ok out ∧
      readOwnerReferences out =
        some ([someRef "somename"].map getOwnerRefTemplateParamFor) := by
  refine (setOwnerReference_reads_back_iff lineKYaml [someRef "somename"] dbManifest _ rfl).mpr
    ⟨by simp, ?_⟩
  simp only [List.forall_mem_cons, List.not_mem_nil, IsEmpty.forall_iff, implies_true, and_true]
  exact ⟨⟨by decide, by decide, by decide⟩, ⟨by decide, by decide, by decide⟩,
    ⟨by decide, by decide, by decide⟩, ⟨by decide, by decide, by decide⟩⟩

/-- A name of digits is read as a number, a name with an ampersand as another name, and without
references there is an error. -/
theorem setOwnerReference_loses_names :
    ((setOwnerReference lineKYaml [someRef "123"] (.map dbManifest)).toOption.map
        readOwnerReferences = some none) ∧
      ((setOwnerReference lineKYaml [someRef "a&b"] (.map dbManifest)).toOption.map
        readOwnerReferences =
          some (some [getOwnerRefTemplateParamFor (someRef "a&amp;b")])) ∧
      ((setOwnerReference lineKYaml [] (.map dbManifest)).toOption.map
        readOwnerReferences = none) := by
  refine ⟨?_, ?_, ?_⟩ <;> decide +kernel

end OperatorToolkit.Declarative
