import Mathlib.Logic.Equiv.Defs
import OperatorToolkit.Encoding.Json

/-!
# Typed decoding and encoding

A Go type as a JSON package sees it: pointers, slices, maps and structs over types with a codec of
their own. A value is decoded into one that is there already, so a field that the JSON value lacks
keeps what it held, and entries that are not fields of the struct are dropped. Encoding writes every
field that is not both marked `omitempty` and empty.

What is decoded and encoded again is therefore in general not the value that was read.
`GoType.Canonical` says for which values it is.
-/

namespace OperatorToolkit.Encoding

/-- Why a value cannot be read or written. -/
inductive CodecError where
  | mismatch (expected : String) (found : Json)
  | custom (text : String)

/-- A type that is read and written by code of its own. -/
structure Codec (V : Type) where
  zero : V
  decode : V → Json → Except CodecError V
  encode : V → Except CodecError Json
  isEmpty : V → Bool
  /-- How the empty value is written, if the type has one. -/
  empty : Option Json
  isEmpty_iff : ∀ value json, encode value = .ok json → (isEmpty value = true ↔ empty = some json)

mutual

/-- A Go type and the type of its values. -/
inductive GoType : Type → Type 1 where
  | custom {V : Type} (codec : Codec V) : GoType V
  | pointer {V : Type} (elem : GoType V) : GoType (Option V)
  | slice {V : Type} (elem : GoType V) : GoType (Option (List V))
  | map {V : Type} (elem : GoType V) : GoType (Option (SortedMap String V))
  | struct {V W : Type} {names : List String} (fields : FieldTypes names W) (toFields : V ≃ W) :
      GoType V

/-- The fields of a struct, by the names that they have in JSON. The order in which they are
declared has no meaning there, so that they are listed by increasing name. -/
inductive FieldTypes : List String → Type → Type 1 where
  | nil : FieldTypes [] Unit
  | cons {V W : Type} {names : List String} (name : String) (omitempty : Bool) (type : GoType V)
      (first : ∀ other ∈ names, name < other) (rest : FieldTypes names W) :
      FieldTypes (name :: names) (V × W)

end

mutual

def GoType.zero : {V : Type} → GoType V → V
  | _, .custom codec => codec.zero
  | _, .pointer _ => none
  | _, .slice _ => none
  | _, .map _ => none
  | _, .struct fields toFields => toFields.symm fields.zero

def FieldTypes.zero : {names : List String} → {W : Type} → FieldTypes names W → W
  | _, _, .nil => ()
  | _, _, .cons _ _ type _ rest => (type.zero, rest.zero)

end

/-- The value counts as empty for `omitempty`; a struct never does. -/
def GoType.isEmpty {V : Type} : GoType V → V → Bool
  | .custom codec, value => codec.isEmpty value
  | .pointer _, value => value.isNone
  | .slice _, value => (value.getD []).isEmpty
  | .map _, value => (value.getD .empty).entries.isEmpty
  | .struct _ _, _ => false

section Helpers

variable {V : Type}

/-- Items are decoded into the elements that the slice holds, further ones into new elements. -/
def decodeItems (decode : V → Json → Except CodecError V) (zero : V) :
    List V → List Json → Except CodecError (List V)
  | _, [] => .ok []
  | old, item :: items => do
    let value ← decode (old.headD zero) item
    let values ← decodeItems decode zero old.tail items
    return value :: values

/-- Entries are added to those that the map holds. -/
def decodeEntries (decode : Json → Except CodecError V) :
    SortedMap String V → List (String × Json) → Except CodecError (SortedMap String V)
  | m, [] => .ok m
  | m, (key, json) :: entries => do
    let value ← decode json
    decodeEntries decode (m.insert key value) entries

/-- A field that the object lacks is left alone. -/
def decodeField (decode : V → Json → Except CodecError V) (base : V) :
    Option Json → Except CodecError V
  | none => .ok base
  | some json => decode base json

def decodePointer (decode : Json → Except CodecError V) : Json → Except CodecError (Option V)
  | .null => .ok none
  | json => some <$> decode json

def decodeSlice (decode : List Json → Except CodecError (List V)) :
    Json → Except CodecError (Option (List V))
  | .null => .ok none
  | .array items => some <$> decode items
  | json => .error (.mismatch "array" json)

def decodeMap (decode : List (String × Json) → Except CodecError (SortedMap String V)) :
    Json → Except CodecError (Option (SortedMap String V))
  | .null => .ok none
  | .object entries => some <$> decode entries
  | json => .error (.mismatch "object" json)

/-- A null leaves the struct alone. -/
def decodeStruct (decode : List (String × Json) → Except CodecError V) (base : V) :
    Json → Except CodecError V
  | .null => .ok base
  | .object entries => decode entries
  | json => .error (.mismatch "object" json)

def encodeItems (encode : V → Except CodecError Json) : List V → Except CodecError (List Json)
  | [] => .ok []
  | value :: values => do
    let json ← encode value
    let items ← encodeItems encode values
    return json :: items

def encodeEntries (encode : V → Except CodecError Json) :
    List (String × V) → Except CodecError (List (String × Json))
  | [] => .ok []
  | (key, value) :: entries => do
    let json ← encode value
    let encoded ← encodeEntries encode entries
    return (key, json) :: encoded

end Helpers

mutual

/-- Decode the JSON value into a value that is there already. -/
def GoType.decode : {V : Type} → GoType V → V → Json → Except CodecError V
  | _, .custom codec, base, json => codec.decode base json
  | _, .pointer elem, base, json => decodePointer (elem.decode (base.getD elem.zero)) json
  | _, .slice elem, base, json =>
    decodeSlice (decodeItems elem.decode elem.zero (base.getD [])) json
  | _, .map elem, base, json =>
    decodeMap (decodeEntries (elem.decode elem.zero) (base.getD .empty)) json
  | _, .struct fields toFields, base, json =>
    decodeStruct (fun entries ↦ toFields.symm <$> fields.decode (toFields base) entries) base json

def FieldTypes.decode : {names : List String} → {W : Type} → FieldTypes names W → W →
    List (String × Json) → Except CodecError W
  | _, _, .nil, _, _ => .ok ()
  | _, _, .cons name _ type _ rest, base, entries => do
    let value ← decodeField type.decode base.1 (entries.lookup name)
    let values ← rest.decode base.2 entries
    return (value, values)

end

mutual

def GoType.encode : {V : Type} → GoType V → V → Except CodecError Json
  | _, .custom codec, value => codec.encode value
  | _, .pointer _, none => .ok .null
  | _, .pointer elem, some value => elem.encode value
  | _, .slice _, none => .ok .null
  | _, .slice elem, some values => .array <$> encodeItems elem.encode values
  | _, .map _, none => .ok .null
  | _, .map elem, some m => .object <$> encodeEntries elem.encode m.entries
  | _, .struct fields toFields, value => .object <$> fields.encode (toFields value)

def FieldTypes.encode : {names : List String} → {W : Type} → FieldTypes names W → W →
    Except CodecError (List (String × Json))
  | _, _, .nil, _ => .ok []
  | _, _, .cons name omitempty type _ rest, values => do
    if omitempty && type.isEmpty values.1 then
      rest.encode values.2
    else
      let json ← type.encode values.1
      let entries ← rest.encode values.2
      return (name, json) :: entries

end

/-! ## Values that are written as they were read -/

/-- The empty values of the type are written like this. -/
def GoType.WritesEmpty : {V : Type} → GoType V → Json → Prop
  | _, .custom codec, json => codec.empty = some json
  | _, .pointer _, json => json = .null
  | _, .slice _, json => json = .null ∨ json = .array []
  | _, .map _, json => json = .null ∨ json = .object []
  | _, .struct _ _, _ => False

section Canonical

variable {V : Type}

def CanonicalItems (Canonical : V → Json → Prop) (zero : V) : List V → List Json → Prop
  | _, [] => True
  | old, item :: items =>
    Canonical (old.headD zero) item ∧ CanonicalItems Canonical zero old.tail items

/-- A missing field is one that is not written, and a field that is there is written. -/
def CanonicalField (type : GoType V) (omitempty : Bool) (Canonical : V → Json → Prop) (base : V) :
    Option Json → Prop
  | none => omitempty = true ∧ type.isEmpty base = true
  | some json => Canonical base json ∧ (omitempty = true → ¬ type.WritesEmpty json)

end Canonical

mutual

/-- Decoded into `base`, the JSON value is encoded as itself: objects that are structs have no
entries but the fields, lack no field that is written and have none that is not. -/
def GoType.Canonical : {V : Type} → GoType V → V → Json → Prop
  | _, .custom codec, base, json => (codec.decode base json >>= codec.encode) = .ok json
  | _, .pointer elem, base, json => json = .null ∨ elem.Canonical (base.getD elem.zero) json
  | _, .slice elem, base, json => json = .null ∨ ∃ items, json = .array items ∧
      CanonicalItems elem.Canonical elem.zero (base.getD []) items
  | _, .map elem, base, json => json = .null ∨ ∃ entries, json = .object entries ∧
      (∀ entry ∈ entries, elem.Canonical elem.zero entry.2) ∧
      ∀ entry ∈ (base.getD .empty).entries, entries.lookup entry.1 ≠ none
  | _, @GoType.struct _ _ names fields toFields, base, json => ∃ entries, json = .object entries ∧
      (∀ entry ∈ entries, entry.1 ∈ names) ∧ fields.Canonical (toFields base) entries

def FieldTypes.Canonical : {names : List String} → {W : Type} → FieldTypes names W → W →
    List (String × Json) → Prop
  | _, _, .nil, _, _ => True
  | _, _, .cons name omitempty type _ rest, base, entries =>
    CanonicalField type omitempty type.Canonical base.1 (entries.lookup name) ∧
      rest.Canonical base.2 entries

end

section Except

variable {ε α β : Type} {x : Except ε α}

theorem map_eq_ok_iff {f : α → β} {b : β} : f <$> x = .ok b ↔ ∃ a, x = .ok a ∧ f a = b := by
  cases x <;> simp [Functor.map, Except.map]

theorem bind_eq_ok_iff {f : α → Except ε β} {b : β} :
    x >>= f = .ok b ↔ ∃ a, x = .ok a ∧ f a = .ok b := by
  cases x <;> simp [bind, Except.bind]

end Except

section Cases

variable {V W : Type} {names : List String}

/-- Where the decoding of a value succeeds, it is encoded as it was read exactly if it is
canonical. -/
def Rewrites (decode : V → Json → Except CodecError V) (encode : V → Except CodecError Json)
    (Canonical : V → Json → Prop) : Prop :=
  ∀ base json value, json.Ordered → decode base json = .ok value →
    (encode value = .ok json ↔ Canonical base json)

theorem rewrites_custom (codec : Codec V) :
    Rewrites (GoType.custom codec).decode (GoType.custom codec).encode
      (GoType.custom codec).Canonical := by
  intro base json value _ hdecode
  simp only [GoType.decode] at hdecode
  simp only [GoType.encode, GoType.Canonical, hdecode]
  rfl

theorem rewrites_pointer {elem : GoType V}
    (helem : Rewrites elem.decode elem.encode elem.Canonical) :
    Rewrites elem.pointer.decode elem.pointer.encode elem.pointer.Canonical := by
  intro base json value hordered hdecode
  rw [GoType.decode] at hdecode
  by_cases hnull : json = .null
  · subst hnull
    cases hdecode
    simp [GoType.encode, GoType.Canonical]
  · rw [decodePointer] at hdecode
    · obtain ⟨inner, hinner, rfl⟩ := map_eq_ok_iff.mp hdecode
      simp only [GoType.encode, GoType.Canonical, hnull, false_or]
      exact helem _ json inner hordered hinner
    · exact hnull

theorem encodeItems_iff {decode : V → Json → Except CodecError V}
    {encode : V → Except CodecError Json} {Canonical : V → Json → Prop} {zero : V}
    (helem : Rewrites decode encode Canonical) {items : List Json} {old values : List V}
    (hordered : ∀ item ∈ items, Json.Ordered item)
    (hdecode : decodeItems decode zero old items = .ok values) :
    encodeItems encode values = .ok items ↔ CanonicalItems Canonical zero old items := by
  induction items generalizing old values with
  | nil =>
    cases hdecode
    simp [encodeItems, CanonicalItems]
  | cons item items ih =>
    obtain ⟨value, hvalue, hrest⟩ := bind_eq_ok_iff.mp hdecode
    obtain ⟨rest, hvalues, hcons⟩ := bind_eq_ok_iff.mp hrest
    cases hcons
    have hfirst := helem _ _ _ (hordered item (by simp)) hvalue
    have hitems := ih (fun item hitem ↦ hordered item (by simp [hitem])) hvalues
    rw [CanonicalItems, ← hfirst, ← hitems, encodeItems]
    constructor
    · intro hencode
      obtain ⟨json, hjson, hmore⟩ := bind_eq_ok_iff.mp hencode
      obtain ⟨jsons, hjsons, heq⟩ := bind_eq_ok_iff.mp hmore
      cases heq
      exact ⟨hjson, hjsons⟩
    · intro hencode
      rw [hencode.1, hencode.2]
      rfl

theorem rewrites_slice {elem : GoType V}
    (helem : Rewrites elem.decode elem.encode elem.Canonical) :
    Rewrites elem.slice.decode elem.slice.encode elem.slice.Canonical := by
  intro base json value hordered hdecode
  cases hordered with
  | null =>
    cases hdecode
    simp [GoType.encode, GoType.Canonical]
  | @array items hitems =>
    obtain ⟨values, hvalues, rfl⟩ := map_eq_ok_iff.mp hdecode
    simp only [GoType.encode, map_eq_ok_iff, GoType.Canonical, Json.array.injEq, reduceCtorEq,
      false_or, exists_eq_right, exists_eq_left']
    exact encodeItems_iff helem hitems hvalues
  | bool | integer | decimal | string | object => cases hdecode

/-- The entries are decoded one by one and stored in the map, the others are those that it held. -/
theorem lookup_decodeEntries {decode : Json → Except CodecError V} {entries : List (String × Json)}
    {m m' : SortedMap String V} (hsorted : SortedKeys entries)
    (hdecode : decodeEntries decode m entries = .ok m') (key : String) :
    (entries.lookup key = none ∧ m'.entries.lookup key = m.entries.lookup key) ∨
      ∃ json value, entries.lookup key = some json ∧ decode json = .ok value ∧
        m'.entries.lookup key = some value := by
  induction entries generalizing m with
  | nil =>
    cases hdecode
    exact Or.inl ⟨rfl, rfl⟩
  | cons entry entries ih =>
    obtain ⟨first, json⟩ := entry
    obtain ⟨value, hvalue, hrest⟩ := bind_eq_ok_iff.mp hdecode
    have hstored : (m.insert first value).entries.lookup key =
        if key = first then some value else m.entries.lookup key := lookup_insertEntry
    have hcases := ih (sortedKeys_cons_iff.mp hsorted).2 hrest
    rw [hstored] at hcases
    rw [lookup_cons]
    by_cases hkey : key = first
    · subst hkey
      rw [hsorted.lookup_head] at hcases
      simp only [if_true] at hcases ⊢
      refine Or.inr ⟨json, value, rfl, hvalue, ?_⟩
      rcases hcases with ⟨-, hlookup⟩ | ⟨_, _, hnone, -⟩
      · exact hlookup
      · cases hnone
    · simpa only [hkey, if_false] using hcases

theorem rel_encode_unique {encode : V → Except CodecError Json} {value : Option V}
    {json json' : Option Json}
    (h : Option.Rel (fun value json ↦ encode value = .ok json) value json)
    (h' : Option.Rel (fun value json ↦ encode value = .ok json) value json') : json = json' := by
  cases h with
  | none =>
    cases h'
    rfl
  | some hjson =>
    cases h' with
    | some hjson' => exact congrArg some (Except.ok.inj (hjson.symm.trans hjson'))

theorem exists_encodeEntries {encode : V → Except CodecError Json} {entries : List (String × V)}
    (h : ∀ entry ∈ entries, ∃ json, encode entry.2 = .ok json) :
    ∃ encoded, encodeEntries encode entries = .ok encoded := by
  induction entries with
  | nil => exact ⟨[], rfl⟩
  | cons entry entries ih =>
    obtain ⟨json, hjson⟩ := h entry (by simp)
    obtain ⟨encoded, hencoded⟩ := ih fun other hother ↦ h other (by simp [hother])
    refine ⟨(entry.1, json) :: encoded, ?_⟩
    simp only [encodeEntries, hjson, hencoded]
    rfl

theorem lookup_encodeEntries {encode : V → Except CodecError Json} {entries : List (String × V)}
    {encoded : List (String × Json)} (hencode : encodeEntries encode entries = .ok encoded)
    (key : String) : Option.Rel (fun value json ↦ encode value = .ok json) (entries.lookup key)
      (encoded.lookup key) := by
  induction entries generalizing encoded with
  | nil =>
    cases hencode
    exact .none
  | cons entry entries ih =>
    obtain ⟨first, value⟩ := entry
    obtain ⟨json, hjson, hrest⟩ := bind_eq_ok_iff.mp hencode
    obtain ⟨others, hothers, hcons⟩ := bind_eq_ok_iff.mp hrest
    cases hcons
    rw [lookup_cons, lookup_cons]
    split
    · exact .some hjson
    · exact ih hothers

theorem sortedKeys_encodeEntries {encode : V → Except CodecError Json}
    {entries : List (String × V)} {encoded : List (String × Json)} (hsorted : SortedKeys entries)
    (hencode : encodeEntries encode entries = .ok encoded) : SortedKeys encoded := by
  have hkeys : encoded.map Prod.fst = entries.map Prod.fst := by
    induction entries generalizing encoded with
    | nil =>
      cases hencode
      rfl
    | cons entry entries ih =>
      obtain ⟨json, hjson, hrest⟩ := bind_eq_ok_iff.mp hencode
      obtain ⟨others, hothers, hcons⟩ := bind_eq_ok_iff.mp hrest
      cases hcons
      rw [List.map_cons, List.map_cons, ih (sortedKeys_cons_iff.mp hsorted).2 hothers]
  rw [sortedKeys_iff, hkeys]
  exact sortedKeys_iff.mp hsorted

/-- A sorted map is encoded key by key. -/
theorem encodeEntries_iff {encode : V → Except CodecError Json} {entries : List (String × V)}
    {encoded : List (String × Json)} (hsorted : SortedKeys entries)
    (hencoded : SortedKeys encoded) : encodeEntries encode entries = .ok encoded ↔
      ∀ key, Option.Rel (fun value json ↦ encode value = .ok json) (entries.lookup key)
        (encoded.lookup key) := by
  constructor
  · exact lookup_encodeEntries
  · intro h
    have hexists : ∃ encoded', encodeEntries encode entries = .ok encoded' := by
      refine exists_encodeEntries fun entry hentry ↦ ?_
      have hrel := h entry.1
      rw [hsorted.lookup_eq_some_iff.mpr hentry] at hrel
      generalize encoded.lookup entry.1 = json at hrel
      cases hrel with
      | some hjson => exact ⟨_, hjson⟩
    obtain ⟨encoded', hencode⟩ := hexists
    have hsame : encoded' = encoded := by
      refine (sortedKeys_encodeEntries hsorted hencode).ext_lookup hencoded fun key ↦ ?_
      exact rel_encode_unique (lookup_encodeEntries hencode key) (h key)
    rw [hencode, hsame]

/-- What is stored under one key is written as it was read: a value if it is canonical, and nothing
where nothing was read if the map held nothing. -/
theorem rel_lookup_decodeEntries {elem : GoType V}
    (helem : Rewrites elem.decode elem.encode elem.Canonical) {entries : List (String × Json)}
    {m m' : SortedMap String V} (hsorted : SortedKeys entries)
    (hentries : ∀ entry ∈ entries, Json.Ordered entry.2)
    (hdecode : decodeEntries (elem.decode elem.zero) m entries = .ok m') (key : String) :
    Option.Rel (fun value json ↦ elem.encode value = .ok json) (m'.entries.lookup key)
        (entries.lookup key) ↔
      (∀ json, entries.lookup key = some json → elem.Canonical elem.zero json) ∧
        (entries.lookup key = none → m.entries.lookup key = none) := by
  rcases lookup_decodeEntries hsorted hdecode key with
    ⟨hnone, hkept⟩ | ⟨json, value, hjson, hvalue, hstored⟩
  · rw [hnone, hkept]
    cases m.entries.lookup key <;> simp
  · have hmem := hsorted.lookup_eq_some_iff.mp hjson
    rw [hjson, hstored]
    simp only [Option.rel_some_some, Option.some.injEq, forall_eq', reduceCtorEq, false_implies,
      and_true]
    exact helem _ json value (hentries _ hmem) hvalue

theorem rewrites_map {elem : GoType V} (helem : Rewrites elem.decode elem.encode elem.Canonical) :
    Rewrites elem.map.decode elem.map.encode elem.map.Canonical := by
  intro base json value hordered hdecode
  rw [GoType.decode] at hdecode
  cases hordered with
  | null =>
    cases hdecode
    simp [GoType.encode, GoType.Canonical]
  | @object entries hsorted hentries =>
    obtain ⟨m, hm, rfl⟩ := map_eq_ok_iff.mp hdecode
    simp only [GoType.encode, map_eq_ok_iff, GoType.Canonical, Json.object.injEq, reduceCtorEq,
      false_or, exists_eq_right, exists_eq_left', encodeEntries_iff m.sorted hsorted,
      rel_lookup_decodeEntries helem hsorted hentries hm, forall_and]
    -- the conditions on the keys are conditions on the entries
    refine and_congr ⟨fun h entry hentry ↦ ?_, fun h key json hjson ↦ ?_⟩
      ⟨fun h entry hentry hnone ↦ ?_, fun h key hnone ↦ ?_⟩
    · exact h entry.1 entry.2 (hsorted.lookup_eq_some_iff.mpr hentry)
    · exact h (key, json) (hsorted.lookup_eq_some_iff.mp hjson)
    · exact lookup_eq_none_iff.mp (h entry.1 hnone) entry hentry rfl
    · refine lookup_eq_none_iff.mpr fun entry hentry hkey ↦ h entry hentry ?_
      rwa [hkey]
  | bool | integer | decimal | string | array => cases hdecode

theorem encodeItems_eq_nil_iff {encode : V → Except CodecError Json} {values : List V}
    {items : List Json} (hencode : encodeItems encode values = .ok items) :
    values = [] ↔ items = [] := by
  cases values with
  | nil =>
    cases hencode
    simp
  | cons value values =>
    obtain ⟨json, hjson, hrest⟩ := bind_eq_ok_iff.mp hencode
    obtain ⟨jsons, hjsons, hcons⟩ := bind_eq_ok_iff.mp hrest
    cases hcons
    simp

theorem encodeEntries_eq_nil_iff {encode : V → Except CodecError Json} {entries : List (String × V)}
    {encoded : List (String × Json)} (hencode : encodeEntries encode entries = .ok encoded) :
    entries = [] ↔ encoded = [] := by
  cases entries with
  | nil =>
    cases hencode
    simp
  | cons entry entries =>
    obtain ⟨json, hjson, hrest⟩ := bind_eq_ok_iff.mp hencode
    obtain ⟨jsons, hjsons, hcons⟩ := bind_eq_ok_iff.mp hrest
    cases hcons
    simp

/-- Of a value that is written as it was read it can be seen whether it is empty. -/
theorem GoType.isEmpty_iff {type : GoType V} {base value : V} {json : Json}
    (hdecode : type.decode base json = .ok value) (hencode : type.encode value = .ok json) :
    type.isEmpty value = true ↔ type.WritesEmpty json := by
  cases type with
  | custom codec => exact codec.isEmpty_iff value json hencode
  | pointer elem =>
    rw [GoType.decode] at hdecode
    by_cases hnull : json = .null
    · subst hnull
      cases hdecode
      simp [GoType.isEmpty, GoType.WritesEmpty]
    · rw [decodePointer] at hdecode
      · obtain ⟨inner, -, rfl⟩ := map_eq_ok_iff.mp hdecode
        simp [GoType.isEmpty, GoType.WritesEmpty, hnull]
      · exact hnull
  | slice elem =>
    rw [GoType.decode] at hdecode
    cases json with
    | null =>
      cases hdecode
      simp [GoType.isEmpty, GoType.WritesEmpty]
    | array items =>
      obtain ⟨values, -, rfl⟩ := map_eq_ok_iff.mp hdecode
      obtain ⟨items', hitems, hsame⟩ := map_eq_ok_iff.mp hencode
      cases hsame
      simpa [GoType.isEmpty, GoType.WritesEmpty] using encodeItems_eq_nil_iff hitems
    | bool | integer | decimal | string | object => cases hdecode
  | map elem =>
    rw [GoType.decode] at hdecode
    cases json with
    | null =>
      cases hdecode
      simp [GoType.isEmpty, GoType.WritesEmpty, SortedMap.empty]
    | object entries =>
      obtain ⟨m, -, rfl⟩ := map_eq_ok_iff.mp hdecode
      obtain ⟨entries', hentries, hsame⟩ := map_eq_ok_iff.mp hencode
      cases hsame
      simpa [GoType.isEmpty, GoType.WritesEmpty] using encodeEntries_eq_nil_iff hentries
    | bool | integer | decimal | string | array => cases hdecode
  | struct fields toFields => simp [GoType.isEmpty, GoType.WritesEmpty]

/-- What `encode` writes for a field, `none` if it leaves the field out. -/
def FieldWritten (type : GoType V) (omitempty : Bool) (value : V) : Option Json → Prop
  | none => (omitempty && type.isEmpty value) = true
  | some json => (omitempty && type.isEmpty value) = false ∧ type.encode value = .ok json

theorem fieldWritten_iff {type : GoType V} {omitempty : Bool}
    (htype : Rewrites type.decode type.encode type.Canonical) {base value : V}
    {found : Option Json} (hordered : ∀ json, found = some json → json.Ordered)
    (hdecode : decodeField type.decode base found = .ok value) :
    FieldWritten type omitempty value found ↔
      CanonicalField type omitempty type.Canonical base found := by
  cases found with
  | none =>
    cases hdecode
    exact Bool.and_eq_true_iff
  | some json =>
    have hwritten := htype base json value (hordered json rfl) hdecode
    rw [FieldWritten, CanonicalField, ← hwritten, and_comm]
    refine and_congr_right fun hencode ↦ ?_
    rw [← GoType.isEmpty_iff hdecode hencode]
    cases omitempty <;> simp

/-- The fields are written as the entries have them. -/
def FieldsRewrite (fields : FieldTypes names W) : Prop :=
  ∀ base entries values, (∀ entry ∈ entries, Json.Ordered entry.2) → SortedKeys entries →
    fields.decode base entries = .ok values →
    ((∃ written, fields.encode values = .ok written ∧
      ∀ name ∈ names, written.lookup name = entries.lookup name) ↔ fields.Canonical base entries)

theorem fieldsRewrite_nil : FieldsRewrite FieldTypes.nil := by
  intro base entries values _ _ _
  simp [FieldTypes.encode, FieldTypes.Canonical]

/-- Only fields are written, and in their order. -/
theorem FieldTypes.keys_sublist : {names : List String} → {W : Type} →
    (fields : FieldTypes names W) → ∀ values written, fields.encode values = .ok written →
      (written.map Prod.fst).Sublist names
  | _, _, .nil, _, _, hencode => by
    cases hencode
    exact List.nil_sublist _
  | _, _, .cons name _ _ _ rest, values, written, hencode => by
    rw [FieldTypes.encode] at hencode
    split at hencode
    · exact (rest.keys_sublist _ written hencode).cons name
    · obtain ⟨json, -, hmore⟩ := bind_eq_ok_iff.mp hencode
      obtain ⟨entries, hentries, hcons⟩ := bind_eq_ok_iff.mp hmore
      cases hcons
      exact (rest.keys_sublist _ entries hentries).cons_cons name

theorem FieldTypes.pairwise_names : {names : List String} → {W : Type} → FieldTypes names W →
    names.Pairwise (· < ·)
  | _, _, .nil => List.Pairwise.nil
  | _, _, .cons _ _ _ first rest => List.pairwise_cons.mpr ⟨first, rest.pairwise_names⟩

theorem FieldTypes.lookup_encode {fields : FieldTypes names W} {values : W}
    {written : List (String × Json)} (hencode : fields.encode values = .ok written) {name : String}
    (hname : name ∉ names) : written.lookup name = none := by
  refine lookup_eq_none_iff.mpr fun entry hentry hkey ↦ hname ?_
  subst hkey
  exact (fields.keys_sublist values written hencode).mem (List.mem_map_of_mem hentry)

/-- One field is written, or left out, in front of the others. -/
theorem encode_cons_iff {name : String} {omitempty : Bool} {type : GoType V}
    {rest : FieldTypes names W} {first : ∀ other ∈ names, name < other} {values : V × W}
    {entries : List (String × Json)} :
    (∃ written, (FieldTypes.cons name omitempty type first rest).encode values = .ok written ∧
        ∀ other ∈ name :: names, written.lookup other = entries.lookup other) ↔
      FieldWritten type omitempty values.1 (entries.lookup name) ∧
        ∃ written, rest.encode values.2 = .ok written ∧
          ∀ other ∈ names, written.lookup other = entries.lookup other := by
  have hname : name ∉ names := fun hmem ↦ lt_irrefl name (first name hmem)
  have hother {other : String} (hmem : other ∈ names) : other ≠ name := (first other hmem).ne'
  simp only [List.forall_mem_cons]
  cases homitted : omitempty && type.isEmpty values.1 with
  | true =>
    have hwritten : FieldWritten type omitempty values.1 (entries.lookup name) ↔
        entries.lookup name = none := by
      cases entries.lookup name <;> simp [FieldWritten, homitted]
    simp only [FieldTypes.encode, homitted, if_true, hwritten]
    constructor
    · rintro ⟨written, hencode, hlookup, hrest⟩
      exact ⟨hlookup.symm.trans (FieldTypes.lookup_encode hencode hname), written, hencode, hrest⟩
    · rintro ⟨hlookup, written, hencode, hrest⟩
      exact ⟨written, hencode, (FieldTypes.lookup_encode hencode hname).trans hlookup.symm, hrest⟩
  | false =>
    have hwritten : FieldWritten type omitempty values.1 (entries.lookup name) ↔
        ∃ json, entries.lookup name = some json ∧ type.encode values.1 = .ok json := by
      cases entries.lookup name <;> simp [FieldWritten, homitted]
    simp only [FieldTypes.encode, homitted, Bool.false_eq_true, if_false, hwritten]
    constructor
    · rintro ⟨written, hencode, hlookup, hrest⟩
      obtain ⟨json, hjson, hmore⟩ := bind_eq_ok_iff.mp hencode
      obtain ⟨others, hothers, hcons⟩ := bind_eq_ok_iff.mp hmore
      cases hcons
      rw [lookup_cons_self] at hlookup
      refine ⟨⟨json, hlookup.symm, hjson⟩, others, hothers, fun other hmem ↦ ?_⟩
      rw [← hrest other hmem, lookup_cons_of_ne (hother hmem)]
    · rintro ⟨⟨json, hlookup, hjson⟩, others, hothers, hrest⟩
      refine ⟨(name, json) :: others, ?_, lookup_cons_self.trans hlookup.symm, fun other hmem ↦ ?_⟩
      · rw [hjson, hothers]
        rfl
      · rw [lookup_cons_of_ne (hother hmem), hrest other hmem]

theorem fieldsRewrite_cons {name : String} {omitempty : Bool} {type : GoType V}
    {rest : FieldTypes names W} {first : ∀ other ∈ names, name < other}
    (htype : Rewrites type.decode type.encode type.Canonical) (hrest : FieldsRewrite rest) :
    FieldsRewrite (.cons name omitempty type first rest) := by
  intro base entries values hordered hsorted hdecode
  obtain ⟨value, hvalue, hmore⟩ := bind_eq_ok_iff.mp hdecode
  obtain ⟨others, hothers, hpair⟩ := bind_eq_ok_iff.mp hmore
  cases hpair
  have hfound (json : Json) (hjson : entries.lookup name = some json) : json.Ordered :=
    hordered _ (hsorted.lookup_eq_some_iff.mp hjson)
  rw [encode_cons_iff, hrest _ _ _ hordered hsorted hothers, fieldWritten_iff htype hfound hvalue,
    FieldTypes.Canonical]

theorem rewrites_struct {fields : FieldTypes names W} {toFields : V ≃ W}
    (hfields : FieldsRewrite fields) : Rewrites (GoType.struct fields toFields).decode
      (GoType.struct fields toFields).encode (GoType.struct fields toFields).Canonical := by
  intro base json value hordered hdecode
  rw [GoType.decode] at hdecode
  cases hordered with
  | null => simp [GoType.encode, GoType.Canonical, map_eq_ok_iff]
  | @object entries hsorted hentries =>
    obtain ⟨values, hvalues, rfl⟩ := map_eq_ok_iff.mp hdecode
    have hrewrite := hfields _ _ _ hentries hsorted hvalues
    simp only [GoType.encode, map_eq_ok_iff, GoType.Canonical, Json.object.injEq, exists_eq_right,
      exists_eq_left', Equiv.apply_symm_apply, ← hrewrite]
    constructor
    · intro hencode
      refine ⟨fun entry hentry ↦ ?_, entries, hencode, fun _ _ ↦ rfl⟩
      exact (fields.keys_sublist values entries hencode).mem (List.mem_map_of_mem hentry)
    · rintro ⟨hnames, written, hencode, hlookup⟩
      have hwritten : SortedKeys written :=
        sortedKeys_iff.mpr (fields.pairwise_names.sublist (fields.keys_sublist _ _ hencode))
      have hsame : written = entries := by
        refine hwritten.ext_lookup hsorted fun key ↦ ?_
        by_cases hkey : key ∈ names
        · exact hlookup key hkey
        · have hnone : entries.lookup key = none :=
            lookup_eq_none_iff.mpr fun entry hentry heq ↦ hkey (heq ▸ hnames entry hentry)
          exact (FieldTypes.lookup_encode hencode hkey).trans hnone.symm
      rw [← hsame]
      exact hencode
  | bool | integer | decimal | string | array => cases hdecode

end Cases

/-- **Rewriting.** A value that is decoded and encoded again is the value that was read exactly if
it is canonical. -/
theorem GoType.encode_decode_iff {V : Type} (type : GoType V) :
    Rewrites type.decode type.encode type.Canonical :=
  @GoType.rec (fun _ type ↦ Rewrites type.decode type.encode type.Canonical)
    (fun _ _ fields ↦ FieldsRewrite fields) rewrites_custom (fun _ ↦ rewrites_pointer)
    (fun _ ↦ rewrites_slice) (fun _ ↦ rewrites_map) (fun _ _ ↦ rewrites_struct)
    fieldsRewrite_nil (fun _ _ _ _ _ ↦ fieldsRewrite_cons) V type

/-! ## Types with a codec of their own -/

/-- A null empties the string. -/
def stringType : GoType String := .custom
  { zero := ""
    decode := fun _ json ↦
      match json with
      | .null => .ok ""
      | .string text => .ok text
      | json => .error (.mismatch "string" json)
    encode := fun text ↦ .ok (.string text)
    isEmpty := fun text ↦ text = ""
    empty := some (.string "")
    isEmpty_iff := by
      rintro text json ⟨⟩
      simp [eq_comm] }

/-- A null leaves the number alone. -/
def int64Type : GoType Int := .custom
  { zero := 0
    decode := fun base json ↦
      match json with
      | .null => .ok base
      | .integer value =>
        if -9223372036854775808 ≤ value ∧ value < 9223372036854775808 then .ok value
        else .error (.mismatch "int64" json)
      | json => .error (.mismatch "int64" json)
    encode := fun value ↦ .ok (.integer value)
    isEmpty := fun value ↦ value = 0
    empty := some (.integer 0)
    isEmpty_iff := by
      rintro value json ⟨⟩
      simp [eq_comm] }

def boolType : GoType Bool := .custom
  { zero := false
    decode := fun base json ↦
      match json with
      | .null => .ok base
      | .bool value => .ok value
      | json => .error (.mismatch "bool" json)
    encode := fun value ↦ .ok (.bool value)
    isEmpty := fun value ↦ !value
    empty := some (.bool false)
    isEmpty_iff := by
      rintro value json ⟨⟩
      cases value <;> simp }

/-- A value that is kept as it is written, a struct around the raw bytes. -/
def rawType : GoType Json := .custom
  { zero := .null
    decode := fun _ json ↦ .ok json
    encode := .ok
    isEmpty := fun _ ↦ false
    empty := none
    isEmpty_iff := by simp }

/-- Points in time and their text form. The zero time is `none`. -/
structure Times where
  Time : Type
  parse : String → Except CodecError (Option Time)
  format : Time → String

/-- A time is a struct, hence never empty, and the zero time is written as null. -/
def timeType (times : Times) : GoType (Option times.Time) := .custom
  { zero := none
    decode := fun _ json ↦
      match json with
      | .null => .ok none
      | .string text => times.parse text
      | json => .error (.mismatch "string" json)
    encode := fun time ↦ .ok ((time.map fun time ↦ Json.string (times.format time)).getD .null)
    isEmpty := fun _ ↦ false
    empty := none
    isEmpty_iff := by simp }

end OperatorToolkit.Encoding
