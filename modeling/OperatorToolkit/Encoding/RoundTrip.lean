import Mathlib.Data.List.Forall2
import Mathlib.Data.Option.Basic
import OperatorToolkit.Encoding.GoTypes

/-!
# Reading back what was written

A value that is encoded and decoded again is not always the same: a field that is left out because
it is empty keeps what the value that is decoded into holds, so that an empty map may become a nil
one. `GoType.Same` is the relation between what was written and what is read back. Values in this
relation are written in the same way.

Reading back has two conditions. The value has to be readable: a type with a codec of its own reads
what it has written, and no pointer leads to a value that is written as null. And the value that is
decoded into must not show through, which one that holds nothing never does.
-/

namespace OperatorToolkit.Encoding

section Relations

variable {V : Type}

/-- Items that are decoded into the elements of a slice. -/
def OverItems (Over : V → V → Prop) (zero : V) : List V → List V → Prop
  | _, [] => True
  | old, value :: values => Over (old.headD zero) value ∧ OverItems Over zero old.tail values

/-- The field is left out when the struct is written. -/
def LeftOut (type : GoType V) (omitempty : Bool) (value : V) : Prop :=
  (omitempty && type.isEmpty value) = true

def SameField (type : GoType V) (omitempty : Bool) (Same : V → V → Prop) (value value' : V) :
    Prop :=
  LeftOut type omitempty value ∧ LeftOut type omitempty value' ∨ Same value value'

def OverField (type : GoType V) (omitempty : Bool) (Over : V → V → Prop) (base value : V) : Prop :=
  (LeftOut type omitempty value → LeftOut type omitempty base) ∧ Over base value

end Relations

mutual

/-- The values differ at most in whether something that is not written is empty or nil. -/
def GoType.Same : {V : Type} → GoType V → V → V → Prop
  | _, .custom codec, value, value' =>
    codec.encode value = codec.encode value' ∧ codec.isEmpty value = codec.isEmpty value'
  | _, .pointer elem, value, value' => Option.Rel elem.Same value value'
  | _, .slice elem, value, value' => Option.Rel (List.Forall₂ elem.Same) value value'
  | _, .map elem, value, value' =>
    Option.Rel (fun m m' ↦ ∀ key, Option.Rel elem.Same (m.entries.lookup key)
      (m'.entries.lookup key)) value value'
  | _, .struct fields toFields, value, value' => fields.Same (toFields value) (toFields value')

def FieldTypes.Same : {names : List String} → {W : Type} → FieldTypes names W → W → W → Prop
  | _, _, .nil, _, _ => True
  | _, _, .cons _ omitempty type _ rest, values, values' =>
    SameField type omitempty type.Same values.1 values'.1 ∧ rest.Same values.2 values'.2

end

mutual

/-- What is written can be read. -/
def GoType.Readable : {V : Type} → GoType V → V → Prop
  | _, .custom codec, value => ∀ base json, codec.encode value = .ok json →
      ∃ value', codec.decode base json = .ok value' ∧ codec.encode value' = .ok json
  | _, .pointer elem, value => ∀ inner, value = some inner →
      elem.Readable inner ∧ elem.encode inner ≠ .ok .null
  | _, .slice elem, value => ∀ values, value = some values → ∀ item ∈ values, elem.Readable item
  | _, .map elem, value => ∀ m, value = some m → ∀ entry ∈ m.entries, elem.Readable entry.2
  | _, .struct fields toFields, value => fields.Readable (toFields value)

def FieldTypes.Readable : {names : List String} → {W : Type} → FieldTypes names W → W → Prop
  | _, _, .nil, _ => True
  | _, _, .cons _ _ type _ rest, values => type.Readable values.1 ∧ rest.Readable values.2

end

mutual

/-- Nothing of `base` remains when the second value is written and decoded into `base`. -/
def GoType.Over : {V : Type} → GoType V → V → V → Prop
  | _, .custom _, _, _ => True
  | _, .pointer elem, base, value => ∀ inner, value = some inner →
      elem.Over (base.getD elem.zero) inner
  | _, .slice elem, base, value => ∀ values, value = some values →
      OverItems elem.Over elem.zero (base.getD []) values
  | _, .map elem, base, value => ∀ m, value = some m →
      (∀ key, m.entries.lookup key = none → (base.getD .empty).entries.lookup key = none) ∧
        ∀ entry ∈ m.entries, elem.Over elem.zero entry.2
  | _, .struct fields toFields, base, value => fields.Over (toFields base) (toFields value)

def FieldTypes.Over : {names : List String} → {W : Type} → FieldTypes names W → W → W → Prop
  | _, _, .nil, _, _ => True
  | _, _, .cons _ omitempty type _ rest, base, values =>
    OverField type omitempty type.Over base.1 values.1 ∧ rest.Over base.2 values.2

end

/-! ## Writing the same -/

section Same

variable {V W : Type} {names : List String}

theorem eq_none_iff_of_rel {Same : V → V → Prop} {value value' : Option V}
    (h : Option.Rel Same value value') : value = none ↔ value' = none := by
  cases h <;> simp

theorem entries_eq_nil_iff {entries : List (String × V)} :
    entries = [] ↔ ∀ key, entries.lookup key = none := by
  constructor
  · rintro rfl key
    rfl
  · intro h
    cases entries with
    | nil => rfl
    | cons entry entries =>
      have hhead := h entry.1
      rw [lookup_cons_self] at hhead
      cases hhead

theorem isEmpty_of_rel {Same : V → V → Prop} {m m' : SortedMap String V}
    (h : ∀ key, Option.Rel Same (m.entries.lookup key) (m'.entries.lookup key)) :
    m.entries.isEmpty = m'.entries.isEmpty := by
  rw [Bool.eq_iff_iff, List.isEmpty_iff, List.isEmpty_iff, entries_eq_nil_iff, entries_eq_nil_iff]
  exact forall_congr' fun key ↦ eq_none_iff_of_rel (h key)

theorem GoType.Same.isEmpty {type : GoType V} {value value' : V} (h : type.Same value value') :
    type.isEmpty value = type.isEmpty value' := by
  cases type with
  | custom codec => exact h.2
  | pointer elem => cases h <;> rfl
  | slice elem =>
    cases h with
    | none => rfl
    | some hitems => cases hitems <;> rfl
  | map elem =>
    cases h with
    | none => rfl
    | some hentries => exact isEmpty_of_rel hentries
  | struct fields toFields => rfl

/-- Values that are the same are written in the same way. -/
def WritesSame (encode : V → Except CodecError Json) (Same : V → V → Prop) : Prop :=
  ∀ value value' json, Same value value' → encode value = .ok json → encode value' = .ok json

theorem writesSame_pointer {elem : GoType V} (helem : WritesSame elem.encode elem.Same) :
    WritesSame elem.pointer.encode elem.pointer.Same := by
  intro value value' json hsame hencode
  cases hsame with
  | none => exact hencode
  | some hinner => exact helem _ _ json hinner hencode

theorem encodeItems_same {encode : V → Except CodecError Json} {Same : V → V → Prop}
    (helem : WritesSame encode Same) {values values' : List V}
    (h : List.Forall₂ Same values values') {items : List Json}
    (hencode : encodeItems encode values = .ok items) :
    encodeItems encode values' = .ok items := by
  induction h generalizing items with
  | nil => exact hencode
  | cons hvalue _ ih =>
    obtain ⟨json, hjson, hrest⟩ := bind_eq_ok_iff.mp hencode
    obtain ⟨jsons, hjsons, hcons⟩ := bind_eq_ok_iff.mp hrest
    rw [encodeItems, helem _ _ json hvalue hjson, ih hjsons]
    exact hcons

theorem writesSame_slice {elem : GoType V} (helem : WritesSame elem.encode elem.Same) :
    WritesSame elem.slice.encode elem.slice.Same := by
  intro value value' json hsame hencode
  cases hsame with
  | none => exact hencode
  | some hitems =>
    obtain ⟨items, hwritten, rfl⟩ := map_eq_ok_iff.mp hencode
    exact map_eq_ok_iff.mpr ⟨items, encodeItems_same helem hitems hwritten, rfl⟩

theorem rel_encode_same {encode : V → Except CodecError Json} {Same : V → V → Prop}
    (helem : WritesSame encode Same) {value value' : Option V} (h : Option.Rel Same value value')
    {json : Option Json}
    (hencode : Option.Rel (fun value json ↦ encode value = .ok json) value json) :
    Option.Rel (fun value json ↦ encode value = .ok json) value' json := by
  cases h with
  | none => exact hencode
  | some hvalue =>
    cases hencode with
    | some hjson => exact .some (helem _ _ _ hvalue hjson)

theorem writesSame_map {elem : GoType V} (helem : WritesSame elem.encode elem.Same) :
    WritesSame elem.map.encode elem.map.Same := by
  intro value value' json hsame hencode
  cases hsame with
  | none => exact hencode
  | @some m m' hentries =>
    obtain ⟨entries, hwritten, rfl⟩ := map_eq_ok_iff.mp hencode
    have hsorted := sortedKeys_encodeEntries m.sorted hwritten
    refine map_eq_ok_iff.mpr ⟨entries, (encodeEntries_iff m'.sorted hsorted).mpr fun key ↦ ?_, rfl⟩
    exact rel_encode_same helem (hentries key) (lookup_encodeEntries hwritten key)

def FieldsWriteSame (fields : FieldTypes names W) : Prop :=
  ∀ values values' entries, fields.Same values values' → fields.encode values = .ok entries →
    fields.encode values' = .ok entries

theorem fieldsWriteSame_cons {name : String} {omitempty : Bool} {type : GoType V}
    {rest : FieldTypes names W} {first : ∀ other ∈ names, name < other}
    (htype : WritesSame type.encode type.Same) (hrest : FieldsWriteSame rest) :
    FieldsWriteSame (.cons name omitempty type first rest) := by
  intro values values' entries hsame hencode
  obtain ⟨hfirst, hothers⟩ := hsame
  rw [FieldTypes.encode] at hencode ⊢
  rcases hfirst with ⟨hleft, hleft'⟩ | hvalue
  · unfold LeftOut at hleft hleft'
    rw [if_pos hleft] at hencode
    rw [if_pos hleft']
    exact hrest _ _ entries hothers hencode
  · rw [← hvalue.isEmpty]
    split at hencode
    · next hleft =>
      rw [if_pos hleft]
      exact hrest _ _ entries hothers hencode
    · next hleft =>
      obtain ⟨json, hjson, hmore⟩ := bind_eq_ok_iff.mp hencode
      obtain ⟨written, hwritten, hcons⟩ := bind_eq_ok_iff.mp hmore
      rw [if_neg hleft, htype _ _ json hvalue hjson, hrest _ _ written hothers hwritten]
      exact hcons

theorem writesSame_struct {fields : FieldTypes names W} {toFields : V ≃ W}
    (hfields : FieldsWriteSame fields) : WritesSame (GoType.struct fields toFields).encode
      (GoType.struct fields toFields).Same := by
  intro value value' json hsame hencode
  obtain ⟨entries, hwritten, rfl⟩ := map_eq_ok_iff.mp hencode
  exact map_eq_ok_iff.mpr ⟨entries, hfields _ _ entries hsame hwritten, rfl⟩

end Same

/-- Values that are the same are written in the same way. -/
theorem GoType.encode_same {V : Type} (type : GoType V) : WritesSame type.encode type.Same :=
  @GoType.rec (fun _ type ↦ WritesSame type.encode type.Same)
    (fun _ _ fields ↦ FieldsWriteSame fields)
    (fun _ _ _ _ hsame hencode ↦ hsame.1.symm.trans hencode) (fun _ ↦ writesSame_pointer)
    (fun _ ↦ writesSame_slice) (fun _ ↦ writesSame_map) (fun _ _ ↦ writesSame_struct)
    (fun _ _ _ _ hencode ↦ hencode) (fun _ _ _ _ _ ↦ fieldsWriteSame_cons) V type

/-! ## Reading back -/

section ReadBack

variable {V W : Type} {names : List String}

/-- What was written is read back as the same value. -/
def ReadsBack (type : GoType V) : Prop :=
  ∀ base value json, type.Readable value → type.Over base value → type.encode value = .ok json →
    ∃ value', type.decode base json = .ok value' ∧ type.Same value value'

theorem readsBack_custom (codec : Codec V) : ReadsBack (.custom codec) := by
  intro base value json hreadable _ hencode
  obtain ⟨value', hdecode, hencode'⟩ := hreadable base json hencode
  refine ⟨value', hdecode, Eq.trans hencode (Eq.symm hencode'), ?_⟩
  rw [Bool.eq_iff_iff, codec.isEmpty_iff value json hencode, codec.isEmpty_iff value' json hencode']

theorem readsBack_pointer {elem : GoType V} (helem : ReadsBack elem) : ReadsBack elem.pointer := by
  intro base value json hreadable hover hencode
  cases value with
  | none =>
    cases hencode
    exact ⟨none, rfl, .none⟩
  | some inner =>
    obtain ⟨hinner, hnull⟩ := hreadable inner rfl
    obtain ⟨inner', hdecode, hsame⟩ := helem _ inner json hinner (hover inner rfl) hencode
    refine ⟨some inner', ?_, .some hsame⟩
    rw [GoType.decode, decodePointer]
    · exact map_eq_ok_iff.mpr ⟨inner', hdecode, rfl⟩
    · rintro rfl
      exact hnull hencode

theorem decodeItems_encodeItems {elem : GoType V} (helem : ReadsBack elem) {old values : List V}
    (hreadable : ∀ item ∈ values, elem.Readable item)
    (hover : OverItems elem.Over elem.zero old values) {items : List Json}
    (hencode : encodeItems elem.encode values = .ok items) :
    ∃ values', decodeItems elem.decode elem.zero old items = .ok values' ∧
      List.Forall₂ elem.Same values values' := by
  induction values generalizing old items with
  | nil =>
    cases hencode
    exact ⟨[], rfl, .nil⟩
  | cons value values ih =>
    rw [List.forall_mem_cons] at hreadable
    obtain ⟨json, hjson, hrest⟩ := bind_eq_ok_iff.mp hencode
    obtain ⟨jsons, hjsons, hcons⟩ := bind_eq_ok_iff.mp hrest
    cases hcons
    obtain ⟨value', hdecode, hsame⟩ := helem _ value json hreadable.1 hover.1 hjson
    obtain ⟨values', hdecodes, hsames⟩ := ih hreadable.2 hover.2 hjsons
    refine ⟨value' :: values', ?_, .cons hsame hsames⟩
    rw [decodeItems, hdecode, hdecodes]
    rfl

theorem readsBack_slice {elem : GoType V} (helem : ReadsBack elem) : ReadsBack elem.slice := by
  intro base value json hreadable hover hencode
  cases value with
  | none =>
    cases hencode
    exact ⟨none, rfl, .none⟩
  | some values =>
    obtain ⟨items, hitems, rfl⟩ := map_eq_ok_iff.mp hencode
    obtain ⟨values', hdecode, hsame⟩ :=
      decodeItems_encodeItems helem (hreadable values rfl) (hover values rfl) hitems
    exact ⟨some values', map_eq_ok_iff.mpr ⟨values', hdecode, rfl⟩, .some hsame⟩

/-- Entries that can be decoded one by one. -/
theorem exists_decodeEntries {decode : Json → Except CodecError V} {entries : List (String × Json)}
    (h : ∀ entry ∈ entries, ∃ value, decode entry.2 = .ok value) (m : SortedMap String V) :
    ∃ m', decodeEntries decode m entries = .ok m' := by
  induction entries generalizing m with
  | nil => exact ⟨m, rfl⟩
  | cons entry entries ih =>
    rw [List.forall_mem_cons] at h
    obtain ⟨value, hvalue⟩ := h.1
    obtain ⟨m', hm'⟩ := ih h.2 (m.insert entry.1 value)
    refine ⟨m', ?_⟩
    rw [decodeEntries, hvalue]
    exact hm'

theorem readsBack_map {elem : GoType V} (helem : ReadsBack elem) : ReadsBack elem.map := by
  intro base value json hreadable hover hencode
  cases value with
  | none =>
    cases hencode
    exact ⟨none, rfl, .none⟩
  | some m =>
    obtain ⟨entries, hentries, rfl⟩ := map_eq_ok_iff.mp hencode
    obtain ⟨hkeys, hitems⟩ := hover m rfl
    have hsorted := sortedKeys_encodeEntries m.sorted hentries
    have hone {key : String} {json : Json} (hjson : entries.lookup key = some json) :
        ∃ value value', m.entries.lookup key = some value ∧
          elem.decode elem.zero json = .ok value' ∧ elem.Same value value' := by
      obtain ⟨value, hvalue, hwritten⟩ :
          ∃ value, m.entries.lookup key = some value ∧ elem.encode value = .ok json := by
        have hrel := lookup_encodeEntries hentries key
        rw [hjson] at hrel
        generalize m.entries.lookup key = found at hrel
        cases hrel with
        | some hwritten => exact ⟨_, rfl, hwritten⟩
      have hmem := m.sorted.lookup_eq_some_iff.mp hvalue
      obtain ⟨value', hdecode, hsame⟩ :=
        helem _ value json (hreadable m rfl _ hmem) (hitems _ hmem) hwritten
      exact ⟨value, value', hvalue, hdecode, hsame⟩
    obtain ⟨m', hm'⟩ : ∃ m', decodeEntries (elem.decode elem.zero) (base.getD .empty) entries =
        .ok m' := by
      refine exists_decodeEntries (fun entry hentry ↦ ?_) _
      obtain ⟨-, value', -, hdecode, -⟩ := hone (hsorted.lookup_eq_some_iff.mpr hentry)
      exact ⟨value', hdecode⟩
    refine ⟨some m', map_eq_ok_iff.mpr ⟨m', hm', rfl⟩, .some fun key ↦ ?_⟩
    rcases lookup_decodeEntries hsorted hm' key with
      ⟨hnone, hkept⟩ | ⟨json, value', hjson, hdecode, hstored⟩
    · have hmissing : m.entries.lookup key = none := by
        have hrel := lookup_encodeEntries hentries key
        rw [hnone] at hrel
        generalize m.entries.lookup key = found at hrel
        cases hrel
        rfl
      rw [hmissing, hkept, hkeys key hmissing]
      exact .none
    · obtain ⟨value, value'', hvalue, hdecode', hsame⟩ := hone hjson
      rw [hvalue, hstored]
      obtain rfl := Except.ok.inj (hdecode'.symm.trans hdecode)
      exact .some hsame

/-- The fields are read from entries that have them as they were written. -/
def FieldsReadBack (fields : FieldTypes names W) : Prop :=
  ∀ base values entries, fields.Readable values → fields.Over base values →
    (∃ written, fields.encode values = .ok written ∧
      ∀ name ∈ names, written.lookup name = entries.lookup name) →
    ∃ values', fields.decode base entries = .ok values' ∧ fields.Same values values'

theorem fieldsReadBack_cons {name : String} {omitempty : Bool} {type : GoType V}
    {rest : FieldTypes names W} {first : ∀ other ∈ names, name < other} (htype : ReadsBack type)
    (hrest : FieldsReadBack rest) : FieldsReadBack (.cons name omitempty type first rest) := by
  intro base values entries hreadable hover hwritten
  obtain ⟨⟨hleft, hfirst⟩, hothers⟩ := hover
  obtain ⟨hfield, hmore⟩ := encode_cons_iff.mp hwritten
  obtain ⟨others, hdecodes, hsames⟩ := hrest _ _ entries hreadable.2 hothers hmore
  obtain ⟨value', hdecode, hsame⟩ : ∃ value',
      decodeField type.decode base.1 (entries.lookup name) = .ok value' ∧
        SameField type omitempty type.Same values.1 value' := by
    cases hlookup : entries.lookup name with
    | none =>
      rw [hlookup] at hfield
      exact ⟨base.1, rfl, .inl ⟨hfield, hleft hfield⟩⟩
    | some json =>
      rw [hlookup] at hfield
      obtain ⟨value', hdecode, hsame⟩ := htype _ _ json hreadable.1 hfirst hfield.2
      exact ⟨value', hdecode, .inr hsame⟩
  refine ⟨(value', others), ?_, hsame, hsames⟩
  rw [FieldTypes.decode, hdecode, hdecodes]
  rfl

theorem readsBack_struct {fields : FieldTypes names W} {toFields : V ≃ W}
    (hfields : FieldsReadBack fields) : ReadsBack (.struct fields toFields) := by
  intro base value json hreadable hover hencode
  obtain ⟨entries, hentries, rfl⟩ := map_eq_ok_iff.mp hencode
  obtain ⟨values', hdecode, hsame⟩ :=
    hfields _ _ entries hreadable hover ⟨entries, hentries, fun _ _ ↦ rfl⟩
  refine ⟨toFields.symm values', map_eq_ok_iff.mpr ⟨values', hdecode, rfl⟩, ?_⟩
  rw [GoType.Same, Equiv.apply_symm_apply]
  exact hsame

end ReadBack

/-- **Round trip.** What was written is read back as the same value. -/
theorem GoType.decode_encode {V : Type} (type : GoType V) : ReadsBack type :=
  @GoType.rec (fun _ type ↦ ReadsBack type) (fun _ _ fields ↦ FieldsReadBack fields)
    readsBack_custom (fun _ ↦ readsBack_pointer) (fun _ ↦ readsBack_slice)
    (fun _ ↦ readsBack_map) (fun _ _ ↦ readsBack_struct)
    (fun _ _ _ _ _ _ ↦ ⟨(), rfl, trivial⟩) (fun _ _ _ _ _ ↦ fieldsReadBack_cons) V type

/-! ## Values that hold nothing -/

mutual

/-- If any value with a codec of its own is empty then the zero value is. -/
def GoType.ZeroEmpty : {V : Type} → GoType V → Prop
  | _, .custom codec => ∀ value, codec.isEmpty value = true → codec.isEmpty codec.zero = true
  | _, .pointer elem => elem.ZeroEmpty
  | _, .slice elem => elem.ZeroEmpty
  | _, .map elem => elem.ZeroEmpty
  | _, .struct fields _ => fields.ZeroEmpty

def FieldTypes.ZeroEmpty : {names : List String} → {W : Type} → FieldTypes names W → Prop
  | _, _, .nil => True
  | _, _, .cons _ _ type _ rest => type.ZeroEmpty ∧ rest.ZeroEmpty

end

section Zero

variable {V W : Type} {names : List String}

theorem GoType.ZeroEmpty.leftOut {type : GoType V} (h : type.ZeroEmpty) {omitempty : Bool}
    {value : V} (hleft : LeftOut type omitempty value) : LeftOut type omitempty type.zero := by
  unfold LeftOut at hleft ⊢
  rw [Bool.and_eq_true_iff] at hleft ⊢
  refine ⟨hleft.1, ?_⟩
  cases type with
  | custom codec => exact h value hleft.2
  | pointer elem => rfl
  | slice elem => rfl
  | map elem => rfl
  | struct fields toFields => exact hleft.2

theorem overItems_nil {Over : V → V → Prop} {zero : V} (h : ∀ value, Over zero value)
    (values : List V) : OverItems Over zero [] values := by
  induction values with
  | nil => trivial
  | cons value values ih => exact ⟨h value, ih⟩

end Zero

/-- The zero value never shows through. -/
theorem GoType.over_zero {V : Type} (type : GoType V) :
    type.ZeroEmpty → ∀ value, type.Over type.zero value :=
  @GoType.rec (fun _ type ↦ type.ZeroEmpty → ∀ value, type.Over type.zero value)
    (fun _ _ fields ↦ fields.ZeroEmpty → ∀ values, fields.Over fields.zero values)
    (fun _ _ _ ↦ trivial) (fun _ ih h _ inner _ ↦ ih h inner)
    (fun _ ih h _ values _ ↦ overItems_nil (ih h) values)
    (fun _ ih h _ _ _ ↦ ⟨fun _ _ ↦ rfl, fun entry _ ↦ ih h entry.2⟩)
    (fun fields toFields ih h value ↦ by
      rw [GoType.Over, GoType.zero, Equiv.apply_symm_apply]
      exact ih h _)
    (fun _ _ ↦ trivial)
    (fun _ _ _ _ _ ihtype ihrest h values ↦
      ⟨⟨h.1.leftOut, ihtype h.1 values.1⟩, ihrest h.2 values.2⟩) V type

end OperatorToolkit.Encoding
