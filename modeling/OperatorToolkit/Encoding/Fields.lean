import OperatorToolkit.Encoding.RoundTrip

/-!
# Fields of structs

A field of a struct by its name, to be read and replaced. What relates two structs relates their
fields, and remains when a field of both is replaced by values that are related. A single field is
read back even when others are not.
-/

namespace OperatorToolkit.Encoding

/-- A field of a struct with its name, mark and type. -/
inductive FieldTypes.Field : {names : List String} → {W : Type} → FieldTypes names W → String →
    Bool → {V : Type} → GoType V → Type 1 where
  | first {V W : Type} {names : List String} {name : String} {omitempty : Bool} {type : GoType V}
      {first : ∀ other ∈ names, name < other} {rest : FieldTypes names W} :
      Field (.cons name omitempty type first rest) name omitempty type
  | later {V V' W : Type} {names : List String} {name other : String} {omitempty omitempty' : Bool}
      {type : GoType V} {type' : GoType V'} {first : ∀ other ∈ names, name < other}
      {rest : FieldTypes names W} : Field rest other omitempty' type' →
      Field (.cons name omitempty type first rest) other omitempty' type'

namespace FieldTypes.Field

def get : {names : List String} → {W : Type} → {fields : FieldTypes names W} → {name : String} →
    {omitempty : Bool} → {V : Type} → {type : GoType V} → fields.Field name omitempty type → W → V
  | _, _, _, _, _, _, _, .first, values => values.1
  | _, _, _, _, _, _, _, .later field, values => field.get values.2

def set : {names : List String} → {W : Type} → {fields : FieldTypes names W} → {name : String} →
    {omitempty : Bool} → {V : Type} → {type : GoType V} → fields.Field name omitempty type →
    W → V → W
  | _, _, _, _, _, _, _, .first, values, value => (value, values.2)
  | _, _, _, _, _, _, _, .later field, values, value => (values.1, field.set values.2 value)

variable {names : List String} {W : Type} {fields : FieldTypes names W} {name : String}
  {omitempty : Bool} {V : Type} {type : GoType V} (field : fields.Field name omitempty type)

@[simp] theorem get_set (values : W) (value : V) : field.get (field.set values value) = value := by
  induction field with
  | first => rfl
  | later field ih => exact ih values.2 value

@[simp] theorem set_set (values : W) (value value' : V) :
    field.set (field.set values value) value' = field.set values value' := by
  induction field with
  | first => rfl
  | later field ih => exact congrArg _ (ih values.2 value value')

@[simp] theorem set_get (values : W) : field.set values (field.get values) = values := by
  induction field with
  | first => rfl
  | later field ih => exact congrArg _ (ih values.2)

theorem same_get {values values' : W} (h : fields.Same values values') :
    SameField type omitempty type.Same (field.get values) (field.get values') := by
  induction field with
  | first => exact h.1
  | later field ih => exact ih h.2

theorem same_set {values values' : W} (h : fields.Same values values') {value value' : V}
    (hvalue : SameField type omitempty type.Same value value') :
    fields.Same (field.set values value) (field.set values' value') := by
  induction field with
  | first => exact ⟨hvalue, h.2⟩
  | later field ih => exact ⟨h.1, ih h.2 hvalue⟩

theorem readable_get {values : W} (h : fields.Readable values) :
    type.Readable (field.get values) := by
  induction field with
  | first => exact h.1
  | later field ih => exact ih h.2

theorem readable_set {values : W} (h : fields.Readable values) {value : V}
    (hvalue : type.Readable value) : fields.Readable (field.set values value) := by
  induction field with
  | first => exact ⟨hvalue, h.2⟩
  | later field ih => exact ⟨h.1, ih h.2 hvalue⟩

theorem over_get {base values : W} (h : fields.Over base values) :
    OverField type omitempty type.Over (field.get base) (field.get values) := by
  induction field with
  | first => exact h.1
  | later field ih => exact ih h.2

/-- Replace the field of the values that are decoded into. -/
theorem over_set {base values : W} (h : fields.Over base values) {value : V}
    (hvalue : OverField type omitempty type.Over value (field.get values)) :
    fields.Over (field.set base value) values := by
  induction field with
  | first => exact ⟨hvalue, h.2⟩
  | later field ih => exact ⟨h.1, ih h.2 hvalue⟩

theorem decode_get {base values : W} {entries : List (String × Json)}
    (h : fields.decode base entries = .ok values) :
    decodeField type.decode (field.get base) (entries.lookup name) = .ok (field.get values) := by
  induction field with
  | first =>
    obtain ⟨value, hvalue, hmore⟩ := bind_eq_ok_iff.mp h
    obtain ⟨others, -, hpair⟩ := bind_eq_ok_iff.mp hmore
    cases hpair
    exact hvalue
  | later field ih =>
    obtain ⟨value, -, hmore⟩ := bind_eq_ok_iff.mp h
    obtain ⟨others, hothers, hpair⟩ := bind_eq_ok_iff.mp hmore
    cases hpair
    exact ih hothers

theorem fieldWritten_get {values : W} {entries : List (String × Json)}
    (h : ∃ written, fields.encode values = .ok written ∧
      ∀ other ∈ names, written.lookup other = entries.lookup other) :
    FieldWritten type omitempty (field.get values) (entries.lookup name) := by
  induction field with
  | first => exact (encode_cons_iff.mp h).1
  | later field ih => exact ih (encode_cons_iff.mp h).2

/-- A field of a struct that was written and read, whatever the other fields hold. -/
theorem written_read {base values values' : W} {entries : List (String × Json)}
    (hencode : fields.encode values = .ok entries)
    (hdecode : fields.decode base entries = .ok values') :
    LeftOut type omitempty (field.get values) ∧ field.get values' = field.get base ∨
      ∃ json, type.encode (field.get values) = .ok json ∧
        type.decode (field.get base) json = .ok (field.get values') := by
  have hwritten := field.fieldWritten_get ⟨entries, hencode, fun _ _ ↦ rfl⟩
  have hread := field.decode_get hdecode
  cases hlookup : entries.lookup name with
  | none =>
    rw [hlookup] at hwritten hread
    exact .inl ⟨hwritten, (Except.ok.inj hread).symm⟩
  | some json =>
    rw [hlookup] at hwritten hread
    exact .inr ⟨json, hwritten.2, hread⟩

end FieldTypes.Field

/-- A field of a type that is a struct. -/
inductive GoType.Field : {V : Type} → GoType V → String → Bool → {U : Type} → GoType U →
    Type 1 where
  | struct {V W U : Type} {names : List String} {fields : FieldTypes names W} {toFields : V ≃ W}
      {name : String} {omitempty : Bool} {part : GoType U} :
      fields.Field name omitempty part → Field (.struct fields toFields) name omitempty part

namespace GoType.Field

variable {V U : Type} {type : GoType V} {name : String} {omitempty : Bool} {part : GoType U}

def get : {V : Type} → {type : GoType V} → {name : String} → {omitempty : Bool} → {U : Type} →
    {part : GoType U} → type.Field name omitempty part → V → U
  | _, .struct _ toFields, _, _, _, _, .struct field, value => field.get (toFields value)

def set : {V : Type} → {type : GoType V} → {name : String} → {omitempty : Bool} → {U : Type} →
    {part : GoType U} → type.Field name omitempty part → V → U → V
  | _, .struct _ toFields, _, _, _, _, .struct field, value, inner =>
    toFields.symm (field.set (toFields value) inner)

variable (field : type.Field name omitempty part)

@[simp] theorem get_set (value : V) (inner : U) : field.get (field.set value inner) = inner := by
  cases field
  simp [get, set]

@[simp] theorem set_set (value : V) (inner inner' : U) :
    field.set (field.set value inner) inner' = field.set value inner' := by
  cases field
  simp [set]

@[simp] theorem set_get (value : V) : field.set value (field.get value) = value := by
  cases field
  simp [get, set]

theorem same_get {value value' : V} (h : type.Same value value') :
    SameField part omitempty part.Same (field.get value) (field.get value') := by
  cases field with
  | struct field => exact field.same_get h

theorem same_set {value value' : V} (h : type.Same value value') {inner inner' : U}
    (hinner : SameField part omitempty part.Same inner inner') :
    type.Same (field.set value inner) (field.set value' inner') := by
  cases field with
  | struct field =>
    rw [GoType.Same, set, set, Equiv.apply_symm_apply, Equiv.apply_symm_apply]
    exact field.same_set h hinner

theorem readable_get {value : V} (h : type.Readable value) : part.Readable (field.get value) := by
  cases field with
  | struct field => exact field.readable_get h

theorem readable_set {value : V} (h : type.Readable value) {inner : U}
    (hinner : part.Readable inner) : type.Readable (field.set value inner) := by
  cases field with
  | struct field =>
    rw [GoType.Readable, set, Equiv.apply_symm_apply]
    exact field.readable_set h hinner

theorem over_get {base value : V} (h : type.Over base value) :
    OverField part omitempty part.Over (field.get base) (field.get value) := by
  cases field with
  | struct field => exact field.over_get h

/-- Replace the field of the value that is decoded into. -/
theorem over_set {base value : V} (h : type.Over base value) {inner : U}
    (hinner : OverField part omitempty part.Over inner (field.get value)) :
    type.Over (field.set base inner) value := by
  cases field with
  | struct field =>
    rw [GoType.Over, set, Equiv.apply_symm_apply]
    exact field.over_set h hinner

theorem written_read {base value value' : V} {json : Json} (hencode : type.encode value = .ok json)
    (hdecode : type.decode base json = .ok value') :
    LeftOut part omitempty (field.get value) ∧ field.get value' = field.get base ∨
      ∃ inner, part.encode (field.get value) = .ok inner ∧
        part.decode (field.get base) inner = .ok (field.get value') := by
  cases field with
  | struct field =>
    obtain ⟨entries, hentries, rfl⟩ := map_eq_ok_iff.mp hencode
    obtain ⟨values', hvalues', rfl⟩ := map_eq_ok_iff.mp hdecode
    rw [get, get, get, Equiv.apply_symm_apply]
    exact field.written_read hentries hvalues'

/-- A field that can be read back is, whatever the other fields hold. -/
theorem reads_back {base value value' : V} {json : Json}
    (hreadable : part.Readable (field.get value))
    (hover : OverField part omitempty part.Over (field.get base) (field.get value))
    (hencode : type.encode value = .ok json) (hdecode : type.decode base json = .ok value') :
    SameField part omitempty part.Same (field.get value) (field.get value') := by
  rcases field.written_read hencode hdecode with ⟨hleft, hkept⟩ | ⟨inner, hinner, hread⟩
  · rw [hkept]
    exact .inl ⟨hleft, hover.1 hleft⟩
  · obtain ⟨value', hvalue', hsame⟩ := part.decode_encode _ _ inner hreadable hover.2 hinner
    rw [← Except.ok.inj (hvalue'.symm.trans hread)]
    exact .inr hsame

end GoType.Field

end OperatorToolkit.Encoding
