import OpcWire.Generator.Interpreter
import OpcWire.Proofs.Generator.ZeroValue
import OpcWire.Proofs.Wire.LittleEndian
import OpcWire.Proofs.Wire.Mapping

/-!
# Definitions and wire types

`GeneratedTypes.Describes` says that a form stands for a wire type all the way down: the names in
it lead to definitions with the same fields in the same order. `Value.datum` is what is left of a
value when its type is forgotten, and nothing is lost by it (`Value.datum_inj`).

Where the form describes the type, writing by the definitions is writing the value
(`Value.encode?_datum`), and reading by them is reading the type (`WireType.reader?_eq`). Both go
into the bodies of extension objects, for which the definitions have to describe every structure
that may be in one (`GeneratedTypes.DescribesAll`).
-/

namespace OpcWire

/-! ### Values without types -/

namespace Scalar

/-- What a scalar value holds. The values of an enumeration are its numbers. -/
def datum : (s : Scalar) → s.Carrier → Datum
  | enumeration e, v => .enumerated e.name v.toNat
  | s, v => .scalar s v

/-- The form that describes a scalar type; enumerations have four bytes. -/
def form : Scalar → Form
  | enumeration e => .enumerated e.name 4
  | s => .scalar s

theorem datum_inj {s : Scalar} {v w : s.Carrier} (h : s.datum v = s.datum w) : v = w := by
  cases s with
  | enumeration e =>
    obtain ⟨-, hvalue⟩ := Datum.enumerated.inj h
    exact UInt32.toNat_inj.1 hvalue
  | _ => exact eq_of_heq (Datum.scalar.inj h).2

theorem form_eq_scalar_iff {s s' : Scalar} :
    s.form = .scalar s' ↔ s = s' ∧ ∀ e, s ≠ .enumeration e := by
  cases s <;> simp [form]

theorem form_eq_enumerated_iff {s : Scalar} {name : String} {width : Nat} :
    s.form = .enumerated name width ↔
      ∃ e, s = .enumeration e ∧ e.name = name ∧ 4 = width := by
  cases s <;> simp [form]

theorem form_ne_object {s : Scalar} : s.form ≠ .object := by
  cases s <;> exact Form.noConfusion

theorem form_ne_record {s : Scalar} {owner : String} {fields : List Definition.Field} :
    s.form ≠ .record owner fields := by
  cases s <;> exact Form.noConfusion

theorem form_ne_array {s : Scalar} {item : FieldType} : s.form ≠ .array item := by
  cases s <;> exact Form.noConfusion

theorem form_ne_nullable {s : Scalar} {target : String} : s.form ≠ .nullable target := by
  cases s <;> exact Form.noConfusion

end Scalar

mutual

/-- What a value holds. -/
def Value.datum : {t : WireType} → Value t → Datum
  | _, .scalar (s := s) v => s.datum v
  | _, .bodiless typeId => .bodiless typeId
  | _, .holding typeId s body => .holding typeId s body.datum
  | _, .record fields => .record fields.data
  | _, .nullArray => .nullArray
  | _, .array items => .array items.data
  | _, .absent => .absent
  | _, .present v => .present v.datum

/-- What the fields of a structure hold. -/
def Fields.data : {l : Layout} → Fields l → Data
  | _, .nil => .nil
  | _, .cons v rest => .cons v.datum rest.data

/-- What the elements of an array hold. -/
def Items.data : {t : WireType} → Items t → Data
  | _, .nil => .nil
  | _, .cons v rest => .cons v.datum rest.data

end

mutual

/-- **The type of a value is all that is lost.** -/
theorem Value.datum_inj : {t : WireType} → (v w : Value t) → v.datum = w.datum → v = w
  | _, .scalar _, .scalar _, h => congrArg Value.scalar (Scalar.datum_inj h)
  | _, .bodiless _, .bodiless _, h => congrArg Value.bodiless (Datum.bodiless.inj h)
  | _, .holding _ s v, .holding _ s' w, h => by
    obtain ⟨rfl, rfl, hbody⟩ := Datum.holding.inj h
    rw [v.datum_inj w hbody]
  | _, .bodiless _, .holding _ _ _, h => nomatch h
  | _, .holding _ _ _, .bodiless _, h => nomatch h
  | _, .record f, .record g, h => congrArg Value.record (f.data_inj g (Datum.record.inj h))
  | _, .nullArray, .nullArray, _ => rfl
  | _, .array f, .array g, h => congrArg Value.array (f.data_inj g (Datum.array.inj h))
  | _, .nullArray, .array _, h => nomatch h
  | _, .array _, .nullArray, h => nomatch h
  | _, .absent, .absent, _ => rfl
  | _, .present v, .present w, h => congrArg Value.present (v.datum_inj w (Datum.present.inj h))
  | _, .absent, .present _, h => nomatch h
  | _, .present _, .absent, h => nomatch h

theorem Fields.data_inj : {l : Layout} → (f g : Fields l) → f.data = g.data → f = g
  | _, .nil, .nil, _ => rfl
  | _, .cons v f, .cons w g, h => by
    obtain ⟨hfirst, hrest⟩ := Data.cons.inj h
    rw [v.datum_inj w hfirst, f.data_inj g hrest]

theorem Items.data_inj : {t : WireType} → (f g : Items t) → f.data = g.data → f = g
  | _, .nil, .nil, _ => rfl
  | _, .cons v f, .cons w g, h => by
    obtain ⟨hfirst, hrest⟩ := Data.cons.inj h
    rw [v.datum_inj w hfirst, f.data_inj g hrest]
  | _, .nil, .cons _ _, h => nomatch h
  | _, .cons _ _, .nil, h => nomatch h

end

/-! ### Forms of wire types -/

mutual

/-- The form stands for the wire type. -/
inductive GeneratedTypes.Describes (g : GeneratedTypes) : Form → WireType → Prop
  /-- Built-in types and enumerations. -/
  | scalar {form : Form} {s : Scalar} (h : form = s.form) :
      GeneratedTypes.Describes g form (.scalar s)
  /-- Extension objects. -/
  | object : GeneratedTypes.Describes g .object .extensionObject
  /-- A structure with the same fields. -/
  | record {owner : String} {fields : List Definition.Field} {l : Layout}
      (h : GeneratedTypes.DescribesFields g fields l) :
      GeneratedTypes.Describes g (.record owner fields) (.record owner l)
  /-- A sequence of the same elements. -/
  | array {item : FieldType} {form : Form} {t : WireType} (hform : g.form? item = some form)
      (h : GeneratedTypes.Describes g form t) : GeneratedTypes.Describes g (.array item) (.array t)
  /-- A reference to the same target. -/
  | nullable {target : String} {form : Form} {t : WireType}
      (hform : g.namedForm? target = some form) (h : GeneratedTypes.Describes g form t) :
      GeneratedTypes.Describes g (.nullable target) (.nullable t)

/-- The fields stand for the layout, in the same order and under the same names. -/
inductive GeneratedTypes.DescribesFields (g : GeneratedTypes) :
    List Definition.Field → Layout → Prop
  /-- No field. -/
  | nil : GeneratedTypes.DescribesFields g [] .nil
  /-- A field before others. -/
  | cons {f : Definition.Field} {form : Form} {t : WireType} {fields : List Definition.Field}
      {l : Layout} (hform : g.form? f.type = some form) (h : GeneratedTypes.Describes g form t)
      (hrest : GeneratedTypes.DescribesFields g fields l) :
      GeneratedTypes.DescribesFields g (f :: fields) (.cons f.name t l)

end

mutual

/-- Number of forms around one another in the form of a wire type. -/
def WireType.depth : WireType → Nat
  | .scalar _ => 1
  | .extensionObject => 1
  | .record _ l => l.depth + 1
  | .array t => t.depth + 1
  | .nullable t => t.depth + 1

/-- The greatest depth of a field. -/
def Layout.depth : Layout → Nat
  | .nil => 0
  | .cons _ t rest => max t.depth rest.depth

end

namespace GeneratedTypes

variable {g : GeneratedTypes}

/-- The definitions describe the structure called like `s` as the structure `s`, at no greater
depth than they provide for. -/
def DescribesStructure (g : GeneratedTypes) (s : Structure) : Prop :=
  (∃ form, g.namedForm? s.name = some form ∧ g.Describes form s.wireType) ∧
    s.wireType.depth ≤ g.levels

/-- The definitions describe all structures. -/
def DescribesAll (g : GeneratedTypes) : Prop := ∀ s, g.DescribesStructure s

/-- What the form of a name comes from: a definition, an enumerated type, or a type known
beforehand. -/
theorem namedForm?_eq_some {name : String} {form : Form} (h : g.namedForm? name = some form) :
    (∃ d, g.object? name = some d ∧ form = .record d.name d.fields) ∨
      g.object? name = none ∧
        ((∃ e repr, g.enumerations.find? (·.name == name) = some e ∧
          EnumRepr.ofBits? e.lengthInBits = some repr ∧
            form = .enumerated e.name (repr.width / 8)) ∨
        g.enumerations.find? (·.name == name) = none ∧
          ∃ t, FieldType.knownWireTypes.lookup name = some t ∧
            ((∃ s, t = .scalar s ∧ form = .scalar s) ∨ t = .extensionObject ∧ form = .object)) := by
  rw [namedForm?] at h
  split at h
  · rename_i d hobject
    exact .inl ⟨d, hobject, (Option.some.inj h).symm⟩
  · rename_i hobject
    refine .inr ⟨hobject, ?_⟩
    split at h
    · rename_i e henum
      obtain ⟨repr, hrepr, rfl⟩ := Option.map_eq_some_iff.1 h
      exact .inl ⟨e, repr, henum, hrepr, rfl⟩
    · rename_i henum
      refine .inr ⟨henum, ?_⟩
      split at h
      · rename_i s hknown
        exact ⟨_, hknown, .inl ⟨s, rfl, (Option.some.inj h).symm⟩⟩
      · rename_i hknown
        exact ⟨_, hknown, .inr ⟨rfl, (Option.some.inj h).symm⟩⟩
      · cases h

end GeneratedTypes

/-! ### Zero values -/

section ZeroValues

variable {g : GeneratedTypes} {named : String → Option Encoding} {levels : Nat}

/-- The names of all types up to a depth stand for the zero values of these types. -/
def GeneratedTypes.NamesZero (g : GeneratedTypes) (named : String → Option Encoding)
    (levels : Nat) : Prop :=
  ∀ ⦃name form t⦄, g.namedForm? name = some form → g.Describes form t → t.depth ≤ levels →
    named name = some t.zeroEncoding

theorem FieldType.zeroEncoding?_of_describes (hnamed : g.NamesZero named levels)
    {type : FieldType} {form : Form} {t : WireType} (hform : g.form? type = some form)
    (h : g.Describes form t) (hdepth : t.depth ≤ levels) :
    type.zeroEncoding? named = some t.zeroEncoding := by
  cases type with
  | builtin b =>
    obtain rfl := Option.some.inj hform
    cases h with
    | scalar h =>
      obtain ⟨rfl, -⟩ := Scalar.form_eq_scalar_iff.1 h.symm
      rfl
  | enumeration name => exact hnamed hform h hdepth
  | reference name =>
    obtain rfl := Option.some.inj hform
    cases h with
    | scalar h => exact absurd h.symm Scalar.form_ne_nullable
    | nullable htarget h =>
      have hzero := hnamed htarget h (Nat.le_of_succ_le hdepth)
      exact hzero
  | sequence item =>
    obtain rfl := Option.some.inj hform
    cases h with
    | scalar h => exact absurd h.symm Scalar.form_ne_array
    | array => rfl

theorem Definition.zeroFields?_of_describes (hnamed : g.NamesZero named levels)
    (owner : String) {fields : List Definition.Field} {l : Layout}
    (h : g.DescribesFields fields l) (hdepth : l.depth ≤ levels) :
    zeroFields? named owner fields = some (l.zeroEncoding owner) := by
  induction fields generalizing l with
  | nil =>
    cases h
    rfl
  | cons f fields ih =>
    cases h with
    | cons hform h hrest =>
      have hfirst := FieldType.zeroEncoding?_of_describes hnamed hform h
        (Nat.le_trans (Nat.le_max_left ..) hdepth)
      have hothers := ih hrest (Nat.le_trans (Nat.le_max_right ..) hdepth)
      rw [zeroFields?, hfirst, hothers]
      rfl

namespace GeneratedTypes

/-- **Zero values by name.** A described type has the zero value that its wire type has. -/
theorem namesZero (levels : Nat) : g.NamesZero (g.namedZeroEncoding? levels) levels := by
  induction levels with
  | zero =>
    -- a wire type is at least one form deep
    intro name form t hform h hdepth
    cases t <;> simp [WireType.depth] at hdepth
  | succ levels ih =>
    intro name form t hform h hdepth
    obtain ⟨d, hobject, rfl⟩ | ⟨hobject, ⟨e, repr, henum, hrepr, rfl⟩ |
      ⟨henum, t', hknown, ⟨s, rfl, rfl⟩ | ⟨rfl, rfl⟩⟩⟩ := namedForm?_eq_some hform
    · rw [namedZeroEncoding?, hobject]
      cases h with
      | scalar h => exact absurd h.symm Scalar.form_ne_record
      | record h => exact Definition.zeroFields?_of_describes ih _ h (Nat.le_of_succ_le_succ hdepth)
    · cases h with
      | scalar h =>
        obtain ⟨e', rfl, -, hwidth⟩ := Scalar.form_eq_enumerated_iff.1 h.symm
        have hzero : e.zeroEncoding = .word 4 0 := by
          rw [Dictionary.EnumeratedType.zeroEncoding, hrepr, Option.elim_some, ← hwidth]
        rw [namedZeroEncoding?, hobject, plainEncoding?, henum]
        exact congrArg some hzero
    · cases h with
      | scalar h =>
        obtain ⟨rfl, -⟩ := Scalar.form_eq_scalar_iff.1 h.symm
        rw [namedZeroEncoding?, hobject, plainEncoding?, henum, hknown]
        rfl
    · rw [namedZeroEncoding?, hobject, plainEncoding?, henum, hknown]
      cases h with
      | scalar h => exact absurd h.symm Scalar.form_ne_object
      | object => rfl

end GeneratedTypes

end ZeroValues

/-! ### Writing -/

theorem Scalar.encode?_datum (g : GeneratedTypes) (s : Scalar) (v : s.Carrier) :
    (s.datum v).encode? g s.form = some (s.codec.encode v) := by
  cases s with
  | enumeration e =>
    have hlt : v.toNat < 256 ^ 4 := v.toNat_lt
    exact if_pos ⟨rfl, hlt⟩
  | _ => exact if_pos rfl

mutual

/-- **A value is written as the definitions say**, where they describe its type. -/
theorem Value.encode?_datum {g : GeneratedTypes} (hall : g.DescribesAll) :
    {t : WireType} → {form : Form} → (v : Value t) → g.Describes form t → t.depth ≤ g.levels →
      v.datum.encode? g form = some v.encode
  | _, _, .scalar (s := s) v, .scalar h, _ => h ▸ s.encode?_datum g v
  | _, _, .bodiless _, .object, _ => rfl
  | _, _, .holding _ s body, .object, _ => by
    -- the body has a definition of its own, at a depth that starts anew
    obtain ⟨⟨form, hform, h⟩, hdepth⟩ := hall s
    rw [Value.datum, Datum.encode?, hform, Option.bind_eq_bind, Option.bind_some,
      body.encode?_datum hall h hdepth]
    rfl
  | _, _, .record fields, .record h, hdepth =>
    fields.encode?_data hall h (Nat.le_of_succ_le hdepth)
  | _, _, .nullArray, .array _ _, _ => rfl
  | _, _, .array items, .array hform h, hdepth => by
    rw [Value.datum, Datum.encode?, hform, Option.bind_eq_bind, Option.bind_some,
      items.encodings?_data hall h (Nat.le_of_succ_le hdepth)]
    rfl
  | _, _, .absent, .nullable hform h, hdepth =>
    g.namesZero g.levels hform h (Nat.le_of_succ_le hdepth)
  | _, _, .present v, .nullable hform h, hdepth => by
    rw [Value.datum, Datum.encode?, hform, Option.bind_eq_bind, Option.bind_some,
      v.encode?_datum hall h (Nat.le_of_succ_le hdepth), Value.encode]

theorem Fields.encode?_data {g : GeneratedTypes} (hall : g.DescribesAll) {owner : String} :
    {l : Layout} → {fields : List Definition.Field} → (f : Fields l) →
      g.DescribesFields fields l → l.depth ≤ g.levels →
        f.data.encodeFields? g owner fields = some (f.encode owner)
  | _, _, .nil, .nil, _ => rfl
  | _, _, .cons v rest, .cons hform h hrest, hdepth => by
    rw [Fields.data, Data.encodeFields?, hform, Option.bind_eq_bind, Option.bind_some,
      v.encode?_datum hall h (Nat.le_trans (Nat.le_max_left ..) hdepth),
      rest.encode?_data hall hrest (Nat.le_trans (Nat.le_max_right ..) hdepth)]
    rfl

theorem Items.encodings?_data {g : GeneratedTypes} (hall : g.DescribesAll) :
    {t : WireType} → {form : Form} → (items : Items t) → g.Describes form t →
      t.depth ≤ g.levels → items.data.encodings? g form = some items.encodings
  | _, _, .nil, _, _ => rfl
  | _, _, .cons v rest, h, hdepth => by
    rw [Items.data, Data.encodings?, v.encode?_datum hall h hdepth,
      rest.encodings?_data hall h hdepth]
    rfl

end

/-! ### Reading -/

/-- An enumeration is read as a word, whatever the number. -/
theorem Scalar.datum_enumeration (e : Enumeration) :
    (Scalar.enumeration e).datum <$> Codec.uint32.decode =
      Datum.enumerated e.name <$> Reader.word 4 := by
  funext c
  have hdecode : Codec.uint32.decode = UInt32.ofNat <$> LittleEndian.ofBytes <$> Reader.take 4 :=
    rfl
  rw [hdecode, Reader.word]
  simp only [Reader.map_apply, Reader.take_apply]
  by_cases hlength : 4 ≤ c.rest.length
  · simp only [hlength, if_true, ReadResult.ok.injEq, and_true]
    -- four bytes hold no number that a 32-bit word would cut
    have hlt := LittleEndian.ofBytes_lt (c.rest.take 4)
    rw [List.length_take, Nat.min_eq_left hlength] at hlt
    rw [datum, UInt32.toNat_ofNat_of_lt' hlt]
  · simp only [hlength, if_false]

theorem Scalar.reader?_form (g : GeneratedTypes) (object : Reader Datum) (levels : Nat)
    (s : Scalar) : g.reader? object (levels + 1) s.form = some (s.datum <$> s.codec.decode) := by
  cases s with
  | enumeration e => exact congrArg some (Scalar.datum_enumeration e).symm
  | _ => rfl

theorem Items.data_ofList {t : WireType} (values : List (Value t)) :
    (Items.ofList values).data = (values.map Value.datum).foldr Data.cons Data.nil := by
  induction values with
  | nil => rfl
  | cons v rest ih => exact congrArg (Data.cons v.datum) ih

theorem Value.datum_ofItems? {t : WireType} (values : Option (List (Value t))) :
    (Value.ofItems? values).datum = Datum.ofItems? (values.map (List.map Value.datum)) := by
  cases values with
  | none => rfl
  | some values => exact congrArg Datum.array (Items.data_ofList values)

mutual

/-- **A type is read as the definitions say**, where they describe it. -/
theorem WireType.reader?_eq {g : GeneratedTypes} (object : Reader (Value .extensionObject)) :
    {t : WireType} → {form : Form} → {levels : Nat} → g.Describes form t → t.depth ≤ levels →
      g.reader? (Value.datum <$> object) levels form = some (Value.datum <$> t.decodeWith object)
  | .scalar s, _, levels + 1, .scalar h, _ => by
    rw [h, s.reader?_form, WireType.decodeWith, ← comp_map]
    rfl
  | .extensionObject, _, _ + 1, .object, _ => rfl
  | .record n l, _, levels + 1, .record h, hdepth => by
    have hfields := Layout.fieldsReader?_eq object n h (Nat.le_of_succ_le_succ hdepth)
    rw [GeneratedTypes.reader?, hfields, WireType.decodeWith, ← comp_map]
    exact congrArg some (comp_map Fields.data Datum.record _).symm
  | .array t, _, levels + 1, .array hform h, hdepth => by
    have hitem := WireType.reader?_eq object h (Nat.le_of_succ_le_succ hdepth)
    have hitems : Datum.ofItems? ∘ Option.map (List.map Value.datum) =
        Value.datum ∘ Value.ofItems? (t := t) :=
      funext fun values => (Value.datum_ofItems? values).symm
    simp only [GeneratedTypes.reader?, hform, hitem, Option.bind_eq_bind, Option.bind_some,
      Reader.array_map, WireType.decodeWith, ← comp_map, hitems]
    rfl
  | .nullable t, _, levels + 1, .nullable hform h, hdepth => by
    have htarget := WireType.reader?_eq object h (Nat.le_of_succ_le_succ hdepth)
    simp only [GeneratedTypes.reader?, hform, htarget, Option.bind_eq_bind, Option.bind_some,
      WireType.decodeWith, ← comp_map]
    rfl

theorem Layout.fieldsReader?_eq {g : GeneratedTypes} (object : Reader (Value .extensionObject))
    (owner : String) : {l : Layout} → {fields : List Definition.Field} → {levels : Nat} →
      g.DescribesFields fields l → l.depth ≤ levels →
        Definition.fieldsReader?
            (fun type => (g.form? type).bind (g.reader? (Value.datum <$> object) levels)) owner
            fields =
          some (Fields.data <$> l.decodeWith object owner)
  | .nil, _, _, .nil, _ => rfl
  | .cons _ t rest, _ :: _, _, .cons hform h hrest, hdepth => by
    have hfirst := WireType.reader?_eq object h (Nat.le_trans (Nat.le_max_left ..) hdepth)
    have hothers := Layout.fieldsReader?_eq object owner hrest
      (Nat.le_trans (Nat.le_max_right ..) hdepth)
    rw [Definition.fieldsReader?, hform, Option.bind_some, hfirst, hothers, Layout.decodeWith]
    simp only [Option.bind_eq_bind, Option.bind_some, Reader.inField_map]
    simp only [map_eq_pure_bind, bind_assoc, pure_bind]
    rfl

end

namespace GeneratedTypes

variable {g : GeneratedTypes}

theorem structureReader?_eq (hall : g.DescribesAll) (object : Reader (Value .extensionObject))
    (s : Structure) : g.structureReader? (Value.datum <$> object) s =
      some (Value.datum <$> s.wireType.decodeWith object) := by
  obtain ⟨⟨form, hform, h⟩, hdepth⟩ := hall s
  rw [structureReader?, hform, Option.bind_eq_bind, Option.bind_some,
    WireType.reader?_eq object h hdepth]

/-- One layer of extension objects. -/
theorem objectReader_eq (hall : g.DescribesAll) (inner : Reader (Value .extensionObject)) :
    g.objectReader (Value.datum <$> inner) = Value.datum <$> OpcWire.objectReader inner := by
  simp only [objectReader, OpcWire.objectReader, structureReader?_eq hall, map_bind]
  -- both read the same header, and what is around the body commutes with forgetting types
  congr 1
  funext typeId
  congr 1
  funext mask
  split
  · rfl
  · split
    · simp only [map_bind]
      congr 1
      funext prefixed
      cases prefixed with
      | none => rfl
      | some count =>
        simp only [map_bind, Reader.delimited_map, Reader.opening_map, ← comp_map]
        rfl
    · rfl

theorem objectReaderWithin_eq (hall : g.DescribesAll) (layers : Nat) :
    g.objectReaderWithin layers = Value.datum <$> decodeObjectWithin layers := by
  induction layers with
  | zero => exact objectReader_eq hall (.fail (.nestingTooDeep maxBodyDepth))
  | succ layers ih => rw [objectReaderWithin, ih, objectReader_eq hall, decodeObjectWithin]

/-- **Every structure is read as the definitions say**, where they describe all of them. -/
theorem decoder?_eq (hall : g.DescribesAll) (s : Structure) :
    g.decoder? s = some (Value.datum <$> s.wireType.decode) := by
  rw [decoder?, objectReaderWithin_eq hall, structureReader?_eq hall]
  rfl

/-- **Every structure is written as the definitions say**, where they describe all of them. -/
theorem encode?_eq (hall : g.DescribesAll) (s : Structure) (v : Value s.wireType) :
    g.encode? s v.datum = some v.encode := by
  obtain ⟨⟨form, hform, h⟩, hdepth⟩ := hall s
  rw [encode?, hform, Option.bind_eq_bind, Option.bind_some, v.encode?_datum hall h hdepth]

end GeneratedTypes

end OpcWire
