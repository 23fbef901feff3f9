import OpcWire.Value.Decode

/-!
# Normal form of values

A value need not come back from its bytes as it was: an absent reference is written like the zero
value of its target, and an extension object under the identifier of its body, whatever type id
it holds. `Value.normal` replaces both throughout, bodies included. What an absent reference
stands for has absent references in it in turn; `WireType.filledZero` is the zero value with all
of them filled in, and `Value.normal_zero` shows that this is the normal form of the zero value.

A value and its normal form are written alike (`Value.encode_normal`), and the normal form is its
own (`Value.normal_normal`). `Value.Fills` is one step on the way to it: a single absent reference
is replaced by the zero value of its target, anywhere in the value.

`Value.IsComplete` says that no reference is absent. It holds of every normal form.
-/

namespace OpcWire

mutual

/-- The zero value of a type, but with every reference filled in. -/
def WireType.filledZero : (t : WireType) → Value t
  | .scalar s => .scalar s.codec.zero
  | .extensionObject => .nullObject
  | .record _ l => .record l.filledZero
  | .array _ => .nullArray
  | .nullable t => .present t.filledZero

/-- Filled-in zero values for all fields of a layout. -/
def Layout.filledZero : (l : Layout) → Fields l
  | .nil => .nil
  | .cons _ t rest => .cons t.filledZero rest.filledZero

end

mutual

/-- The value as it is read back: absent references filled in, and bodies under the identifiers of
their own encodings. -/
def Value.normal : {t : WireType} → Value t → Value t
  | _, .scalar v => .scalar v
  | _, .bodiless typeId => .bodiless typeId
  | _, .holding _ s body => .object s body.normal
  | _, .record fields => .record fields.normal
  | _, .nullArray => .nullArray
  | _, .array items => .array items.normal
  | _, .absent (t := t) => .present t.filledZero
  | _, .present v => .present v.normal

/-- The fields of a structure in normal form. -/
def Fields.normal : {l : Layout} → Fields l → Fields l
  | _, .nil => .nil
  | _, .cons v rest => .cons v.normal rest.normal

/-- The elements of an array in normal form. -/
def Items.normal : {t : WireType} → Items t → Items t
  | _, .nil => .nil
  | _, .cons v rest => .cons v.normal rest.normal

end

/-! ### Zero values -/

mutual

theorem Value.normal_zero : (t : WireType) → (Value.zero t).normal = t.filledZero
  | .scalar _ => rfl
  | .extensionObject => rfl
  | .record _ l => congrArg Value.record (Fields.normal_zero l)
  | .array _ => rfl
  | .nullable _ => rfl

theorem Fields.normal_zero : (l : Layout) → (Fields.zero l).normal = l.filledZero
  | .nil => rfl
  | .cons _ t rest => congr (congrArg Fields.cons (Value.normal_zero t)) (Fields.normal_zero rest)

end

/-- An absent reference is replaced by the zero value of its target, in normal form. -/
theorem Value.normal_absent (t : WireType) :
    (Value.absent : Value (.nullable t)).normal = .present (Value.zero t).normal := by
  rw [Value.normal_zero]
  rfl

/-! ### Writing normal forms -/

mutual

theorem WireType.encode_filledZero : (t : WireType) → t.filledZero.encode = t.zeroEncoding
  | .scalar _ => rfl
  | .extensionObject => rfl
  | .record name l => l.encode_filledZero name
  | .array _ => rfl
  | .nullable t => t.encode_filledZero

theorem Layout.encode_filledZero (owner : String) :
    (l : Layout) → l.filledZero.encode owner = l.zeroEncoding owner
  | .nil => rfl
  | .cons name t rest => by
    have hfield : t.filledZero.encode = t.zeroEncoding := t.encode_filledZero
    have hrest : rest.filledZero.encode owner = rest.zeroEncoding owner :=
      rest.encode_filledZero owner
    rw [Layout.filledZero, Fields.encode, hfield, hrest, Layout.zeroEncoding]

end

mutual

/-- **A value is written like its normal form.** -/
theorem Value.encode_normal : {t : WireType} → (v : Value t) → v.normal.encode = v.encode
  | _, .scalar _ => rfl
  | _, .bodiless _ => rfl
  | _, .holding _ s body => congrArg (encodeObject s) body.encode_normal
  | _, .record (n := n) fields => fields.encode_normal n
  | _, .nullArray => rfl
  | _, .array items => by
    have hitems : items.normal.encodings = items.encodings := items.encodings_normal
    rw [Value.normal, Value.encode, hitems, Value.encode]
  | _, .absent (t := t) => t.encode_filledZero
  | _, .present v => v.encode_normal

theorem Fields.encode_normal (owner : String) :
    {l : Layout} → (fields : Fields l) → fields.normal.encode owner = fields.encode owner
  | _, .nil => rfl
  | _, .cons v rest => by
    have hfield : v.normal.encode = v.encode := v.encode_normal
    have hrest : rest.normal.encode owner = rest.encode owner := rest.encode_normal owner
    rw [Fields.normal, Fields.encode, hfield, hrest, Fields.encode]

theorem Items.encodings_normal :
    {t : WireType} → (items : Items t) → items.normal.encodings = items.encodings
  | _, .nil => rfl
  | _, .cons v rest => by
    have hitem : v.normal.encode = v.encode := v.encode_normal
    have hrest : rest.normal.encodings = rest.encodings := rest.encodings_normal
    rw [Items.normal, Items.encodings, hitem, hrest, Items.encodings]

end

/-! ### Normal forms of normal forms -/

mutual

theorem WireType.normal_filledZero : (t : WireType) → t.filledZero.normal = t.filledZero
  | .scalar _ => rfl
  | .extensionObject => rfl
  | .record _ l => congrArg Value.record l.normal_filledZero
  | .array _ => rfl
  | .nullable t => congrArg Value.present t.normal_filledZero

theorem Layout.normal_filledZero : (l : Layout) → l.filledZero.normal = l.filledZero
  | .nil => rfl
  | .cons _ t rest =>
    congr (congrArg Fields.cons t.normal_filledZero) rest.normal_filledZero

end

mutual

/-- **The normal form is its own normal form.** -/
theorem Value.normal_normal : {t : WireType} → (v : Value t) → v.normal.normal = v.normal
  | _, .scalar _ => rfl
  | _, .bodiless _ => rfl
  | _, .holding _ s body => congrArg (Value.object s) body.normal_normal
  | _, .record fields => congrArg Value.record fields.normal_normal
  | _, .nullArray => rfl
  | _, .array items => congrArg Value.array items.normal_normal
  | _, .absent (t := t) => congrArg Value.present t.normal_filledZero
  | _, .present v => congrArg Value.present v.normal_normal

theorem Fields.normal_normal :
    {l : Layout} → (fields : Fields l) → fields.normal.normal = fields.normal
  | _, .nil => rfl
  | _, .cons v rest => by
    rw [Fields.normal, Fields.normal, v.normal_normal, rest.normal_normal]

theorem Items.normal_normal :
    {t : WireType} → (items : Items t) → items.normal.normal = items.normal
  | _, .nil => rfl
  | _, .cons v rest => by
    rw [Items.normal, Items.normal, v.normal_normal, rest.normal_normal]

end

/-! ### Filling in one reference -/

mutual

/-- `v.Fills w` : `w` is `v` with one absent reference replaced by the zero value of its target. -/
inductive Value.Fills : {t : WireType} → Value t → Value t → Prop
  /-- The value itself is the reference. -/
  | absent {t : WireType} : Value.Fills (.absent (t := t)) (.present (.zero t))
  /-- The reference is in the target of another. -/
  | present {t : WireType} {v w : Value t} (h : Value.Fills v w) :
      Value.Fills (.present v) (.present w)
  /-- The reference is in the body of an extension object. -/
  | holding {typeId : NodeId} {s : Structure} {v w : Value s.wireType} (h : Value.Fills v w) :
      Value.Fills (.holding typeId s v) (.holding typeId s w)
  /-- The reference is in a field of a structure. -/
  | record {n : String} {l : Layout} {f g : Fields l} (h : Fields.Fills f g) :
      Value.Fills (.record (n := n) f) (.record g)
  /-- The reference is in an element of an array. -/
  | array {t : WireType} {f g : Items t} (h : Items.Fills f g) :
      Value.Fills (.array f) (.array g)

/-- One absent reference in the fields of a structure is replaced. -/
inductive Fields.Fills : {l : Layout} → Fields l → Fields l → Prop
  /-- In the first field. -/
  | head {n : String} {t : WireType} {l : Layout} {v w : Value t} {rest : Fields l}
      (h : Value.Fills v w) : Fields.Fills (.cons (n := n) v rest) (.cons w rest)
  /-- In one of the others. -/
  | tail {n : String} {t : WireType} {l : Layout} {v : Value t} {f g : Fields l}
      (h : Fields.Fills f g) : Fields.Fills (.cons (n := n) v f) (.cons v g)

/-- One absent reference in the elements of an array is replaced. -/
inductive Items.Fills : {t : WireType} → Items t → Items t → Prop
  /-- In the first element. -/
  | head {t : WireType} {v w : Value t} {rest : Items t} (h : Value.Fills v w) :
      Items.Fills (.cons v rest) (.cons w rest)
  /-- In one of the others. -/
  | tail {t : WireType} {v : Value t} {f g : Items t} (h : Items.Fills f g) :
      Items.Fills (.cons v f) (.cons v g)

end

mutual

theorem Value.Fills.normal_eq : {t : WireType} → {v w : Value t} → v.Fills w →
    w.normal = v.normal
  | _, _, _, .absent (t := t) => (Value.normal_absent t).symm
  | _, _, _, .present h => congrArg Value.present h.normal_eq
  | _, _, _, .holding (s := s) h => congrArg (Value.object s) h.normal_eq
  | _, _, _, .record h => congrArg Value.record h.normal_eq
  | _, _, _, .array h => congrArg Value.array h.normal_eq

theorem Fields.Fills.normal_eq : {l : Layout} → {f g : Fields l} → f.Fills g →
    g.normal = f.normal
  | _, .cons _ rest, _, .head h => congrArg (Fields.cons · rest.normal) h.normal_eq
  | _, _, _, .tail (v := v) h => congrArg (Fields.cons v.normal) h.normal_eq

theorem Items.Fills.normal_eq : {t : WireType} → {f g : Items t} → f.Fills g →
    g.normal = f.normal
  | _, .cons _ rest, _, .head h => congrArg (Items.cons · rest.normal) h.normal_eq
  | _, _, _, .tail (v := v) h => congrArg (Items.cons v.normal) h.normal_eq

end

/-- **Filling in a reference does not change what is written.** -/
theorem Value.Fills.encode_eq {t : WireType} {v w : Value t} (h : v.Fills w) :
    w.encode = v.encode := by
  calc w.encode = w.normal.encode := w.encode_normal.symm
    _ = v.normal.encode := by rw [h.normal_eq]
    _ = v.encode := v.encode_normal

/-! ### Complete values -/

mutual

/-- No reference is absent, not even inside bodies. -/
def Value.IsComplete : {t : WireType} → Value t → Prop
  | _, .scalar _ => True
  | _, .bodiless _ => True
  | _, .holding _ _ body => body.IsComplete
  | _, .record fields => fields.IsComplete
  | _, .nullArray => True
  | _, .array items => items.IsComplete
  | _, .absent => False
  | _, .present v => v.IsComplete

/-- No reference is absent in any field. -/
def Fields.IsComplete : {l : Layout} → Fields l → Prop
  | _, .nil => True
  | _, .cons v rest => v.IsComplete ∧ rest.IsComplete

/-- No reference is absent in any element. -/
def Items.IsComplete : {t : WireType} → Items t → Prop
  | _, .nil => True
  | _, .cons v rest => v.IsComplete ∧ rest.IsComplete

end

mutual

theorem WireType.isComplete_filledZero : (t : WireType) → t.filledZero.IsComplete
  | .scalar _ => trivial
  | .extensionObject => trivial
  | .record _ l => l.isComplete_filledZero
  | .array _ => trivial
  | .nullable t => t.isComplete_filledZero

theorem Layout.isComplete_filledZero : (l : Layout) → l.filledZero.IsComplete
  | .nil => trivial
  | .cons _ t rest => ⟨t.isComplete_filledZero, rest.isComplete_filledZero⟩

end

mutual

/-- **Normal forms are complete.** -/
theorem Value.isComplete_normal : {t : WireType} → (v : Value t) → v.normal.IsComplete
  | _, .scalar _ => trivial
  | _, .bodiless _ => trivial
  | _, .holding _ _ body => body.isComplete_normal
  | _, .record fields => fields.isComplete_normal
  | _, .nullArray => trivial
  | _, .array items => items.isComplete_normal
  | _, .absent (t := t) => t.isComplete_filledZero
  | _, .present v => v.isComplete_normal

theorem Fields.isComplete_normal : {l : Layout} → (fields : Fields l) → fields.normal.IsComplete
  | _, .nil => trivial
  | _, .cons v rest => ⟨v.isComplete_normal, rest.isComplete_normal⟩

theorem Items.isComplete_normal : {t : WireType} → (items : Items t) → items.normal.IsComplete
  | _, .nil => trivial
  | _, .cons v rest => ⟨v.isComplete_normal, rest.isComplete_normal⟩

end

end OpcWire
