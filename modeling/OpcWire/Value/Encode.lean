import OpcWire.Value.Basic

/-!
# Writing values

A record is its fields one after the other; an array is a length prefix and its elements; an
absent reference is written as the zero value of its target. An extension object is a type id, a
byte that says whether a body follows, and the body behind its length. With a body, the type id
written is the number of the body's own encoding, whatever id the object holds.
-/

namespace OpcWire

/-- The byte of an extension object without a body. -/
def noBody : UInt8 := 0x00

/-- The byte of an extension object with a binary body. -/
def binaryBody : UInt8 := 0x01

/-- What is written for an extension object whose body is written as `body`. -/
def encodeObject (s : Structure) (body : Encoding) : Encoding :=
  NodeId.codec.encode (.numeric 0 s.encodingId) ++ .byte binaryBody ++ .delimited body

mutual

/-- What is written for the zero value of a type. -/
def WireType.zeroEncoding : WireType → Encoding
  | .scalar s => s.codec.encode s.codec.zero
  | .extensionObject => NodeId.codec.encode .null ++ .byte noBody
  | .record name l => l.zeroEncoding name
  | .array _ => .array none
  | .nullable t => t.zeroEncoding

/-- What is written for the zero values of the fields of the structure `owner`. -/
def Layout.zeroEncoding (owner : String) : Layout → Encoding
  | .nil => .empty
  | .cons name t rest => t.zeroEncoding.inField owner name ++ rest.zeroEncoding owner

end

mutual

/-- What is written for a value. -/
def Value.encode : {t : WireType} → Value t → Encoding
  | _, .scalar (s := s) v => s.codec.encode v
  | _, .bodiless typeId => NodeId.codec.encode typeId ++ .byte noBody
  | _, .holding _ s body => encodeObject s body.encode
  | _, .record (n := n) fields => fields.encode n
  | _, .nullArray => .array none
  | _, .array items => .array (some items.encodings)
  | _, .absent (t := t) => t.zeroEncoding
  | _, .present v => v.encode

/-- What is written for the fields of the structure `owner`. -/
def Fields.encode (owner : String) : {l : Layout} → Fields l → Encoding
  | _, .nil => .empty
  | _, .cons (n := n) v rest => v.encode.inField owner n ++ rest.encode owner

/-- What is written for each element. -/
def Items.encodings : {t : WireType} → Items t → List Encoding
  | _, .nil => []
  | _, .cons v rest => v.encode :: rest.encodings

end

mutual

theorem Value.encode_zero : (t : WireType) → (Value.zero t).encode = t.zeroEncoding
  | .scalar _ => rfl
  | .extensionObject => rfl
  | .record name l => Fields.encode_zero name l
  | .array _ => rfl
  | .nullable _ => rfl

theorem Fields.encode_zero (owner : String) :
    (l : Layout) → (Fields.zero l).encode owner = l.zeroEncoding owner
  | .nil => rfl
  | .cons name t rest => by
    simp only [Fields.zero, Fields.encode, Layout.zeroEncoding, Value.encode_zero t,
      Fields.encode_zero owner rest]

end

end OpcWire
