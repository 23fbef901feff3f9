import OpcWire.Value.Decode

/-!
# Bodies

A `Body` is a value of some structure of the dictionary, together with the structure: what an
extension object holds and what a service message carries. Reading, writing and assignment never
change the structure of a body.

Requests and responses start with a header. `Structure.heading?` tells which structures do, and
`Body.header?` and `Body.setHeader?` give access to it.
-/

namespace OpcWire

/-- A value of some structure. -/
structure Body where
  /-- The structure. -/
  structureType : Structure
  /-- The value. -/
  value : Value structureType.wireType

/-- The two kinds of headers that service messages start with. -/
inductive HeaderRole
  /-- The header of a request. -/
  | request
  /-- The header of a response. -/
  | response
  deriving DecidableEq, Repr

/-- The structure of a header. -/
def HeaderRole.header : HeaderRole → Structure
  | request => .requestHeader
  | response => .responseHeader

/-- The layout of `s` starts with a reference to a header. -/
structure Structure.Heading (s : Structure) where
  /-- Which header it is. -/
  role : HeaderRole
  /-- Name of the field that refers to it. -/
  field : String
  /-- The other fields. -/
  rest : Layout
  /-- The header's field comes first. -/
  layout_eq : s.layout = .cons field (.nullable role.header.wireType) rest

/-- How a structure refers to its header, if it has one. -/
def Structure.heading? : (s : Structure) → Option s.Heading
  | serviceFault => some ⟨.response, _, _, rfl⟩
  | findServersRequest => some ⟨.request, _, _, rfl⟩
  | findServersResponse => some ⟨.response, _, _, rfl⟩
  | cancelRequest => some ⟨.request, _, _, rfl⟩
  | cancelResponse => some ⟨.response, _, _, rfl⟩
  | _ => none

/-- The fields of a record. -/
def Value.fields {name : String} {l : Layout} : Value (.record name l) → Fields l
  | .record fields => fields

namespace Fields

variable {name : String} {t : WireType} {l : Layout}

/-- The value of the first field. -/
def head : Fields (.cons name t l) → Value t
  | cons v _ => v

/-- The values of the other fields. -/
def tail : Fields (.cons name t l) → Fields l
  | cons _ rest => rest

/-- The same fields for an equal layout. -/
def cast {k : Layout} (h : k = l) (fields : Fields k) : Fields l := h ▸ fields

@[simp] theorem cast_cast {k : Layout} (h : k = l) (h' : l = k) (fields : Fields k) :
    (fields.cast h).cast h' = fields := by
  subst h
  rfl

theorem cons_head_tail (fields : Fields (.cons name t l)) :
    cons fields.head fields.tail = fields := by
  cases fields
  rfl

end Fields

namespace Structure.Heading

variable {s : Structure} (h : s.Heading)

/-- A value as its reference to the header and its other fields. -/
def split (v : Value s.wireType) : Value (.nullable h.role.header.wireType) × Fields h.rest :=
  let fields := v.fields.cast h.layout_eq
  (fields.head, fields.tail)

/-- The value with the given reference to the header and the given other fields. -/
def join (reference : Value (.nullable h.role.header.wireType)) (rest : Fields h.rest) :
    Value s.wireType :=
  .record ((Fields.cons reference rest).cast h.layout_eq.symm)

@[simp] theorem split_join (reference : Value (.nullable h.role.header.wireType))
    (rest : Fields h.rest) : h.split (h.join reference rest) = (reference, rest) := by
  simp [split, join, Value.fields, Fields.head, Fields.tail]

@[simp] theorem join_split (v : Value s.wireType) :
    h.join (h.split v).1 (h.split v).2 = v := by
  cases v with
  | record fields =>
    simp only [split, join, Value.fields, Fields.cons_head_tail, Fields.cast_cast]
    rfl

end Structure.Heading

namespace Body

/-- The zero value of a structure. -/
def zero (s : Structure) : Body := ⟨s, .zero s.wireType⟩

variable (b : Body)

/-- Name of the structure. -/
def typeName : String := b.structureType.name

/-- Number of the structure's binary encoding. -/
def encodingId : UInt32 := b.structureType.encodingId

/-- What is written for a body. -/
def encode : Encoding := b.value.encode

/-- Read another value of the same structure. -/
def decode : Reader Body := Body.mk b.structureType <$> b.structureType.wireType.decode

/-- Whether two bodies have the same structure and count as equal. -/
def same (other : Body) : Bool :=
  if h : other.structureType = b.structureType then b.value.same (h ▸ other.value) else false

/-- The value, if it is one of the structure `s`. -/
def as? (s : Structure) : Option (Value s.wireType) :=
  if h : b.structureType = s then some (h ▸ b.value) else none

/-- The body with the value of `other`, if that has the same structure. -/
def assign? (other : Body) : Option Body :=
  (other.as? b.structureType).map (Body.mk b.structureType)

/-- The extension object that holds a body. -/
def toObject : Value .extensionObject := .object b.structureType b.value

/-- The body of an extension object. -/
def ofObject? : Value .extensionObject → Option Body
  | .bodiless _ => none
  | .holding _ s v => some ⟨s, v⟩

/-- The kind of header that the structure starts with. -/
def role? : Option HeaderRole := b.structureType.heading?.map (·.role)

/-- The header of a request or response; `none` for a body without header, `some none` for one
whose header is absent. -/
def header? : Option (Option Body) :=
  b.structureType.heading?.map fun h =>
    (h.split b.value).1.target?.map (Body.mk h.role.header)

/-- The body with another header, if it has one of that structure. -/
def setHeader? (header : Body) : Option Body :=
  b.structureType.heading?.bind fun h =>
    (header.as? h.role.header).map fun v =>
      ⟨b.structureType, h.join (.present v) (h.split b.value).2⟩

end Body

end OpcWire
