import Mathlib.Algebra.Group.Nat.Defs
import OpcWire.Generator.ZeroValue
import OpcWire.Value.Decode

/-!
# Definitions as a wire format

The definitions of a dictionary say by themselves how data are written and read, without code made
for any structure. A `Form` is what a resolved field type asks of its data at the outermost level,
`GeneratedTypes.form?` finds it, and `Datum.encode?` and `GeneratedTypes.reader?` follow the forms
from there: a structure is its fields one after the other as they are defined, an enumeration a
word of its own width, a sequence a length prefix and its elements, and an absent reference the
zero value of the type it refers to. The body of an extension object is written and read by the
definition of the structure that its identifier is registered for.

Data have no types here. Where they do not have the form that is asked for, or a name has no
meaning, nothing is written.
-/

namespace OpcWire

mutual

/-- What a value holds, apart from its type. -/
inductive Datum
  /-- A value of a built-in type. -/
  | scalar (s : Scalar) (v : s.Carrier)
  /-- A value of the enumeration called `name`, a member of it or not. -/
  | enumerated (name : String) (value : Nat)
  /-- An extension object without a body. -/
  | bodiless (typeId : NodeId)
  /-- An extension object with a body. -/
  | holding (typeId : NodeId) (s : Structure) (body : Datum)
  /-- The fields of a structure. -/
  | record (fields : Data)
  /-- The null sequence. -/
  | nullArray
  /-- The elements of a sequence that is not null. -/
  | array (items : Data)
  /-- The absent reference. -/
  | absent
  /-- What a reference refers to. -/
  | present (target : Datum)

/-- Several data in a row. -/
inductive Data
  /-- None. -/
  | nil
  /-- One before others. -/
  | cons (first : Datum) (rest : Data)

end

/-- A sequence of the given data, or the null sequence. -/
def Datum.ofItems? : Option (List Datum) → Datum
  | none => nullArray
  | some items => array (items.foldr Data.cons Data.nil)

/-- What a type asks of its data at the outermost level. -/
inductive Form
  /-- A value of a built-in type. -/
  | scalar (s : Scalar)
  /-- A value of the enumeration called `name`, in `width` bytes. -/
  | enumerated (name : String) (width : Nat)
  /-- An extension object. -/
  | object
  /-- The fields of the structure `owner`. -/
  | record (owner : String) (fields : List Definition.Field)
  /-- A sequence, which may be null. -/
  | array (item : FieldType)
  /-- A reference to the type called `target`, which may be absent. -/
  | nullable (target : String)
  deriving DecidableEq, Repr

namespace GeneratedTypes

variable (g : GeneratedTypes)

/-- The form of the type called `name`. -/
def namedForm? (name : String) : Option Form :=
  match g.object? name with
  | some d => some (.record d.name d.fields)
  | none =>
    match g.enumerations.find? (·.name == name) with
    | some e =>
      (EnumRepr.ofBits? e.lengthInBits).map fun repr => .enumerated e.name (repr.width / 8)
    | none =>
      match FieldType.knownWireTypes.lookup name with
      | some (.scalar s) => some (.scalar s)
      | some .extensionObject => some .object
      | _ => none

/-- The form of a field type. -/
def form? : FieldType → Option Form
  | .builtin b => some (.scalar b.scalar)
  | .enumeration name => g.namedForm? name
  | .reference name => some (.nullable name)
  | .sequence item => some (.array item)

/-- As many forms as can be around one another if no structure is inside itself: a structure, a
sequence and a reference for each structure. -/
def levels : Nat := 3 * (g.objects.length + 1)

end GeneratedTypes

/-! ### Writing -/

mutual

/-- What is written for data of a form. -/
def Datum.encode? (g : GeneratedTypes) : Datum → Form → Option Encoding
  | .scalar s v, .scalar s' => if s = s' then some (s.codec.encode v) else none
  | .enumerated name value, .enumerated name' width =>
    if name = name' ∧ value < 256 ^ width then some (.word width value) else none
  | .bodiless typeId, .object => some (NodeId.codec.encode typeId ++ .byte noBody)
  | .holding _ s body, .object => do
    let form ← g.namedForm? s.name
    let content ← body.encode? g form
    return encodeObject s content
  | .record data, .record owner fields => data.encodeFields? g owner fields
  | .nullArray, .array _ => some (.array none)
  | .array items, .array item => do
    let form ← g.form? item
    let encodings ← items.encodings? g form
    return .array (some encodings)
  | .absent, .nullable target => g.namedZeroEncoding? g.levels target
  | .present datum, .nullable target => do
    let form ← g.namedForm? target
    datum.encode? g form
  | _, _ => none

/-- What is written for the fields of the structure `owner`. -/
def Data.encodeFields? (g : GeneratedTypes) (owner : String) :
    Data → List Definition.Field → Option Encoding
  | .nil, [] => some .empty
  | .cons datum data, f :: fields => do
    let form ← g.form? f.type
    let first ← datum.encode? g form
    let others ← data.encodeFields? g owner fields
    return first.inField owner f.name ++ others
  | _, _ => none

/-- What is written for elements of one form. -/
def Data.encodings? (g : GeneratedTypes) : Data → Form → Option (List Encoding)
  | .nil, _ => some []
  | .cons datum data, form => do
    let first ← datum.encode? g form
    let others ← data.encodings? g form
    return first :: others

end

/-! ### Reading -/

/-- Read the fields of the structure `owner`; `read` reads data of the type of a field. -/
def Definition.fieldsReader? (read : FieldType → Option (Reader Datum)) (owner : String) :
    List Definition.Field → Option (Reader Data)
  | [] => some (return .nil)
  | f :: fields => do
    let first ← read f.type
    let others ← fieldsReader? read owner fields
    return do
      let datum ← first.inField owner f.name
      let data ← others
      return .cons datum data

namespace GeneratedTypes

variable (g : GeneratedTypes)

/-- Read data of a form with no more than `levels` forms around one another; `object` reads the
extension objects in it. -/
def reader? (object : Reader Datum) : (levels : Nat) → Form → Option (Reader Datum)
  | 0, _ => none
  | _ + 1, .scalar s => some (Datum.scalar s <$> s.codec.decode)
  | _ + 1, .enumerated name width => some (Datum.enumerated name <$> Reader.word width)
  | _ + 1, .object => some object
  | levels + 1, .record owner fields => do
    let data ← Definition.fieldsReader?
      (fun type => (g.form? type).bind (reader? object levels)) owner fields
    return Datum.record <$> data
  | levels + 1, .array item => do
    let form ← g.form? item
    let element ← reader? object levels form
    return Datum.ofItems? <$> Reader.array element
  | levels + 1, .nullable target => do
    let form ← g.namedForm? target
    let datum ← reader? object levels form
    return Datum.present <$> datum

/-- Read a structure by its definition; `object` reads the extension objects in it. -/
def structureReader? (object : Reader Datum) (s : Structure) : Option (Reader Datum) := do
  let form ← g.namedForm? s.name
  g.reader? object g.levels form

/-- Read an extension object; `inner` reads the extension objects in its body. A structure without
a definition counts as not registered. -/
def objectReader (inner : Reader Datum) : Reader Datum := do
  let typeId ← NodeId.codec.decode
  let mask ← Reader.byte
  if mask = noBody then return .bodiless typeId
  else if mask = binaryBody then
    match ← Reader.length with
    | none => .fail (.invalidLength nullLength)
    | some count =>
      let span ← Reader.take count
      let s ← Reader.ofExcept (structureOf Registries.extensionObjects typeId)
      match g.structureReader? inner s with
      | none => .fail (.unregisteredType s.name s.encodingId)
      | some body => Datum.holding typeId s <$> Reader.opening (.delimited span body)
  else .fail (.unsupportedBodyMask mask)

/-- Read an extension object whose body may hold further bodies down to `layers` layers. -/
def objectReaderWithin : (layers : Nat) → Reader Datum
  | 0 => g.objectReader (.fail (.nestingTooDeep maxBodyDepth))
  | layers + 1 => g.objectReader (objectReaderWithin layers)

/-- Read a structure by the definitions alone. -/
def decoder? (s : Structure) : Option (Reader Datum) :=
  g.structureReader? (g.objectReaderWithin maxBodyDepth) s

/-- What the definitions alone write for data of a structure. -/
def encode? (s : Structure) (datum : Datum) : Option Encoding := do
  let form ← g.namedForm? s.name
  datum.encode? g form

end GeneratedTypes

end OpcWire
