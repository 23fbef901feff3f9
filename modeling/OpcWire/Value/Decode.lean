import OpcWire.Registry
import OpcWire.Value.Encode
import OpcWire.Value.Equality
import OpcWire.Wire.Reader

/-!
# Reading values

`WireType.decodeWith` follows the type, given a reader for extension objects. What is read never
has an absent reference. `objectReader` reads an extension object, given the reader for the
extension objects inside its body, and `decodeObject` ties the knot: no more than `maxBodyDepth`
bodies can be open at once, so that many layers are enough.
-/

namespace OpcWire

mutual

/-- Read a value of a type; `object` reads the extension objects in it. -/
def WireType.decodeWith (object : Reader (Value .extensionObject)) :
    (t : WireType) → Reader (Value t)
  | .scalar s => Value.scalar <$> s.codec.decode
  | .extensionObject => object
  | .record name l => Value.record <$> l.decodeWith object name
  | .array t => Value.ofItems? <$> Reader.array (t.decodeWith object)
  | .nullable t => Value.present <$> t.decodeWith object

/-- Read the fields of the structure `owner`; `object` reads the extension objects in them. -/
def Layout.decodeWith (object : Reader (Value .extensionObject)) (owner : String) :
    (l : Layout) → Reader (Fields l)
  | .nil => return .nil
  | .cons name t rest => do
    let v ← (t.decodeWith object).inField owner name
    let fields ← rest.decodeWith object owner
    return .cons v fields

end

/-- The structure that a type id selects in one of the registries. -/
def structureOf (registry : Registries → TypeRegistry Structure) (typeId : NodeId) :
    Except CodecError Structure := do
  let some id := typeId.standardNumber? | throw (.nonNumericTypeId typeId.render)
  match Registries.build with
  | .error cause => throw (.registry cause)
  | .ok registries =>
    match (registry registries).structure? id with
    | some s => return s
    | none => throw (.unregisteredType (registry registries).kind id)

/-- Go on with a computed result, or fail with its error. -/
def Reader.ofExcept {α : Type} : Except CodecError α → Reader α
  | .ok a => return a
  | .error cause => .fail cause

/-- Read an extension object; `inner` reads the extension objects in its body. The bytes of the
body are taken before the type id is looked up, and must be used up. -/
def objectReader (inner : Reader (Value .extensionObject)) : Reader (Value .extensionObject) := do
  let typeId ← NodeId.codec.decode
  let mask ← Reader.byte
  if mask = noBody then return .bodiless typeId
  else if mask = binaryBody then
    match ← Reader.length with
    | none => .fail (.invalidLength nullLength)
    | some count =>
      let span ← Reader.take count
      let s ← Reader.ofExcept (structureOf Registries.extensionObjects typeId)
      Value.holding typeId s <$> Reader.opening (.delimited span (s.wireType.decodeWith inner))
  else .fail (.unsupportedBodyMask mask)

/-- Read an extension object whose body may hold further bodies down to `layers` layers. The
innermost reader is out of reach as soon as `layers` is at least the number of bodies that may
still be opened. -/
def decodeObjectWithin : (layers : Nat) → Reader (Value .extensionObject)
  | 0 => objectReader (.fail (.nestingTooDeep maxBodyDepth))
  | layers + 1 => objectReader (decodeObjectWithin layers)

/-- Read an extension object. -/
def decodeObject : Reader (Value .extensionObject) := decodeObjectWithin maxBodyDepth

namespace WireType

/-- Read a value of a type. -/
def decode (t : WireType) : Reader (Value t) := t.decodeWith decodeObject

/-- Writing, reading, zero value and equality of the values of a type. -/
def codec (t : WireType) : Codec (Value t) where
  encode := Value.encode
  decode := t.decode
  zero := .zero t
  same := Value.same

end WireType

end OpcWire
