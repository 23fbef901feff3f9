import OpcWire.Message
import OpcWire.Proofs.Scalar
import OpcWire.Proofs.Wire.PrefixCode

/-!
# Values and messages as prefix codes

The readers of all types are prefix codes if the reader of extension objects is one, by induction
on the type, and every layer of that reader is one if the layer inside it is. That the registry
is asked only after the whole body is there, and the body looked into only after that, makes
`objectReader` one.
-/

namespace OpcWire

namespace Reader

theorem prefixCode_ofExcept {α : Type} (result : Except CodecError α) :
    (ofExcept result).PrefixCode := by
  cases result with
  | ok a => exact prefixCode_pure
  | error cause => exact prefixCode_fail

end Reader

variable {object : Reader (Value .extensionObject)}

mutual

theorem WireType.prefixCode_decodeWith (hobject : object.PrefixCode) :
    (t : WireType) → (t.decodeWith object).PrefixCode
  | .scalar s => s.lawful_codec.prefixCode.map
  | .extensionObject => hobject
  | .record name l => (l.prefixCode_decodeWith hobject name).map
  | .array t => (t.prefixCode_decodeWith hobject).array.map
  | .nullable t => (t.prefixCode_decodeWith hobject).map

theorem Layout.prefixCode_decodeWith (hobject : object.PrefixCode) (owner : String) :
    (l : Layout) → (l.decodeWith object owner).PrefixCode
  | .nil => Reader.prefixCode_pure
  | .cons _ t rest => (t.prefixCode_decodeWith hobject).inField.bind fun _ =>
      (rest.prefixCode_decodeWith hobject owner).bind fun _ => Reader.prefixCode_pure

end

theorem prefixCode_objectReader {inner : Reader (Value .extensionObject)}
    (hinner : inner.PrefixCode) : (objectReader inner).PrefixCode := by
  refine NodeId.lawful_codec.prefixCode.bind fun typeId => ?_
  refine Reader.prefixCode_byte.bind fun mask => ?_
  refine Reader.prefixCode_pure.ite (Reader.PrefixCode.ite ?_ Reader.prefixCode_fail)
  refine Reader.prefixCode_length.bind fun count => ?_
  cases count with
  | none => exact Reader.prefixCode_fail
  | some count =>
    refine Reader.prefixCode_take.bind fun span => ?_
    refine (Reader.prefixCode_ofExcept _).bind fun s => ?_
    exact (s.wireType.prefixCode_decodeWith hinner).delimited.opening.map

/-- **Extension objects are a prefix code**, however many layers of bodies are followed. -/
theorem prefixCode_decodeObjectWithin (layers : Nat) :
    (decodeObjectWithin layers).PrefixCode := by
  induction layers with
  | zero => exact prefixCode_objectReader Reader.prefixCode_fail
  | succ layers ih => exact prefixCode_objectReader ih

/-- **Values of every type are a prefix code.** -/
theorem WireType.prefixCode_decode (t : WireType) : t.decode.PrefixCode :=
  t.prefixCode_decodeWith (prefixCode_decodeObjectWithin maxBodyDepth)

/-- **Messages are a prefix code.** -/
theorem prefixCode_decodeMessage : decodeMessage.PrefixCode := by
  refine NodeId.lawful_codec.prefixCode.bind fun typeId => ?_
  refine (Reader.prefixCode_ofExcept _).bind fun s => ?_
  exact s.wireType.prefixCode_decode.opening.map

end OpcWire
