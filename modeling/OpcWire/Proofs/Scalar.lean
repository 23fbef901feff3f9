import OpcWire.Proofs.Builtin.DiagnosticInfo
import OpcWire.Proofs.Builtin.NodeId
import OpcWire.Scalar

/-!
# Codecs of scalar types

Of all scalar values only diagnostics have a limit: `Scalar.diagnosticDepth` is the number of
inner levels of diagnostics and zero for values of every other type, and `Scalar.lawful_codec`
says that a scalar type reads what it writes up to that limit.
-/

namespace OpcWire

namespace Scalar

/-- Number of inner levels of diagnostics in a scalar value. -/
def diagnosticDepth : (s : Scalar) → s.Carrier → Nat
  | diagnosticInfo, x => x.depth
  | _, _ => 0

/-- A scalar value is within the limits of the reader. -/
def Fits (s : Scalar) (v : s.Carrier) : Prop := s.diagnosticDepth v ≤ DiagnosticInfo.maxDepth

theorem lawful_of_unlimited (s : Scalar) (h : s.codec.Lawful fun _ => True)
    (hdepth : ∀ v, s.diagnosticDepth v = 0) : s.codec.Lawful s.Fits :=
  h.congr fun v => by simp only [Fits, hdepth v, Nat.zero_le]

/-- **Every scalar type reads what it writes.** -/
theorem lawful_codec (s : Scalar) : s.codec.Lawful s.Fits := by
  cases s with
  | boolean => exact lawful_of_unlimited .boolean Codec.lawful_boolean fun _ => rfl
  | byte => exact lawful_of_unlimited .byte Codec.lawful_uint8 fun _ => rfl
  | sByte => exact lawful_of_unlimited .sByte Codec.lawful_int8 fun _ => rfl
  | int16 => exact lawful_of_unlimited .int16 Codec.lawful_int16 fun _ => rfl
  | uint16 => exact lawful_of_unlimited .uint16 Codec.lawful_uint16 fun _ => rfl
  | int32 => exact lawful_of_unlimited .int32 Codec.lawful_int32 fun _ => rfl
  | uint32 => exact lawful_of_unlimited .uint32 Codec.lawful_uint32 fun _ => rfl
  | int64 => exact lawful_of_unlimited .int64 Codec.lawful_int64 fun _ => rfl
  | uint64 => exact lawful_of_unlimited .uint64 Codec.lawful_uint64 fun _ => rfl
  | float => exact lawful_of_unlimited .float Binary32.lawful_codec fun _ => rfl
  | double => exact lawful_of_unlimited .double Binary64.lawful_codec fun _ => rfl
  | string => exact lawful_of_unlimited .string Codec.lawful_string fun _ => rfl
  | dateTime => exact lawful_of_unlimited .dateTime DateTime.lawful_codec fun _ => rfl
  | guid => exact lawful_of_unlimited .guid Guid.lawful_codec fun _ => rfl
  | byteString => exact lawful_of_unlimited .byteString ByteString.lawful_codec fun _ => rfl
  | xmlElement => exact lawful_of_unlimited .xmlElement XmlElement.lawful_codec fun _ => rfl
  | nodeId => exact lawful_of_unlimited .nodeId NodeId.lawful_codec fun _ => rfl
  | expandedNodeId =>
    exact lawful_of_unlimited .expandedNodeId ExpandedNodeId.lawful_codec fun _ => rfl
  | statusCode => exact lawful_of_unlimited .statusCode StatusCode.lawful_codec fun _ => rfl
  | qualifiedName =>
    exact lawful_of_unlimited .qualifiedName QualifiedName.lawful_codec fun _ => rfl
  | localizedText =>
    exact lawful_of_unlimited .localizedText LocalizedText.lawful_codec fun _ => rfl
  | diagnosticInfo => exact DiagnosticInfo.lawful_codec
  | attributeId => exact lawful_of_unlimited .attributeId AttributeId.lawful_codec fun _ => rfl
  | enumeration e => exact lawful_of_unlimited (.enumeration e) Codec.lawful_uint32 fun _ => rfl

theorem fits_zero (s : Scalar) : s.Fits s.codec.zero := by
  cases s <;> exact Nat.zero_le _

end Scalar

end OpcWire
