import OpcWire.Builtin.AttributeId
import OpcWire.Builtin.DateTime
import OpcWire.Builtin.DiagnosticInfo
import OpcWire.Builtin.NodeId
import OpcWire.Enumeration

/-!
# Scalar types

The types whose values hold no other values of the dictionary: the built-in types, except
extension objects, and the enumerations. `Scalar.Carrier` gives the values of each and
`Scalar.codec` how they are written and read.
-/

namespace OpcWire

/-- A built-in type or an enumeration. The values of an enumeration are 32-bit words. -/
inductive Scalar
  | boolean
  | byte
  | sByte
  | int16
  | uint16
  | int32
  | uint32
  | int64
  | uint64
  | float
  | double
  | string
  | dateTime
  | guid
  | byteString
  | xmlElement
  | nodeId
  | expandedNodeId
  | statusCode
  | qualifiedName
  | localizedText
  | diagnosticInfo
  | attributeId
  | enumeration (e : Enumeration)
  deriving DecidableEq, Repr

namespace Scalar

/-- The values of a scalar type. -/
abbrev Carrier : Scalar → Type
  | boolean => Bool
  | byte => UInt8
  | sByte => Int8
  | int16 => Int16
  | uint16 => UInt16
  | int32 => Int32
  | uint32 => UInt32
  | int64 => Int64
  | uint64 => UInt64
  | float => Binary32
  | double => Binary64
  | string => String
  | dateTime => DateTime
  | guid => Guid
  | byteString => ByteString
  | xmlElement => XmlElement
  | nodeId => NodeId
  | expandedNodeId => ExpandedNodeId
  | statusCode => StatusCode
  | qualifiedName => QualifiedName
  | localizedText => LocalizedText
  | diagnosticInfo => DiagnosticInfo
  | attributeId => AttributeId
  | enumeration _ => UInt32

/-- How the values of a scalar type are written and read. -/
def codec : (s : Scalar) → Codec s.Carrier
  | boolean => .boolean
  | byte => .uint8
  | sByte => .int8
  | int16 => .int16
  | uint16 => .uint16
  | int32 => .int32
  | uint32 => .uint32
  | int64 => .int64
  | uint64 => .uint64
  | float => Binary32.codec
  | double => Binary64.codec
  | string => .string
  | dateTime => DateTime.codec
  | guid => Guid.codec
  | byteString => ByteString.codec
  | xmlElement => XmlElement.codec
  | nodeId => NodeId.codec
  | expandedNodeId => ExpandedNodeId.codec
  | statusCode => StatusCode.codec
  | qualifiedName => QualifiedName.codec
  | localizedText => LocalizedText.codec
  | diagnosticInfo => DiagnosticInfo.codec
  | attributeId => AttributeId.codec
  | enumeration _ => .uint32

/-- The order of the values of a scalar type, for the types that have one. -/
def order? : (s : Scalar) → Option (s.Carrier → s.Carrier → Ordering)
  | dateTime => some DateTime.compare
  | guid => some compare
  | byteString => some compare
  | nodeId => some compare
  | attributeId => some compare
  | enumeration _ => some compare
  | _ => none

end Scalar

end OpcWire
