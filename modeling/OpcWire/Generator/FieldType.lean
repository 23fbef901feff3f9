import OpcWire.Dictionary.Basic
import OpcWire.Generator.Error
import OpcWire.Naming

/-!
# Types of generated fields

`FieldType.ofField` finds the type of a field of the dictionary:

* a field called `AttributeId` always holds an attribute identifier;
* the name of a simple built-in type stands for that type;
* a name of the dictionary stands for an enumeration, held by value, or for a structure, held
  by a nullable reference;
* a name known beforehand stands for a structured built-in type, also held by reference;
* an array field is a sequence of what its type name stands for.
-/

namespace OpcWire

/-- A simple built-in type. -/
inductive Builtin
  /-- Truth values. -/
  | boolean
  /-- Unsigned 8-bit integers. -/
  | byte
  /-- Signed 8-bit integers. -/
  | sByte
  /-- Signed 16-bit integers. -/
  | int16
  /-- Signed 32-bit integers. -/
  | int32
  /-- Signed 64-bit integers. -/
  | int64
  /-- Unsigned 16-bit integers. -/
  | uint16
  /-- Unsigned 32-bit integers. -/
  | uint32
  /-- Unsigned 64-bit integers. -/
  | uint64
  /-- 32-bit floating-point numbers. -/
  | float
  /-- 64-bit floating-point numbers. -/
  | double
  /-- Strings. -/
  | string
  /-- Timestamps. -/
  | dateTime
  /-- Byte strings. -/
  | byteString
  /-- Status codes. -/
  | statusCode
  /-- Globally unique identifiers. -/
  | guid
  deriving DecidableEq, Repr

namespace Builtin

/-- All simple built-in types. -/
def all : List Builtin :=
  [ .boolean, .byte, .sByte, .int16, .int32, .int64, .uint16, .uint32, .uint64, .float, .double,
    .string, .dateTime, .byteString, .statusCode, .guid ]

/-- Qualified name of a type in dictionaries. -/
def typeName : Builtin → String
  | boolean => "opc:Boolean"
  | byte => "opc:Byte"
  | sByte => "opc:SByte"
  | int16 => "opc:Int16"
  | int32 => "opc:Int32"
  | int64 => "opc:Int64"
  | uint16 => "opc:UInt16"
  | uint32 => "opc:UInt32"
  | uint64 => "opc:UInt64"
  | float => "opc:Float"
  | double => "opc:Double"
  | string => "opc:String"
  | dateTime => "opc:DateTime"
  | byteString => "opc:ByteString"
  | statusCode => "ua:StatusCode"
  | guid => "opc:Guid"

/-- The type with a qualified name. -/
def ofTypeName? (name : String) : Option Builtin := all.find? (·.typeName == name)

/-- Name of a type in generated code. -/
def render : Builtin → String
  | boolean => "bool"
  | byte => "u8"
  | sByte => "i8"
  | int16 => "i16"
  | int32 => "i32"
  | int64 => "i64"
  | uint16 => "u16"
  | uint32 => "u32"
  | uint64 => "u64"
  | float => "f32"
  | double => "f64"
  | string => "String"
  | dateTime => "DateTime"
  | byteString => "ByteString"
  | statusCode => "StatusCode"
  | guid => "Guid"

end Builtin

/-- The type of a generated field. -/
inductive FieldType
  /-- A simple built-in type. -/
  | builtin (b : Builtin)
  /-- An enumeration, or attribute identifiers, held by value. -/
  | enumeration (name : String)
  /-- A structure or structured built-in type, held by a nullable reference. -/
  | reference (name : String)
  /-- A sequence, which may be null. -/
  | sequence (item : FieldType)
  deriving DecidableEq, Repr, Inhabited

namespace FieldType

/-- A type in generated code. -/
def render : FieldType → String
  | builtin b => b.render
  | enumeration name => name
  | reference name => "Option<Box<" ++ name ++ ">>"
  | sequence item => "Option<Vec<" ++ item.render ++ ">>"

/-- Whether a type is a reference to the type called `name`, and no sequence. -/
def isReferenceTo (t : FieldType) (name : String) : Bool := t == reference name

/-- Structured built-in types, known beforehand. -/
def knownTypes : List String :=
  [ "NodeId", "ExpandedNodeId", "DiagnosticInfo", "LocalizedText", "QualifiedName",
    "ExtensionObject", "XmlElement" ]

/-- Name of the type of attribute identifiers, and of the fields that always have it. -/
def attributeIdName : String := "AttributeId"

/-- The types of the dictionary that fields may refer to. -/
structure Scope where
  /-- Names of the enumerations. -/
  enumerations : List String
  /-- Names of the structures. -/
  structures : List String
  deriving DecidableEq, Repr

/-- Whether two names are equal up to the case of ASCII letters. -/
def equalIgnoringCase (a b : String) : Bool := a.map Char.toLower == b.map Char.toLower

/-- The type that a qualified name stands for. -/
def ofTypeName? (scope : Scope) (typeName : String) : Option FieldType :=
  match Builtin.ofTypeName? typeName with
  | some b => some (builtin b)
  | none =>
    match Naming.dropStart? "tns:" typeName, Naming.dropStart? "ua:" typeName with
    | some name, _ =>
      if scope.enumerations.contains name then some (enumeration name)
      else if scope.structures.contains name then some (reference name)
      else none
    | none, some name => if knownTypes.contains name then some (reference name) else none
    | none, none => none

/-- The type of a field, or of its elements. -/
def elementOf? (scope : Scope) (f : Dictionary.Field) : Option FieldType :=
  if equalIgnoringCase f.name attributeIdName then some (enumeration attributeIdName)
  else ofTypeName? scope f.typeName

/-- The type of a field of the structure `owner`. -/
def ofField (scope : Scope) (owner : String) (f : Dictionary.Field) :
    Except GenerateError FieldType :=
  match elementOf? scope f with
  | none => .error (.unknownFieldType owner f.name f.typeName)
  | some t => .ok (if f.isArray then sequence t else t)

end FieldType

end OpcWire
