/-!
# Type dictionaries

A `Dictionary` defines enumerated and structured types by name. Type names are qualified: `opc:`
for the simple built-in types, `ua:` for other types that are known beforehand, and `tns:` for
types of the dictionary itself.
-/

namespace OpcWire

namespace Dictionary

/-- A member of an enumerated type. -/
structure Member where
  /-- Name of the member. -/
  name : String
  /-- Value of the member. -/
  value : Int
  deriving DecidableEq, Repr

/-- An enumerated type. -/
structure EnumeratedType where
  /-- Name of the type. -/
  name : String
  /-- Declared width of the values. -/
  lengthInBits : Nat
  /-- The members in the order of declaration. -/
  members : List Member
  deriving DecidableEq, Repr

/-- A field of a structured type. -/
structure Field where
  /-- Name of the field. -/
  name : String
  /-- Qualified name of the type of the field, or of its elements. -/
  typeName : String
  /-- For an array, the name of the field that holds the number of its elements. -/
  lengthField : Option String
  deriving DecidableEq, Repr

/-- Whether a field is an array. -/
def Field.isArray (f : Field) : Bool := f.lengthField.isSome

/-- A structured type. -/
structure StructuredType where
  /-- Name of the type. -/
  name : String
  /-- Qualified name of the type that this one extends. -/
  baseType : Option String
  /-- The fields in the order of declaration. -/
  fields : List Field
  deriving DecidableEq, Repr

/-- Whether a field only holds the length of an array field of the same structure. Arrays carry
their own length on the wire, so that such a field has no wire form. -/
def StructuredType.isLengthField (s : StructuredType) (f : Field) : Bool :=
  s.fields.any fun g => g.lengthField == some f.name

end Dictionary

/-- The types of one namespace. -/
structure Dictionary where
  /-- URI of the namespace. -/
  targetNamespace : String
  /-- The enumerated types in the order of definition. -/
  enumerations : List Dictionary.EnumeratedType
  /-- The structured types in the order of definition. -/
  structures : List Dictionary.StructuredType
  deriving DecidableEq, Repr

end OpcWire
