import OpcWire.Generator.FieldType
import OpcWire.Structure

/-!
# Definitions to be generated

A `Definition` is an enumeration or a structure in the form in which it is written to generated
code: with identifiers, resolved field types and chosen integer types.
-/

namespace OpcWire

/-- What a definition defines. -/
inductive DefinitionKind
  /-- An enumeration. -/
  | enumeration
  /-- A structure that may travel in an extension object. -/
  | object
  deriving DecidableEq, Repr

/-- The unsigned integer type of an enumeration. -/
inductive EnumRepr
  /-- 8 bits. -/
  | bits8
  /-- 16 bits. -/
  | bits16
  /-- 32 bits. -/
  | bits32
  /-- 64 bits. -/
  | bits64
  deriving DecidableEq, Repr

namespace EnumRepr

/-- All integer types, narrowest first. -/
def all : List EnumRepr := [.bits8, .bits16, .bits32, .bits64]

/-- Number of bits. -/
def width : EnumRepr → Nat
  | bits8 => 8
  | bits16 => 16
  | bits32 => 32
  | bits64 => 64

/-- The narrowest type with at least `bits` bits; there is none for zero bits. -/
def ofBits? (bits : Nat) : Option EnumRepr :=
  if bits = 0 then none else all.find? (bits ≤ ·.width)

/-- Greatest value. -/
def maxValue (r : EnumRepr) : Nat := (1 <<< r.width) - 1

/-- Name of the type in generated code. -/
def render (r : EnumRepr) : String := s!"u{r.width}"

end EnumRepr

namespace Definition

/-- A field of a structure. -/
structure Field where
  /-- Name in the dictionary. -/
  name : String
  /-- Identifier in generated code. -/
  ident : String
  /-- Type in generated code. -/
  type : FieldType
  deriving DecidableEq, Repr

/-- A member of an enumeration. -/
structure Member where
  /-- Identifier of the constant in generated code. -/
  ident : String
  /-- Name in the dictionary. -/
  name : String
  /-- Value. -/
  value : Int
  deriving DecidableEq, Repr

end Definition

/-- An enumeration or structure to be generated. -/
structure Definition where
  /-- Name in the dictionary and in generated code. -/
  name : String
  /-- What is defined. -/
  kind : DefinitionKind
  /-- Integer type of an enumeration. -/
  repr : Option EnumRepr
  /-- Name of the type that a structure extends. -/
  base : Option String
  /-- Fields of a structure in the order in which they are written. -/
  fields : List Definition.Field
  /-- Members of an enumeration in the order of declaration. -/
  members : List Definition.Member
  deriving DecidableEq, Repr

namespace Definition

variable (d : Definition)

/-- Whether the first field refers to the type called `header`. -/
def startsWith (header : String) : Bool := d.fields.head?.any (·.type.isReferenceTo header)

/-- Whether this is a request. -/
def isRequest : Bool := d.startsWith "RequestHeader"

/-- Whether this is a response. -/
def isResponse : Bool := d.startsWith "ResponseHeader"

/-- Whether this is a service message. -/
def isService : Bool := Structure.isServiceName d.name

/-- The constant with the number of the binary encoding. -/
def encodingConstant : String := Naming.constIdent (Naming.encodingIdName d.name)

end Definition

end OpcWire
