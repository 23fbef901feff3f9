import OpcWire.Generator.Hierarchy
import OpcWire.Value.Encode

/-!
# Zero values in generated code

In the zero value of a generated structure every reference is absent and every sequence is null.
A reference that is absent is written as the zero value of the structure it refers to, which is
made for this purpose, and whose own references are absent and written in the same way. A
sequence ends there: null is written for it, whatever its elements are.

`GeneratedTypes.zeroEncoding?` writes zero values, given how many structures may be written inside
each other. It does not know beforehand whether any number of them is enough.

In generated code a name stands for a structure, if there is one of that name, for an enumeration
of the dictionary, or for a type that is known beforehand, in this order.
-/

namespace OpcWire

/-- The wire form of a simple built-in type. -/
def Builtin.scalar : Builtin → Scalar
  | boolean => .boolean
  | byte => .byte
  | sByte => .sByte
  | int16 => .int16
  | int32 => .int32
  | int64 => .int64
  | uint16 => .uint16
  | uint32 => .uint32
  | uint64 => .uint64
  | float => .float
  | double => .double
  | string => .string
  | dateTime => .dateTime
  | byteString => .byteString
  | statusCode => .statusCode
  | guid => .guid

namespace FieldType

/-- The wire forms of the types that are known beforehand. -/
def knownWireTypes : List (String × WireType) :=
  [ ("NodeId", .scalar .nodeId), ("ExpandedNodeId", .scalar .expandedNodeId),
    ("DiagnosticInfo", .scalar .diagnosticInfo), ("LocalizedText", .scalar .localizedText),
    ("QualifiedName", .scalar .qualifiedName), ("ExtensionObject", .extensionObject),
    ("XmlElement", .scalar .xmlElement), (attributeIdName, .scalar .attributeId) ]

/-- The name of the type that a field holds or refers to; none for a simple built-in type and for
a sequence, which holds no element. -/
def target? : FieldType → Option String
  | builtin _ => none
  | enumeration name => some name
  | reference name => some name
  | sequence _ => none

/-- What is written for the zero value of a field; `named` writes that of a type by its name. -/
def zeroEncoding? (named : String → Option Encoding) : FieldType → Option Encoding
  | builtin b => some (WireType.scalar b.scalar).zeroEncoding
  | enumeration name => named name
  | reference name => named name
  | sequence _ => some (.array none)

end FieldType

/-- What is written for the member zero of an enumerated type. An enumerated type too wide for all
integer types has no definition. -/
def Dictionary.EnumeratedType.zeroEncoding (e : EnumeratedType) : Encoding :=
  .word ((EnumRepr.ofBits? e.lengthInBits).elim 0 (·.width / 8)) 0

/-- What is written for the zero values of fields of the structure `owner`. -/
def Definition.zeroFields? (named : String → Option Encoding) (owner : String) :
    List Field → Option Encoding
  | [] => some .empty
  | f :: rest => do
    let first ← f.type.zeroEncoding? named
    let others ← zeroFields? named owner rest
    return first.inField owner f.name ++ others

/-- The types that are generated from a dictionary. -/
structure GeneratedTypes where
  /-- The enumerated types. -/
  enumerations : List Dictionary.EnumeratedType
  /-- The definitions of the structures. -/
  objects : List Definition

namespace GeneratedTypes

variable (g : GeneratedTypes)

/-- The structure called `name`. -/
def object? (name : String) : Option Definition := g.objects.find? (·.name == name)

/-- What is written for the zero value of a type other than a structure. -/
def plainEncoding? (name : String) : Option Encoding :=
  match g.enumerations.find? (·.name == name) with
  | some e => some e.zeroEncoding
  | none => (FieldType.knownWireTypes.lookup name).map WireType.zeroEncoding

/-- What is written for the zero value of a structure, if no more than `levels` structures are
written inside each other. -/
def zeroEncoding? : (levels : Nat) → Definition → Option Encoding
  | 0, _ => none
  | levels + 1, d =>
    Definition.zeroFields? (fun name =>
      match g.object? name with
      | some inner => zeroEncoding? levels inner
      | none => g.plainEncoding? name) d.name d.fields

/-- What is written for the zero value of a type by its name, if no more than `levels` structures
are written inside each other. -/
def namedZeroEncoding? (levels : Nat) (name : String) : Option Encoding :=
  match g.object? name with
  | some inner => g.zeroEncoding? levels inner
  | none => g.plainEncoding? name

theorem zeroEncoding?_succ (levels : Nat) (d : Definition) :
    g.zeroEncoding? (levels + 1) d =
      Definition.zeroFields? (g.namedZeroEncoding? levels) d.name d.fields := rfl

/-- Writing the zero value of `a` writes that of `b` inside it: a field of `a` that is no sequence
refers to `b`. A field that holds attribute identifiers holds the structure of that name, if there
is one. -/
def Refers (a b : Definition) : Prop :=
  a ∈ g.objects ∧ b ∈ g.objects ∧ ∃ f ∈ a.fields, f.type.target? = some b.name

end GeneratedTypes

end OpcWire
