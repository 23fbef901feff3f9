import OpcWire.Dictionary.Basic
import OpcWire.Json.Document

/-!
# Dictionaries in JSON

`Dictionary.parse?` reads a dictionary from JSON text, and `Dictionary.toJson` gives its document.

Each part of a dictionary is an object with named members, or a list of the same members in a
fixed order whose last ones may be missing. A known member is written at most once; unknown
members of an object are passed over. Members that may be absent are also absent when they are
null, and lists and texts of optional members default to nothing.
-/

namespace OpcWire

namespace Dictionary

/-- The members of an object or list in the order of `names`, each if it is there. -/
def members? (names : List String) : Json → Option (List (Option Json))
  | .object members => do
    guard (members.all (·.1.isSome))
    names.mapM fun name =>
      match members.filter (·.1 == some name) with
      | [] => some none
      | [(_, j)] => some (some j)
      | _ => none
  | .array items =>
    if items.length ≤ names.length then
      some (items.map some ++ List.replicate (names.length - items.length) none)
    else none
  | _ => none

/-- A member that has to be there. -/
def required {α : Type} (read : Json → Option α) : Option Json → Option α
  | none => none
  | some j => read j

/-- A member with a value that stands for it when it is missing. -/
def defaulting {α : Type} (read : Json → Option α) (value : α) : Option Json → Option α
  | none => some value
  | some j => read j

/-- A text, or null. -/
def nullableText? : Json → Option (Option String)
  | .null => some none
  | j => some <$> j.text?

/-- A list of documents of the same kind. -/
def listOf? {α : Type} (read : Json → Option α) (j : Json) : Option (List α) := do
  (← j.items?).mapM read

/-- Read a member of an enumerated type; values are signed 64-bit integers. -/
def Member.ofJson? (j : Json) : Option Member := do
  match ← members? ["name", "value"] j with
  | [name, value] =>
    return {
      name := ← required Json.text? name
      value := ← required (Json.integerIn? Int64.minValue.toInt Int64.maxValue.toInt) value }
  | _ => none

/-- Read an enumerated type; widths are unsigned 32-bit integers. -/
def EnumeratedType.ofJson? (j : Json) : Option EnumeratedType := do
  match ← members? ["name", "lengthInBits", "values"] j with
  | [name, width, values] =>
    return {
      name := ← required Json.text? name
      lengthInBits := (← required (Json.integerIn? 0 0xFFFFFFFF) width).toNat
      members := ← required (listOf? Member.ofJson?) values }
  | _ => none

/-- Read a field. -/
def Field.ofJson? (j : Json) : Option Field := do
  match ← members? ["name", "typeName", "lengthField"] j with
  | [name, typeName, lengthField] =>
    return {
      name := ← required Json.text? name
      typeName := ← required Json.text? typeName
      lengthField := ← defaulting nullableText? none lengthField }
  | _ => none

/-- Read a structured type. -/
def StructuredType.ofJson? (j : Json) : Option StructuredType := do
  match ← members? ["name", "baseType", "fields"] j with
  | [name, baseType, fields] =>
    return {
      name := ← required Json.text? name
      baseType := ← defaulting nullableText? none baseType
      fields := ← defaulting (listOf? Field.ofJson?) [] fields }
  | _ => none

/-- Read a dictionary. -/
def ofJson? (j : Json) : Option Dictionary := do
  match ← members? ["targetNamespace", "enums", "structs"] j with
  | [targetNamespace, enumerations, structures] =>
    return {
      targetNamespace := ← defaulting Json.text? "" targetNamespace
      enumerations := ← defaulting (listOf? EnumeratedType.ofJson?) [] enumerations
      structures := ← defaulting (listOf? StructuredType.ofJson?) [] structures }
  | _ => none

/-- Read a dictionary from JSON text. -/
def parse? (text : String) : Option Dictionary := do
  ofJson? (← Json.parse text)

/-! ### Documents of dictionaries -/

/-- A member of an object, unless it is absent. -/
def optionalMember (name : String) (text : Option String) : List (String × Json) :=
  (text.map fun t => (name, Json.ofText t)).toList

/-- The document of a member of an enumerated type. -/
def Member.toJson (m : Member) : Json :=
  .ofMembers [("name", .ofText m.name), ("value", .ofInt m.value)]

/-- The document of an enumerated type. -/
def EnumeratedType.toJson (e : EnumeratedType) : Json :=
  .ofMembers [("name", .ofText e.name), ("lengthInBits", .ofInt e.lengthInBits),
    ("values", .array (e.members.map Member.toJson))]

/-- The document of a field. -/
def Field.toJson (f : Field) : Json :=
  .ofMembers <| [("name", .ofText f.name), ("typeName", .ofText f.typeName)] ++
    optionalMember "lengthField" f.lengthField

/-- The document of a structured type. -/
def StructuredType.toJson (s : StructuredType) : Json :=
  .ofMembers <| ("name", .ofText s.name) :: optionalMember "baseType" s.baseType ++
    [("fields", .array (s.fields.map Field.toJson))]

/-- The document of a dictionary. -/
def toJson (d : Dictionary) : Json :=
  .ofMembers [("targetNamespace", .ofText d.targetNamespace),
    ("enums", .array (d.enumerations.map EnumeratedType.toJson)),
    ("structs", .array (d.structures.map StructuredType.toJson))]

end Dictionary

end OpcWire
