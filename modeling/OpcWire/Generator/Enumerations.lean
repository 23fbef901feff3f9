import OpcWire.Generator.Definition

/-!
# Generated enumerations

`Dictionary.enumerationDefinitions` turns each enumerated type into a definition. Values are kept
as they are declared: a value outside the chosen integer type is an error, as are two types of
one name and two members with one constant.
-/

namespace OpcWire

namespace Dictionary

/-- The members of the enumerated type `owner` with integer type `repr`; `taken` holds the
constants of earlier members. -/
def memberDefinitions (owner : String) (repr : EnumRepr) (taken : List String) :
    List Member → Except GenerateError (List Definition.Member)
  | [] => .ok []
  | m :: rest =>
    let ident := Naming.constIdent m.name
    if m.value < 0 ∨ (repr.maxValue : Int) < m.value then
      .error (.enumValueOutOfRange owner m.name m.value repr.render)
    else if taken.contains ident then .error (.duplicateEnumMember owner ident)
    else do
      let others ← memberDefinitions owner repr (ident :: taken) rest
      return ⟨ident, m.name, m.value⟩ :: others

/-- The definition of an enumerated type. -/
def EnumeratedType.definition (e : EnumeratedType) : Except GenerateError Definition :=
  match EnumRepr.ofBits? e.lengthInBits with
  | none => .error (.unsupportedEnumWidth e.name e.lengthInBits)
  | some repr => do
    let members ← memberDefinitions e.name repr [] e.members
    return {
      name := e.name
      kind := .enumeration
      repr := some repr
      base := none
      fields := []
      members }

/-- The definitions of enumerated types; `taken` holds the names of earlier ones. -/
def enumerationDefinitionsFrom (taken : List String) :
    List EnumeratedType → Except GenerateError (List Definition)
  | [] => .ok []
  | e :: rest =>
    if taken.contains e.name then .error (.duplicateType e.name)
    else do
      let definition ← e.definition
      let others ← enumerationDefinitionsFrom (e.name :: taken) rest
      return definition :: others

/-- The definitions of the enumerated types of a dictionary, in the order of definition. -/
def enumerationDefinitions (d : Dictionary) : Except GenerateError (List Definition) :=
  enumerationDefinitionsFrom [] d.enumerations

end Dictionary

end OpcWire
