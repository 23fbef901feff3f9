import OpcWire.Text.Decimal

/-!
# What can go wrong in generation

`GenerateError` lists the causes for which no definitions are generated from a dictionary and an
identifier table, and `GenerateError.message` gives their wording. `LineFault` is what can be
wrong with one line of a table.
-/

namespace OpcWire

/-- What is wrong with a line of an identifier table. -/
inductive LineFault
  /-- The line does not have three columns. -/
  | columns (count : Nat)
  /-- The name is empty. -/
  | emptyName
  /-- The identifier is no unsigned 32-bit number. -/
  | invalidId (text : String) (refusal : Decimal.Refusal)
  /-- An earlier line has the same name. -/
  | duplicateName (name : String)
  deriving DecidableEq, Repr

/-- The wording of a fault. -/
def LineFault.message : LineFault → String
  | columns count => s!"expected 3 columns, found {count}"
  | emptyName => "empty name"
  | invalidId text refusal => s!"invalid id '" ++ text ++ "': " ++ refusal.message
  | duplicateName name => "duplicate name '" ++ name ++ "'"

/-- Why nothing is generated. -/
inductive GenerateError
  /-- The text of the dictionary cannot be read. -/
  | unreadableDictionary
  /-- Two types have the same name. -/
  | duplicateType (name : String)
  /-- A structure extends a type that the dictionary does not define. -/
  | unresolvedBase (typeName base : String)
  /-- Following the base types leads back to a type. -/
  | baseCycle (typeName : String)
  /-- The type of a field is not known. -/
  | unknownFieldType (typeName field fieldType : String)
  /-- Two fields of a structure have the same identifier. -/
  | duplicateField (typeName ident : String)
  /-- No integer type has the width of an enumerated type. -/
  | unsupportedEnumWidth (name : String) (bits : Nat)
  /-- A member's value is not one of the integer type of its enumerated type. -/
  | enumValueOutOfRange (name member : String) (value : Int) (repr : String)
  /-- Two members of an enumerated type have the same constant. -/
  | duplicateEnumMember (name constant : String)
  /-- A line of the identifier table is faulty. -/
  | invalidIdTable (line : Nat) (fault : LineFault)
  /-- Two names of the identifier table have the same constant. -/
  | identifierCollision (first second ident : String)
  /-- A structure has no identifier in the table. -/
  | missingIdentifier (name : String)
  /-- Two structures have the same identifier. -/
  | duplicateIdentifier (id : UInt32) (first second : String)
  deriving DecidableEq, Repr

/-- The wording of an error. -/
def GenerateError.message : GenerateError → String
  | unreadableDictionary => "failed to read type dictionary"
  | duplicateType name => "type '" ++ name ++ "' is defined more than once"
  | unresolvedBase typeName base =>
    "base type '" ++ base ++ "' of '" ++ typeName ++ "' is not defined in the dictionary"
  | baseCycle typeName => "base type chain of '" ++ typeName ++ "' is cyclic"
  | unknownFieldType typeName field fieldType =>
    "field '" ++ typeName ++ "." ++ field ++ "' has unknown type '" ++ fieldType ++ "'"
  | duplicateField typeName ident =>
    "fields of '" ++ typeName ++ "' collide on identifier '" ++ ident ++ "'"
  | unsupportedEnumWidth name bits =>
    "enum '" ++ name ++ s!"' declares unsupported width of {bits} bits"
  | enumValueOutOfRange name member value repr =>
    s!"value {value} of '" ++ name ++ "." ++ member ++ "' does not fit in " ++ repr
  | duplicateEnumMember name constant =>
    "members of enum '" ++ name ++ "' collide on constant '" ++ constant ++ "'"
  | invalidIdTable line fault => s!"invalid identifier table at line {line}: " ++ fault.message
  | identifierCollision first second ident =>
    "identifier names '" ++ first ++ "' and '" ++ second ++ "' both map to constant " ++ ident
  | missingIdentifier name => "identifier table has no entry '" ++ name ++ "'"
  | duplicateIdentifier id first second =>
    s!"identifier {id} is assigned to both '" ++ first ++ "' and '" ++ second ++ "'"

end OpcWire
