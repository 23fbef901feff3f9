import OpcWire.Generator.Definition

/-!
# The hierarchy of structures

A structure may travel in an extension object if its chain of base types ends in one of two
roots. `Dictionary.followBases` follows the chain; `Dictionary.objectDefinitions` turns the members
of the hierarchy into definitions, in the order of the dictionary.

The chain ends outside the hierarchy at a structure without base and at a base outside the
dictionary's namespace that is no root. A base in the namespace that is not defined is an error,
and so is a chain that comes back to a structure. What is found out about a structure is kept in a
`Dictionary.Memo`, so that a chain that joins another one is not followed to its end again.
-/

namespace OpcWire

/-- The two types at the top of the hierarchy, by qualified name. -/
structure HierarchyRoots where
  /-- The first root. -/
  first : String
  /-- The second root. -/
  second : String
  deriving DecidableEq, Repr

namespace HierarchyRoots

/-- The roots of the standard dictionary, which refers to `DataTypeDefinition` without defining
it. -/
def standard : HierarchyRoots := ⟨"ua:ExtensionObject", "tns:DataTypeDefinition"⟩

/-- Whether a qualified name is that of a root. -/
def contains (r : HierarchyRoots) (name : String) : Bool := r.first == name || r.second == name

end HierarchyRoots

namespace Dictionary

/-- Check that structures have names of their own; `taken` holds the names of enumerated types
and of earlier structures. -/
def checkNames (taken : List String) : List StructuredType → Except GenerateError Unit
  | [] => .ok ()
  | s :: rest =>
    if taken.contains s.name then .error (.duplicateType s.name)
    else checkNames (s.name :: taken) rest

variable (d : Dictionary)

/-- Names of the enumerated types. -/
def enumerationNames : List String := d.enumerations.map (·.name)

/-- The structured type called `name`. -/
def structure? (name : String) : Option StructuredType := d.structures.find? (·.name == name)

/-- Where the base of a structure leads. -/
inductive Base
  /-- To a root. -/
  | root
  /-- Out of the hierarchy. -/
  | outside
  /-- To another structure. -/
  | structured (s : StructuredType)
  /-- To the name of a structure that is not defined. -/
  | undefined (name : String)
  deriving DecidableEq, Repr

/-- Where the base of a structure leads. -/
def baseOf (roots : HierarchyRoots) (s : StructuredType) : Base :=
  match s.baseType with
  | none => .outside
  | some base =>
    if roots.contains base then .root
    else match Naming.dropStart? "tns:" base with
      | none => .outside
      | some name =>
        match d.structure? name with
        | none => .undefined base
        | some parent => .structured parent

/-- What has been found out about a structure. -/
inductive Membership
  /-- Its chain is being followed. -/
  | visiting
  /-- Its chain has an end, inside or outside the hierarchy. -/
  | resolved (isMember : Bool)
  deriving DecidableEq, Repr

/-- What has been found out about structures, by name; what was found out last comes first. -/
abbrev Memo := List (String × Membership)

/-- Follow the chain of base types from a structure on, up to one whose membership is known: whether
the structure belongs to the hierarchy, and what is known then. `steps` bounds the number of
structures passed, and no chain without repetition is longer than the number of structures. -/
def followBases (roots : HierarchyRoots) :
    (steps : Nat) → Memo → StructuredType → Except GenerateError (Bool × Memo)
  | 0, _, s => .error (.baseCycle s.name)
  | steps + 1, memo, s =>
    match memo.lookup s.name with
    | some (.resolved isMember) => .ok (isMember, memo)
    | some .visiting => .error (.baseCycle s.name)
    | none =>
      let memo := (s.name, .visiting) :: memo
      match d.baseOf roots s with
      | .root => .ok (true, (s.name, .resolved true) :: memo)
      | .outside => .ok (false, (s.name, .resolved false) :: memo)
      | .undefined base => .error (.unresolvedBase s.name base)
      | .structured parent => do
        let (isMember, memo) ← followBases roots steps memo parent
        return (isMember, (s.name, .resolved isMember) :: memo)

/-- The members of the hierarchy among structures, given what is known from earlier ones. -/
def membersAmong (roots : HierarchyRoots) :
    Memo → List StructuredType → Except GenerateError (List StructuredType)
  | _, [] => .ok []
  | memo, s :: rest => do
    let (isMember, memo) ← d.followBases roots (d.structures.length + 1) memo s
    let others ← membersAmong roots memo rest
    return if isMember then s :: others else others

/-- The definitions of fields of the structure `owner`; `taken` holds the identifiers of earlier
fields. -/
def fieldDefinitions (scope : FieldType.Scope) (owner : String) (taken : List String) :
    List Field → Except GenerateError (List Definition.Field)
  | [] => .ok []
  | f :: rest =>
    let ident := Naming.fieldIdent f.name
    if taken.contains ident then .error (.duplicateField owner ident)
    else do
      let type ← FieldType.ofField scope owner f
      let others ← fieldDefinitions scope owner (ident :: taken) rest
      return ⟨f.name, ident, type⟩ :: others

/-- The fields of a structure that have a wire form. -/
def StructuredType.dataFields (s : StructuredType) : List Field :=
  s.fields.filter fun f => !s.isLengthField f

/-- The definition of a member of the hierarchy. -/
def StructuredType.definition (scope : FieldType.Scope) (s : StructuredType) :
    Except GenerateError Definition := do
  let fields ← fieldDefinitions scope s.name [] s.dataFields
  return {
    name := s.name
    kind := .object
    repr := none
    base := s.baseType.map Naming.stripNamespace
    fields
    members := [] }

/-- The definitions of the members of the hierarchy, in the order of definition. -/
def objectDefinitions (roots : HierarchyRoots) : Except GenerateError (List Definition) := do
  checkNames d.enumerationNames d.structures
  let members ← d.membersAmong roots [] d.structures
  let scope : FieldType.Scope := ⟨d.enumerationNames, members.map (·.name)⟩
  members.mapM (·.definition scope)

end Dictionary

end OpcWire
