import OpcWire.Generator.Enumerations
import OpcWire.Generator.Hierarchy
import OpcWire.Source.File

/-!
# A run of the generator

`Dictionary.generate` makes all generated files from a dictionary and, if one is given, an
identifier table. With a table, each structure must have a number of its own in it
(`IdTable.validate`), so that the generated registration cannot fail.
-/

namespace OpcWire

/-- Check that structures have numbers in a table, and each a number of its own; `owners` holds
the numbers of earlier structures with their names. -/
def IdTable.validateFrom (t : IdTable) (owners : List (UInt32 × String)) :
    List Definition → Except GenerateError Unit
  | [] => .ok ()
  | d :: rest =>
    let name := Naming.encodingIdName d.name
    match t.get? name with
    | none => .error (.missingIdentifier name)
    | some id =>
      match owners.lookup id with
      | some first => .error (.duplicateIdentifier id first d.name)
      | none => t.validateFrom ((id, d.name) :: owners) rest

/-- Check that structures have numbers in a table, and each a number of its own. -/
def IdTable.validate (t : IdTable) (ds : List Definition) : Except GenerateError Unit :=
  t.validateFrom [] ds

/-- How a run is to be made. -/
structure GenerateOptions where
  /-- The module that every generated file uses. -/
  prelude : String
  /-- The roots of the hierarchy of structures. -/
  roots : HierarchyRoots
  deriving DecidableEq, Repr

namespace GenerateOptions

/-- The module that is used unless another is given. -/
def standardPrelude : String := "crate::gen_prelude"

/-- The options of the standard dictionary. -/
def standard : GenerateOptions := ⟨standardPrelude, .standard⟩

end GenerateOptions

/-- The texts of the generated files. -/
structure GeneratedFiles where
  /-- The enumerations. -/
  enumerations : String
  /-- The structures. -/
  objects : String
  /-- The registration of the structures. -/
  objectRegistration : String
  /-- The registration of the service messages. -/
  serviceRegistration : String
  /-- The constants of the identifier table, if there is one. -/
  identifiers : Option String
  deriving DecidableEq, Repr

namespace GeneratedFiles

/-- Names of the files with their texts, in the order in which they are written. -/
def toList (f : GeneratedFiles) : List (String × String) :=
  [ ("enums_gen.rs", f.enumerations),
    ("extobjs_gen.rs", f.objects),
    ("register_extobjs_gen.rs", f.objectRegistration),
    ("service_gen.rs", f.serviceRegistration) ] ++
    (f.identifiers.map fun text => ("id_gen.rs", text)).toList

end GeneratedFiles

/-- Make the generated files. -/
def Dictionary.generate (d : Dictionary) (table : Option IdTable) (options : GenerateOptions) :
    Except GenerateError GeneratedFiles := do
  let enumerations ← d.enumerationDefinitions
  let objects ← d.objectDefinitions options.roots
  match table with
  | some t => t.validate objects
  | none => pure ()
  let identifiers ← table.mapM Source.identifierFile
  return {
    enumerations := Source.enumerationFile options.prelude enumerations
    objects := Source.objectFile options.prelude objects
    objectRegistration := Source.objectRegistrationFile options.prelude objects
    serviceRegistration := Source.serviceRegistrationFile options.prelude objects
    identifiers }

end OpcWire
