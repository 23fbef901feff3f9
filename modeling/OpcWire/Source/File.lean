import OpcWire.Generator.Error
import OpcWire.IdTable.Basic
import OpcWire.Source.Enumeration
import OpcWire.Source.Object

/-!
# Generated files

The texts of the generated files: enumerations, structures, the two functions that register
structures under the numbers of their encodings, and the constants of an identifier table.
-/

namespace OpcWire

/-- The lines of a definition. -/
def Definition.lines (d : Definition) : List String :=
  match d.kind with
  | .enumeration => d.enumerationLines
  | .object => d.objectLines

namespace Source

/-- The text of definitions one after the other. -/
def definitions (ds : List Definition) : String := render (ds.flatMap Definition.lines)

/-- The file of the enumerations. -/
def enumerationFile (prelude : String) (ds : List Definition) : String :=
  render (header (some prelude) ++ ds.flatMap Definition.lines)

/-- The file of the structures. -/
def objectFile (prelude : String) (ds : List Definition) : String :=
  render (header (some prelude) ++ messageCapabilityLines ++ ds.flatMap Definition.lines)

/-! ### Registration -/

/-- The line that registers a structure. -/
def registrationLine (d : Definition) : String :=
  "registry.register::<" ++ d.name ++ ">(id::" ++ d.encodingConstant ++ ", " ++ quote d.name ++
    ")?;"

/-- The file of the function `function` that registers structures. -/
def registrationFile (prelude function description : String) (ds : List Definition) : String :=
  render (header (some prelude) ++ ["", "/// " ++ description] ++
    block ("pub fn " ++ function ++ "(registry: &mut TypeRegistry) -> Result<(), RegistryError>")
      (ds.map registrationLine ++ ["Ok(())"]))

/-- The file that registers every structure. -/
def objectRegistrationFile (prelude : String) (ds : List Definition) : String :=
  registrationFile prelude "register_extension_objects"
    "Register every generated extension object under its binary encoding identifier." ds

/-- The file that registers the service messages. -/
def serviceRegistrationFile (prelude : String) (ds : List Definition) : String :=
  registrationFile prelude "register_services"
    "Register every service message under its binary encoding identifier."
    (ds.filter (·.isService))

/-! ### Identifiers -/

/-- The lines of an entry of an identifier table. -/
def identifierLines (e : IdEntry) : List String :=
  ["/// `" ++ e.name ++ "` (" ++ e.kind ++ ").",
    "pub const " ++ Naming.constIdent e.name ++ s!": u32 = {e.id};"]

/-- Check that entries have constants of their own; `earlier` holds the constants of the entries
before them with the names of these. -/
def checkConstants (earlier : List (String × String)) : List IdEntry → Except GenerateError Unit
  | [] => .ok ()
  | e :: rest =>
    let ident := Naming.constIdent e.name
    match earlier.lookup ident with
    | some first => .error (.identifierCollision first e.name ident)
    | none => checkConstants ((ident, e.name) :: earlier) rest

/-- The file of the constants of an identifier table. -/
def identifierFile (t : IdTable) : Except GenerateError String := do
  checkConstants [] t.entries
  return render (header none ++ [""] ++ t.entries.flatMap identifierLines)

end Source

end OpcWire
