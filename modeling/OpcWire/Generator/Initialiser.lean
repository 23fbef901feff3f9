import OpcWire.Generator.Run
import OpcWire.Registry
import OpcWire.Source.Reading

/-!
# Running generated initialisers

The functions that register generated types, run on a registry as their texts say
(`GeneratedFiles.runInitialiser`). A call needs its type to be the body of an extension object and
its constant to be defined once, or the generated code would not compile; and the registry must take
the type under the number of the constant. Types go by their names here.
-/

namespace OpcWire

/-- Why an initialiser fails. -/
inductive InitialiserError
  /-- The text has no such function, or it does not just make calls. -/
  | unreadable (function : String)
  /-- A type is not the body of an extension object. -/
  | undefinedType (typeName : String)
  /-- A constant is not defined exactly once. -/
  | undefinedConstant (name : String)
  /-- The registry refuses a type. -/
  | refused (cause : RegistryError)
  deriving DecidableEq, Repr

namespace GeneratedFiles

variable (files : GeneratedFiles)

/-- The constants of the identifier table. -/
def constants : List Source.Constant := (files.identifiers.map Source.constants).getD []

/-- The number of a constant that is defined exactly once. -/
def number? (name : String) : Option UInt32 :=
  match files.constants.filter (·.name == name) with
  | [c] => some c.number
  | _ => none

/-- The bodies of extension objects, with the constants of their encodings. -/
def encodingConstants : List (String × String) :=
  Source.encodingConstants (Text.lines files.objects)

/-- Make a call. -/
def call (c : Source.Call) (r : TypeRegistry String) :
    Except InitialiserError (TypeRegistry String) :=
  if c.typeName ∈ files.encodingConstants.map Prod.fst then
    match files.number? c.constant with
    | some number => (r.register number c.name c.typeName).mapError .refused
    | none => .error (.undefinedConstant c.constant)
  else .error (.undefinedType c.typeName)

/-- Run the function `function` of a text. -/
def runInitialiser (function text : String) (r : TypeRegistry String) :
    Except InitialiserError (TypeRegistry String) :=
  match Source.calls? function text with
  | some calls => calls.foldlM (fun r c => files.call c r) r
  | none => .error (.unreadable function)

end GeneratedFiles

end OpcWire
