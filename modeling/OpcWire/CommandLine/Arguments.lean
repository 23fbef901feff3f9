import OpcWire.Generator.Run
import OpcWire.Text.Blank

/-!
# Arguments of the command line

The generator takes four options, each with a value: `--in` and `--ids` name the files to read,
`--out` the directory to write to, and `--prelude` the module that the generated files use. The
value follows as an argument of its own or after an equals sign. `Arguments.parse` gives the
options, or the first reason to refuse the arguments.

An option is settled only when the next one begins or the arguments end, so a fault in its value
comes after one in the form of the argument that follows.
-/

namespace OpcWire

namespace Arguments

/-- The options of the command line. -/
inductive OptionName
  /-- The dictionary to read. -/
  | dictionary
  /-- The identifier table to read. -/
  | identifiers
  /-- The directory to write to. -/
  | directory
  /-- The module that the generated files use. -/
  | usedModule
  deriving DecidableEq, Repr

namespace OptionName

/-- The word for an option. -/
def word : OptionName → String
  | dictionary => "in"
  | identifiers => "ids"
  | directory => "out"
  | usedModule => "prelude"

/-- All options. -/
def all : List OptionName := [dictionary, identifiers, directory, usedModule]

/-- The option that a word stands for. -/
def ofWord? (word : String) : Option OptionName := all.find? (·.word == word)

/-- Whether the value is a path, which is never empty. -/
def isPath : OptionName → Bool
  | usedModule => false
  | _ => true

end OptionName

/-- Why arguments are refused. -/
inductive Refusal
  /-- They ask for help. -/
  | helpWanted
  /-- An argument is no option, or an option that does not exist. -/
  | unknownArgument
  /-- An option has no value, or an empty one for a path. -/
  | invalidValue
  /-- An option is given twice. -/
  | repeatedOption
  /-- There is a value for an option that takes none. -/
  | unwantedValue
  deriving DecidableEq, Repr

/-- The form of an argument. -/
inductive Form
  /-- Two hyphens: no options follow. -/
  | endOfOptions
  /-- A word after two hyphens, and what follows the first equals sign. -/
  | word (word : String) (value : Option String)
  /-- Letters after a hyphen. -/
  | letters (first : Char)
  /-- Anything else. -/
  | plain
  deriving DecidableEq, Repr

/-- The form of an argument. -/
def formOf (argument : String) : Form :=
  match argument.toList with
  | ['-', '-'] => .endOfOptions
  | '-' :: '-' :: rest =>
    match Text.splitAt '=' rest with
    | _ :: _ :: _ =>
      .word (String.ofList (rest.takeWhile (· != '=')))
        (some (String.ofList ((rest.dropWhile (· != '=')).drop 1)))
    | _ => .word (String.ofList rest) none
  | '-' :: first :: _ => .letters first
  | _ => .plain

/-- What is known when some of the arguments have been seen. -/
structure Progress where
  /-- Settled options with their values. -/
  settled : List (OptionName × String)
  /-- An option that is not settled, and its value if it has one. -/
  pending : Option (OptionName × Option String)
  /-- Whether no options follow. -/
  optionsEnded : Bool
  deriving DecidableEq, Repr

namespace Progress

/-- Nothing has been seen. -/
def start : Progress := ⟨[], none, false⟩

/-- Give an option its value. -/
def assign (p : Progress) (option : OptionName) (value : String) : Except Refusal Progress :=
  if (p.settled.lookup option).isSome then .error .repeatedOption
  else if option.isPath && value.isEmpty then .error .invalidValue
  else .ok { p with settled := (option, value) :: p.settled }

/-- Settle the option that is not settled. -/
def settle (p : Progress) : Except Refusal Progress :=
  match p.pending with
  | none => .ok p
  | some (_, none) => .error .invalidValue
  | some (option, some value) => { p with pending := none }.assign option value

/-- See one more argument. -/
def see (p : Progress) (argument : String) : Except Refusal Progress :=
  if p.optionsEnded then .error .unknownArgument
  else match formOf argument with
    | .endOfOptions => .ok { p with optionsEnded := true }
    | .word "help" none => p.settle >>= fun _ => .error .helpWanted
    | .word "help" (some _) => .error .unwantedValue
    | .word word value =>
      match OptionName.ofWord? word with
      | none => .error .unknownArgument
      | some option => do
        let p ← p.settle
        match value with
        | some value => p.assign option value
        | none => return { p with pending := some (option, none) }
    | .letters 'h' => p.settle >>= fun _ => .error .helpWanted
    | .letters _ => .error .unknownArgument
    | .plain =>
      match p.pending with
      | some (option, none) => .ok { p with pending := some (option, some argument) }
      | _ => .error .unknownArgument

end Progress

/-- What the command line asks for. -/
structure Request where
  /-- The file of the dictionary. -/
  dictionary : String
  /-- The file of the identifier table, if there is one. -/
  identifiers : Option String
  /-- The directory of the generated files. -/
  directory : String
  /-- The module that the generated files use. -/
  usedModule : String
  deriving DecidableEq, Repr

/-- The request that settled options make; each option but the table has a standard value. -/
def requestOf (settled : List (OptionName × String)) : Request where
  dictionary := (settled.lookup .dictionary).getD "schema/Opc.Ua.Types.json"
  identifiers := settled.lookup .identifiers
  directory := (settled.lookup .directory).getD "src/gen"
  usedModule := (settled.lookup .usedModule).getD GenerateOptions.standardPrelude

/-- What arguments ask for. -/
def parse (arguments : List String) : Except Refusal Request := do
  let p ← arguments.foldlM Progress.see .start
  let p ← p.settle
  return requestOf p.settled

end Arguments

end OpcWire
