import OpcWire.CommandLine.Run

/-! # The command line of the generator -/

namespace OpcWire

namespace CommandLine

/-- The answer to a request for help. -/
def helpText : String :=
  "Generate type definitions and registries from a type dictionary\n\n" ++
  "  --in <FILE>        type dictionary as JSON [default: schema/Opc.Ua.Types.json]\n" ++
  "  --ids <FILE>       identifier table, lines of name, number and kind\n" ++
  "  --out <DIRECTORY>  directory of the generated files [default: src/gen]\n" ++
  "  --prelude <PATH>   module that every generated file uses [default: crate::gen_prelude]\n" ++
  "  -h, --help         print this text"

/-- The wording of a refusal. -/
def refusalText : Arguments.Refusal → String
  | .helpWanted => helpText
  | .unknownArgument => "error: unexpected argument"
  | .invalidValue => "error: an option needs a value"
  | .repeatedOption => "error: an option is given twice"
  | .unwantedValue => "error: an option takes no value"

/-- The fault behind an error of the operating system. -/
def faultOf : IO.Error → FileFault
  | .noFileOrDirectory .. => .notFound
  | .alreadyExists .. => .alreadyExists
  | error => .other (toString error)

/-- The outcome of an action. -/
def attempt (action : IO α) : IO (Except FileFault α) :=
  try
    return .ok (← action)
  catch error => return .error (faultOf error)

/-- The files of the operating system. -/
def disk : FileSystem IO where
  read path := attempt (IO.FS.readFile path)
  createDirectories path := attempt (IO.FS.createDirAll path)
  write path text := attempt (IO.FS.writeFile path text)

end CommandLine

end OpcWire

open OpcWire in
/-- Generate what the arguments ask for. -/
def main (arguments : List String) : IO UInt32 := do
  match Arguments.parse arguments with
  | .error .helpWanted =>
    IO.println CommandLine.helpText
    return 0
  | .error refusal =>
    IO.eprintln (CommandLine.refusalText refusal)
    return 2
  | .ok request =>
    match ← (request.run CommandLine.disk).run with
    | .ok () => return 0
    | .error failure =>
      match failure.activity? with
      | some activity => IO.eprintln ("Error: " ++ activity ++ ": " ++ failure.cause)
      | none => IO.eprintln ("Error: " ++ failure.cause)
      return 1
