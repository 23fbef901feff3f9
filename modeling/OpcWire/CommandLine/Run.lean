import OpcWire.CommandLine.Arguments
import OpcWire.Dictionary.Document
import OpcWire.Files.Basic
import OpcWire.IdTable.Csv

/-!
# Runs of the command line

`Arguments.Request.run` does what the command line asks for, on any file system: it reads the
dictionary and the identifier table, makes the generated files, and writes them. The first fault
ends a run; files that have been written by then stay.
-/

namespace OpcWire

/-- Why a run fails. -/
inductive RunFailure
  /-- A file cannot be read. -/
  | unread (path : String) (fault : FileFault)
  /-- What a file holds is neither a dictionary nor a table. -/
  | malformed (path : String) (error : GenerateError)
  /-- Nothing is generated from the dictionary in a file. -/
  | ungenerated (path : String) (error : GenerateError)
  /-- A file or directory cannot be written. -/
  | unwritten (path : String) (fault : FileFault)
  deriving DecidableEq, Repr

namespace RunFailure

/-- What was being done. -/
def activity? : RunFailure → Option String
  | unread path _ => some ("failed to read " ++ path)
  | malformed path _ => some ("failed to parse " ++ path)
  | ungenerated path _ => some ("failed to generate code from " ++ path)
  | unwritten .. => none

/-- What went wrong. -/
def cause : RunFailure → String
  | unread _ fault => fault.message
  | malformed _ error | ungenerated _ error => error.message
  | unwritten path fault => "failed to write '" ++ path ++ "': " ++ fault.message

end RunFailure

namespace Arguments.Request

variable {m : Type → Type} [Monad m] (system : FileSystem m)

/-- Read what a file holds. -/
def load (path : String) (parse : String → Except GenerateError α) :
    ExceptT RunFailure m α := do
  match ← system.read path with
  | .error fault => throw (.unread path fault)
  | .ok text =>
    match parse text with
    | .error error => throw (.malformed path error)
    | .ok a => return a

/-- Write files into a directory, one after the other. -/
def writeAll (directory : String) : List (String × String) → ExceptT RunFailure m Unit
  | [] => pure ()
  | (name, text) :: rest => do
    let path := Path.join directory name
    match ← system.write path text with
    | .error fault => throw (.unwritten path fault)
    | .ok () => writeAll directory rest

/-- Make a directory and write files into it. -/
def store (directory : String) (files : List (String × String)) :
    ExceptT RunFailure m Unit := do
  match ← system.createDirectories directory with
  | .error fault => throw (.unwritten directory fault)
  | .ok () => writeAll system directory files

/-- Read a dictionary from text, or refuse it. -/
def parseDictionary (text : String) : Except GenerateError Dictionary :=
  match Dictionary.parse? text with
  | some d => .ok d
  | none => .error .unreadableDictionary

/-- Read the identifier table that is asked for, if one is. -/
def loadTable (r : Request) : ExceptT RunFailure m (Option IdTable) :=
  match r.identifiers with
  | some path => some <$> load system path IdTable.parse
  | none => pure none

/-- Make the files of a dictionary and a table, and store them. -/
def generateAndStore (r : Request) (dictionary : Dictionary) (table : Option IdTable) :
    ExceptT RunFailure m Unit :=
  match dictionary.generate table ⟨r.usedModule, .standard⟩ with
  | .error error => throw (.ungenerated r.dictionary error)
  | .ok files => store system r.directory files.toList

/-- Do what the command line asks for. -/
def run (r : Request) : ExceptT RunFailure m Unit := do
  let dictionary ← load system r.dictionary parseDictionary
  let table ← loadTable system r
  generateAndStore system r dictionary table

end Arguments.Request

end OpcWire
