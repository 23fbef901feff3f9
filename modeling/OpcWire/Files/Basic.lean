import OpcWire.Text.Blank

/-!
# Files

A `FileSystem` is what a program needs of files: reading a text, making a directory together
with the directories above it, and writing a text. Each can fail with a `FileFault`.

Paths are text. Their steps stand between slashes, empty ones do not count, and a path that
starts with a slash starts at the root.
-/

namespace OpcWire

/-- Why an operation on files fails. -/
inductive FileFault
  /-- Nothing is there. -/
  | notFound
  /-- There is a directory where a file is wanted. -/
  | isDirectory
  /-- There is a file where a directory is wanted. -/
  | notDirectory
  /-- There is something already. -/
  | alreadyExists
  /-- The path, or a step of it, is too long. -/
  | nameTooLong
  /-- The path holds the character with code zero, which no path can hold. -/
  | invalidPath
  /-- Any other reason, in words. -/
  | other (reason : String)
  deriving DecidableEq, Repr

/-- The wording of a fault. -/
def FileFault.message : FileFault → String
  | notFound => "no such file or directory"
  | isDirectory => "is a directory"
  | notDirectory => "not a directory"
  | alreadyExists => "already exists"
  | nameTooLong => "file name too long"
  | invalidPath => "path contains a zero character"
  | other reason => reason

/-- Operations on files, as actions of a monad. -/
structure FileSystem (m : Type → Type) where
  /-- Read the text of a file. -/
  read (path : String) : m (Except FileFault String)
  /-- Make a directory and the directories above it, unless they are there. -/
  createDirectories (path : String) : m (Except FileFault Unit)
  /-- Write the text of a file, in place of the text that it has. -/
  write (path text : String) : m (Except FileFault Unit)

namespace Path

/-- The steps of a path. -/
def steps (path : String) : List String :=
  ((Text.splitAt '/' path.toList).filter (!·.isEmpty)).map String.ofList

/-- Whether a path can be one at all: none holds the character with code zero. -/
def isValid (path : String) : Bool := !path.toList.contains '\x00'

/-- Whether a path starts at the root. -/
def isAbsolute (path : String) : Bool := path.toList.head? == some '/'

/-- Whether a path ends with a slash, so that it can only be a directory. -/
def isDirectoryOnly (path : String) : Bool := path.toList.getLast? == some '/'

/-- The path of a file in a directory. -/
def join (directory name : String) : String :=
  if isDirectoryOnly directory then directory ++ name else directory ++ "/" ++ name

end Path

end OpcWire
