import OpcWire.Files.Basic
import OpcWire.Text.Utf8

/-!
# Trees of files

A `FileTree` says which files and directories there are, and `FileTree.get?` what a place holds:
what was put there last (`get?_set_self`), whatever was put elsewhere (`get?_set_of_ne`).
`FileTree.fileSystem` is the file system of which a tree is the state.

Every file is a file of its own: no two places share one, as links would make them do.

A path leads from the working directory, or from the root, step by step to a place. Each step
needs a directory to start from, also the steps `.` and `..`, of which the first stays and the
second goes up. A place need not hold anything; then a path may lead to it but not beyond.
-/

namespace OpcWire

/-- What a place holds. -/
inductive FileEntry
  /-- A file with its text. -/
  | file (text : String)
  /-- A file of bytes that are not those of any text. -/
  | data (bytes : List UInt8) (noText : ∀ text, Utf8.encode text ≠ bytes)
  /-- A directory. -/
  | directory
  deriving DecidableEq, Repr

/-- A place in a tree: the names on the way from the root. -/
abbrev Place := List String

/-- Files and directories, one of them the working directory. -/
structure FileTree where
  /-- The working directory. It and the directories above it are always there. -/
  workingDirectory : Place
  /-- What other places hold. -/
  entries : List (Place × FileEntry)
  deriving DecidableEq, Repr

namespace FileTree

/-- A tree with nothing but a working directory. -/
def empty (workingDirectory : Place) : FileTree := ⟨workingDirectory, []⟩

/-- What a place holds. -/
def get? (t : FileTree) (place : Place) : Option FileEntry :=
  if place.isPrefixOf t.workingDirectory then some .directory else t.entries.lookup place

/-- Let a place hold something. -/
def set (t : FileTree) (place : Place) (entry : FileEntry) : FileTree :=
  { t with entries := (place, entry) :: t.entries.filter (·.1 != place) }

theorem lookup_filter_ne {place other : Place} (h : other ≠ place)
    (entries : List (Place × FileEntry)) :
    (entries.filter (·.1 != place)).lookup other = entries.lookup other := by
  induction entries with
  | nil => rfl
  | cons e rest ih =>
    obtain ⟨key, entry⟩ := e
    by_cases hk : key = place
    · subst hk
      have hne : (other == key) = false := beq_false_of_ne h
      simp [List.lookup_cons, hne, ih]
    · simp [List.lookup_cons, hk, ih]

/-- A place off the way to the working directory holds what was put there last. -/
theorem get?_set_self {t : FileTree} {place : Place} (entry : FileEntry)
    (h : place.isPrefixOf t.workingDirectory = false) :
    (t.set place entry).get? place = some entry := by
  simp [get?, set, h]

theorem get?_set_of_ne {t : FileTree} {place other : Place} (entry : FileEntry)
    (h : other ≠ place) : (t.set place entry).get? other = t.get? other := by
  have hne : (other == place) = false := beq_false_of_ne h
  simp only [get?, set, List.lookup_cons, hne, lookup_filter_ne h]

/-- The files of text with their places and texts. -/
def files (t : FileTree) : List (Place × String) :=
  t.entries.filterMap fun
    | (place, .file text) => some (place, text)
    | (_, .data ..) | (_, .directory) => none

/-! ### Following a path -/

/-- The most bytes that the name of a place can have. -/
def nameLimit : Nat := 255

/-- The most bytes that a path can have. -/
def pathLimit : Nat := 4095

/-- The place one step further. -/
def step (t : FileTree) (place : Place) (name : String) : Except FileFault Place :=
  match t.get? place with
  | none => .error .notFound
  | some (.file _) | some (.data ..) => .error .notDirectory
  | some .directory =>
    match name with
    | "." => .ok place
    | ".." => .ok place.dropLast
    | name => if name.utf8ByteSize ≤ nameLimit then .ok (place ++ [name]) else .error .nameTooLong

/-- The place that steps lead to. -/
def follow (t : FileTree) (place : Place) : List String → Except FileFault Place
  | [] => .ok place
  | name :: rest => do t.follow (← t.step place name) rest

/-- The place where a path starts. -/
def start (t : FileTree) (path : String) : Place :=
  if Path.isAbsolute path then [] else t.workingDirectory

/-- The place that a path leads to, with given steps from where it starts. -/
def locate (t : FileTree) (path : String) (steps : List String) : Except FileFault Place :=
  if path.isEmpty then .error .notFound
  else if !Path.isValid path then .error .invalidPath
  else if pathLimit < path.utf8ByteSize then .error .nameTooLong
  else t.follow (t.start path) steps

/-- The steps of a path of which the last, if a slash follows it, leads into a directory. -/
def stepsInto (path : String) : List String :=
  Path.steps path ++ if Path.isDirectoryOnly path then ["."] else []

/-! ### Operations -/

/-- Whether a path leads to a directory. -/
def isDirectory (t : FileTree) (path : String) : Bool :=
  match t.locate path (stepsInto path) with
  | .ok place => t.get? place == some .directory
  | .error _ => false

/-- The text of the file that a path leads to. -/
def read (t : FileTree) (path : String) : Except FileFault String := do
  match t.get? (← t.locate path (stepsInto path)) with
  | none => .error .notFound
  | some .directory => .error .isDirectory
  | some (.data ..) => .error (.other "stream did not contain valid UTF-8")
  | some (.file text) => .ok text

/-- Make a directory at the end of a path. -/
def createDirectory (t : FileTree) (path : String) : Except FileFault FileTree := do
  let place ← t.locate path (Path.steps path)
  match t.get? place with
  | some _ => .error .alreadyExists
  | none => return t.set place .directory

/-- Write the text of the file that a path leads to. -/
def write (t : FileTree) (path text : String) : Except FileFault FileTree := do
  let place ← t.locate path (Path.steps path)
  if Path.isDirectoryOnly path || t.get? place == some .directory then .error .isDirectory
  else return t.set place (.file text)

/-- Make a directory, given how to make the one above it, which is done if it is missing. A
directory that is there already does no harm. -/
def createBelow (above : FileTree → Except FileFault Unit × FileTree) (path : String)
    (t : FileTree) : Except FileFault Unit × FileTree :=
  match t.createDirectory path with
  | .ok t => (.ok (), t)
  | .error .notFound =>
    match above t with
    | (.error fault, t) => (.error fault, t)
    | (.ok (), t) => again t
  | .error _ => again t
where
  again (t : FileTree) : Except FileFault Unit × FileTree :=
    match t.createDirectory path with
    | .ok t => (.ok (), t)
    | .error fault => (if t.isDirectory path then .ok () else .error fault, t)

/-- The path with given steps, of which the last comes first. -/
def pathOf (absolute : Bool) (steps : List String) : String :=
  (if absolute then "/" else "") ++ "/".intercalate steps.reverse

/-- Make the directories that steps lead to, of which the last comes first. -/
def createSteps (absolute : Bool) : List String → FileTree → Except FileFault Unit × FileTree
  | [], t => (.ok (), t)
  | name :: rest, t =>
    t.createBelow (createSteps absolute rest) (pathOf absolute (name :: rest))

/-- Make the directory at the end of a path and the missing ones above it; those that are made
before a fault stay. -/
def createDirectories (t : FileTree) (path : String) : Except FileFault Unit × FileTree :=
  let steps := ((Path.steps path).filter (· != ".")).reverse
  t.createBelow (createSteps (Path.isAbsolute path) steps.tail) path

/-- The file system of which a tree is the state. -/
def fileSystem : FileSystem (StateM FileTree) where
  read path := fun t => (t.read path, t)
  createDirectories path := fun t => t.createDirectories path
  write path text := fun t =>
    match t.write path text with
    | .ok t => (.ok (), t)
    | .error fault => (.error fault, t)

end FileTree

end OpcWire
