import OpcWire.Source.EnumerationReading

/-!
# Items of generated source text

A generated file is a sequence of items. The first line of an item starts with a letter, and may
open a block at its end; all other lines outside of blocks start with something else or are empty.
`Source.items` finds the items of a text, each with the lines of its block. From these, or from
single lines, is read

* what a text declares (`Source.declaredNames`),
* the constants that the implementation of a type defines (`Source.associatedConstants`),
* the structures with their fields (`Source.declaredStructures`),
* how these are written and read field by field (`Source.encodings`, `Source.decodings`),
* how any lines at all write and read fields (`Source.writtenVisits`, `Source.readVisits`).
-/

namespace OpcWire

namespace Source

/-! ### Items -/

/-- An item of source text. -/
structure Item where
  /-- The line that it begins with. -/
  head : String
  /-- The lines of its block, without indentation. -/
  body : List String
  deriving DecidableEq, Repr

/-- Whether a line begins an item. -/
def beginsItem (line : String) : Bool := line.toList.head?.any Char.isAlpha

/-- The lines of the block that `line` opens, if it does; `rest` is what stands behind `line`. -/
def blockLines (line : String) (rest : List String) : List String :=
  if line.toList.getLast? = some '\x7b' then (rest.takeWhile (· ≠ "\x7d")).map unindented else []

/-- The items of a text. -/
def items : List String → List Item
  | [] => []
  | line :: rest =>
    if beginsItem line then ⟨line, blockLines line rest⟩ :: items rest else items rest

/-! ### Declarations -/

/-- The name of the structure or the capability that a line declares: all up to a blank, a
parenthesis or a colon. -/
def declaredName? (line : String) : Option String :=
  (Naming.dropStart? "pub struct " line <|> Naming.dropStart? "pub trait " line).map fun rest =>
    String.ofList (rest.toList.takeWhile fun c => !(c == ' ' || c == '(' || c == ':'))

/-- The names that lines declare. -/
def declaredNames (lines : List String) : List String := lines.filterMap declaredName?

/-- The name of the constant that a line of a block defines. -/
def constantName? (line : String) : Option String :=
  ((Naming.dropStart? "pub const " line).bind (cut? ':')).map Prod.fst

/-- The names of the constants in an item that is an implementation of the type `typeName`. -/
def implementedConstants? (typeName : String) (i : Item) : Option (List String) :=
  if i.head = "impl " ++ typeName ++ " \x7b" then some (i.body.filterMap constantName?) else none

/-- The names of the constants in the implementations of the type `typeName`, one list for each of
them. -/
def associatedConstants (typeName : String) (lines : List String) : List (List String) :=
  (items lines).filterMap (implementedConstants? typeName)

/-! ### Structures and their wire forms -/

/-- A structure as it is declared. -/
structure DeclaredStructure where
  /-- Its name. -/
  name : String
  /-- Identifiers of its fields with their types. -/
  fields : List (String × String)
  deriving DecidableEq, Repr

/-- The structure that an item declares. -/
def DeclaredStructure.read? (i : Item) : Option DeclaredStructure :=
  (between? "pub struct " " \x7b\x7d" i.head <|> between? "pub struct " " \x7b" i.head).map fun name =>
    ⟨name, i.body.filterMap (parts? "pub " ':' " " ",")⟩

/-- The structures of a text. -/
def declaredStructures (lines : List String) : List DeclaredStructure :=
  (items lines).filterMap DeclaredStructure.read?

/-- How a type is written, or how it is read. -/
structure WireForm where
  /-- Name of the type. -/
  typeName : String
  /-- Names of the functions that are implemented. -/
  functions : List String
  /-- Identifiers of the fields that are visited. -/
  idents : List String
  /-- Names of the type and of the field that an error at a field is reported with. -/
  contexts : List (String × String)
  deriving DecidableEq, Repr

/-- The name of the function that a line of a block begins. -/
def functionName? (line : String) : Option String :=
  ((Naming.dropStart? "fn " line).bind (cut? '(')).map Prod.fst

/-- The identifiers of the fields that are written, each on a line directly in front of the one that
writes it. -/
def writtenIdents : List String → List String
  | line :: next :: rest =>
    (if next = ".encode(buf)" then (Naming.dropStart? "self." line).toList else []) ++
      writtenIdents (next :: rest)
  | _ => []

/-- The identifiers of the fields that are read. -/
def readIdents (lines : List String) : List String :=
  lines.filterMap (dropEnd? ": BinaryDecode::decode(buf)")

/-- The names of the type and the field with which a line that ends with `stop` reports an error. -/
def errorContext? (stop line : String) : Option (String × String) :=
  parts? ".map_err(|e| e.in_field(\"" '"' ", \"" ("\"))?" ++ stop) line

/-- The names with which lines that end with `stop` report errors. -/
def errorContexts (stop : String) (lines : List String) : List (String × String) :=
  lines.filterMap (errorContext? stop)

/-- How the type is written of which an item is the encoding. -/
def WireForm.encoding? (i : Item) : Option WireForm :=
  (between? "impl BinaryEncode for " " \x7b" i.head).map fun name =>
    ⟨name, i.body.filterMap functionName?, writtenIdents i.body, errorContexts ";" i.body⟩

/-- How the type is read of which an item is the decoding. -/
def WireForm.decoding? (i : Item) : Option WireForm :=
  (between? "impl BinaryDecode for " " \x7b" i.head).map fun name =>
    ⟨name, i.body.filterMap functionName?, readIdents i.body, errorContexts "," i.body⟩

/-- How the types of a text are written. -/
def encodings (lines : List String) : List WireForm := (items lines).filterMap WireForm.encoding?

/-- How the types of a text are read. -/
def decodings (lines : List String) : List WireForm := (items lines).filterMap WireForm.decoding?

/-! ### Visits to fields -/

/-- How lines visit fields, wherever these lines are. -/
structure Visits where
  /-- Identifiers of the fields. -/
  idents : List String
  /-- Names of the type and of the field that an error at a field is reported with. -/
  contexts : List (String × String)
  deriving DecidableEq, Repr

/-- How lines write fields. -/
def writtenVisits (lines : List String) : Visits := ⟨writtenIdents lines, errorContexts ";" lines⟩

/-- How lines read fields. -/
def readVisits (lines : List String) : Visits := ⟨readIdents lines, errorContexts "," lines⟩

end Source

end OpcWire
