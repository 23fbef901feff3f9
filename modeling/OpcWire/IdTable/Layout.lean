import OpcWire.IdTable.Basic
import OpcWire.Text.Blank

/-!
# Laid-out tables

The same table can be written in many ways: with blanks around the cells of a row, with blank lines
and comments between rows, with either line break, and with or without one at the end. A
`TableLayout` is a choice of all that; `TableLayout.entries` are the entries that it writes and
`TableLayout.text` is the text that comes out.
-/

namespace OpcWire

/-- Blanks that break no line. -/
structure Gap where
  /-- The blanks. -/
  chars : List Char
  /-- They are blanks. -/
  blank : ∀ c ∈ chars, Text.isBlank c = true
  /-- None of them is a line feed. -/
  unbroken : '\n' ∉ chars
  deriving DecidableEq, Repr

/-- What stands around a cell. -/
structure Padding where
  /-- The blanks in front of the cell. -/
  before : Gap
  /-- The blanks behind it. -/
  after : Gap
  deriving DecidableEq, Repr

/-- A cell with what stands around it. -/
def Padding.around (p : Padding) (cell : String) : List Char :=
  p.before.chars ++ cell.toList ++ p.after.chars

/-- A line of a laid-out table. -/
inductive TableLine
  /-- An entry, with what stands around each of its cells. -/
  | row (e : IdEntry) (name id kind : Padding)
  /-- Nothing but blanks. -/
  | blank (gap : Gap)
  /-- A comment behind blanks and a number sign. -/
  | comment (gap : Gap) (text : String) (unbroken : '\n' ∉ text.toList)
  deriving DecidableEq, Repr

namespace TableLine

/-- The entry that a line writes. -/
def entry? : TableLine → Option IdEntry
  | row e .. => some e
  | blank _ | comment .. => none

/-- The characters of a line; the number of an entry is written in decimal. -/
def chars : TableLine → List Char
  | row e name id kind =>
    name.around e.name ++ ',' :: (id.around (toString e.id) ++ ',' :: kind.around e.kind)
  | blank gap => gap.chars
  | comment gap text _ => gap.chars ++ '#' :: text.toList

end TableLine

/-- How a line ends. -/
inductive LineBreak
  /-- With a line feed. -/
  | feed
  /-- With a carriage return and a line feed. -/
  | returnFeed
  deriving DecidableEq, Repr

/-- What stands between a line and the line feed at its end. -/
def LineBreak.carriage : LineBreak → List Char
  | feed => []
  | returnFeed => ['\r']

/-- How a table is written. -/
structure TableLayout where
  /-- The lines that end with a line break. -/
  lines : List (TableLine × LineBreak)
  /-- A last line that ends without one. -/
  last : Option TableLine
  deriving DecidableEq, Repr

namespace TableLayout

variable (l : TableLayout)

/-- All lines. -/
def allLines : List TableLine := l.lines.map (·.1) ++ l.last.toList

/-- The entries that are written. -/
def entries : List IdEntry := l.allLines.filterMap TableLine.entry?

/-- Characters of the lines that end with a line break, and of a rest behind them. -/
def charsOf (rest : List Char) : List (TableLine × LineBreak) → List Char
  | [] => rest
  | (line, lineBreak) :: lines => line.chars ++ lineBreak.carriage ++ '\n' :: charsOf rest lines

/-- The text. -/
def text : String := String.ofList (charsOf ((l.last.map TableLine.chars).getD []) l.lines)

end TableLayout

/-! ### Entries that can be written -/

namespace IdEntry

/-- Whether a text can be a cell: it neither ends a cell nor a line, and has no blanks around it. -/
def IsCell (text : String) : Prop :=
  ',' ∉ text.toList ∧ '\n' ∉ text.toList ∧ Text.IsTrimmed text

instance (text : String) : Decidable (IsCell text) := inferInstanceAs (Decidable (_ ∧ _ ∧ _))

/-- Whether an entry can be written: its name and kind can be cells, and its name is neither empty
nor the beginning of a comment. -/
structure IsWritable (e : IdEntry) : Prop where
  /-- The name can be a cell. -/
  name : IsCell e.name
  /-- The kind can be a cell. -/
  kind : IsCell e.kind
  /-- There is a name. -/
  name_ne : e.name ≠ ""
  /-- The name does not start a comment. -/
  head_ne : e.name.toList.head? ≠ some '#'

instance (e : IdEntry) : Decidable e.IsWritable :=
  decidable_of_iff (IsCell e.name ∧ IsCell e.kind ∧ e.name ≠ "" ∧ e.name.toList.head? ≠ some '#')
    ⟨fun ⟨name, kind, hne, hhead⟩ => ⟨name, kind, hne, hhead⟩,
      fun ⟨name, kind, hne, hhead⟩ => ⟨name, kind, hne, hhead⟩⟩

end IdEntry

end OpcWire
