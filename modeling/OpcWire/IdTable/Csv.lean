import OpcWire.Generator.Error
import OpcWire.IdTable.Basic
import OpcWire.Text.Blank

/-!
# Identifier tables as text

A line of a table holds a name, a number and a kind with commas between them and blanks around
them. Empty lines and lines that start with a number sign are passed over but counted.
-/

namespace OpcWire

namespace IdTable

/-- The cells of a line, without the blanks around them. -/
def cells (line : String) : List String :=
  (Text.splitAt ',' line.toList).map fun cell => String.ofList (Text.trimChars cell)

/-- Whether a line holds no entry. -/
def isComment (line : String) : Bool :=
  match Text.trimChars line.toList with
  | [] => true
  | c :: _ => c == '#'

/-- The entry of a line. -/
def entryOfLine (line : String) : Except LineFault IdEntry :=
  match cells (Text.trim line) with
  | [name, id, kind] =>
    if name.isEmpty then .error .emptyName
    else match Decimal.uint32 id with
      | .error refusal => .error (.invalidId id refusal)
      | .ok number => .ok ⟨name, number, kind⟩
  | cells => .error (.columns cells.length)

/-- Add the entry of a line. -/
def addLine (t : IdTable) (line : String) : Except LineFault IdTable :=
  if isComment line then .ok t
  else match entryOfLine line with
    | .error fault => .error fault
    | .ok e =>
      match t.insert? e with
      | none => .error (.duplicateName e.name)
      | some t => .ok t

/-- Add the entries of lines, of which the first has the given number. -/
def addLines (t : IdTable) (number : Nat) : List String → Except GenerateError IdTable
  | [] => .ok t
  | line :: rest =>
    match t.addLine line with
    | .error fault => .error (.invalidIdTable number fault)
    | .ok t => t.addLines (number + 1) rest

/-- The table that a text holds, or its first faulty line. -/
def parse (text : String) : Except GenerateError IdTable :=
  empty.addLines 1 (Text.lines text)

end IdTable

end OpcWire
