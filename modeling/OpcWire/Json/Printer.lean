import OpcWire.Json.Basic
import OpcWire.Text.Hex

/-!
# Writing JSON text

`Json.compact` writes a document without blanks, and `Json.pretty` with every part on a line of
its own, indented by two blanks for each array or object around it.
-/

namespace OpcWire

namespace Json

/-- A character as it is written in a string. -/
def escape (c : Char) : List Char :=
  if c = '"' then ['\\', '"']
  else if c = '\\' then ['\\', '\\']
  else if c.toNat < 0x20 then '\\' :: 'u' :: Hex.digits .lower 4 c.toNat
  else [c]

/-- A string in quotes. -/
def quoted (s : String) : String :=
  "\"" ++ String.ofList (s.toList.flatMap escape) ++ "\""

/-- A document without parts on one line; `none` for a list or an object. A string without a text
is written as an empty one. -/
def leaf? : Json → Option String
  | null => some "null"
  | bool b => some (if b then "true" else "false")
  | number lexeme => some lexeme
  | string text => some (quoted (text.getD ""))
  | array _ => none
  | object _ => none

mutual

/-- A document without blanks. -/
def compact : Json → String
  | array items => "[" ++ ",".intercalate (compactItems items) ++ "]"
  | object members => "\x7b" ++ ",".intercalate (compactMembers members) ++ "\x7d"
  | j => (leaf? j).getD ""

/-- Each item without blanks. -/
def compactItems : List Json → List String
  | [] => []
  | j :: rest => compact j :: compactItems rest

/-- Each member without blanks. -/
def compactMembers : List (Option String × Json) → List String
  | [] => []
  | (name, j) :: rest => (quoted (name.getD "") ++ ":" ++ compact j) :: compactMembers rest

end

/-- Lines with a text in front of the first and another behind the last. -/
def wrapLines (front back : String) : List String → List String
  | [] => [front ++ back]
  | [line] => [front ++ line ++ back]
  | line :: rest => (front ++ line) :: (rest.dropLast ++ [rest.getLastD "" ++ back])

/-- Parts, each on lines of its own, with commas between them. -/
def separateLines : List (List String) → List String
  | [] => []
  | [lines] => lines
  | lines :: rest => wrapLines "" "," lines ++ separateLines rest

/-- Parts between brackets; there is one line if there are no parts. -/
def bracketLines (opening closing : String) (parts : List (List String)) : List String :=
  if parts.isEmpty then [opening ++ closing]
  else opening :: (separateLines parts).map ("  " ++ ·) ++ [closing]

mutual

/-- The lines of a document. -/
def prettyLines : Json → List String
  | array items => bracketLines "[" "]" (prettyItems items)
  | object members => bracketLines "\x7b" "\x7d" (prettyMembers members)
  | j => [(leaf? j).getD ""]

/-- The lines of each item. -/
def prettyItems : List Json → List (List String)
  | [] => []
  | j :: rest => prettyLines j :: prettyItems rest

/-- The lines of each member. -/
def prettyMembers : List (Option String × Json) → List (List String)
  | [] => []
  | (name, j) :: rest =>
    wrapLines (quoted (name.getD "") ++ ": ") "" (prettyLines j) :: prettyMembers rest

end

/-- A document on indented lines, each of which ends with a line break. -/
def pretty (j : Json) : String :=
  String.join ((prettyLines j).map (· ++ "\n"))

end Json

end OpcWire
