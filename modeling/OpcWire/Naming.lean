/-!
# Names in generated code

Names of the dictionary are written in upper camel case. `Naming.words` finds the words of such a
name, and the other functions turn them into identifiers: `Naming.fieldIdent` for the fields of
a structure and `Naming.constIdent` for constants. Case and digits are those of ASCII; all other
characters are kept.
-/

namespace OpcWire

namespace Naming

/-- Whether a character separates words and belongs to none. -/
def isSeparator (c : Char) : Bool := c == '_' || c == '-' || c == ' '

/-- Whether the capital letter `c` starts a word, coming behind `previous` in the same run of
letters and before `rest`: behind a small letter or a digit it does, and behind another capital
if a small letter follows, so that a run of capitals is one word. -/
def startsWord (previous : Char) (c : Char) (rest : List Char) : Bool :=
  c.isUpper && (previous.isLower || previous.isDigit ||
    (previous.isUpper && rest.head?.any Char.isLower))

/-- A word, unless there is none. -/
def flush (word : List Char) : List (List Char) :=
  if word.isEmpty then [] else [word]

/-- The words of a name from some point on. `current` holds the small letters of the word that
has begun, and `previous` the character before the point. -/
def wordsFrom (current : List Char) (previous : Char) : List Char → List (List Char)
  | [] => flush current
  | c :: rest =>
    if isSeparator c then flush current ++ wordsFrom [] c rest
    else if !current.isEmpty && startsWord previous c rest then
      current :: wordsFrom [c.toLower] c rest
    else wordsFrom (current ++ [c.toLower]) c rest

/-- The words of a name in small letters. -/
def words (name : String) : List String :=
  (wordsFrom [] ' ' name.toList).map String.ofList

/-- The words of a name in small letters, joined by underscores. -/
def snakeCase (name : String) : String := "_".intercalate (words name)

/-- The words of a name in capitals, joined by underscores. -/
def screamingSnakeCase (name : String) : String := (snakeCase name).map Char.toUpper

/-- Whether a text starts with a digit. -/
def startsWithDigit (text : String) : Bool := text.toList.head?.any Char.isDigit

/-- Keywords of generated code that a field may use with an escape. -/
def keywords : List String :=
  [ "abstract", "as", "async", "await", "become", "box", "break", "const", "continue", "do",
    "dyn", "else", "enum", "extern", "false", "final", "fn", "for", "gen", "if", "impl", "in",
    "let", "loop", "macro", "match", "mod", "move", "mut", "override", "priv", "pub", "ref",
    "return", "static", "struct", "trait", "true", "try", "type", "typeof", "unsafe", "unsized",
    "use", "virtual", "where", "while", "yield" ]

/-- Words that no escape makes a field of. -/
def reserved : List String := ["self", "super", "crate", "Self", "_"]

/-- The identifier of a field. An underscore goes in front of a digit and behind a reserved word;
a keyword is escaped. -/
def fieldIdent (name : String) : String :=
  let snake := snakeCase name
  let ident := if startsWithDigit snake then "_" ++ snake else snake
  if reserved.contains ident then ident ++ "_"
  else if keywords.contains ident then "r#" ++ ident
  else ident

/-- The identifier of a constant. A letter goes in front of a digit, or stands alone for a name
without words. -/
def constIdent (name : String) : String :=
  let ident := screamingSnakeCase name
  if ident.isEmpty || startsWithDigit ident then "V" ++ ident else ident

/-- Name of the table entry for the binary encoding of a type. -/
def encodingIdName (typeName : String) : String := typeName ++ "_Encoding_DefaultBinary"

/-- The rest of `text` behind `start`, if `text` starts with it. -/
def dropStart? (start text : String) : Option String :=
  if start.toList.isPrefixOf text.toList then
    some (String.ofList (text.toList.drop start.length))
  else none

section DropStart

variable {start text rest : String}

theorem dropStart?_eq_some_iff : dropStart? start text = some rest ↔ text = start ++ rest := by
  rw [dropStart?, ← String.toList_inj, String.toList_append]
  constructor
  · intro h
    obtain ⟨hstart, ⟨⟩⟩ := Option.ite_none_right_eq_some.1 h
    obtain ⟨l, hl⟩ := List.isPrefixOf_iff_prefix.1 hstart
    rw [← hl, String.toList_ofList, ← String.length_toList, List.drop_left]
  · intro h
    rw [h, if_pos (List.isPrefixOf_iff_prefix.2 ⟨_, rfl⟩), ← String.length_toList, List.drop_left,
      String.ofList_toList]

theorem dropStart?_eq_none_iff : dropStart? start text = none ↔ ∀ rest, text ≠ start ++ rest := by
  rw [Option.eq_none_iff_forall_ne_some]
  exact forall_congr' fun rest => not_congr dropStart?_eq_some_iff

end DropStart

/-- A qualified name without the namespace of the built-in types or of the dictionary. -/
def stripNamespace (typeName : String) : String :=
  match dropStart? "ua:" typeName with
  | some name => name
  | none => (dropStart? "tns:" typeName).getD typeName

end Naming

end OpcWire
