import OpcWire.Source.Reading

/-!
# Reading the text of enumerations

The lines that make up an enumeration are recognised by their form, however far they are indented:
the declaration, the constant of a member, the table of members with its rows, the look-up by name
with its arms, and the decoding. `Source.enumerationItems` reads all of these from the lines of a
text, in their order; other lines are passed over.
-/

namespace OpcWire

namespace Source

/-- A line without the spaces that it begins with. -/
def unindented (line : String) : String := String.ofList (line.toList.dropWhile (· == ' '))

/-- The two parts of a text that stand behind `start` and before `stop`: the first one up to `mark`,
and the second one behind `middle`. -/
def parts? (start : String) (mark : Char) (middle stop text : String) : Option (String × String) := do
  let (first, rest) ← (between? start stop text).bind (cut? mark)
  let second ← Naming.dropStart? middle rest
  return (first, second)

/-- What a line says about an enumeration. -/
inductive EnumerationItem
  /-- The enumeration `name` wraps a value of type `integer`. -/
  | declaration (name integer : String)
  /-- The constant of a member has a value, which is given by its digits. -/
  | constant (ident value : String)
  /-- The table of members begins. -/
  | table
  /-- The table has a row with a name and a constant. -/
  | row (name ident : String)
  /-- The look-up by name begins. -/
  | lookup
  /-- The look-up leads from a name to a constant. -/
  | arm (name ident : String)
  /-- A value of type `integer` is decoded. -/
  | decoding (integer : String)
  deriving DecidableEq, Repr

namespace EnumerationItem

/-- The line that says an item. -/
def line : EnumerationItem → String
  | declaration name integer => "pub struct " ++ name ++ "(pub " ++ integer ++ ");"
  | constant ident value => "pub const " ++ ident ++ ": Self = Self(" ++ value ++ ");"
  | table => "pub const VALUES: &'static [(&'static str, Self)] = &["
  | row name ident => "(" ++ quote name ++ ", Self::" ++ ident ++ "),"
  | lookup => "pub fn from_name(name: &str) -> Result<Self, UnknownEnumName> \x7b"
  | arm name ident => quote name ++ " => Ok(Self::" ++ ident ++ "),"
  | decoding integer => integer ++ "::decode(buf).map(Self)"

section

variable (name ident value integer : String)

@[simp] theorem line_declaration :
    (declaration name integer).line = "pub struct " ++ name ++ "(pub " ++ integer ++ ");" := rfl

@[simp] theorem line_constant :
    (constant ident value).line = "pub const " ++ ident ++ ": Self = Self(" ++ value ++ ");" := rfl

@[simp] theorem line_table :
    table.line = "pub const VALUES: &'static [(&'static str, Self)] = &[" := rfl

@[simp] theorem line_row :
    (row name ident).line = "(" ++ quote name ++ ", Self::" ++ ident ++ ")," := rfl

@[simp] theorem line_lookup :
    lookup.line = "pub fn from_name(name: &str) -> Result<Self, UnknownEnumName> \x7b" := rfl

@[simp] theorem line_arm :
    (arm name ident).line = quote name ++ " => Ok(Self::" ++ ident ++ ")," := rfl

@[simp] theorem line_decoding : (decoding integer).line = integer ++ "::decode(buf).map(Self)" := rfl

end

/-- Read a declaration. -/
def declaration? (line : String) : Option EnumerationItem :=
  (parts? "pub struct " '(' "pub " ");" line).map fun parts => declaration parts.1 parts.2

/-- Read the constant of a member. -/
def constant? (line : String) : Option EnumerationItem :=
  (parts? "pub const " ':' " Self = Self(" ");" line).map fun parts => constant parts.1 parts.2

/-- Read a row of the table of members. -/
def row? (line : String) : Option EnumerationItem :=
  (parts? "(\"" '"' ", Self::" ")," line).map fun parts => row parts.1 parts.2

/-- Read an arm of the look-up by name. -/
def arm? (line : String) : Option EnumerationItem :=
  (parts? "\"" '"' " => Ok(Self::" ")," line).map fun parts => arm parts.1 parts.2

/-- Read a decoding. -/
def decoding? (line : String) : Option EnumerationItem :=
  (dropEnd? "::decode(buf).map(Self)" line).map decoding

/-- What an indented line says, if it says anything about an enumeration. -/
def read? (line : String) : Option EnumerationItem :=
  let text := unindented line
  if text = table.line then some table
  else if text = lookup.line then some lookup
  else
    declaration? text <|> constant? text <|> row? text <|> arm? text <|> decoding? text

end EnumerationItem

/-- What lines say about enumerations. -/
def enumerationItems (lines : List String) : List EnumerationItem :=
  lines.filterMap EnumerationItem.read?

end Source

end OpcWire
