/-!
# Blanks and line breaks

The characters with the Unicode property `White_Space`, text without them at either end, and the
lines of a text.
-/

namespace OpcWire

namespace Text

/-- The code points with the property `White_Space`. -/
def blankCodes : List Nat :=
  [ 0x0009, 0x000A, 0x000B, 0x000C, 0x000D, 0x0020, 0x0085, 0x00A0, 0x1680, 0x2000, 0x2001,
    0x2002, 0x2003, 0x2004, 0x2005, 0x2006, 0x2007, 0x2008, 0x2009, 0x200A, 0x2028, 0x2029,
    0x202F, 0x205F, 0x3000 ]

/-- Whether a character is a blank. -/
def isBlank (c : Char) : Bool := blankCodes.contains c.toNat

/-- Characters without the blanks at either end. -/
def trimChars (chars : List Char) : List Char :=
  ((chars.dropWhile isBlank).reverse.dropWhile isBlank).reverse

/-- Text without the blanks at either end. -/
def trim (text : String) : String := String.ofList (trimChars text.toList)

/-- Whether there is no blank at either end of a text. -/
def IsTrimmed (text : String) : Prop :=
  (∀ c ∈ text.toList.head?, isBlank c = false) ∧ ∀ c ∈ text.toList.getLast?, isBlank c = false

instance (text : String) : Decidable (IsTrimmed text) :=
  decidable_of_iff
    (text.toList.head?.all (!isBlank ·) = true ∧ text.toList.getLast?.all (!isBlank ·) = true)
    (by simp only [IsTrimmed, Option.all_eq_true, Bool.not_eq_true', Option.mem_def])

/-- The parts of a list between the occurrences of a separator; one part if there are none. -/
def splitAt (separator : Char) : List Char → List (List Char)
  | [] => [[]]
  | c :: rest =>
    match splitAt separator rest with
    | [] => [[c]]
    | part :: parts => if c = separator then [] :: part :: parts else (c :: part) :: parts

/-- Characters without a carriage return at the end. -/
def dropReturn (chars : List Char) : List Char :=
  if chars.getLast? = some '\r' then chars.dropLast else chars

/-- The lines among the parts of a text between its line feeds. Each part but the last ends with
a line break, to which a carriage return before the line feed belongs; what follows the last line
break is a line of its own unless it is empty. -/
def linesOfParts : List (List Char) → List (List Char)
  | [] => []
  | [last] => if last.isEmpty then [] else [last]
  | part :: rest => dropReturn part :: linesOfParts rest

/-- The lines of a text. -/
def lines (text : String) : List String :=
  (linesOfParts (splitAt '\n' text.toList)).map String.ofList

/-- Characters up to the line feed of the given number, with it. -/
def takeLines : Nat → List Char → List Char
  | 0, _ => []
  | _ + 1, [] => []
  | n + 1, c :: rest => c :: takeLines (if c = '\n' then n else n + 1) rest

/-- The part of a text that its first lines make up, with their line breaks. -/
def firstLines (n : Nat) (text : String) : String := String.ofList (takeLines n text.toList)

end Text

end OpcWire
