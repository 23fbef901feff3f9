import OpcWire.Json.Basic
import OpcWire.Text.Hex

/-!
# Tokens of JSON text

`Json.Token.scan` cuts a text into tokens, one character at a time. What it remembers between two
characters is a `Json.Token.Mode`: the token that has begun.
-/

namespace OpcWire

namespace Json

/-- A token of JSON text. -/
inductive Token
  /-- An opening bracket. -/
  | openArray
  /-- A closing bracket. -/
  | closeArray
  /-- An opening brace. -/
  | openObject
  /-- A closing brace. -/
  | closeObject
  /-- A comma. -/
  | comma
  /-- A colon. -/
  | colon
  /-- A document without parts. -/
  | leaf (j : Json)
  deriving Repr

namespace Token

/-! ### Strings -/

/-- A character of a string as it is written: itself or a short escape, or a 16-bit unit in
hexadecimal digits. -/
inductive Unit16
  /-- A character. -/
  | char (c : Char)
  /-- A unit of UTF-16. -/
  | code (n : Nat)
  deriving DecidableEq, Repr

/-- The text of the units of a string; `done` holds the characters so far, last first. A high
surrogate has to be followed by a low one, and no low one may stand alone. -/
def textOf? (done : List Char) : List Unit16 → Option String
  | [] => some (String.ofList done.reverse)
  | .char c :: rest => textOf? (c :: done) rest
  | .code n :: rest =>
    if n < 0xD800 ∨ 0xE000 ≤ n then textOf? (Char.ofNat n :: done) rest
    else if n < 0xDC00 then
      match rest with
      | .code m :: rest =>
        if 0xDC00 ≤ m ∧ m < 0xE000 then
          textOf? (Char.ofNat (0x10000 + (n - 0xD800) * 0x400 + (m - 0xDC00)) :: done) rest
        else none
      | _ => none
    else none

/-- The character of a short escape. -/
def escaped? : Char → Option Char
  | '"' => some '"'
  | '\\' => some '\\'
  | '/' => some '/'
  | 'b' => some '\x08'
  | 'f' => some '\x0c'
  | 'n' => some '\n'
  | 'r' => some '\r'
  | 't' => some '\t'
  | _ => none

/-! ### Numbers -/

/-- What of a number has been read. -/
inductive NumberPart
  /-- Nothing. -/
  | start
  /-- The sign. -/
  | sign
  /-- A zero that is the whole integer part. -/
  | zero
  /-- Digits of the integer part. -/
  | integer
  /-- The decimal point. -/
  | point
  /-- Digits of the fraction. -/
  | fraction
  /-- The letter of the exponent. -/
  | letter
  /-- The sign of the exponent. -/
  | exponentSign
  /-- Digits of the exponent. -/
  | exponent
  deriving DecidableEq, Repr

/-- Read one more character of a number. -/
def NumberPart.step (p : NumberPart) (c : Char) : Option NumberPart :=
  match p with
  | .start =>
    if c = '-' then some .sign else if c = '0' then some .zero
    else if c.isDigit then some .integer else none
  | .sign => if c = '0' then some .zero else if c.isDigit then some .integer else none
  | .zero => afterInteger
  | .integer => if c.isDigit then some .integer else afterInteger
  | .point => if c.isDigit then some .fraction else none
  | .fraction =>
    if c.isDigit then some .fraction else if c = 'e' ∨ c = 'E' then some .letter else none
  | .letter =>
    if c = '+' ∨ c = '-' then some .exponentSign else if c.isDigit then some .exponent else none
  | .exponentSign => if c.isDigit then some .exponent else none
  | .exponent => if c.isDigit then some .exponent else none
where
  /-- What may follow the integer part. -/
  afterInteger : Option NumberPart :=
    if c = '.' then some .point else if c = 'e' ∨ c = 'E' then some .letter else none

/-- Whether a number may end here. -/
def NumberPart.complete : NumberPart → Bool
  | .zero | .integer | .fraction | .exponent => true
  | _ => false

/-- Whether characters are written as a number: no zero before other digits, and digits on both
sides of the point and in the exponent. -/
def isNumber (chars : List Char) : Bool :=
  match chars.foldlM NumberPart.step .start with
  | some p => p.complete
  | none => false

/-! ### The scanner -/

/-- Which token has begun. -/
inductive Mode
  /-- None. -/
  | between
  /-- A string with the given units so far, last first. -/
  | string (units : List Unit16)
  /-- A string in which a backslash was just read. -/
  | escape (units : List Unit16)
  /-- A string in which `missing` more digits of a unit are due. -/
  | hex (units : List Unit16) (missing value : Nat)
  /-- A number or a word with the given characters so far, last first. -/
  | word (chars : List Char)
  deriving DecidableEq, Repr

/-- The token that the characters of a number or word make up. -/
def ofWord? (chars : List Char) : Option Token :=
  if chars = ['t', 'r', 'u', 'e'] then some (.leaf (.bool true))
  else if chars = ['f', 'a', 'l', 's', 'e'] then some (.leaf (.bool false))
  else if chars = ['n', 'u', 'l', 'l'] then some (.leaf .null)
  else if isNumber chars then some (.leaf (.number (String.ofList chars)))
  else none

/-- Whether a character belongs to a number or word. -/
def isWordChar (c : Char) : Bool := c.isAlphanum || c == '+' || c == '-' || c == '.'

/-- Whether a character separates tokens and is none itself. -/
def isSpace (c : Char) : Bool := c == ' ' || c == '\n' || c == '\t' || c == '\r'

/-- Read a character between two tokens; `done` holds the tokens so far, last first. -/
def begin? (done : List Token) (c : Char) : Option (List Token × Mode) :=
  if isSpace c then some (done, .between)
  else if c = '"' then some (done, .string [])
  else if isWordChar c then some (done, .word [c])
  else match c with
    | '[' => some (.openArray :: done, .between)
    | ']' => some (.closeArray :: done, .between)
    | '\x7b' => some (.openObject :: done, .between)
    | '\x7d' => some (.closeObject :: done, .between)
    | ',' => some (.comma :: done, .between)
    | ':' => some (.colon :: done, .between)
    | _ => none

/-- Read one character. A string holds no control characters. -/
def step (state : List Token × Mode) (c : Char) : Option (List Token × Mode) :=
  let (done, mode) := state
  match mode with
  | .between => begin? done c
  | .word chars =>
    if isWordChar c then some (done, .word (c :: chars))
    else (ofWord? chars.reverse).bind fun token => begin? (token :: done) c
  | .string units =>
    if c = '"' then some (.leaf (.string (textOf? [] units.reverse)) :: done, .between)
    else if c = '\\' then some (done, .escape units)
    else if c.toNat < 0x20 then none
    else some (done, .string (.char c :: units))
  | .escape units =>
    if c = 'u' then some (done, .hex units 4 0)
    else (escaped? c).map fun e => (done, .string (.char e :: units))
  | .hex units missing value =>
    (Hex.digitValue? c).map fun d =>
      if missing ≤ 1 then (done, .string (.code (value * 16 + d) :: units))
      else (done, .hex units (missing - 1) (value * 16 + d))

/-- The tokens of a text. -/
def scan (text : String) : Option (List Token) := do
  let (done, mode) ← text.toList.foldlM step ([], .between)
  match mode with
  | .between => return done.reverse
  | .word chars => return (← ofWord? chars.reverse) :: done |>.reverse
  | _ => none

end Token

end Json

end OpcWire
