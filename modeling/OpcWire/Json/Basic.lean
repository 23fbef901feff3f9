/-!
# JSON documents

`Json` is the syntax of a document. A number is kept as it was written, so that `1.0` and `1`
stay apart; a string that holds half of a surrogate pair has no text. `Json.integer?` and its
companions read a document as a value of a given kind.
-/

namespace OpcWire

/-- A JSON document. -/
inductive Json
  /-- The null document. -/
  | null
  /-- A truth value. -/
  | bool (b : Bool)
  /-- A number, as it was written. -/
  | number (lexeme : String)
  /-- A string; `none` if its escapes do not pair up. -/
  | string (text : Option String)
  /-- A list of documents. -/
  | array (items : List Json)
  /-- Named documents in the order in which they were written. -/
  | object (members : List (Option String × Json))
  deriving Repr, Inhabited

namespace Json

/-- The text of a string. -/
def text? : Json → Option String
  | string text => text
  | _ => none

/-- The value of decimal digits, at least one. -/
def digitsValue? : List Char → Option Nat
  | [] => none
  | digits =>
    digits.foldlM (fun n c => if c.isDigit then some (10 * n + (c.toNat - 48)) else none) 0

/-- The value of a number that is written as an integer. Zero with a sign is none. -/
def integer? : Json → Option Int
  | number lexeme =>
    match lexeme.toList with
    | ['-', '0'] => none
    | '-' :: digits => (digitsValue? digits).map fun n => -(n : Int)
    | digits => (digitsValue? digits).map Int.ofNat
  | _ => none

/-- The value of a number that is written as an integer between two bounds. -/
def integerIn? (low high : Int) (j : Json) : Option Int :=
  j.integer?.filter fun n => low ≤ n ∧ n ≤ high

/-- The items of a list. -/
def items? : Json → Option (List Json)
  | array items => some items
  | _ => none

/-- The first member called `name`. -/
def member? (name : String) : Json → Option Json
  | object members => (members.find? (·.1 == some name)).map (·.2)
  | _ => none

/-- A document with a text. -/
def ofText (text : String) : Json := string (some text)

/-- A document with an integer. -/
def ofInt (n : Int) : Json := number (toString n)

/-- An object with the given members. -/
def ofMembers (members : List (String × Json)) : Json :=
  object (members.map fun (name, j) => (some name, j))

end Json

end OpcWire
