import OpcWire.Json.Token

/-!
# Reading JSON text

`Json.parse` puts the tokens of a text together to a document. The arrays and objects that are
open around the current token are kept on a stack, so that documents may nest to any depth.
-/

namespace OpcWire

namespace Json

/-- An array or object that is not closed yet, with the parts before the current one, last
first. -/
inductive Frame
  /-- An array. -/
  | items (done : List Json)
  /-- An object, with the name of the current member. -/
  | members (done : List (Option String × Json)) (name : Option String)
  deriving Repr

/-- What the next token has to be. -/
inductive Expectation
  /-- A document. -/
  | document
  /-- A document, or the end of the array that was just opened. -/
  | firstItem
  /-- A name, or the end of the object that was just opened. -/
  | firstName
  /-- A name, after other members. -/
  | name (done : List (Option String × Json))
  /-- The colon behind a name. -/
  | colon (done : List (Option String × Json)) (name : Option String)
  /-- What follows a complete document. -/
  | next (j : Json)
  deriving Repr

/-- Read a token where a document has to start. -/
def beginDocument (stack : List Frame) : Token → Option (Expectation × List Frame)
  | .leaf j => some (.next j, stack)
  | .openArray => some (.firstItem, stack)
  | .openObject => some (.firstName, stack)
  | _ => none

/-- Read a token. -/
def step (state : Expectation × List Frame) (token : Token) :
    Option (Expectation × List Frame) :=
  match state, token with
  | (.document, stack), t => beginDocument stack t
  | (.firstItem, stack), .closeArray => some (.next (.array []), stack)
  | (.firstItem, stack), t => beginDocument (.items [] :: stack) t
  | (.firstName, stack), .closeObject => some (.next (.object []), stack)
  | (.firstName, stack), .leaf (.string n) => some (.colon [] n, stack)
  | (.name done, stack), .leaf (.string n) => some (.colon done n, stack)
  | (.colon done n, stack), .colon => some (.document, .members done n :: stack)
  | (.next j, .items done :: stack), .comma => some (.document, .items (j :: done) :: stack)
  | (.next j, .items done :: stack), .closeArray =>
    some (.next (.array (j :: done).reverse), stack)
  | (.next j, .members done n :: stack), .comma => some (.name ((n, j) :: done), stack)
  | (.next j, .members done n :: stack), .closeObject =>
    some (.next (.object ((n, j) :: done).reverse), stack)
  | _, _ => none

/-- The document that a text spells. -/
def parse (text : String) : Option Json := do
  let tokens ← Token.scan text
  match ← tokens.foldlM step (.document, []) with
  | (.next j, []) => some j
  | _ => none

end Json

end OpcWire
