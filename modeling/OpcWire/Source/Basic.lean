/-!
# Source text

Source text is a list of lines. `Source.block` puts lines between braces and indents them;
`Source.header` is what every generated file starts with.
-/

namespace OpcWire

namespace Source

/-- The text of lines, each of which ends with a line break. -/
def render (lines : List String) : String := String.join (lines.map (· ++ "\n"))

/-- A line one level further in; an empty line stays empty. -/
def indentLine (line : String) : String := if line.isEmpty then line else "    " ++ line

/-- Lines one level further in. -/
def indent (lines : List String) : List String := lines.map indentLine

/-- Lines between an opening brace behind `head` and a closing brace before `tail`. -/
def blockWith (head tail : String) (body : List String) : List String :=
  (head ++ "\x7b") :: indent body ++ ["\x7d" ++ tail]

/-- Lines between braces behind `head`. -/
def block (head : String) (body : List String) : List String := blockWith (head ++ " ") "" body

/-- A text in quotes. -/
def quote (text : String) : String := "\"" ++ text ++ "\""

/-- The first line of every generated file. -/
def marker : String := "// Code generated by uabin-gen. DO NOT EDIT."

/-- The first lines of a generated file that uses everything in the module `prelude`, if one is
given. -/
def header (prelude : Option String) : List String :=
  marker :: match prelude with
    | none => []
    | some path => ["", "#[allow(unused_imports)]", "use " ++ path ++ "::*;"]

/-- The implementation of encoding for the type `name`, into the buffer called `buffer`. -/
def encodeImpl (name buffer : String) (body : List String) : List String :=
  block ("impl BinaryEncode for " ++ name) <|
    block ("fn encode(&self, " ++ buffer ++ ": &mut ::bytes::BytesMut) -> Result<(), CodecError>")
      body

/-- The implementation of decoding for the type `name`, from the buffer called `buffer`. -/
def decodeImpl (name buffer : String) (body : List String) : List String :=
  block ("impl BinaryDecode for " ++ name) <|
    block ("fn decode(" ++ buffer ++ ": &mut ::bytes::Bytes) -> Result<Self, CodecError>") body

end Source

end OpcWire
