import OpcWire.Generator.Definition
import OpcWire.Source.Basic

/-!
# Source text of structures

A structure is written with its fields, its wire form field by field in the order of declaration,
and what it is as the body of an extension object. Requests and responses also give access to
their header.
-/

namespace OpcWire

namespace Definition

/-- The declaration of a field. -/
def Field.declarationLine (f : Field) : String :=
  "pub " ++ f.ident ++ ": " ++ f.type.render ++ ","

/-- The argument that names a field of the structure `owner` in errors. -/
def Field.context (owner : String) (f : Field) : String :=
  ".map_err(|e| e.in_field(" ++ Source.quote owner ++ ", " ++ Source.quote f.name ++ "))?"

/-- The lines that write a field. -/
def Field.encodeLines (owner : String) (f : Field) : List String :=
  ("self." ++ f.ident) :: Source.indent [".encode(buf)", f.context owner ++ ";"]

/-- The lines that read a field. -/
def Field.decodeLines (owner : String) (f : Field) : List String :=
  (f.ident ++ ": BinaryDecode::decode(buf)") :: Source.indent [f.context owner ++ ","]

variable (d : Definition)

/-- Name of the buffer in the wire form; an underscore marks a buffer that is not used. -/
def bufferName : String := if d.fields.isEmpty then "_buf" else "buf"

/-- What a structure is and what it extends. -/
def descriptionLine : String :=
  match d.base with
  | some base => "/// `" ++ d.name ++ "` extension object, derived from `" ++ base ++ "`."
  | none => "/// `" ++ d.name ++ "` extension object."

/-- The declaration of a structure. -/
def declarationLines : List String :=
  if d.fields.isEmpty then ["pub struct " ++ d.name ++ " \x7b\x7d"]
  else Source.block ("pub struct " ++ d.name) (d.fields.map Field.declarationLine)

/-- The lines that write a structure. -/
def encodeLines : List String :=
  Source.encodeImpl d.name d.bufferName (d.fields.flatMap (Field.encodeLines d.name) ++ ["Ok(())"])

/-- The lines that read a structure. -/
def decodeLines : List String :=
  Source.decodeImpl d.name d.bufferName
    (Source.blockWith "Ok(Self " ")" (d.fields.flatMap (Field.decodeLines d.name)))

/-- The functions that view a body as one with the given kind of header. -/
def viewLines (function capability : String) : List String :=
  [""] ++ Source.block
    ("fn as_" ++ function ++ "(&self) -> Option<&dyn " ++ capability ++ ">") ["Some(self)"] ++
  [""] ++ Source.block
    ("fn as_" ++ function ++ "_mut(&mut self) -> Option<&mut dyn " ++ capability ++ ">")
    ["Some(self)"]

/-- What a structure is as the body of an extension object. -/
def bodyLines : List String :=
  Source.block ("impl ExtensionObjectBody for " ++ d.name)
    (Source.block "fn type_name(&self) -> &'static str" [Source.quote d.name] ++ [""] ++
      Source.block "fn encoding_id(&self) -> u32" ["id::" ++ d.encodingConstant] ++
      (if d.isRequest then viewLines "request" "Request" else []) ++
      (if d.isResponse then viewLines "response" "Response" else []))

/-- The access to the header in the field `ident`. -/
def headerLines (capability header ident : String) : List String :=
  [""] ++ Source.block ("impl " ++ capability ++ " for " ++ d.name)
    (Source.block ("fn header(&self) -> Option<&" ++ header ++ ">")
      ["self." ++ ident ++ ".as_deref()"] ++ [""] ++
    Source.block ("fn set_header(&mut self, header: " ++ header ++ ")")
      ["self." ++ ident ++ " = Some(Box::new(header));"])

/-- The access to the header of a request or response. -/
def capabilityLines : List String :=
  match d.fields with
  | [] => []
  | first :: _ =>
    if d.isRequest then d.headerLines "Request" "RequestHeader" first.ident
    else if d.isResponse then d.headerLines "Response" "ResponseHeader" first.ident
    else []

/-- The lines of a structure. -/
def objectLines : List String :=
  ["", d.descriptionLine, "#[derive(Debug, Clone, Default, PartialEq)]"] ++ d.declarationLines ++
  [""] ++ d.encodeLines ++ [""] ++ d.decodeLines ++ [""] ++ d.bodyLines ++ d.capabilityLines

end Definition

namespace Source

/-- The capability of giving access to a header. -/
def capabilityLines (capability kind header : String) : List String :=
  ["",
    "/// Capability shared by every service " ++ kind ++ ": access to its `" ++ header ++ "`."] ++
  block ("pub trait " ++ capability ++ ": ExtensionObjectBody")
    ["fn header(&self) -> Option<&" ++ header ++ ">;",
      "fn set_header(&mut self, header: " ++ header ++ ");"]

/-- The capabilities of requests and responses. -/
def messageCapabilityLines : List String :=
  capabilityLines "Request" "request" "RequestHeader" ++
    capabilityLines "Response" "response" "ResponseHeader"

end Source

end OpcWire
