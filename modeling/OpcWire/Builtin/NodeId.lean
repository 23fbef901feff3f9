import OpcWire.Builtin.ByteString
import OpcWire.Builtin.Guid
import OpcWire.Builtin.Text

/-!
# Node identifiers

A `NodeId` is an identifier within a namespace. Its leading byte on the wire selects one of six
forms (`NodeId.Form`); numeric identifiers take the shortest form that holds them. In an
`ExpandedNodeId` the two top bits of the leading byte announce a namespace URI and a server index
behind the identifier; a plain `NodeId` with either bit is refused.
-/

namespace OpcWire

/-- What identifies a node within its namespace. Identifiers are ordered by kind first. -/
inductive Identifier
  /-- A number. -/
  | numeric (id : UInt32)
  /-- A name. -/
  | string (id : String)
  /-- A globally unique identifier. -/
  | guid (id : Guid)
  /-- Bytes without a meaning of their own. -/
  | byteString (id : ByteString)
  deriving DecidableEq, Repr, Ord

/-- Identifier of a node; node identifiers are ordered by namespace first. -/
structure NodeId where
  /-- Index of the namespace. -/
  namespaceIndex : UInt16
  /-- The identifier within it. -/
  identifier : Identifier
  deriving DecidableEq, Repr, Ord

namespace NodeId

/-- A numeric identifier. -/
def numeric (namespaceIndex : UInt16) (id : UInt32) : NodeId := ⟨namespaceIndex, .numeric id⟩

/-- The null identifier: number zero in namespace zero. -/
def null : NodeId := numeric 0 0

/-- Whether this is the null identifier. -/
def isNull (n : NodeId) : Bool := n == null

/-- The number of a numeric identifier in namespace 0. -/
def standardNumber? (n : NodeId) : Option UInt32 :=
  match n.identifier with
  | .numeric id => if n.namespaceIndex = 0 then some id else none
  | _ => none

/-- The text of an identifier: the namespace unless it is zero, a letter for the kind, and the
identifier. -/
def render (n : NodeId) : String :=
  (if n.namespaceIndex = 0 then "" else s!"ns={n.namespaceIndex};") ++
    match n.identifier with
    | .numeric id => s!"i={id}"
    | .string id => "s=" ++ id
    | .guid id => "g=" ++ id.render
    | .byteString id => "b=" ++ Hex.run id.bytes

/-! ### Forms on the wire -/

/-- The bits of the leading byte that select the form. -/
def formMask : UInt8 := 0x3F

/-- Flag of a namespace URI behind the identifier. -/
def namespaceUriFlag : UInt8 := 0x80

/-- Flag of a server index behind the identifier. -/
def serverIndexFlag : UInt8 := 0x40

/-- The six ways to write an identifier. -/
inductive Form
  /-- A number in one byte, in namespace 0. -/
  | twoByte
  /-- A namespace in one byte and a number in two. -/
  | fourByte
  /-- A namespace in two bytes and a number in four. -/
  | numeric
  /-- A namespace and a string. -/
  | string
  /-- A namespace and a globally unique identifier. -/
  | guid
  /-- A namespace and a byte string. -/
  | byteString
  deriving DecidableEq, Repr

/-- The form bits of a leading byte. -/
def Form.toByte : Form → UInt8
  | twoByte => 0
  | fourByte => 1
  | numeric => 2
  | string => 3
  | guid => 4
  | byteString => 5

/-- The form that form bits select. -/
def Form.ofByte? (bits : UInt8) : Option Form :=
  [Form.twoByte, .fourByte, .numeric, .string, .guid, .byteString].find? (·.toByte == bits)

/-- The form in which an identifier is written: of the numeric forms the first that holds it. -/
def form (n : NodeId) : Form :=
  match n.identifier with
  | .numeric id =>
    if n.namespaceIndex = 0 ∧ id ≤ 0xFF then .twoByte
    else if n.namespaceIndex ≤ 0xFF ∧ id ≤ 0xFFFF then .fourByte
    else .numeric
  | .string _ => .string
  | .guid _ => .guid
  | .byteString _ => .byteString

/-- What follows the leading byte of an identifier. -/
def encodeBody (n : NodeId) : Encoding :=
  match n.identifier with
  | .numeric id =>
    match n.form with
    | .twoByte => .word 1 id.toNat
    | .fourByte => .word 1 n.namespaceIndex.toNat ++ .word 2 id.toNat
    | _ => .word 2 n.namespaceIndex.toNat ++ .word 4 id.toNat
  | .string id => .word 2 n.namespaceIndex.toNat ++ Codec.string.encode id
  | .guid id => .word 2 n.namespaceIndex.toNat ++ Guid.codec.encode id
  | .byteString id => .word 2 n.namespaceIndex.toNat ++ ByteString.codec.encode id

/-- What is written for an identifier whose leading byte carries `flags`. -/
def encodeFlagged (n : NodeId) (flags : UInt8) : Encoding :=
  .byte (n.form.toByte ||| flags) ++ n.encodeBody

/-- Read what follows a leading byte of the given form. -/
def decodeBody : Form → Reader NodeId
  | .twoByte => do
    let id ← Reader.byte
    return numeric 0 id.toUInt32
  | .fourByte => do
    let namespaceIndex ← Reader.byte
    let id ← Reader.uint16
    return numeric namespaceIndex.toUInt16 id.toUInt32
  | .numeric => do
    let namespaceIndex ← Reader.uint16
    let id ← Reader.uint32
    return numeric namespaceIndex id
  | .string => do
    let namespaceIndex ← Reader.uint16
    let id ← Codec.string.decode
    return ⟨namespaceIndex, .string id⟩
  | .guid => do
    let namespaceIndex ← Reader.uint16
    let id ← Guid.codec.decode
    return ⟨namespaceIndex, .guid id⟩
  | .byteString => do
    let namespaceIndex ← Reader.uint16
    let id ← ByteString.codec.decode
    return ⟨namespaceIndex, .byteString id⟩

/-- Read an identifier and the leading byte it came with. -/
def decodeFlagged : Reader (NodeId × UInt8) := do
  let leading ← Reader.byte
  match Form.ofByte? (leading &&& formMask) with
  | none => .fail (.unsupportedNodeIdForm leading)
  | some form => return (← decodeBody form, leading)

/-- Read an identifier whose leading byte carries no flag. -/
def decode : Reader NodeId := do
  let (id, leading) ← decodeFlagged
  if leading &&& ~~~formMask = 0 then return id
  else .fail (.unsupportedNodeIdForm leading)

/-- Node identifiers. -/
def codec : Codec NodeId where
  encode n := n.encodeFlagged 0
  decode := decode
  zero := null
  same := (· == ·)

end NodeId

/-! ### Expanded node identifiers -/

/-- A node identifier with the namespace's URI, if given, and the server that holds the node. -/
structure ExpandedNodeId where
  /-- The identifier. -/
  nodeId : NodeId
  /-- URI of the namespace, when it is given by name. -/
  namespaceUri : Option String
  /-- Index of the server; zero is the local one. -/
  serverIndex : UInt32
  deriving DecidableEq, Repr

namespace ExpandedNodeId

/-- A plain identifier on the local server. -/
def ofNodeId (nodeId : NodeId) : ExpandedNodeId := ⟨nodeId, none, 0⟩

/-- The flags of the leading byte: which of the two members follow. -/
def flags (x : ExpandedNodeId) : UInt8 :=
  (if x.namespaceUri.isSome then NodeId.namespaceUriFlag else 0) |||
    (if x.serverIndex = 0 then 0 else NodeId.serverIndexFlag)

/-- What is written for an expanded identifier. -/
def encode (x : ExpandedNodeId) : Encoding :=
  x.nodeId.encodeFlagged x.flags ++
    (match x.namespaceUri with
      | none => .empty
      | some uri => Codec.string.encode uri) ++
    (if x.serverIndex = 0 then .empty else Codec.uint32.encode x.serverIndex)

/-- How an expanded identifier is read. -/
def decode : Reader ExpandedNodeId := do
  let (nodeId, leading) ← NodeId.decodeFlagged
  let namespaceUri ←
    if leading &&& NodeId.namespaceUriFlag = 0 then pure none
    else some <$> Codec.string.decode
  let serverIndex ←
    if leading &&& NodeId.serverIndexFlag = 0 then pure 0
    else Codec.uint32.decode
  return { nodeId, namespaceUri, serverIndex }

/-- Expanded node identifiers. -/
def codec : Codec ExpandedNodeId where
  encode := encode
  decode := decode
  zero := ofNodeId NodeId.null
  same := (· == ·)

end ExpandedNodeId

end OpcWire
