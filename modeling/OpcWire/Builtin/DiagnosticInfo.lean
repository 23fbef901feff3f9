import OpcWire.Builtin.StatusCode
import OpcWire.Builtin.Text

/-!
# Diagnostics

Vendor diagnostics about a result. Every member may be absent, and a leading mask says which are
present. Diagnostics nest: one level may hold the diagnostics of an inner operation, so a
`DiagnosticInfo` is a chain of `DiagnosticInfo.Details`. Readers follow at most `maxDepth` inner
levels.
-/

namespace OpcWire

namespace DiagnosticInfo

/-- The members of one level. The numbers are indices into the string table of the response. -/
structure Details where
  /-- Symbolic name of the error. -/
  symbolicId : Option Int32
  /-- Namespace of the symbolic name. -/
  namespaceUri : Option Int32
  /-- Locale of the text. -/
  locale : Option Int32
  /-- Text about the error. -/
  localizedText : Option Int32
  /-- Vendor-specific detail. -/
  additionalInfo : Option String
  /-- Result of the inner operation. -/
  innerStatusCode : Option StatusCode
  deriving DecidableEq, Repr

/-- Details of which every member is absent. -/
def Details.empty : Details := ⟨none, none, none, none, none, none⟩

end DiagnosticInfo

/-- Vendor diagnostics about a result. -/
inductive DiagnosticInfo
  /-- Diagnostics without inner diagnostics. -/
  | plain (details : DiagnosticInfo.Details)
  /-- Diagnostics that hold those of an inner operation. -/
  | around (details : DiagnosticInfo.Details) (inner : DiagnosticInfo)
  deriving DecidableEq, Repr

namespace DiagnosticInfo

instance : Inhabited DiagnosticInfo := ⟨plain .empty⟩

/-- Greatest number of inner levels that a reader follows. -/
def maxDepth : Nat := 100

/-- The members of the outermost level. -/
def details : DiagnosticInfo → Details
  | plain d => d
  | around d _ => d

/-- The inner diagnostics. -/
def inner? : DiagnosticInfo → Option DiagnosticInfo
  | plain _ => none
  | around _ inner => some inner

/-- Number of inner levels. -/
def depth : DiagnosticInfo → Nat
  | plain _ => 0
  | around _ inner => inner.depth + 1

/-! ### Mask -/

/-- Mask bit of the symbolic name. -/
def symbolicIdBit : UInt8 := 0x01

/-- Mask bit of the namespace. -/
def namespaceUriBit : UInt8 := 0x02

/-- Mask bit of the text. -/
def localizedTextBit : UInt8 := 0x04

/-- Mask bit of the locale. -/
def localeBit : UInt8 := 0x08

/-- Mask bit of the vendor-specific detail. -/
def additionalInfoBit : UInt8 := 0x10

/-- Mask bit of the inner result. -/
def innerStatusCodeBit : UInt8 := 0x20

/-- Mask bit of the inner diagnostics. -/
def innerBit : UInt8 := 0x40

/-- `bit` if the member is present. -/
def bitIf {α : Type} (member : Option α) (bit : UInt8) : UInt8 :=
  if member.isSome then bit else 0

/-- The mask bits of the members that are present. -/
def Details.mask (d : Details) : UInt8 :=
  bitIf d.symbolicId symbolicIdBit ||| bitIf d.namespaceUri namespaceUriBit |||
    bitIf d.localizedText localizedTextBit ||| bitIf d.locale localeBit |||
    bitIf d.additionalInfo additionalInfoBit ||| bitIf d.innerStatusCode innerStatusCodeBit

/-! ### Wire form -/

/-- Write a member if it is present. -/
def encodeMember {α : Type} (codec : Codec α) : Option α → Encoding
  | none => .empty
  | some a => codec.encode a

/-- Read a member if `mask` has its bit. -/
def decodeMember {α : Type} (codec : Codec α) (mask bit : UInt8) : Reader (Option α) :=
  if mask &&& bit = 0 then return none else some <$> codec.decode

/-- What follows the mask for the members of one level. -/
def Details.encode (d : Details) : Encoding :=
  encodeMember Codec.int32 d.symbolicId ++ encodeMember Codec.int32 d.namespaceUri ++
    encodeMember Codec.int32 d.locale ++ encodeMember Codec.int32 d.localizedText ++
    encodeMember Codec.string d.additionalInfo ++ encodeMember StatusCode.codec d.innerStatusCode

/-- Read the members of one level that `mask` announces. -/
def Details.decode (mask : UInt8) : Reader Details := do
  let symbolicId ← decodeMember Codec.int32 mask symbolicIdBit
  let namespaceUri ← decodeMember Codec.int32 mask namespaceUriBit
  let locale ← decodeMember Codec.int32 mask localeBit
  let localizedText ← decodeMember Codec.int32 mask localizedTextBit
  let additionalInfo ← decodeMember Codec.string mask additionalInfoBit
  let innerStatusCode ← decodeMember StatusCode.codec mask innerStatusCodeBit
  return { symbolicId, namespaceUri, locale, localizedText, additionalInfo, innerStatusCode }

/-- What is written for diagnostics: for each level the mask and the members. -/
def encode : DiagnosticInfo → Encoding
  | plain d => .byte d.mask ++ d.encode
  | around d inner => .byte (d.mask ||| innerBit) ++ d.encode ++ inner.encode

/-- Read diagnostics that may hold `allowed` more levels. The unknown top bit of a mask has no
effect. -/
def decodeWithin (allowed : Nat) : Reader DiagnosticInfo := do
  let mask ← Reader.byte
  let details ← Details.decode mask
  if mask &&& innerBit = 0 then return plain details
  else match allowed with
    | 0 => .fail (.nestingTooDeep maxDepth)
    | allowed + 1 => around details <$> decodeWithin allowed

/-- Diagnostics. -/
def codec : Codec DiagnosticInfo where
  encode := encode
  decode := decodeWithin maxDepth
  zero := plain .empty
  same := (· == ·)

end DiagnosticInfo

end OpcWire
