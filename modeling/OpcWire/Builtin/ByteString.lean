import OpcWire.Wire.Codec

/-!
# Byte strings

Opaque bytes behind their number. The null byte string and the empty one differ.
-/

namespace OpcWire

/-- A sequence of bytes, or null. -/
structure ByteString where
  /-- The bytes; `none` for the null byte string. -/
  content : Option (List UInt8)
  deriving DecidableEq, Repr, Ord

namespace ByteString

/-- The null byte string. -/
def null : ByteString := ⟨none⟩

/-- The byte string of given bytes, which is not null. -/
def ofBytes (bytes : List UInt8) : ByteString := ⟨some bytes⟩

/-- Whether this is the null byte string. -/
def isNull (b : ByteString) : Bool := b.content.isNone

/-- The bytes, none for the null byte string. -/
def bytes (b : ByteString) : List UInt8 := b.content.getD []

/-- What is written for a byte string. -/
def encode (b : ByteString) : Encoding :=
  match b.content with
  | none => .length none
  | some bytes => .length (some bytes.length) ++ .ofBytes bytes

/-- How a byte string is read. -/
def decode : Reader ByteString := do
  match ← Reader.length with
  | none => return null
  | some count => return ofBytes (← Reader.take count)

/-- Byte strings. -/
def codec : Codec ByteString where
  encode := encode
  decode := decode
  zero := null
  same := (· == ·)

end ByteString

end OpcWire
