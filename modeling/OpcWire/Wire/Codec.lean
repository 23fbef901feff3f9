import OpcWire.Wire.Encoding
import OpcWire.Wire.Reader

/-!
# Codecs

A `Codec α` knows how values of `α` are written, how they are read, which of them is the zero
value, and when two of them count as equal. Arrays and references are codecs over the codec of
their element (`Codec.array`, `Codec.nullable`).
-/

namespace OpcWire

/-- Writing, reading, zero value and equality of one type of values. -/
structure Codec (α : Type) where
  /-- What is written for a value. -/
  encode : α → Encoding
  /-- How a value is read. -/
  decode : Reader α
  /-- The value that an absent reference stands for. -/
  zero : α
  /-- Whether two values count as equal. -/
  same : α → α → Bool

namespace Codec

variable {α : Type}

/-- The bytes of a value, or why it cannot be written. -/
def encodeToBytes (c : Codec α) (a : α) : Except CodecError (List UInt8) :=
  (c.encode a).toExcept

/-- The value whose encoding is the whole of `bytes`. -/
def decodeExact (c : Codec α) (bytes : List UInt8) : Except CodecError α :=
  match c.decode.run bytes with
  | .error cause => .error cause
  | .ok (a, rest) => if rest.isEmpty then .ok a else .error (.trailingBytes rest.length)

/-- The codec of a value that is held as an unsigned word of `width` bytes. -/
def ofWord [BEq α] (width : Nat) (toNat : α → Nat) (ofNat : Nat → α) : Codec α where
  encode a := .word width (toNat a)
  decode := ofNat <$> .word width
  zero := ofNat 0
  same := (· == ·)

/-- The codec of arrays; `none` is the null array, which differs from the empty one. -/
def array (c : Codec α) : Codec (Option (List α)) where
  encode items := .array (items.map (·.map c.encode))
  decode := .array c.decode
  zero := none
  same
    | none, none => true
    | some as, some bs => as.isEqv bs c.same
    | _, _ => false

/-- The codec of references; an absent one is written as the zero value of its target, and what
is read is never absent. -/
def nullable (c : Codec α) : Codec (Option α) where
  encode
    | none => c.encode c.zero
    | some a => c.encode a
  decode := some <$> c.decode
  zero := none
  same
    | none, none => true
    | some a, some b => c.same a b
    | _, _ => false

end Codec

end OpcWire
