import OpcWire.Wire.Error
import OpcWire.Wire.LittleEndian

/-!
# Writing values as bytes

An `Encoding` is what writing a value leaves behind: the bytes written before the first failure,
and that failure if there was one. Encodings are put one after the other with `++`, which writes
nothing more once something has failed.
-/

namespace OpcWire

/-- The bytes written for a value, and the failure that stopped the writing, if any. -/
structure Encoding where
  /-- The bytes written. -/
  bytes : List UInt8
  /-- What stopped the writing. -/
  failure : Option CodecError
  deriving DecidableEq, Repr

namespace Encoding

/-- Write exactly `bytes`. -/
def ofBytes (bytes : List UInt8) : Encoding := ⟨bytes, none⟩

/-- Write nothing. -/
def empty : Encoding := ofBytes []

/-- Fail with `cause` before anything is written. -/
def fail (cause : CodecError) : Encoding := ⟨[], some cause⟩

/-- Write `a` and then, unless `a` fails, `b`. -/
protected def append (a b : Encoding) : Encoding :=
  match a.failure with
  | none => ⟨a.bytes ++ b.bytes, b.failure⟩
  | some _ => a

instance : Append Encoding := ⟨Encoding.append⟩

/-- Write encodings one after the other. -/
def concat (parts : List Encoding) : Encoding := parts.foldr (· ++ ·) empty

/-- All bytes of a value, or the failure. -/
def toExcept (e : Encoding) : Except CodecError (List UInt8) :=
  match e.failure with
  | none => .ok e.bytes
  | some cause => .error cause

/-- Name the field that is being written in any failure. -/
def inField (typeName field : String) (e : Encoding) : Encoding :=
  { e with failure := e.failure.map (.inField typeName field) }

theorem append_def (a b : Encoding) :
    a ++ b = match a.failure with
      | none => ⟨a.bytes ++ b.bytes, b.failure⟩
      | some _ => a := rfl

@[simp] theorem append_empty (a : Encoding) : a ++ empty = a := by
  obtain ⟨bytes, failure⟩ := a
  cases failure <;> simp [append_def, empty, ofBytes]

theorem append_assoc (a b c : Encoding) : a ++ b ++ c = a ++ (b ++ c) := by
  obtain ⟨as, fa⟩ := a
  obtain ⟨bs, fb⟩ := b
  cases fa <;> cases fb <;> simp [append_def]

theorem toExcept_eq_ok_iff {e : Encoding} {bytes : List UInt8} :
    e.toExcept = .ok bytes ↔ e = ofBytes bytes := by
  obtain ⟨written, failure⟩ := e
  cases failure <;> simp [toExcept, ofBytes]

/-! ### Words and prefixed sequences -/

/-- Write the last `width` base-256 digits of `n`, least significant first. -/
def word (width n : Nat) : Encoding := ofBytes (LittleEndian.toBytes width n)

/-- Write one byte. -/
def byte (b : UInt8) : Encoding := ofBytes [b]

/-- Greatest length that a prefix can hold. -/
def maxLength : Nat := 0x7FFFFFFF

/-- Write a length prefix; `none` is the null marker, all bits set. -/
def length : Option Nat → Encoding
  | none => word 4 0xFFFFFFFF
  | some n => if n ≤ maxLength then word 4 n else fail (.lengthOverflow n)

/-- Write a length prefix and the elements. -/
def array : Option (List Encoding) → Encoding
  | none => length none
  | some items => length (some items.length) ++ concat items

/-- Write a value behind the number of its bytes. The value is written aside first, so that a
failure in it leaves no part of it behind. -/
def delimited (e : Encoding) : Encoding :=
  match e.failure with
  | none => length (some e.bytes.length) ++ ofBytes e.bytes
  | some cause => fail cause

end Encoding

end OpcWire
