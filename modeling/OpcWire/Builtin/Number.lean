import OpcWire.Wire.Codec

/-!
# Truth values, integers and floating-point numbers

Integers are little-endian words of their own width. A truth value is one byte, read as true
unless it is zero. Floating-point numbers are held as their IEEE 754 bit patterns, so that
reading and writing keep every pattern; they count as equal the way IEEE 754 compares them.
-/

namespace OpcWire

namespace Codec

/-- Truth values: one byte, zero for false. -/
def boolean : Codec Bool := ofWord 1 (fun b => b.toNat) (fun n => n != 0)

/-- Unsigned 8-bit integers. -/
def uint8 : Codec UInt8 := ofWord 1 UInt8.toNat UInt8.ofNat

/-- Unsigned 16-bit integers. -/
def uint16 : Codec UInt16 := ofWord 2 UInt16.toNat UInt16.ofNat

/-- Unsigned 32-bit integers. -/
def uint32 : Codec UInt32 := ofWord 4 UInt32.toNat UInt32.ofNat

/-- Unsigned 64-bit integers. -/
def uint64 : Codec UInt64 := ofWord 8 UInt64.toNat UInt64.ofNat

/-- Signed 8-bit integers, in two's complement. -/
def int8 : Codec Int8 := ofWord 1 (·.toUInt8.toNat) (fun n => (UInt8.ofNat n).toInt8)

/-- Signed 16-bit integers, in two's complement. -/
def int16 : Codec Int16 := ofWord 2 (·.toUInt16.toNat) (fun n => (UInt16.ofNat n).toInt16)

/-- Signed 32-bit integers, in two's complement. -/
def int32 : Codec Int32 := ofWord 4 (·.toUInt32.toNat) (fun n => (UInt32.ofNat n).toInt32)

/-- Signed 64-bit integers, in two's complement. -/
def int64 : Codec Int64 := ofWord 8 (·.toUInt64.toNat) (fun n => (UInt64.ofNat n).toInt64)

end Codec

/-! ### Floating-point numbers -/

namespace Ieee

/-- The bits of a pattern below its sign bit, which is bit number `size`. -/
def magnitude (size bits : Nat) : Nat := bits % (1 <<< size)

/-- Equality of two patterns as IEEE 754 has it. `size` is the number of the sign bit and
`infinity` the magnitude of the infinities: larger magnitudes are not numbers and equal nothing,
and the two zeros are equal. -/
def same (size infinity a b : Nat) : Bool :=
  magnitude size a ≤ infinity && magnitude size b ≤ infinity &&
    (a == b || (magnitude size a == 0 && magnitude size b == 0))

end Ieee

/-- The bit pattern of a 32-bit floating-point number. -/
structure Binary32 where
  /-- Sign, exponent and fraction, most significant first. -/
  bits : UInt32
  deriving DecidableEq, Repr, Inhabited

/-- The bit pattern of a 64-bit floating-point number. -/
structure Binary64 where
  /-- Sign, exponent and fraction, most significant first. -/
  bits : UInt64
  deriving DecidableEq, Repr, Inhabited

/-- Equality of 32-bit floating-point numbers. -/
def Binary32.same (a b : Binary32) : Bool :=
  Ieee.same 31 0x7F800000 a.bits.toNat b.bits.toNat

/-- Equality of 64-bit floating-point numbers. -/
def Binary64.same (a b : Binary64) : Bool :=
  Ieee.same 63 0x7FF0000000000000 a.bits.toNat b.bits.toNat

/-- 32-bit floating-point numbers. -/
def Binary32.codec : Codec Binary32 :=
  { Codec.ofWord 4 (·.bits.toNat) (fun n => ⟨UInt32.ofNat n⟩) with same := Binary32.same }

/-- 64-bit floating-point numbers. -/
def Binary64.codec : Codec Binary64 :=
  { Codec.ofWord 8 (·.bits.toNat) (fun n => ⟨UInt64.ofNat n⟩) with same := Binary64.same }

end OpcWire
