/-!
# Little-endian words

A word of `width` bytes is the number whose base-256 digits are the bytes, least significant
first.
-/

namespace OpcWire

namespace LittleEndian

/-- The last `width` base-256 digits of `n`, least significant first. -/
def toBytes : (width : Nat) → (n : Nat) → List UInt8
  | 0, _ => []
  | width + 1, n => UInt8.ofNat n :: toBytes width (n / 256)

/-- The number with the given base-256 digits, least significant first. -/
def ofBytes : List UInt8 → Nat
  | [] => 0
  | b :: bytes => b.toNat + 256 * ofBytes bytes

@[simp] theorem length_toBytes (width n : Nat) : (toBytes width n).length = width := by
  induction width generalizing n with
  | zero => rfl
  | succ w ih => simp [toBytes, ih]

end LittleEndian

end OpcWire
