import Mathlib.Algebra.Group.Nat.Defs
import OpcWire.Wire.LittleEndian

/-!
# The numbers that words hold

A word of `width` bytes holds the numbers below `256 ^ width` (`LittleEndian.ofBytes_lt`), and of
any other number its remainder (`LittleEndian.ofBytes_toBytes`).
-/

namespace OpcWire

namespace LittleEndian

theorem ofBytes_lt (bytes : List UInt8) : ofBytes bytes < 256 ^ bytes.length := by
  induction bytes with
  | nil => simp [ofBytes]
  | cons b bs ih =>
    have := b.toNat_lt
    rw [ofBytes, List.length_cons, Nat.pow_succ]
    omega

theorem ofBytes_toBytes (width n : Nat) : ofBytes (toBytes width n) = n % 256 ^ width := by
  induction width generalizing n with
  | zero => simp [toBytes, ofBytes, Nat.mod_one]
  | succ w ih =>
    have hb : (UInt8.ofNat n).toNat = n % 256 := UInt8.toNat_ofNat'
    rw [toBytes, ofBytes, ih, hb, Nat.pow_succ, Nat.mul_comm (256 ^ w) 256, Nat.mod_mul]

end LittleEndian

end OpcWire
