import Mathlib.Algebra.Group.Nat.Defs
import OpcWire.Proofs.Value.Normal

/-!
# Values that equal what is read back

A value comes back in normal form. Whether this counts as equal to the value itself is decided by
three properties: no reference may be absent (`Value.IsComplete`), bodies must travel under the
identifiers of their own encodings (`Value.HasOwnTypeIds`), and since numbers are compared as IEEE
754 does, none of them may be a NaN (`Value.HasNoNaN`). `Value.same_normal_iff` says that the three
together are exact.
-/

namespace OpcWire

/-! ### Numbers that differ from themselves -/

/-- The pattern `bits`, with a fraction of `fraction` bits and an exponent of `exponent` bits above
it, is not a number: all bits of the exponent are set, and some bit of the fraction. -/
def Ieee.IsNaN (exponent fraction bits : Nat) : Prop :=
  bits / 2 ^ fraction % 2 ^ exponent = 2 ^ exponent - 1 ∧ bits % 2 ^ fraction ≠ 0

/-- The 32-bit number is a NaN. -/
def Binary32.IsNaN (x : Binary32) : Prop := Ieee.IsNaN 8 23 x.bits.toNat

/-- The 64-bit number is a NaN. -/
def Binary64.IsNaN (x : Binary64) : Prop := Ieee.IsNaN 11 52 x.bits.toNat

/-- A pattern equals itself unless its magnitude exceeds that of the infinities. -/
theorem Ieee.same_self_iff (size infinity bits : Nat) :
    same size infinity bits bits = true ↔ magnitude size bits ≤ infinity := by
  simp [same]

theorem Binary32.same_self_iff (x : Binary32) : x.same x = true ↔ ¬ x.IsNaN := by
  rw [same, Ieee.same_self_iff, IsNaN, Ieee.IsNaN, Ieee.magnitude, Nat.one_shiftLeft]
  omega

theorem Binary64.same_self_iff (x : Binary64) : x.same x = true ↔ ¬ x.IsNaN := by
  rw [same, Ieee.same_self_iff, IsNaN, Ieee.IsNaN, Ieee.magnitude, Nat.one_shiftLeft]
  omega

namespace Scalar

/-- A scalar value is a floating-point number that is a NaN. -/
def IsNaN : (s : Scalar) → s.Carrier → Prop
  | float, x => x.IsNaN
  | double, x => x.IsNaN
  | _, _ => False

theorem same_self_iff (s : Scalar) (x : s.Carrier) : s.codec.same x x = true ↔ ¬ s.IsNaN x := by
  cases s with
  | float => exact Binary32.same_self_iff x
  | double => exact Binary64.same_self_iff x
  | _ => exact iff_of_true (beq_self_eq_true x) not_false

end Scalar

/-! ### Parts of a value -/

mutual

/-- No number in the value is a NaN, not even inside bodies. -/
def Value.HasNoNaN : {t : WireType} → Value t → Prop
  | _, .scalar (s := s) v => ¬ s.IsNaN v
  | _, .bodiless _ => True
  | _, .holding _ _ body => body.HasNoNaN
  | _, .record fields => fields.HasNoNaN
  | _, .nullArray => True
  | _, .array items => items.HasNoNaN
  | _, .absent => True
  | _, .present v => v.HasNoNaN

/-- No number in any field is a NaN. -/
def Fields.HasNoNaN : {l : Layout} → Fields l → Prop
  | _, .nil => True
  | _, .cons v rest => v.HasNoNaN ∧ rest.HasNoNaN

/-- No number in any element is a NaN. -/
def Items.HasNoNaN : {t : WireType} → Items t → Prop
  | _, .nil => True
  | _, .cons v rest => v.HasNoNaN ∧ rest.HasNoNaN

end

mutual

/-- Every extension object with a body, at any depth, holds the identifier of its body's encoding
as its type id. -/
def Value.HasOwnTypeIds : {t : WireType} → Value t → Prop
  | _, .scalar _ => True
  | _, .bodiless _ => True
  | _, .holding typeId s body => typeId = .numeric 0 s.encodingId ∧ body.HasOwnTypeIds
  | _, .record fields => fields.HasOwnTypeIds
  | _, .nullArray => True
  | _, .array items => items.HasOwnTypeIds
  | _, .absent => True
  | _, .present v => v.HasOwnTypeIds

/-- Every body in any field travels under its own identifier. -/
def Fields.HasOwnTypeIds : {l : Layout} → Fields l → Prop
  | _, .nil => True
  | _, .cons v rest => v.HasOwnTypeIds ∧ rest.HasOwnTypeIds

/-- Every body in any element travels under its own identifier. -/
def Items.HasOwnTypeIds : {t : WireType} → Items t → Prop
  | _, .nil => True
  | _, .cons v rest => v.HasOwnTypeIds ∧ rest.HasOwnTypeIds

end

/-! ### Equality with the normal form -/

mutual

/-- **A value counts as equal to its normal form** exactly if it is complete, its bodies travel
under their own identifiers, and it has no NaN in it. -/
theorem Value.same_normal_iff : {t : WireType} → (v : Value t) →
    (v.normal.same v = true ↔ v.IsComplete ∧ v.HasOwnTypeIds ∧ v.HasNoNaN)
  | _, .scalar (s := s) x => by
    have hscalar : s.codec.same x x = true ↔ True ∧ True ∧ ¬ s.IsNaN x := by
      rw [true_and, true_and, s.same_self_iff]
    exact hscalar
  | _, .bodiless typeId => iff_of_true (beq_self_eq_true typeId) ⟨trivial, trivial, trivial⟩
  | _, .holding typeId s body => by
    rw [Value.normal, Value.object, Value.same, Bool.and_eq_true, beq_iff_eq, eq_comm, dif_pos rfl,
      body.same_normal_iff, and_left_comm, Value.IsComplete, Value.HasOwnTypeIds,
      Value.HasNoNaN, and_assoc]
  | _, .record fields => fields.same_normal_iff
  | _, .nullArray => iff_of_true rfl ⟨trivial, trivial, trivial⟩
  | _, .array items => items.same_normal_iff
  | _, .absent => iff_of_false Bool.false_ne_true And.left
  | _, .present v => v.same_normal_iff

theorem Fields.same_normal_iff : {l : Layout} → (fields : Fields l) →
    (fields.normal.same fields = true ↔
      fields.IsComplete ∧ fields.HasOwnTypeIds ∧ fields.HasNoNaN)
  | _, .nil => iff_of_true rfl ⟨trivial, trivial, trivial⟩
  | _, .cons v rest => by
    rw [Fields.normal, Fields.same, Bool.and_eq_true, v.same_normal_iff, rest.same_normal_iff,
      and_and_and_comm, and_and_and_comm (a := v.HasOwnTypeIds), Fields.IsComplete,
      Fields.HasOwnTypeIds, Fields.HasNoNaN]

theorem Items.same_normal_iff : {t : WireType} → (items : Items t) →
    (items.normal.same items = true ↔
      items.IsComplete ∧ items.HasOwnTypeIds ∧ items.HasNoNaN)
  | _, .nil => iff_of_true rfl ⟨trivial, trivial, trivial⟩
  | _, .cons v rest => by
    rw [Items.normal, Items.same, Bool.and_eq_true, v.same_normal_iff, rest.same_normal_iff,
      and_and_and_comm, and_and_and_comm (a := v.HasOwnTypeIds), Items.IsComplete,
      Items.HasOwnTypeIds, Items.HasNoNaN]

end

end OpcWire
