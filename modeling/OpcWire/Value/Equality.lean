import OpcWire.Value.Basic

/-!
# Equality of values

Values are compared part by part; floating-point numbers the way IEEE 754 does, so that a value
with a not-a-number in it is not the same as itself. Bodies of different structures differ.
-/

namespace OpcWire

mutual

/-- Whether two values count as equal. -/
def Value.same : {t : WireType} → Value t → Value t → Bool
  | _, .scalar (s := s) a, .scalar b => s.codec.same a b
  | _, .bodiless a, .bodiless b => a == b
  | _, .holding a s v, .holding b s' w =>
    a == b && if h : s' = s then v.same (h ▸ w) else false
  | _, .record f, .record g => f.same g
  | _, .nullArray, .nullArray => true
  | _, .array f, .array g => f.same g
  | _, .absent, .absent => true
  | _, .present v, .present w => v.same w
  | _, _, _ => false

/-- Whether all fields count as equal. -/
def Fields.same : {l : Layout} → Fields l → Fields l → Bool
  | _, .nil, .nil => true
  | _, .cons v f, .cons w g => v.same w && f.same g

/-- Whether there are as many elements on both sides and all count as equal. -/
def Items.same : {t : WireType} → Items t → Items t → Bool
  | _, .nil, .nil => true
  | _, .cons v f, .cons w g => v.same w && f.same g
  | _, _, _ => false

end

end OpcWire
