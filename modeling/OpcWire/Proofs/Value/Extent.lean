import OpcWire.Proofs.Scalar
import OpcWire.Value.Decode

/-!
# How far a value goes towards the limits

The reader has three limits: the length of arrays, the inner levels of diagnostics, and the
number of extension object bodies that are open at once. `Value.extent` measures a value against
all three, the bodies inside it included, and `Extent.Within` compares an extent with the limits.
Diagnostics are counted afresh in every body, arrays one by one; only bodies add up on the way
inwards.
-/

namespace OpcWire

/-- What a value asks of the limits of the reader. -/
structure Extent where
  /-- Number of elements of the longest array. -/
  longestArray : Nat
  /-- Greatest number of inner levels of diagnostics. -/
  diagnosticDepth : Nat
  /-- Greatest number of extension object bodies around one another. -/
  bodyDepth : Nat
  deriving DecidableEq, Repr

namespace Extent

/-- No array, no inner diagnostics and no body. -/
def zero : Extent := ⟨0, 0, 0⟩

/-- The extent of two values side by side. -/
def sup (a b : Extent) : Extent where
  longestArray := max a.longestArray b.longestArray
  diagnosticDepth := max a.diagnosticDepth b.diagnosticDepth
  bodyDepth := max a.bodyDepth b.bodyDepth

/-- The extent of a body seen from outside. -/
def inBody (e : Extent) : Extent := { e with bodyDepth := e.bodyDepth + 1 }

/-- The limits are kept, `bodies` being the number of bodies that may still be opened. -/
structure Within (e : Extent) (bodies : Nat) : Prop where
  longestArray : e.longestArray ≤ maxArrayLength
  diagnosticDepth : e.diagnosticDepth ≤ DiagnosticInfo.maxDepth
  bodyDepth : e.bodyDepth ≤ bodies

variable {a b e : Extent} {bodies n : Nat}

theorem within_iff : e.Within bodies ↔ e.longestArray ≤ maxArrayLength ∧
    e.diagnosticDepth ≤ DiagnosticInfo.maxDepth ∧ e.bodyDepth ≤ bodies :=
  ⟨fun h => ⟨h.1, h.2, h.3⟩, fun h => ⟨h.1, h.2.1, h.2.2⟩⟩

instance : Decidable (e.Within bodies) := decidable_of_iff' _ within_iff

theorem within_zero : zero.Within bodies := ⟨Nat.zero_le _, Nat.zero_le _, Nat.zero_le _⟩

/-- Two values keep the limits side by side if both do. -/
theorem within_sup : (a.sup b).Within bodies ↔ a.Within bodies ∧ b.Within bodies := by
  simp only [within_iff, sup, Nat.max_le]
  constructor
  · rintro ⟨⟨ha, hb⟩, ⟨ha', hb'⟩, ha'', hb''⟩
    exact ⟨⟨ha, ha', ha''⟩, hb, hb', hb''⟩
  · rintro ⟨⟨ha, ha', ha''⟩, hb, hb', hb''⟩
    exact ⟨⟨ha, hb⟩, ⟨ha', hb'⟩, ha'', hb''⟩

/-- A body keeps the limits if one more may be opened and the limits are kept inside it. -/
theorem within_inBody {d : Nat} : e.inBody.Within (maxBodyDepth - d) ↔
    d < maxBodyDepth ∧ e.Within (maxBodyDepth - (d + 1)) := by
  simp only [within_iff, inBody]
  constructor
  · rintro ⟨harray, hdepth, hbody⟩
    exact ⟨by omega, harray, hdepth, by omega⟩
  · rintro ⟨hd, harray, hdepth, hbody⟩
    exact ⟨harray, hdepth, by omega⟩

theorem within_array : (Extent.mk n 0 0).Within bodies ↔ n ≤ maxArrayLength := by
  simp [within_iff]

theorem within_diagnostics : (Extent.mk 0 n 0).Within bodies ↔ n ≤ DiagnosticInfo.maxDepth := by
  simp [within_iff]

end Extent

mutual

/-- What a value asks of the limits. -/
def Value.extent : {t : WireType} → Value t → Extent
  | _, .scalar (s := s) v => ⟨0, s.diagnosticDepth v, 0⟩
  | _, .bodiless _ => .zero
  | _, .holding _ _ body => body.extent.inBody
  | _, .record fields => fields.extent
  | _, .nullArray => .zero
  | _, .array items => .sup ⟨items.toList.length, 0, 0⟩ items.extent
  | _, .absent => .zero
  | _, .present v => v.extent

/-- What the fields of a structure ask of the limits. -/
def Fields.extent : {l : Layout} → Fields l → Extent
  | _, .nil => .zero
  | _, .cons v rest => v.extent.sup rest.extent

/-- What the elements of an array ask of the limits, their number aside. -/
def Items.extent : {t : WireType} → Items t → Extent
  | _, .nil => .zero
  | _, .cons v rest => v.extent.sup rest.extent

end

end OpcWire
