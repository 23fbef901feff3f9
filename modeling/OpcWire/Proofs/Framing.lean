import OpcWire.Proofs.RoundTrip
import OpcWire.Proofs.Value.PrefixCode

/-!
# Values and messages delimit themselves

A reader never looks behind the value it returns, and recognises no value in a part of its bytes:
the bytes of a value, cut anywhere, are reported as incomplete and as nothing else. The cut may
fall into a character of a string, into a length or into a body, where the registry, the limits
or the bytes left over could be complained of first; that none of them is follows from the order
in which readers take bytes and look at them (`OpcWire.Proofs.Wire.PrefixCode`).

Nothing is said of bytes that do not start with a value. Whether they are reported as incomplete
or as malformed depends on what is found first.
-/

namespace OpcWire

/-- **Values and messages delimit themselves.** What is read from the front of any bytes is read
from that front part whatever follows it, and when the part is cut short, bytes are missing. -/
theorem self_delimiting (bytes : List UInt8) (d : Nat) :
    (∀ (t : WireType) (v : Value t) (next : Cursor), t.codec.decode ⟨bytes, d⟩ = .ok v next →
      ∃ used, bytes = used ++ next.rest ∧
        (∀ after, t.codec.decode ⟨used ++ after, d⟩ = .ok v ⟨after, d⟩) ∧
        ∀ k < used.length, ∃ cause openBodies needed remaining,
          t.codec.decode ⟨used.take k, d⟩ = .error cause openBodies ∧
            cause.rootCause = .unexpectedEnd needed remaining ∧ remaining < needed) ∧
    ∀ (b : Body) (next : Cursor), decodeMessage ⟨bytes, d⟩ = .ok b next →
      ∃ used, bytes = used ++ next.rest ∧
        (∀ after, decodeMessage ⟨used ++ after, d⟩ = .ok b ⟨after, d⟩) ∧
        ∀ k < used.length, ∃ cause openBodies needed remaining,
          decodeMessage ⟨used.take k, d⟩ = .error cause openBodies ∧
            cause.rootCause = .unexpectedEnd needed remaining ∧ remaining < needed := by
  constructor
  · intro t v next h
    exact t.prefixCode_decode.delimits h
  · intro b next h
    exact prefixCode_decodeMessage.delimits h

/-- A string that is cut inside its only character, and a fault message that is cut anywhere. -/
theorem self_delimiting_cut :
    (∃ cause openBodies needed remaining,
      (WireType.scalar .string).codec.decode ⟨[2, 0, 0, 0, 0xC3], 0⟩ = .error cause openBodies ∧
        cause.rootCause = .unexpectedEnd needed remaining ∧ remaining < needed) ∧
    ∀ k < headlessFaultBytes.length, ∃ cause openBodies needed remaining,
      decodeMessage ⟨headlessFaultBytes.take k, 0⟩ = .error cause openBodies ∧
        cause.rootCause = .unexpectedEnd needed remaining ∧ remaining < needed := by
  obtain ⟨text, htext, -, hcut⟩ := (self_delimiting [2, 0, 0, 0, 0xC3, 0xA9] 0).1
    (.scalar .string) (.scalar (s := .string) "é") ⟨[], 0⟩ rfl
  obtain ⟨fault, hfault, -, hcut'⟩ := (self_delimiting headlessFaultBytes 0).2
    ⟨.serviceFault, Structure.serviceFault.wireType.filledZero⟩ ⟨[], 0⟩ rfl
  rw [List.append_nil] at htext hfault
  subst htext hfault
  exact ⟨hcut 5 (by decide), hcut'⟩

end OpcWire
