import OpcWire.Proofs.OpenBodies
import OpcWire.Proofs.Value.Lengths
import OpcWire.Proofs.Value.Trail

/-!
# Errors tell the truth

`errors_true` says what an error is worth. Where reading a value fails, there is a way of the reader
to a spot in the bytes at which the root cause holds (`CodecError.Holds`): bytes are missing where
fewer are left than are needed, a length is refused that is negative or beyond the limit, a type id
is unknown that the registry does not have. A cause that only writing can have never occurs.

Writing can fail in one way only, and the failure tells the first length that is too large.
-/

namespace OpcWire

theorem WireType.exists_leads_of_run {t : WireType} {bytes : List UInt8} {cause : CodecError}
    (h : t.decode.run bytes = .error cause) :
    ∃ path u spot, t.Leads ⟨bytes, 0⟩ path u spot ∧ cause = cause.rootCause.inFields path ∧
      cause.rootCause.Holds u spot := by
  obtain ⟨openBodies, hread⟩ := Reader.run_eq_error_iff.1 h
  obtain ⟨path, u, spot, root, hleads, hroot, rfl⟩ := explains_decode hread
  rw [CodecError.rootCause_inFields, hroot.rootCause_eq]
  exact ⟨path, u, spot, hleads, rfl, hroot⟩

/-- **Errors tell the truth.** Where reading a value fails, its root cause holds at a spot to which
the reader comes, and the error names the fields on the way there. Writing a value fails if and
only if one of its lengths does not fit in a signed prefix of 32 bits, and tells the first such
length. -/
theorem errors_true (t : WireType) :
    (∀ (bytes : List UInt8) (cause : CodecError), t.codec.decode.run bytes = .error cause →
      ∃ path u spot, t.Leads ⟨bytes, 0⟩ path u spot ∧ cause = cause.rootCause.inFields path ∧
        cause.rootCause.Holds u spot) ∧
    ∀ v : Value t,
      ((∃ cause, t.codec.encodeToBytes v = .error cause) ↔ ∃ n ∈ v.lengths, 2 ^ 31 - 1 < n) ∧
      ∀ cause, t.codec.encodeToBytes v = .error cause →
        ∃ n, v.lengths.find? (2 ^ 31 - 1 < ·) = some n ∧ cause.rootCause = .lengthOverflow n := by
  refine ⟨fun bytes cause h => t.exists_leads_of_run h, fun v => ⟨?_, fun cause h => ?_⟩⟩
  · exact v.isLimitedBy.exists_error_iff
  · exact v.isLimitedBy.of_error h

/-- A byte string of `n` zeros. -/
def zeros (n : Nat) : Value (.scalar .byteString) :=
  .scalar (s := .byteString) (.ofBytes (List.replicate n 0))

theorem lengths_zeros (n : Nat) : (zeros n).lengths = [n] :=
  congrArg (fun k => [k]) List.length_replicate

/-- An unknown mask in the header of a fault is blamed on the extension object in which it stands,
and a byte string one byte too long cannot be written. -/
theorem errors_true_brokenFault :
    (∃ path u spot,
      Structure.serviceFault.wireType.Leads ⟨brokenFaultBytes.drop 4, 0⟩ path u spot ∧
        path.map Prod.snd = ["ResponseHeader", "AdditionalHeader"] ∧ u = .extensionObject) ∧
    ∃ cause, (WireType.scalar .byteString).codec.encodeToBytes (zeros (2 ^ 31)) = .error cause ∧
      cause.rootCause = .lengthOverflow (2 ^ 31) := by
  constructor
  · obtain ⟨path, u, spot, hleads, hcause, hholds⟩ :=
      (errors_true Structure.serviceFault.wireType).1 (brokenFaultBytes.drop 4)
        (.inField "ServiceFault" "ResponseHeader"
          (.inField "ResponseHeader" "AdditionalHeader" (.unsupportedBodyMask 2))) rfl
    have hfields := congrArg CodecError.fields hcause
    rw [CodecError.fields_inFields, hholds.fields_eq, List.append_nil] at hfields
    exact ⟨path, u, spot, hleads, hfields.symm, hholds.1⟩
  · obtain ⟨hfails, hfirst⟩ := (errors_true (.scalar .byteString)).2 (zeros (2 ^ 31))
    rw [lengths_zeros] at hfails hfirst
    obtain ⟨cause, hcause⟩ := hfails.2 ⟨2 ^ 31, List.mem_singleton_self _, by decide⟩
    obtain ⟨n, hn, hroot⟩ := hfirst cause hcause
    obtain rfl : n = 2 ^ 31 := List.mem_singleton.1 (List.mem_of_find?_eq_some hn)
    exact ⟨cause, hcause, hroot⟩

end OpcWire
