import OpcWire.Proofs.RoundTrip

/-!
# The limits of reading are exact

What can be written can be read exactly if it keeps all three limits, whichever types it is made
of, and a limit is the only thing that can be in the way. In the other direction no bytes make a
reader return a value beyond a limit, or one with an absent reference. A message counts as the
first of the bodies that are open around what is in it.
-/

namespace OpcWire

/-! ### Diagnostics of any depth -/

/-- Diagnostics with `n` inner levels. -/
def nestedDiagnostics : Nat → DiagnosticInfo
  | 0 => .plain .empty
  | n + 1 => .around .empty (nestedDiagnostics n)

theorem depth_nestedDiagnostics (n : Nat) : (nestedDiagnostics n).depth = n := by
  induction n with
  | zero => rfl
  | succ n ih => exact congrArg (· + 1) ih

theorem encode_nestedDiagnostics (n : Nat) :
    (nestedDiagnostics n).encode = .ofBytes (List.replicate n 0x40 ++ [0]) := by
  induction n with
  | zero => rfl
  | succ n ih =>
    rw [nestedDiagnostics, DiagnosticInfo.encode, ih]
    rfl

theorem within_nestedDiagnostics (n : Nat) :
    (Value.scalar (s := .diagnosticInfo) (nestedDiagnostics n)).extent.Within maxBodyDepth ↔
      n ≤ DiagnosticInfo.maxDepth := by
  have hdepth : Scalar.diagnosticInfo.diagnosticDepth (nestedDiagnostics n) = n :=
    depth_nestedDiagnostics n
  rw [Value.extent, hdepth, Extent.within_diagnostics]

/-! ### All values -/

/-- **The limits are exact.** What was written is read if and only if it is within the limits, and
refused because of a limit if not; what is read is within the limits and complete. -/
theorem limits_exact :
    (∀ (t : WireType) (v : Value t) (bytes : List UInt8), t.codec.encodeToBytes v = .ok bytes →
      ((∃ w rest, t.codec.decode.run bytes = .ok (w, rest)) ↔ v.extent.Within maxBodyDepth) ∧
        (¬ v.extent.Within maxBodyDepth →
          ∃ cause, t.codec.decode.run bytes = .error cause ∧ cause.IsLimit)) ∧
    (∀ (b : Body) (bytes : List UInt8), (encodeMessage b).toExcept = .ok bytes →
      ((∃ w rest, decodeMessage.run bytes = .ok (w, rest)) ↔
        b.value.extent.inBody.Within maxBodyDepth) ∧
        (¬ b.value.extent.inBody.Within maxBodyDepth →
          ∃ cause, decodeMessage.run bytes = .error cause ∧ cause.IsLimit)) ∧
    (∀ (t : WireType) (v : Value t) (bytes rest : List UInt8),
      t.codec.decode.run bytes = .ok (v, rest) → v.extent.Within maxBodyDepth ∧ v.IsComplete) ∧
    ∀ (b : Body) (bytes rest : List UInt8), decodeMessage.run bytes = .ok (b, rest) →
      b.value.extent.inBody.Within maxBodyDepth ∧ b.value.IsComplete := by
  refine ⟨fun t v bytes hwritten => ?_, fun b bytes hwritten => ?_,
    fun t v bytes rest hread => ?_, fun b bytes rest hread => ?_⟩
  · have hencode : v.encode = .ofBytes bytes := Encoding.toExcept_eq_ok_iff.1 hwritten
    exact (WireType.readsIf_decode hencode).run_iff
  · have hencode := Encoding.toExcept_eq_ok_iff.1 hwritten
    exact (readsIf_decodeMessage hencode).run_iff
  · obtain ⟨k, -, h⟩ := t.ensures_decode.run_eq_ok hread
    exact ⟨h.within, h.normal ▸ v.isComplete_normal⟩
  · obtain ⟨k, -, h⟩ := ensures_decodeMessage.run_eq_ok hread
    exact ⟨h.within, h.normal ▸ b.value.isComplete_normal⟩

/-- Diagnostics are refused with 101 inner levels and read with 100, and a message with absent
header comes back with its header filled in. -/
theorem limits_exact_nestedDiagnostics :
    (∃ cause, (WireType.scalar .diagnosticInfo).codec.decode.run
      (List.replicate 101 0x40 ++ [0]) = .error cause ∧ cause.IsLimit) ∧
    (∃ w rest, (WireType.scalar .diagnosticInfo).codec.decode.run
      (List.replicate 100 0x40 ++ [0]) = .ok (w, rest) ∧ w.extent.Within maxBodyDepth) ∧
    ∃ b rest bytes, decodeMessage.run bytes = .ok (b, rest) ∧ b.value.IsComplete := by
  obtain ⟨hvalues, hmessages, hvalue, hmessage⟩ := limits_exact
  have hwritten (n : Nat) : (WireType.scalar .diagnosticInfo).codec.encodeToBytes
      (.scalar (s := .diagnosticInfo) (nestedDiagnostics n)) =
        .ok (List.replicate n 0x40 ++ [0]) :=
    Encoding.toExcept_eq_ok_iff.2 (encode_nestedDiagnostics n)
  have hfault := hmessages (.zero .serviceFault) headlessFaultBytes rfl
  refine ⟨?_, ?_, ?_⟩
  · exact (hvalues _ _ _ (hwritten 101)).2 (mt (within_nestedDiagnostics 101).1 (by decide))
  · obtain ⟨w, rest, hread⟩ :=
      (hvalues _ _ _ (hwritten 100)).1.2 ((within_nestedDiagnostics 100).2 (by decide))
    exact ⟨w, rest, hread, (hvalue _ w _ rest hread).1⟩
  · obtain ⟨b, rest, hread⟩ := hfault.1.2 (by decide)
    exact ⟨b, rest, _, hread, (hmessage b _ rest hread).2⟩

end OpcWire
