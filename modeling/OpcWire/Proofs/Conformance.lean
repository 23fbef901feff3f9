import OpcWire.Conformance
import OpcWire.Proofs.RoundTrip
import OpcWire.Proofs.Value.Equality

/-!
# Which conformance cases pass

What a case comes to is settled by how its value is written. Unless it is written as the bytes of
the case, the bytes are not looked at any further. If it is, they are read to the end or refused
because of a limit, and what is read is the normal form of the value. A case passes exactly if the
value equals that, so that some values pass with no bytes at all.
-/

namespace OpcWire

namespace ConformanceCase

/-! ### One case -/

section Codec

variable {α : Type} {codec : Codec α} {c : ConformanceCase α}

theorem check_of_unwritten {cause : CodecError}
    (h : codec.encodeToBytes c.value = .error cause) :
    c.check codec = .error (.encode cause) := by
  rw [check, h]

/-- Other bytes are reported as such, whether those of the case can be read or not. -/
theorem check_of_mismatch {written : List UInt8}
    (h : codec.encodeToBytes c.value = .ok written) (hne : written ≠ c.bytes) :
    c.check codec = .error (.bytesMismatch c.bytes written) := by
  simp only [check, h, ne_eq, hne, not_false_eq_true, if_true]

theorem check_of_refused {cause : CodecError} (h : codec.encodeToBytes c.value = .ok c.bytes)
    (hread : codec.decode.run c.bytes = .error cause) :
    c.check codec = .error (.decode cause) := by
  simp only [check, h, hread, ne_eq, not_true_eq_false, if_false]

theorem check_of_read {a : α} (h : codec.encodeToBytes c.value = .ok c.bytes)
    (hread : codec.decode.run c.bytes = .ok (a, [])) :
    c.check codec = if codec.same a c.value then .ok () else .error .valueMismatch := by
  simp only [check, h, hread, ne_eq, not_true_eq_false, if_false, List.isEmpty_nil]

end Codec

section Value

variable {t : WireType} {c : ConformanceCase (Value t)}

/-- A value beyond the limits is written, but its bytes are refused. -/
theorem check_of_not_within (h : t.codec.encodeToBytes c.value = .ok c.bytes)
    (hlimits : ¬ c.value.extent.Within maxBodyDepth) :
    ∃ cause, cause.IsLimit ∧ c.check t.codec = .error (.decode cause) := by
  have hencode : c.value.encode = .ofBytes c.bytes := Encoding.toExcept_eq_ok_iff.1 h
  obtain ⟨cause, hread, hlimit⟩ := (WireType.readsIf_decode hencode).run_iff.2 hlimits
  exact ⟨cause, hlimit, check_of_refused h hread⟩

/-- Within the limits the value is compared with its normal form. -/
theorem check_of_within (h : t.codec.encodeToBytes c.value = .ok c.bytes)
    (hlimits : c.value.extent.Within maxBodyDepth) :
    c.check t.codec = if c.value.normal.same c.value then .ok () else .error .valueMismatch := by
  have hread := t.decode_of_encode h hlimits []
  rw [List.append_nil] at hread
  exact check_of_read h hread

/-- **One case.** The first stage that fails settles it: writing, comparing bytes, the limits, and
comparing values. -/
theorem check_spec :
    (∃ cause, t.codec.encodeToBytes c.value = .error cause ∧
      c.check t.codec = .error (.encode cause)) ∨
    (∃ written, t.codec.encodeToBytes c.value = .ok written ∧ written ≠ c.bytes ∧
      c.check t.codec = .error (.bytesMismatch c.bytes written)) ∨
    (t.codec.encodeToBytes c.value = .ok c.bytes ∧ ¬ c.value.extent.Within maxBodyDepth ∧
      ∃ cause, cause.IsLimit ∧ c.check t.codec = .error (.decode cause)) ∨
    (t.codec.encodeToBytes c.value = .ok c.bytes ∧ c.value.extent.Within maxBodyDepth ∧
      c.check t.codec = if c.value.normal.same c.value then .ok () else .error .valueMismatch) := by
  cases hwritten : t.codec.encodeToBytes c.value with
  | error cause => exact .inl ⟨cause, rfl, check_of_unwritten hwritten⟩
  | ok written =>
    refine .inr ?_
    by_cases hbytes : written = c.bytes
    · refine .inr ?_
      rw [hbytes] at hwritten ⊢
      by_cases hlimits : c.value.extent.Within maxBodyDepth
      · exact .inr ⟨rfl, hlimits, check_of_within hwritten hlimits⟩
      · exact .inl ⟨rfl, hlimits, check_of_not_within hwritten hlimits⟩
    · exact .inl ⟨written, rfl, hbytes, check_of_mismatch hwritten hbytes⟩

theorem check_eq_ok_iff : c.check t.codec = .ok () ↔
    t.codec.encodeToBytes c.value = .ok c.bytes ∧ c.value.extent.Within maxBodyDepth ∧
      c.value.IsComplete ∧ c.value.HasOwnTypeIds ∧ c.value.HasNoNaN := by
  rw [← c.value.same_normal_iff]
  rcases c.check_spec with ⟨cause, hwritten, hcheck⟩ | ⟨written, hwritten, hne, hcheck⟩ |
    ⟨hwritten, hlimits, cause, -, hcheck⟩ | ⟨hwritten, hlimits, hcheck⟩
  · simp [hwritten, hcheck]
  · simp [hwritten, hne, hcheck]
  · simp [hlimits, hcheck]
  · simp [hwritten, hlimits, hcheck]

theorem check_ne_trailingBytes (remaining : Nat) :
    c.check t.codec ≠ .error (.trailingBytes remaining) := by
  rcases c.check_spec with ⟨cause, -, hcheck⟩ | ⟨written, -, -, hcheck⟩ |
    ⟨-, -, cause, -, hcheck⟩ | ⟨-, -, hcheck⟩
  · simp [hcheck]
  · simp [hcheck]
  · simp [hcheck]
  · rw [hcheck]
    split <;> simp

end Value

/-! ### Runs -/

section Run

variable {α : Type} {codec : Codec α} {c : ConformanceCase α} {cases : List (ConformanceCase α)}

theorem checkAll_cons_of_ok (h : c.check codec = .ok ()) :
    checkAll codec (c :: cases) = checkAll codec cases := by
  rw [checkAll, h]

theorem checkAll_cons_of_error {failure : NonConformance} (h : c.check codec = .error failure) :
    checkAll codec (c :: cases) = .error (c.name, failure) := by
  rw [checkAll, h]

theorem checkAll_eq_ok_iff :
    checkAll codec cases = .ok () ↔ ∀ c ∈ cases, c.check codec = .ok () := by
  induction cases with
  | nil => simp [checkAll]
  | cons c rest ih =>
    rw [List.forall_mem_cons, ← ih]
    cases hcheck : c.check codec with
    | ok u => simp [checkAll_cons_of_ok hcheck]
    | error failure => simp [checkAll_cons_of_error hcheck]

theorem checkAll_eq_error_iff {name : String} {failure : NonConformance} :
    checkAll codec cases = .error (name, failure) ↔
      ∃ before c after, cases = before ++ c :: after ∧ (∀ p ∈ before, p.check codec = .ok ()) ∧
        c.check codec = .error failure ∧ c.name = name := by
  induction cases with
  | nil => simp [checkAll]
  | cons c rest ih =>
    cases hcheck : c.check codec with
    | ok u =>
      rw [checkAll_cons_of_ok hcheck, ih]
      constructor
      · rintro ⟨before, first, after, rfl, hbefore, hfirst⟩
        refine ⟨c :: before, first, after, rfl, ?_, hfirst⟩
        exact List.forall_mem_cons.2 ⟨hcheck, hbefore⟩
      · rintro ⟨before, first, after, heq, hbefore, hfirst, hname⟩
        cases before with
        | nil =>
          -- the first case passes, so that it is not the one that fails
          obtain ⟨rfl, rfl⟩ := List.cons.inj heq
          simp [hcheck] at hfirst
        | cons p before =>
          obtain ⟨rfl, rfl⟩ := List.cons.inj heq
          exact ⟨before, first, after, rfl, (List.forall_mem_cons.1 hbefore).2, hfirst, hname⟩
    | error cause =>
      rw [checkAll_cons_of_error hcheck, Except.error.injEq, Prod.mk.injEq]
      constructor
      · rintro ⟨rfl, rfl⟩
        exact ⟨[], c, rest, rfl, by simp, hcheck, rfl⟩
      · rintro ⟨before, first, after, heq, hbefore, hfirst, hname⟩
        cases before with
        | nil =>
          obtain ⟨rfl, rfl⟩ := List.cons.inj heq
          simpa [hcheck, and_comm] using And.intro hfirst hname
        | cons p before =>
          -- the first case fails, so that it does not come before another one that does
          obtain ⟨rfl, rfl⟩ := List.cons.inj heq
          simp [hcheck] at hbefore

end Run

end ConformanceCase

open ConformanceCase

/-- **Conformance is exact.** A case passes if and only if its value is written as its bytes and
is read back as an equal value: it keeps the limits, no reference in it is absent, its bodies are
under their own identifiers and none of its numbers is a NaN. A value that is written otherwise is
reported as such before anything is read, and bytes are never left over. A run of cases passes if
all of them do, and fails with the first that does not. -/
theorem conformance_exact (t : WireType) :
    (∀ c : ConformanceCase (Value t),
      (c.check t.codec = .ok () ↔
        t.codec.encodeToBytes c.value = .ok c.bytes ∧ c.value.extent.Within maxBodyDepth ∧
          c.value.IsComplete ∧ c.value.HasOwnTypeIds ∧ c.value.HasNoNaN) ∧
      (∀ remaining, c.check t.codec ≠ .error (.trailingBytes remaining)) ∧
      (∀ cause, t.codec.encodeToBytes c.value = .error cause →
        c.check t.codec = .error (.encode cause)) ∧
      ∀ written, t.codec.encodeToBytes c.value = .ok written → written ≠ c.bytes →
        c.check t.codec = .error (.bytesMismatch c.bytes written)) ∧
    ∀ cases : List (ConformanceCase (Value t)),
      (checkAll t.codec cases = .ok () ↔ ∀ c ∈ cases, c.check t.codec = .ok ()) ∧
      ∀ name failure, checkAll t.codec cases = .error (name, failure) ↔
        ∃ before c after, cases = before ++ c :: after ∧
          (∀ p ∈ before, p.check t.codec = .ok ()) ∧
            c.check t.codec = .error failure ∧ c.name = name := by
  refine ⟨fun c => ⟨check_eq_ok_iff, check_ne_trailingBytes, ?_, ?_⟩, fun cases => ⟨?_, ?_⟩⟩
  · exact fun cause hwritten => check_of_unwritten hwritten
  · exact fun written hwritten hne => check_of_mismatch hwritten hne
  · exact checkAll_eq_ok_iff
  · exact fun name failure => checkAll_eq_error_iff

/-- A number, and one that is a NaN, as cases that are written as their bytes. -/
def doubleCases : List (ConformanceCase (Value (.scalar .double))) :=
  [ ⟨"zero", .scalar (s := .double) ⟨0⟩, [0, 0, 0, 0, 0, 0, 0, 0]⟩,
    ⟨"not a number", .scalar (s := .double) ⟨0x7FF8000000000000⟩, [0, 0, 0, 0, 0, 0, 0xF8, 0x7F]⟩ ]

/-- The number passes and the NaN does not, so that the run fails with it. An object under a
foreign type id does not pass, and bytes that cannot be read are told apart from those written. -/
theorem conformance_exact_doubles :
    checkAll (WireType.scalar .double).codec doubleCases =
        .error ("not a number", .valueMismatch) ∧
      ConformanceCase.check WireType.extensionObject.codec
        ⟨"foreign", foreignObject, foreignObjectBytes⟩ ≠ .ok () ∧
      ConformanceCase.check WireType.extensionObject.codec ⟨"foreign", foreignObject, [0xFF]⟩ =
        .error (.bytesMismatch [0xFF] foreignObjectBytes) := by
  obtain ⟨-, hruns⟩ := conformance_exact (.scalar .double)
  obtain ⟨hcases, -⟩ := conformance_exact .extensionObject
  refine ⟨((hruns doubleCases).2 _ _).2 ⟨[_], _, [], rfl, ?_, rfl, rfl⟩, fun hok => ?_, ?_⟩
  · exact List.forall_mem_singleton.2 rfl
  · exact ((hcases _).1.1 hok).2.2.1.2.1
  · exact (hcases _).2.2.2 foreignObjectBytes rfl (by decide)

end OpcWire
