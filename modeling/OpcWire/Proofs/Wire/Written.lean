import OpcWire.Proofs.Wire.LittleEndian
import OpcWire.Wire.Encoding

/-!
# What has been written

Two views of an `Encoding` that did not fail. `e = .ofBytes bytes` says which bytes were written;
the lemmas named `_eq_ofBytes_iff` take such an equation apart along the structure of `e`.
`e.Fits k` says only that there are at most `k` of them, which is all that is needed to compare
what is written for a value with the bytes it was read from.
-/

namespace OpcWire

namespace Encoding

variable {a b e : Encoding} {bytes : List UInt8} {j k : Nat}

@[simp] theorem ofBytes_inj {as bs : List UInt8} : ofBytes as = ofBytes bs ↔ as = bs := by
  simp [ofBytes]

@[simp] theorem fail_ne_ofBytes {cause : CodecError} : fail cause ≠ ofBytes bytes := by
  simp [fail, ofBytes]

theorem append_eq_ofBytes_iff : a ++ b = ofBytes bytes ↔
    ∃ as bs, a = ofBytes as ∧ b = ofBytes bs ∧ bytes = as ++ bs := by
  obtain ⟨as, fa⟩ := a
  obtain ⟨bs, fb⟩ := b
  cases fa with
  | none =>
    simp only [append_def, ofBytes, Encoding.mk.injEq]
    constructor
    · rintro ⟨rfl, rfl⟩
      exact ⟨as, bs, ⟨rfl, trivial⟩, ⟨rfl, rfl⟩, rfl⟩
    · rintro ⟨_, _, ⟨rfl, -⟩, ⟨rfl, rfl⟩, rfl⟩
      exact ⟨rfl, rfl⟩
  | some cause => simp [append_def, ofBytes]

@[simp] theorem inField_eq_ofBytes_iff {typeName field : String} :
    e.inField typeName field = ofBytes bytes ↔ e = ofBytes bytes := by
  obtain ⟨written, failure⟩ := e
  cases failure <;> simp [inField, ofBytes]

theorem length_some_eq_ofBytes_iff {n : Nat} : length (some n) = ofBytes bytes ↔
    n ≤ maxLength ∧ bytes = LittleEndian.toBytes 4 n := by
  by_cases h : n ≤ maxLength
  · simp [length, h, word, eq_comm]
  · simp [length, h]

theorem length_none : length none = ofBytes (LittleEndian.toBytes 4 0xFFFFFFFF) := rfl

theorem delimited_eq_ofBytes_iff : delimited e = ofBytes bytes ↔
    ∃ body, e = ofBytes body ∧ body.length ≤ maxLength ∧
      bytes = LittleEndian.toBytes 4 body.length ++ body := by
  obtain ⟨written, failure⟩ := e
  cases failure with
  | none =>
    simp only [delimited, append_eq_ofBytes_iff, length_some_eq_ofBytes_iff]
    constructor
    · rintro ⟨_, _, ⟨hle, rfl⟩, hb, rfl⟩
      exact ⟨written, rfl, hle, by rw [ofBytes_inj.1 hb]⟩
    · rintro ⟨body, hbody, hle, rfl⟩
      obtain rfl : written = body := congrArg Encoding.bytes hbody
      exact ⟨_, _, ⟨hle, rfl⟩, rfl, rfl⟩
  | some cause => simp [delimited, ofBytes, fail]

@[simp] theorem concat_cons (es : List Encoding) : concat (e :: es) = e ++ concat es := rfl

/-! ### Size -/

/-- Writing succeeds with at most `k` bytes. -/
def Fits (e : Encoding) (k : Nat) : Prop := ∃ bytes, e = ofBytes bytes ∧ bytes.length ≤ k

theorem Fits.mono (h : e.Fits j) (hjk : j ≤ k) : e.Fits k := by
  obtain ⟨bytes, he, hle⟩ := h
  exact ⟨bytes, he, Nat.le_trans hle hjk⟩

theorem Fits.append (ha : a.Fits j) (hb : b.Fits k) : (a ++ b).Fits (j + k) := by
  obtain ⟨as, rfl, hj⟩ := ha
  obtain ⟨bs, rfl, hk⟩ := hb
  refine ⟨as ++ bs, rfl, ?_⟩
  rw [List.length_append]
  omega

theorem fits_empty : empty.Fits 0 := ⟨[], rfl, Nat.le_refl 0⟩

theorem fits_ofBytes : (ofBytes bytes).Fits bytes.length := ⟨bytes, rfl, Nat.le_refl _⟩

theorem fits_word {width n : Nat} : (word width n).Fits width :=
  ⟨_, rfl, Nat.le_of_eq (LittleEndian.length_toBytes width n)⟩

theorem fits_byte {x : UInt8} : (byte x).Fits 1 := ⟨[x], rfl, Nat.le_refl 1⟩

theorem fits_length_none : (length none).Fits 4 := fits_word

theorem fits_length_some {n : Nat} (h : n ≤ maxLength) : (length (some n)).Fits 4 := by
  rw [length, if_pos h]
  exact fits_word

theorem Fits.inField {typeName field : String} (h : e.Fits k) :
    (e.inField typeName field).Fits k := by
  obtain ⟨bytes, he, hle⟩ := h
  exact ⟨bytes, inField_eq_ofBytes_iff.2 he, hle⟩

/-- A shorter body keeps its length prefix writable. -/
theorem Fits.delimited (h : e.Fits k) (hk : k ≤ maxLength) : (delimited e).Fits (4 + k) := by
  obtain ⟨body, he, hle⟩ := h
  refine ⟨_, delimited_eq_ofBytes_iff.2 ⟨body, he, Nat.le_trans hle hk, rfl⟩, ?_⟩
  rw [List.length_append, LittleEndian.length_toBytes]
  omega

end Encoding

end OpcWire
