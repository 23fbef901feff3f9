import Mathlib.Tactic.SplitIfs
import OpcWire.Text.Utf8

/-!
# Reading UTF-8 back

`Utf8.encode` and `Utf8.decode` are inverse to each other:

* `Utf8.decode_encode` : the bytes of a string are read back as that string;
* `Utf8.encode_of_decode` : bytes that are read as a string are the bytes of that string, so a
  string has only one form.

The scanner knows a character by the class of its first byte and by the bounds of its second.
Both proofs go through `Lead.ofByte_two`, `Lead.ofByte_three` and `Lead.ofByte_four`, which say
what these bounds mean: the character is not overlong, no surrogate and not past the last code
point.
-/

namespace OpcWire

namespace Utf8

/-! ### Classes of first bytes -/

theorem Lead.payload_one (b : UInt8) : Lead.payload b 1 = b.toNat % 32 := rfl

theorem Lead.payload_two (b : UInt8) : Lead.payload b 2 = b.toNat % 16 := rfl

theorem Lead.payload_three (b : UInt8) : Lead.payload b 3 = b.toNat % 8 := rfl

theorem Lead.ofByte_ascii {b : UInt8} (h : b.toNat < 0x80) : Lead.ofByte b = .ascii := by
  simp only [Lead.ofByte, UInt8.lt_iff_toNat_lt, UInt8.reduceToNat]
  rw [if_pos h]

theorem Lead.ofByte_two {b : UInt8} (h : 0xC2 ≤ b.toNat) (h' : b.toNat < 0xE0) :
    Lead.ofByte b = .multi 1 0x80 0xBF := by
  simp only [Lead.ofByte, UInt8.lt_iff_toNat_lt, UInt8.reduceToNat]
  rw [if_neg (by omega), if_neg (by omega), if_pos h']

/-- The bounds of the second of three bytes keep out overlong forms and surrogates. -/
theorem Lead.ofByte_three {b : UInt8} (h : 0xE0 ≤ b.toNat) (h' : b.toNat < 0xF0) :
    ∃ low high, Lead.ofByte b = .multi 2 low high ∧ ∀ x : UInt8, (low ≤ x ∧ x ≤ high) ↔
      (0x80 ≤ x.toNat ∧ x.toNat ≤ 0xBF) ∧
        0x20 ≤ Lead.payload b 2 * 64 + x.toNat % 64 ∧
        (Lead.payload b 2 * 64 + x.toNat % 64 < 0x360 ∨
          0x380 ≤ Lead.payload b 2 * 64 + x.toNat % 64) := by
  simp only [Lead.ofByte, Lead.payload_two, UInt8.lt_iff_toNat_lt, ← UInt8.toNat_inj,
    UInt8.le_iff_toNat_le, UInt8.reduceToNat]
  rw [if_neg (by omega), if_neg (by omega), if_neg (by omega)]
  split_ifs with hE0 hED
  · exact ⟨0xA0, 0xBF, rfl, fun x => by simp only [UInt8.reduceToNat]; omega⟩
  · exact ⟨0x80, 0x9F, rfl, fun x => by simp only [UInt8.reduceToNat]; omega⟩
  · exact ⟨0x80, 0xBF, rfl, fun x => by simp only [UInt8.reduceToNat]; omega⟩

/-- The bounds of the second of four bytes keep out overlong forms and values past the last code
point. -/
theorem Lead.ofByte_four {b : UInt8} (h : 0xF0 ≤ b.toNat) (h' : b.toNat < 0xF5) :
    ∃ low high, Lead.ofByte b = .multi 3 low high ∧ ∀ x : UInt8, (low ≤ x ∧ x ≤ high) ↔
      (0x80 ≤ x.toNat ∧ x.toNat ≤ 0xBF) ∧
        0x10 ≤ Lead.payload b 3 * 64 + x.toNat % 64 ∧
        Lead.payload b 3 * 64 + x.toNat % 64 < 0x110 := by
  simp only [Lead.ofByte, Lead.payload_three, UInt8.lt_iff_toNat_lt, ← UInt8.toNat_inj,
    UInt8.le_iff_toNat_le, UInt8.reduceToNat]
  rw [if_neg (by omega), if_neg (by omega), if_neg (by omega), if_neg (by omega),
    if_neg (by omega), if_neg (by omega)]
  split_ifs with hF0 hF4 hF4'
  · exact ⟨0x90, 0xBF, rfl, fun x => by simp only [UInt8.reduceToNat]; omega⟩
  · exact ⟨0x80, 0xBF, rfl, fun x => by simp only [UInt8.reduceToNat]; omega⟩
  · exact ⟨0x80, 0x8F, rfl, fun x => by simp only [UInt8.reduceToNat]; omega⟩
  · omega

theorem Lead.ofByte_none {b : UInt8} (h : 0x80 ≤ b.toNat)
    (h' : b.toNat < 0xC2 ∨ 0xF5 ≤ b.toNat) : Lead.ofByte b = .none := by
  simp only [Lead.ofByte, UInt8.lt_iff_toNat_lt, ← UInt8.toNat_inj, UInt8.reduceToNat]
  rw [if_neg (by omega)]
  rcases h' with h' | h'
  · rw [if_pos h']
  · rw [if_neg (by omega), if_neg (by omega), if_neg (by omega), if_neg (by omega),
      if_neg (by omega), if_neg (by omega), if_neg (by omega), if_neg (by omega)]

/-! ### One character -/

theorem toNat_charOfNat {v : Nat} (h : v.isValidChar) : (Char.ofNat v).val.toNat = v := by
  rw [Char.ofNat, dif_pos h]
  rfl

section Pending

variable {index start seen value later : Nat} {low high x : UInt8} {done chars : List Char}
  {bytes : List UInt8}

/-- The last byte of a character completes it. -/
theorem scan_last (h : low ≤ x ∧ x ≤ high) :
    scan index done (some ⟨start, seen, value, 0, low, high⟩) (x :: bytes) =
      scan (index + 1) (Char.ofNat (value * 64 + x.toNat % 64) :: done) none bytes := by
  rw [scan, if_pos h]

/-- An inner byte of a character leaves it pending. -/
theorem scan_inner (h : low ≤ x ∧ x ≤ high) :
    scan index done (some ⟨start, seen, value, later + 1, low, high⟩) (x :: bytes) =
      scan (index + 1) done
        (some ⟨start, seen + 1, value * 64 + x.toNat % 64, later, 0x80, 0xBF⟩) bytes := by
  rw [scan, if_pos h]

/-- After a pending character, reading succeeds only by way of a byte that continues it. -/
theorem exists_of_scan_some
    (h : scan index done (some ⟨start, seen, value, later, low, high⟩) bytes = .ok chars) :
    ∃ x rest, bytes = x :: rest ∧ low ≤ x ∧ x ≤ high := by
  cases bytes with
  | nil => simp [scan] at h
  | cons x rest =>
    rw [scan] at h
    split_ifs at h with hx
    exact ⟨x, rest, rfl, hx⟩

end Pending

theorem continuation_iff {x : UInt8} :
    (0x80 ≤ x ∧ x ≤ 0xBF) ↔ 0x80 ≤ x.toNat ∧ x.toNat ≤ 0xBF := by
  simp only [UInt8.le_iff_toNat_le, UInt8.reduceToNat]

/-- The bytes that make up a character of the given code point. -/
def Spells (bytes : List UInt8) (v : Nat) : Prop :=
  match bytes with
  | [b] => b.toNat < 0x80 ∧ v = b.toNat
  | [b, x] =>
    (0xC2 ≤ b.toNat ∧ b.toNat < 0xE0) ∧ (0x80 ≤ x.toNat ∧ x.toNat ≤ 0xBF) ∧
      v = Lead.payload b 1 * 64 + x.toNat % 64
  | [b, x, y] =>
    (0xE0 ≤ b.toNat ∧ b.toNat < 0xF0) ∧ (0x80 ≤ x.toNat ∧ x.toNat ≤ 0xBF) ∧
      (0x80 ≤ y.toNat ∧ y.toNat ≤ 0xBF) ∧ 0x800 ≤ v ∧ (v < 0xD800 ∨ 0xE000 ≤ v) ∧
      v = (Lead.payload b 2 * 64 + x.toNat % 64) * 64 + y.toNat % 64
  | [b, x, y, z] =>
    (0xF0 ≤ b.toNat ∧ b.toNat < 0xF5) ∧ (0x80 ≤ x.toNat ∧ x.toNat ≤ 0xBF) ∧
      (0x80 ≤ y.toNat ∧ y.toNat ≤ 0xBF) ∧ (0x80 ≤ z.toNat ∧ z.toNat ≤ 0xBF) ∧
      0x10000 ≤ v ∧ v < 0x110000 ∧
      v = ((Lead.payload b 3 * 64 + x.toNat % 64) * 64 + y.toNat % 64) * 64 + z.toNat % 64
  | _ => False

theorem toNat_ofNat_of_lt {n : Nat} (h : n < 256) : (UInt8.ofNat n).toNat = n :=
  UInt8.toNat_ofNat_of_lt' h

theorem spells_encodeChar (c : Char) : Spells (String.utf8EncodeChar c) c.val.toNat := by
  have hv : c.val.toNat < 0xD800 ∨ 0xDFFF < c.val.toNat ∧ c.val.toNat < 0x110000 := c.valid
  simp only [String.utf8EncodeChar]
  split_ifs with h1 h2 h3
  · simp only [Spells]
    rw [toNat_ofNat_of_lt (by omega)]
    omega
  · simp only [Spells, Lead.payload_one]
    rw [toNat_ofNat_of_lt (by omega), toNat_ofNat_of_lt (by omega)]
    omega
  · simp only [Spells, Lead.payload_two]
    rw [toNat_ofNat_of_lt (by omega), toNat_ofNat_of_lt (by omega), toNat_ofNat_of_lt (by omega)]
    omega
  · simp only [Spells, Lead.payload_three]
    rw [toNat_ofNat_of_lt (by omega), toNat_ofNat_of_lt (by omega), toNat_ofNat_of_lt (by omega),
      toNat_ofNat_of_lt (by omega)]
    omega

theorem Spells.isValidChar {bytes : List UInt8} {v : Nat} (h : Spells bytes v) :
    v.isValidChar := by
  simp only [Nat.isValidChar]
  match bytes, h with
  | [b], h => simp only [Spells] at h; omega
  | [b, x], h => simp only [Spells, Lead.payload_one] at h; omega
  | [b, x, y], h => simp only [Spells, Lead.payload_two] at h; omega
  | [b, x, y, z], h => simp only [Spells, Lead.payload_three] at h; omega

/-- A code point is spelled in one way only. -/
theorem Spells.encodeChar_eq {bytes : List UInt8} {v : Nat} (h : Spells bytes v) :
    String.utf8EncodeChar (Char.ofNat v) = bytes := by
  simp only [String.utf8EncodeChar, toNat_charOfNat h.isValidChar]
  match bytes, h with
  | [b], h =>
    simp only [Spells] at h
    rw [if_pos (by omega), h.2, UInt8.ofNat_toNat]
  | [b, x], h =>
    simp only [Spells, Lead.payload_one] at h
    rw [if_neg (by omega), if_pos (by omega)]
    simp only [List.cons.injEq, ← UInt8.toNat_inj, UInt8.toNat_ofNat', and_true]
    omega
  | [b, x, y], h =>
    simp only [Spells, Lead.payload_two] at h
    rw [if_neg (by omega), if_neg (by omega), if_pos (by omega)]
    simp only [List.cons.injEq, ← UInt8.toNat_inj, UInt8.toNat_ofNat', and_true]
    omega
  | [b, x, y, z], h =>
    simp only [Spells, Lead.payload_three] at h
    rw [if_neg (by omega), if_neg (by omega), if_neg (by omega)]
    simp only [List.cons.injEq, ← UInt8.toNat_inj, UInt8.toNat_ofNat', and_true]
    omega

/-- **The scanner reads a character off its bytes**, whatever follows them. -/
theorem Spells.scan_append {bytes : List UInt8} {v : Nat} (h : Spells bytes v) (index : Nat)
    (done : List Char) (rest : List UInt8) :
    scan index done none (bytes ++ rest) =
      scan (index + bytes.length) (Char.ofNat v :: done) none rest := by
  match bytes, h with
  | [b], h =>
    simp only [Spells] at h
    rw [List.cons_append, scan, Lead.ofByte_ascii h.1, h.2]
    rfl
  | [b, x], h =>
    obtain ⟨hb, hx, rfl⟩ := h
    rw [List.cons_append, scan, Lead.ofByte_two hb.1 hb.2]
    exact scan_last (continuation_iff.2 hx)
  | [b, x, y], h =>
    obtain ⟨hb, hx, hy, hv⟩ := h
    obtain ⟨low, high, hlead, hbounds⟩ := Lead.ofByte_three hb.1 hb.2
    rw [List.cons_append, scan, hlead, hv.2.2]
    exact (scan_inner ((hbounds x).2 (by omega))).trans (scan_last (continuation_iff.2 hy))
  | [b, x, y, z], h =>
    obtain ⟨hb, hx, hy, hz, hv⟩ := h
    obtain ⟨low, high, hlead, hbounds⟩ := Lead.ofByte_four hb.1 hb.2
    rw [List.cons_append, scan, hlead, hv.2.2]
    exact (scan_inner ((hbounds x).2 (by omega))).trans
      ((scan_inner (continuation_iff.2 hy)).trans (scan_last (continuation_iff.2 hz)))

/-- What the scanner accepts starts with the bytes of a character. -/
theorem exists_spells_of_scan {index : Nat} {done chars : List Char} {b : UInt8}
    {bytes : List UInt8} (h : scan index done none (b :: bytes) = .ok chars) :
    ∃ first rest v, b :: bytes = first ++ rest ∧ Spells first v := by
  have hb := b.toNat_lt
  -- the first byte decides how many follow, and its class has bounds for the second
  by_cases h1 : b.toNat < 0x80
  · exact ⟨[b], bytes, b.toNat, rfl, h1, rfl⟩
  by_cases hnone : b.toNat < 0xC2 ∨ 0xF5 ≤ b.toNat
  · rw [scan, Lead.ofByte_none (by omega) hnone] at h
    cases h
  by_cases h2 : b.toNat < 0xE0
  · rw [scan, Lead.ofByte_two (by omega) h2] at h
    obtain ⟨x, rest, rfl, hx⟩ := exists_of_scan_some h
    exact ⟨[b, x], rest, _, rfl, ⟨by omega, h2⟩, continuation_iff.1 hx, rfl⟩
  by_cases h3 : b.toNat < 0xF0
  · obtain ⟨low, high, hlead, hbounds⟩ := Lead.ofByte_three (by omega) h3
    rw [scan, hlead] at h
    obtain ⟨x, rest, rfl, hx⟩ := exists_of_scan_some h
    obtain ⟨y, rest, rfl, hy⟩ := exists_of_scan_some ((scan_inner hx).symm.trans h)
    have hx' := (hbounds x).1 hx
    exact ⟨[b, x, y], rest, _, rfl, ⟨by omega, h3⟩, hx'.1, continuation_iff.1 hy, by omega,
      by omega, rfl⟩
  · obtain ⟨low, high, hlead, hbounds⟩ := Lead.ofByte_four (b := b) (by omega) (by omega)
    rw [scan, hlead] at h
    obtain ⟨x, rest, rfl, hx⟩ := exists_of_scan_some h
    have h := (scan_inner hx).symm.trans h
    obtain ⟨y, rest, rfl, hy⟩ := exists_of_scan_some h
    obtain ⟨z, rest, rfl, hz⟩ := exists_of_scan_some ((scan_inner hy).symm.trans h)
    have hx' := (hbounds x).1 hx
    exact ⟨[b, x, y, z], rest, _, rfl, ⟨by omega, by omega⟩, hx'.1, continuation_iff.1 hy,
      continuation_iff.1 hz, by omega, by omega, rfl⟩

/-! ### Whole strings -/

theorem scan_flatMap_encodeChar (chars : List Char) (index : Nat) (done : List Char) :
    scan index done none (chars.flatMap String.utf8EncodeChar) =
      .ok (done.reverse ++ chars) := by
  induction chars generalizing index done with
  | nil => simp [scan]
  | cons c chars ih =>
    have hc : Char.ofNat c.val.toNat = c := c.ofNat_toNat
    rw [List.flatMap_cons, (spells_encodeChar c).scan_append, hc, ih, List.reverse_cons,
      List.append_assoc, List.singleton_append]

theorem flatMap_encodeChar_of_scan {chars : List Char} :
    ∀ (n index : Nat) (done : List Char) (bytes : List UInt8), bytes.length = n →
      scan index done none bytes = .ok chars →
      ∃ read, chars = done.reverse ++ read ∧ read.flatMap String.utf8EncodeChar = bytes := by
  intro n
  -- a character takes between one and four bytes, so the induction is on their number
  induction n using Nat.strongRecOn with
  | ind n ih =>
    intro index done bytes hn h
    cases bytes with
    | nil =>
      simp only [scan, Except.ok.injEq] at h
      exact ⟨[], by simp [h], rfl⟩
    | cons b bytes =>
      obtain ⟨first, rest, v, hsplit, hfirst⟩ := exists_spells_of_scan h
      have hne : first ≠ [] := by
        rintro rfl
        exact hfirst
      have hlt : rest.length < n := by
        have := congrArg List.length hsplit
        have := List.length_pos_iff.2 hne
        simp only [List.length_append] at *
        omega
      rw [hsplit, hfirst.scan_append] at h
      obtain ⟨read, hchars, hread⟩ := ih _ hlt _ _ rest rfl h
      refine ⟨Char.ofNat v :: read, by simp [hchars], ?_⟩
      rw [List.flatMap_cons, hfirst.encodeChar_eq, hread, hsplit]

/-- **The bytes of a string are read back as that string.** -/
@[simp] theorem decode_encode (s : String) : decode (encode s) = .ok s := by
  rw [decode, encode, scan_flatMap_encodeChar]
  simp [Except.map]

/-- **Bytes that are read as a string are its bytes.** -/
theorem encode_of_decode {bytes : List UInt8} {s : String} (h : decode bytes = .ok s) :
    encode s = bytes := by
  rw [decode] at h
  cases hscan : scan 0 [] none bytes with
  | error fault => simp [hscan, Except.map] at h
  | ok chars =>
    obtain ⟨read, hchars, hread⟩ := flatMap_encodeChar_of_scan _ _ _ _ rfl hscan
    simp only [hscan, Except.map, Except.ok.injEq] at h
    rw [← h, encode, String.toList_ofList, hchars]
    simpa using hread

end Utf8

end OpcWire
