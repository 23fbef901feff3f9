import OpcWire.Text.Decimal

/-!
# Reading decimal text back

A number written in decimal is read as itself (`Decimal.uint32_toString`). A text is read as a
number if and only if it stands for one that is not too large (`Decimal.uint32_eq_ok_iff`).
-/

namespace OpcWire

namespace Decimal

theorem digitValue?_of_isDigit {c : Char} (h : c.isDigit = true) :
    digitValue? c = some (c.toNat - '0'.toNat) := by
  rw [Char.isDigit, Bool.and_eq_true, decide_eq_true_eq, decide_eq_true_eq] at h
  exact if_pos h

theorem le_ofDigitChars (digits : List Char) (n : Nat) : n ≤ Nat.ofDigitChars 10 digits n := by
  induction digits generalizing n with
  | nil => exact Nat.le_refl n
  | cons c rest ih =>
    rw [Nat.ofDigitChars_cons]
    exact Nat.le_trans (by omega) (ih _)

theorem readDigits_of_isDigit {bound value : Nat} {digits : List Char}
    (hdigits : ∀ c ∈ digits, c.isDigit = true)
    (hbound : Nat.ofDigitChars 10 digits value < bound) :
    readDigits bound value digits = .ok (Nat.ofDigitChars 10 digits value) := by
  induction digits generalizing value with
  | nil => rfl
  | cons c rest ih =>
    obtain ⟨hc, hrest⟩ := List.forall_mem_cons.1 hdigits
    rw [Nat.ofDigitChars_cons, Nat.mul_comm] at hbound ⊢
    rw [readDigits, digitValue?_of_isDigit hc]
    exact (if_pos (Nat.lt_of_le_of_lt (le_ofDigitChars rest _) hbound)).trans (ih hrest hbound)

theorem isDigit_of_digitValue? {c : Char} {d : Nat} (h : digitValue? c = some d) :
    c.isDigit = true := by
  rw [digitValue?] at h
  obtain ⟨hc, -⟩ := Option.ite_none_right_eq_some.1 h
  rw [Char.isDigit, Bool.and_eq_true, decide_eq_true_eq, decide_eq_true_eq]
  exact hc

/-- **Digits are read as their number if it is within the bound**, and nothing else is read. -/
theorem readDigits_eq_ok_iff {bound value n : Nat} {digits : List Char} (hvalue : value < bound) :
    readDigits bound value digits = .ok n ↔ (∀ c ∈ digits, c.isDigit = true) ∧
      Nat.ofDigitChars 10 digits value = n ∧ n < bound := by
  constructor
  · intro h
    induction digits generalizing value with
    | nil =>
      obtain rfl := Except.ok.inj h
      exact ⟨nofun, rfl, hvalue⟩
    | cons c rest ih =>
      rw [readDigits] at h
      cases hc : digitValue? c with
      | none =>
        rw [hc] at h
        cases h
      | some d =>
        have hdigit := isDigit_of_digitValue? hc
        obtain rfl := Option.some.inj (hc.symm.trans (digitValue?_of_isDigit hdigit))
        rw [hc] at h
        dsimp only at h
        split at h
        · rename_i hlt
          obtain ⟨hrest, hn, hbound⟩ := ih hlt h
          rw [Nat.ofDigitChars_cons, Nat.mul_comm]
          exact ⟨List.forall_mem_cons.2 ⟨hdigit, hrest⟩, hn, hbound⟩
        · cases h
  · rintro ⟨hdigits, rfl, hbound⟩
    exact readDigits_of_isDigit hdigits hbound

theorem toList_toString (n : UInt32) : (toString n).toList = Nat.toDigits 10 n.toNat :=
  Nat.toList_repr

theorem isDigit_of_mem_toString {n : UInt32} {c : Char} (h : c ∈ (toString n).toList) :
    c.isDigit = true :=
  Nat.isDigit_of_mem_toDigits (by decide) (by decide) (toList_toString n ▸ h)

theorem map_readDigits_eq_ok_iff {digits : List Char} {n : UInt32} :
    UInt32.ofNat <$> readDigits UInt32.size 0 digits = .ok n ↔
      (∀ c ∈ digits, c.isDigit = true) ∧ Nat.ofDigitChars 10 digits 0 = n.toNat := by
  have hread (m : Nat) : readDigits UInt32.size 0 digits = .ok m ↔ (∀ c ∈ digits, c.isDigit = true) ∧
      Nat.ofDigitChars 10 digits 0 = m ∧ m < UInt32.size := readDigits_eq_ok_iff (by decide)
  cases hdigits : readDigits UInt32.size 0 digits with
  | error refusal =>
    refine iff_of_false nofun ?_
    rintro ⟨hall, hn⟩
    exact absurd (hdigits.symm.trans ((hread _).2 ⟨hall, hn, n.toNat_lt_size⟩)) nofun
  | ok value =>
    obtain ⟨hall, hvalue, hlt⟩ := (hread _).1 hdigits
    rw [hvalue]
    constructor
    · intro h
      obtain rfl := Except.ok.inj h
      exact ⟨hall, (UInt32.toNat_ofNat_of_lt' hlt).symm⟩
    · rintro ⟨-, rfl⟩
      exact congrArg Except.ok UInt32.ofNat_toNat

/-- **A text is read as a number if and only if it stands for it.** -/
theorem uint32_eq_ok_iff {text : String} {n : UInt32} : uint32 text = .ok n ↔ Denotes text n := by
  have hplus : ¬ '+'.isDigit = true := by decide
  rw [uint32, Denotes]
  split
  · rename_i htext
    refine iff_of_false nofun ?_
    rintro ⟨digits, hne, -, -, heq | heq⟩
    · exact hne (heq.symm.trans htext)
    · cases htext.symm.trans heq
  · rename_i htext
    refine iff_of_false nofun ?_
    rintro ⟨digits, hne, hall, -, heq | heq⟩
    · exact hplus (hall '+' (heq ▸ htext ▸ List.mem_cons_self))
    · exact hne (List.cons.inj (htext.symm.trans heq)).2.symm
  · rename_i digits hne htext
    rw [map_readDigits_eq_ok_iff]
    constructor
    · rintro ⟨hall, hn⟩
      exact ⟨digits, hne, hall, hn, .inr htext⟩
    · rintro ⟨digits', -, hall, hn, heq | heq⟩
      · exact absurd (hall '+' (heq ▸ htext ▸ List.mem_cons_self)) hplus
      · obtain ⟨-, rfl⟩ := List.cons.inj (htext.symm.trans heq)
        exact ⟨hall, hn⟩
  · rename_i hempty hsign hsigned
    rw [map_readDigits_eq_ok_iff]
    constructor
    · rintro ⟨hall, hn⟩
      exact ⟨text.toList, hempty, hall, hn, .inl rfl⟩
    · rintro ⟨digits, -, hall, hn, rfl | heq⟩
      · exact ⟨hall, hn⟩
      · exact absurd heq (hsigned digits)

/-- **A number is read back.** -/
theorem uint32_toString (n : UInt32) : uint32 (toString n) = .ok n := by
  have hdigits : Nat.ofDigitChars 10 (Nat.toDigits 10 n.toNat) 0 = n.toNat :=
    Nat.ofDigitChars_ten_toDigits
  refine uint32_eq_ok_iff.2 ⟨Nat.toDigits 10 n.toNat, Nat.toDigits_ne_nil, fun c hc => ?_, hdigits,
    .inl (toList_toString n)⟩
  exact isDigit_of_mem_toString (toList_toString n ▸ hc)

end Decimal

end OpcWire
