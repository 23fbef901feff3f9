import OpcWire.Proofs.Naming.Words

/-!
# Where names are split

What a name is split into is decided one character at a time, by what has begun and what comes next.
Here is what that comes to for longer stretches of a name.

* A separator ends a word, whatever stands around it (`Naming.wordsFrom_append_cons`).
* A stretch without capitals goes on with the word that has begun
  (`Naming.wordsFrom_append_of_not_isUpper`), and so does a stretch of capitals behind a capital
  unless a small letter follows (`Naming.wordsFrom_append_of_isUpper`).
-/

namespace OpcWire

namespace Naming

variable {current chars rest gap : List Char} {previous c : Char}

/-! ### One character -/

theorem flush_of_ne_nil (h : current ≠ []) : flush current = [current] := by
  rw [flush, if_neg (mt List.isEmpty_iff.1 h)]

theorem wordsFrom_cons_of_isSeparator (h : isSeparator c = true) :
    wordsFrom current previous (c :: rest) = flush current ++ wordsFrom [] c rest := by
  rw [wordsFrom, if_pos h]

theorem wordsFrom_cons_of_startsWord (hc : isSeparator c = false) (hcurrent : current ≠ [])
    (h : startsWord previous c rest = true) :
    wordsFrom current previous (c :: rest) = current :: wordsFrom [c.toLower] c rest := by
  simp [wordsFrom, hc, hcurrent, h]

theorem wordsFrom_cons_of_continues (hc : isSeparator c = false)
    (h : current = [] ∨ startsWord previous c rest = false) :
    wordsFrom current previous (c :: rest) = wordsFrom (current ++ [c.toLower]) c rest := by
  rcases h with rfl | h <;> simp [wordsFrom, *]

/-- Where no word has begun, it does not matter what came before. -/
theorem wordsFrom_nil_eq (previous previous' : Char) (rest : List Char) :
    wordsFrom [] previous rest = wordsFrom [] previous' rest := by
  cases rest <;> rfl

theorem startsWord_of_not_isUpper (h : c.isUpper = false) : startsWord previous c rest = false := by
  rw [startsWord, h, Bool.false_and]

/-! ### Separators -/

theorem isLower_of_isSeparator (h : isSeparator c = true) : c.isLower = false := by
  rw [isSeparator, Bool.or_eq_true, Bool.or_eq_true, beq_iff_eq, beq_iff_eq, beq_iff_eq] at h
  rcases h with (rfl | rfl) | rfl <;> rfl

/-- **A separator ends a word**, and what comes behind it is split on its own. -/
theorem wordsFrom_append_cons (h : isSeparator c = true) :
    wordsFrom current previous (chars ++ c :: rest) =
      wordsFrom current previous chars ++ wordsFrom [] ' ' rest := by
  induction chars generalizing current previous with
  | nil =>
    rw [List.nil_append, wordsFrom_cons_of_isSeparator h, wordsFrom_nil_eq c ' ']
    rfl
  | cons x chars ih =>
    -- a separator behind the last character looks like the end of the name from there
    have hstarts : startsWord previous x (chars ++ c :: rest) = startsWord previous x chars := by
      cases chars with
      | nil => simp [startsWord, isLower_of_isSeparator h]
      | cons => rfl
    rw [List.cons_append, wordsFrom, wordsFrom, hstarts, ih, ih, ih]
    split
    · rw [List.append_assoc]
    · split
      · rw [List.cons_append]
      · rfl

theorem wordsFrom_gap_append (h : ∀ c ∈ gap, isSeparator c = true) :
    wordsFrom [] previous (gap ++ rest) = wordsFrom [] ' ' rest := by
  induction gap generalizing previous with
  | nil => exact wordsFrom_nil_eq previous ' ' rest
  | cons c gap ih =>
    obtain ⟨hc, hgap⟩ := List.forall_mem_cons.1 h
    rw [List.cons_append, wordsFrom_cons_of_isSeparator hc, ih hgap]
    rfl

/-! ### Stretches of one word -/

theorem isDigit_of_isUpper (h : c.isUpper = true) : c.isDigit = false := by
  simp [Char.isUpper, Char.isDigit, UInt32.le_iff_toNat_le] at *
  omega

/-- Without capitals no word starts. -/
theorem wordsFrom_append_of_not_isUpper
    (h : ∀ c ∈ chars, isSeparator c = false ∧ c.isUpper = false) :
    wordsFrom current previous (chars ++ rest) =
      wordsFrom (current ++ chars.map Char.toLower) (chars.getLastD previous) rest := by
  induction chars generalizing current previous with
  | nil =>
    rw [List.map_nil, List.append_nil]
    rfl
  | cons c chars ih =>
    obtain ⟨⟨hc, hupper⟩, hchars⟩ := List.forall_mem_cons.1 h
    rw [List.cons_append, wordsFrom_cons_of_continues hc (.inr (startsWord_of_not_isUpper hupper)),
      ih hchars, List.append_assoc, List.singleton_append, List.map_cons, List.getLastD_cons]

/-- Behind a capital another one starts a word only if a small letter follows, which happens at the
end of a stretch of capitals or not at all. -/
theorem wordsFrom_append_of_isUpper (hprevious : previous.isUpper = true)
    (h : ∀ c ∈ chars, isSeparator c = false ∧ c.isUpper = true)
    (hrest : rest.head?.any Char.isLower = false) :
    wordsFrom current previous (chars ++ rest) =
      wordsFrom (current ++ chars.map Char.toLower) (chars.getLastD previous) rest := by
  induction chars generalizing current previous with
  | nil =>
    rw [List.map_nil, List.append_nil]
    rfl
  | cons c chars ih =>
    obtain ⟨⟨hc, hupper⟩, hchars⟩ := List.forall_mem_cons.1 h
    have hlower : previous.isLower = false :=
      Bool.eq_false_iff.2 (Char.not_isLower_of_isUpper hprevious)
    have hdigit : previous.isDigit = false := isDigit_of_isUpper hprevious
    have hnext : (chars ++ rest).head?.any Char.isLower = false := by
      cases chars with
      | nil => exact hrest
      | cons x chars =>
        exact Bool.eq_false_iff.2 (Char.not_isLower_of_isUpper (hchars x List.mem_cons_self).2)
    have hcontinues : startsWord previous c (chars ++ rest) = false := by
      rw [startsWord, hlower, hdigit, hnext]
      simp
    rw [List.cons_append, wordsFrom_cons_of_continues hc (.inr hcontinues), ih hupper hchars,
      List.append_assoc, List.singleton_append, List.map_cons, List.getLastD_cons]

end Naming

end OpcWire
