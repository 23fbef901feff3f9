import OpcWire.Proofs.Naming

/-!
# Words of names

A name has words as soon as it has a character that separates none (`Naming.wordsFrom_eq_nil_iff`),
and no word is empty (`Naming.ne_nil_of_mem_wordsFrom`). So the words of a name joined by
underscores begin with a character of the name in small letters (`Naming.exists_head?_snakeCase`),
unless there is nothing to join (`Naming.snakeCase_eq_empty_iff`).
-/

namespace OpcWire

namespace Naming

variable {name : String} {current word rest : List Char} {previous : Char}

/-! ### Words of a run -/

theorem flush_eq_nil_iff : flush word = [] ↔ word = [] := by
  simp [flush]

theorem ne_nil_of_mem_wordsFrom (h : word ∈ wordsFrom current previous rest) : word ≠ [] := by
  have hflush {current : List Char} (h : word ∈ flush current) : word ≠ [] := by
    obtain ⟨rfl, hne⟩ := mem_flush.1 h
    exact hne
  induction rest generalizing current previous with
  | nil => exact hflush h
  | cons c rest ih =>
    rw [wordsFrom] at h
    split at h
    · rcases List.mem_append.1 h with h | h
      · exact hflush h
      · exact ih h
    · split at h
      · rename_i hstarts
        rcases List.mem_cons.1 h with rfl | h
        · simp at hstarts
          exact hstarts.1
        · exact ih h
      · exact ih h

/-- There are no words if none has begun and nothing but separators comes. -/
theorem wordsFrom_eq_nil_iff :
    wordsFrom current previous rest = [] ↔ current = [] ∧ ∀ c ∈ rest, isSeparator c = true := by
  induction rest generalizing current previous with
  | nil => simp [wordsFrom, flush_eq_nil_iff]
  | cons c rest ih =>
    rw [wordsFrom]
    by_cases hc : isSeparator c = true
    · simp [hc, ih, flush_eq_nil_iff]
    · rw [if_neg hc]
      split
      · simp [hc]
      · simp [hc, ih]

/-! ### Joined words -/

theorem words_eq_nil_iff : words name = [] ↔ ∀ c ∈ name.toList, isSeparator c = true := by
  simp [words, wordsFrom_eq_nil_iff]

theorem head?_intercalate {α : Type} {separator l : List α} {lists : List (List α)} (h : l ≠ []) :
    (separator.intercalate (l :: lists)).head? = l.head? := by
  cases lists with
  | nil => simp
  | cons l' lists =>
    rw [List.intercalate_cons_cons, List.append_assoc, List.head?_append_of_ne_nil _ h]

theorem exists_head?_snakeCase (h : ∃ c ∈ name.toList, isSeparator c = false) :
    ∃ c ∈ name.toList, isSeparator c = false ∧ (snakeCase name).toList.head? = some c.toLower := by
  have hwords : wordsFrom [] ' ' name.toList ≠ [] := by
    rw [ne_eq, wordsFrom_eq_nil_iff]
    obtain ⟨c, hc, hseparator⟩ := h
    exact fun hall => Bool.false_ne_true (hseparator.symm.trans (hall.2 c hc))
  obtain ⟨word, others, hfirst⟩ := List.exists_cons_of_ne_nil hwords
  have hword : word ∈ wordsFrom [] ' ' name.toList := hfirst ▸ List.mem_cons_self
  have hne := ne_nil_of_mem_wordsFrom hword
  obtain ⟨x, rest, hx⟩ := List.exists_cons_of_ne_nil hne
  have hhead : (snakeCase name).toList.head? = some x := by
    rw [snakeCase, String.toList_intercalate, words, List.map_map, hfirst, List.map_cons,
      head?_intercalate]
    · simp [hx]
    · simpa using hne
  obtain ⟨c, hc, hseparator, rfl⟩ :=
    (of_mem_wordsFrom hword (hx ▸ List.mem_cons_self)).resolve_left List.not_mem_nil
  exact ⟨c, hc, hseparator, hhead⟩

theorem snakeCase_eq_empty_iff :
    snakeCase name = "" ↔ ∀ c ∈ name.toList, isSeparator c = true := by
  constructor
  · intro hempty c hc
    by_contra hseparator
    obtain ⟨x, -, -, hx⟩ := exists_head?_snakeCase ⟨c, hc, Bool.eq_false_iff.2 hseparator⟩
    rw [hempty] at hx
    cases hx
  · intro h
    rw [snakeCase, words_eq_nil_iff.2 h]
    rfl

end Naming

end OpcWire
