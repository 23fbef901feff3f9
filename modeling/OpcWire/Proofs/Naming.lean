import Mathlib
import OpcWire.Naming

/-!
# Characters of converted names

A converted name has the characters of the name it comes from, in capitals or small letters, and
those that join words or escape (`Naming.of_mem_constIdent`). So a character that is no letter and
does not occur in a name does not occur in its constant either (`Naming.not_mem_constIdent`).
`Naming.IsIdentifier` says what names of types may be made of, as far as ASCII goes.
-/

namespace OpcWire

namespace Naming

/-! ### Names of types -/

/-- Whether a character may stand in an identifier: an ASCII letter, a digit or an underscore. Which
characters beyond ASCII may is left open, so all are taken. -/
def isIdentifierChar (c : Char) : Bool := c.isAlphanum || c == '_' || decide (128 ≤ c.toNat)

/-- Whether a name is an identifier. -/
def IsIdentifier (name : String) : Prop :=
  name ≠ "" ∧ startsWithDigit name = false ∧ name.toList.all isIdentifierChar = true

instance (name : String) : Decidable (IsIdentifier name) := inferInstanceAs (Decidable (_ ∧ _ ∧ _))

theorem IsIdentifier.not_mem {name : String} (h : IsIdentifier name) {c : Char}
    (hc : isIdentifierChar c = false) : c ∉ name.toList :=
  fun hmem => Bool.false_ne_true (hc.symm.trans (List.all_eq_true.1 h.2.2 c hmem))

/-! ### Words -/

theorem mem_flush {current word : List Char} : word ∈ flush current ↔ word = current ∧ word ≠ [] := by
  rw [flush]
  split
  · rename_i hempty
    rw [List.isEmpty_iff.1 hempty]
    exact iff_of_false List.not_mem_nil fun h => h.2 h.1
  · rename_i hne
    rw [List.mem_singleton]
    exact ⟨fun h => ⟨h, fun hnil => hne (h ▸ List.isEmpty_iff.2 hnil)⟩, And.left⟩

theorem of_mem_wordsFrom {current word rest : List Char} {previous c : Char}
    (hword : word ∈ wordsFrom current previous rest) (hc : c ∈ word) :
    c ∈ current ∨ ∃ x ∈ rest, isSeparator x = false ∧ c = x.toLower := by
  have hflush {current : List Char} (h : word ∈ flush current) : word = current := (mem_flush.1 h).1
  induction rest generalizing current previous with
  | nil =>
    rw [wordsFrom] at hword
    exact .inl (hflush hword ▸ hc)
  | cons x rest ih =>
    have hlater (h : ∃ y ∈ rest, isSeparator y = false ∧ c = y.toLower) :
        ∃ y ∈ x :: rest, isSeparator y = false ∧ c = y.toLower := by
      obtain ⟨y, hy, h⟩ := h
      exact ⟨y, List.mem_cons_of_mem _ hy, h⟩
    rw [wordsFrom] at hword
    split at hword
    · rcases List.mem_append.1 hword with h | h
      · exact .inl (hflush h ▸ hc)
      · rcases ih h with h | h
        · cases h
        · exact .inr (hlater h)
    · rename_i hseparator
      have hx : isSeparator x = false := Bool.eq_false_iff.2 hseparator
      split at hword
      · rcases List.mem_cons.1 hword with rfl | h
        · exact .inl hc
        · rcases ih h with h | h
          · exact .inr ⟨x, List.mem_cons_self, hx, List.mem_singleton.1 h⟩
          · exact .inr (hlater h)
      · rcases ih hword with h | h
        · rcases List.mem_append.1 h with h | h
          · exact .inl h
          · exact .inr ⟨x, List.mem_cons_self, hx, List.mem_singleton.1 h⟩
        · exact .inr (hlater h)

theorem of_mem_intercalate {α : Type} {separator : List α} {lists : List (List α)} {x : α}
    (h : x ∈ separator.intercalate lists) : x ∈ separator ∨ ∃ l ∈ lists, x ∈ l := by
  induction lists with
  | nil => cases h
  | cons l rest ih =>
    cases rest with
    | nil =>
      rw [List.intercalate_singleton] at h
      exact .inr ⟨l, List.mem_cons_self, h⟩
    | cons l' rest =>
      rw [List.intercalate_cons_cons, List.mem_append, List.mem_append] at h
      rcases h with (h | h) | h
      · exact .inr ⟨l, List.mem_cons_self, h⟩
      · exact .inl h
      · exact (ih h).imp_right fun ⟨l'', hl, hx⟩ => ⟨l'', List.mem_cons_of_mem _ hl, hx⟩

theorem of_mem_snakeCase {name : String} {c : Char} (h : c ∈ (snakeCase name).toList) :
    c = '_' ∨ ∃ x ∈ name.toList, isSeparator x = false ∧ c = x.toLower := by
  rw [snakeCase, String.toList_intercalate] at h
  rcases of_mem_intercalate h with h | ⟨l, hl, hc⟩
  · exact .inl (List.mem_singleton.1 h)
  · rw [words, List.map_map] at hl
    obtain ⟨word, hword, rfl⟩ := List.mem_map.1 hl
    rw [Function.comp_apply, String.toList_ofList] at hc
    exact .inr ((of_mem_wordsFrom hword hc).resolve_left List.not_mem_nil)

/-! ### Identifiers -/

theorem of_mem_constIdent {name : String} {c : Char} (h : c ∈ (constIdent name).toList) :
    c = '_' ∨ c = 'V' ∨ ∃ x ∈ name.toList, isSeparator x = false ∧ c = x.toUpper := by
  have hscreaming (h : c ∈ (screamingSnakeCase name).toList) :
      c = '_' ∨ c = 'V' ∨ ∃ x ∈ name.toList, isSeparator x = false ∧ c = x.toUpper := by
    rw [screamingSnakeCase, String.toList_map] at h
    obtain ⟨y, hy, rfl⟩ := List.mem_map.1 h
    rcases of_mem_snakeCase hy with rfl | ⟨x, hx, hseparator, rfl⟩
    · exact .inl rfl
    · exact .inr (.inr ⟨x, hx, hseparator, Char.toUpper_toLower_eq_toUpper x⟩)
  rw [constIdent] at h
  split at h
  · rw [String.toList_append, List.mem_append] at h
    rcases h with h | h
    · exact .inr (.inl (List.mem_singleton.1 h))
    · exact hscreaming h
  · exact hscreaming h

theorem of_mem_fieldIdent {name : String} {c : Char} (h : c ∈ (fieldIdent name).toList) :
    c = '_' ∨ c = 'r' ∨ c = '#' ∨ ∃ x ∈ name.toList, isSeparator x = false ∧ c = x.toLower := by
  have hsnake (h : c ∈ (snakeCase name).toList) :
      c = '_' ∨ c = 'r' ∨ c = '#' ∨ ∃ x ∈ name.toList, isSeparator x = false ∧ c = x.toLower :=
    (of_mem_snakeCase h).imp_right fun h => .inr (.inr h)
  have hident (h : c ∈ (if startsWithDigit (snakeCase name) then "_" ++ snakeCase name
      else snakeCase name).toList) :
      c = '_' ∨ c = 'r' ∨ c = '#' ∨ ∃ x ∈ name.toList, isSeparator x = false ∧ c = x.toLower := by
    split at h
    · rw [String.toList_append, List.mem_append] at h
      rcases h with h | h
      · exact .inl (List.mem_singleton.1 h)
      · exact hsnake h
    · exact hsnake h
  rw [fieldIdent] at h
  generalize (if startsWithDigit (snakeCase name) then "_" ++ snakeCase name
    else snakeCase name) = ident at h hident
  split at h
  · rw [String.toList_append, List.mem_append] at h
    rcases h with h | h
    · exact hident h
    · exact .inl (List.mem_singleton.1 h)
  · split at h
    · rw [String.toList_append, List.mem_append] at h
      rcases h with h | h
      · have hmem : c ∈ ['r', '#'] := h
        simp only [List.mem_cons, List.not_mem_nil, or_false] at hmem
        rcases hmem with rfl | rfl
        · exact .inr (.inl rfl)
        · exact .inr (.inr (.inl rfl))
      · exact hident h
    · exact hident h

theorem eq_of_toUpper_eq {x c : Char} (hc : c.isUpper = false) (h : c = x.toUpper) : c = x := by
  have hx : x.isLower = false := by
    rw [h, Char.isUpper_toUpper_eq_isAlpha, Char.isAlpha, Bool.or_eq_false_iff] at hc
    exact hc.2
  rw [h, Char.toUpper_eq_of_not_isLower (Bool.eq_false_iff.1 hx)]

theorem eq_of_toLower_eq {x c : Char} (hc : c.isLower = false) (h : c = x.toLower) : c = x := by
  have hx : x.isUpper = false := by
    rw [h, Char.isLower_toLower_eq_isAlpha, Char.isAlpha, Bool.or_eq_false_iff] at hc
    exact hc.1
  rw [h, Char.toLower_eq_of_not_isUpper (Bool.eq_false_iff.1 hx)]

theorem not_mem_constIdent {name : String} {c : Char} (hc : c.isUpper = false) (h_ : c ≠ '_')
    (h : c ∉ name.toList ∨ isSeparator c = true) : c ∉ (constIdent name).toList := by
  intro hmem
  rcases of_mem_constIdent hmem with rfl | rfl | ⟨x, hx, hseparator, heq⟩
  · exact h_ rfl
  · cases hc
  · obtain rfl := eq_of_toUpper_eq hc heq
    rcases h with h | h
    · exact h hx
    · exact Bool.false_ne_true (hseparator.symm.trans h)

/-- The constant of an encoding has no character that the name of its type does not have, other than
capitals and underscores. -/
theorem IsIdentifier.not_mem_encodingConstant {name : String} (h : IsIdentifier name) {c : Char}
    (hc : isIdentifierChar c = false) : c ∉ (constIdent (encodingIdName name)).toList := by
  have hupper : c.isUpper = false := by
    rw [Bool.eq_false_iff]
    intro hupper
    rw [isIdentifierChar, Char.isAlphanum, Char.isAlpha, hupper] at hc
    exact Bool.noConfusion hc
  have hother : c ∉ "_Encoding_DefaultBinary".toList := by
    have hall : ∀ x ∈ "_Encoding_DefaultBinary".toList, isIdentifierChar x = true :=
      List.all_eq_true.1 (by decide)
    exact fun hmem => Bool.false_ne_true (hc.symm.trans (hall c hmem))
  refine not_mem_constIdent hupper ?_ (.inl ?_)
  · rintro rfl
    cases hc
  · rw [encodingIdName, String.toList_append, List.mem_append]
    exact not_or.2 ⟨h.not_mem hc, hother⟩

end Naming

end OpcWire
