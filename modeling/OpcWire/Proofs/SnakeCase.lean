import OpcWire.Proofs.LegalNames
import OpcWire.Proofs.Naming.Splitting

/-!
# Conversion keeps what a name says

The words of a name joined by underscores have its characters in small letters, all of them and in
this order, and nothing else but the underscores (`Naming.flatten_wordsFrom`). Each underscore
stands between two words (`Naming.IsTidy`), so splitting what has been joined gives the same words
again (`Naming.wordsFrom_intercalate`).

This also shows what can be told from the identifier of a field. Without the escape of a keyword it
has the same words as the name, because underscores at the ends do not count
(`Naming.snakeCase_unescape_fieldIdent`); hence fields have one identifier only if their names have
the same words (`Naming.fieldIdent_inj`). Everything is put together in
`conversion_keeps_characters`.
-/

namespace OpcWire

namespace Naming

variable {chars word : List Char} {pieces : List (List Char)} {previous c : Char} {name : String}

/-! ### Characters -/

theorem flatten_flush (current : List Char) : (flush current).flatten = current := by
  by_cases h : current = []
  · rw [h]
    rfl
  · rw [flush_of_ne_nil h, List.flatten_singleton]

/-- **Splitting loses nothing**: the words have all characters but the separators, in small
letters. -/
theorem flatten_wordsFrom (current : List Char) (previous : Char) (chars : List Char) :
    (wordsFrom current previous chars).flatten =
      current ++ (chars.filter (!isSeparator ·)).map Char.toLower := by
  induction chars generalizing current previous with
  | nil => rw [wordsFrom, flatten_flush, List.filter_nil, List.map_nil, List.append_nil]
  | cons c chars ih =>
    rw [wordsFrom]
    split
    · rename_i hc
      rw [List.flatten_append, flatten_flush, ih, List.filter_cons_of_neg (by simp [hc]), List.nil_append]
    · rename_i hc
      rw [List.filter_cons_of_pos (by simp [hc]), List.map_cons]
      split
      · rw [List.flatten_cons, ih, List.singleton_append]
      · rw [ih, List.append_assoc, List.singleton_append]

/-- Whether characters are a word that is split no further. -/
structure IsSmallWord (word : List Char) : Prop where
  /-- There is a character. -/
  ne_nil : word ≠ []
  /-- No character separates words. -/
  isSeparator : ∀ c ∈ word, isSeparator c = false
  /-- There are no capitals. -/
  isUpper : ∀ c ∈ word, c.isUpper = false

theorem isSmallWord_of_mem_wordsFrom (h : word ∈ wordsFrom [] previous chars) : IsSmallWord word := by
  have hchars {c : Char} (hc : c ∈ word) : ∃ x, isSeparator x = false ∧ c = x.toLower := by
    obtain ⟨x, -, hx⟩ := (of_mem_wordsFrom h hc).resolve_left List.not_mem_nil
    exact ⟨x, hx⟩
  refine ⟨ne_nil_of_mem_wordsFrom h, fun c hc => ?_, fun c hc => ?_⟩
  · obtain ⟨x, hx, rfl⟩ := hchars hc
    -- a separator is no small letter, so it would come from itself
    by_contra hseparator
    rw [Bool.not_eq_false] at hseparator
    rw [← eq_of_toLower_eq (isLower_of_isSeparator hseparator) rfl] at hx
    exact Bool.false_ne_true (hx.symm.trans hseparator)
  · obtain ⟨x, -, rfl⟩ := hchars hc
    exact Char.isUpper_toLower_eq_false x

theorem IsSmallWord.underscore_notMem (h : IsSmallWord word) : '_' ∉ word :=
  fun hmem => Bool.false_ne_true ((h.isSeparator '_' hmem).symm.trans rfl)

theorem IsSmallWord.filter_eq_self (h : IsSmallWord word) : word.filter (· != '_') = word := by
  refine List.filter_eq_self.2 fun c hc => ?_
  rw [bne_iff_ne]
  rintro rfl
  exact h.underscore_notMem hc

/-! ### Joined words -/

theorem filter_intercalate (h : ∀ word ∈ pieces, IsSmallWord word) :
    (['_'].intercalate pieces).filter (· != '_') = pieces.flatten := by
  induction pieces with
  | nil => rfl
  | cons word rest ih =>
    obtain ⟨hfirst, hrest⟩ := List.forall_mem_cons.1 h
    cases rest with
    | nil => rw [List.intercalate_singleton, hfirst.filter_eq_self, List.flatten_singleton]
    | cons next rest =>
      rw [List.intercalate_cons_cons, List.filter_append, List.filter_append, hfirst.filter_eq_self,
        ih hrest, List.flatten_cons]
      simp

/-- Whether underscores stand between other characters only, and one at a time. -/
structure IsTidy (chars : List Char) : Prop where
  /-- There is none in front. -/
  head : chars.head? ≠ some '_'
  /-- There is none at the end. -/
  last : chars.getLast? ≠ some '_'
  /-- No two stand next to each other. -/
  single : ¬ ['_', '_'] <:+: chars

theorem isTidy_nil : IsTidy [] := ⟨nofun, nofun, by simp⟩

theorem IsSmallWord.isTidy (h : IsSmallWord word) : IsTidy word := by
  refine ⟨fun hhead => ?_, fun hlast => ?_, fun hdouble => ?_⟩
  · exact h.underscore_notMem (List.mem_of_head? hhead)
  · exact h.underscore_notMem (List.mem_of_getLast? hlast)
  · exact h.underscore_notMem (hdouble.subset List.mem_cons_self)

theorem not_infix_iff_isChain :
    ¬ ['_', '_'] <:+: chars ↔ chars.IsChain fun a b => ¬ (a = '_' ∧ b = '_') := by
  rw [List.isChain_iff_forall_rel_of_append_cons_cons]
  constructor
  · rintro h a b before after rfl ⟨rfl, rfl⟩
    exact h ⟨before, after, by simp⟩
  · rintro h ⟨before, after, rfl⟩
    exact @h '_' '_' before after (by simp) ⟨rfl, rfl⟩

theorem IsTidy.join {a b : List Char} (ha : IsTidy a) (hb : IsTidy b) (hane : a ≠ []) (hbne : b ≠ []) :
    IsTidy (a ++ ['_'] ++ b) := by
  refine ⟨?_, ?_, not_infix_iff_isChain.2 ?_⟩
  · rw [List.append_assoc, List.head?_append_of_ne_nil a hane]
    exact ha.head
  · rw [List.getLast?_append_of_ne_nil _ hbne]
    exact hb.last
  · rw [List.append_assoc, List.singleton_append]
    refine (not_infix_iff_isChain.1 ha.single).append
      ((not_infix_iff_isChain.1 hb.single).cons fun y hy heq => ?_) fun x hx y _ heq => ?_
    · exact hb.head (heq.2 ▸ hy)
    · exact ha.last (heq.1 ▸ hx)

theorem isTidy_intercalate (h : ∀ word ∈ pieces, IsSmallWord word) :
    IsTidy (['_'].intercalate pieces) := by
  induction pieces with
  | nil => exact isTidy_nil
  | cons word rest ih =>
    obtain ⟨hfirst, hrest⟩ := List.forall_mem_cons.1 h
    cases rest with
    | nil =>
      rw [List.intercalate_singleton]
      exact hfirst.isTidy
    | cons next rest =>
      have hnext := (hrest next List.mem_cons_self).ne_nil
      have hhead : (['_'].intercalate (next :: rest)).head? = next.head? := head?_intercalate hnext
      have hne : ['_'].intercalate (next :: rest) ≠ [] := by
        intro hnil
        rw [hnil] at hhead
        exact hnext (List.head?_eq_none_iff.1 hhead.symm)
      rw [List.intercalate_cons_cons]
      exact hfirst.isTidy.join (ih hrest) hfirst.ne_nil hne

theorem IsSmallWord.wordsFrom_eq (h : IsSmallWord word) (previous : Char) :
    wordsFrom [] previous word = [word] := by
  have hsmall : ∀ c ∈ word, Naming.isSeparator c = false ∧ c.isUpper = false :=
    fun c hc => ⟨h.isSeparator c hc, h.isUpper c hc⟩
  have hlower : word.map Char.toLower = word :=
    calc word.map Char.toLower
        = word.map id := List.map_congr_left fun c hc =>
          Char.toLower_eq_of_not_isUpper (Bool.eq_false_iff.1 (h.isUpper c hc))
      _ = word := List.map_id word
  have hword : wordsFrom [] previous (word ++ []) =
      wordsFrom ([] ++ word.map Char.toLower) (word.getLastD previous) [] :=
    wordsFrom_append_of_not_isUpper hsmall
  rwa [List.append_nil, hlower, List.nil_append, wordsFrom, flush_of_ne_nil h.ne_nil] at hword

/-- **Words that have been joined are split again.** -/
theorem wordsFrom_intercalate (h : ∀ word ∈ pieces, IsSmallWord word) (previous : Char) :
    wordsFrom [] previous (['_'].intercalate pieces) = pieces := by
  induction pieces generalizing previous with
  | nil => rfl
  | cons word rest ih =>
    obtain ⟨hfirst, hrest⟩ := List.forall_mem_cons.1 h
    cases rest with
    | nil => rw [List.intercalate_singleton, hfirst.wordsFrom_eq]
    | cons next rest =>
      rw [List.intercalate_cons_cons, List.append_assoc, List.singleton_append,
        wordsFrom_append_cons (by rfl), hfirst.wordsFrom_eq, ih hrest, List.singleton_append]

/-! ### Converted names -/

theorem toList_snakeCase (name : String) :
    (snakeCase name).toList = ['_'].intercalate (wordsFrom [] ' ' name.toList) := by
  have hid : String.toList ∘ String.ofList = id := funext fun _ => String.toList_ofList
  rw [snakeCase, String.toList_intercalate, words, List.map_map, hid, List.map_id]
  rfl

theorem isSmallWord_of_mem (name : String) : ∀ word ∈ wordsFrom [] ' ' name.toList, IsSmallWord word :=
  fun _ => isSmallWord_of_mem_wordsFrom

theorem snakeCase_congr {a b : String}
    (h : wordsFrom [] ' ' a.toList = wordsFrom [] ' ' b.toList) : snakeCase a = snakeCase b := by
  rw [← String.toList_inj, toList_snakeCase, toList_snakeCase, h]

theorem snakeCase_underscore_append (text : String) : snakeCase ("_" ++ text) = snakeCase text := by
  refine snakeCase_congr ?_
  rw [String.toList_append]
  exact wordsFrom_gap_append (by simp [isSeparator])

theorem snakeCase_append_underscore (text : String) : snakeCase (text ++ "_") = snakeCase text := by
  refine snakeCase_congr ?_
  rw [String.toList_append]
  exact (wordsFrom_append_cons rfl).trans (List.append_nil _)

theorem snakeCase_idem (name : String) : snakeCase (snakeCase name) = snakeCase name := by
  refine snakeCase_congr ?_
  rw [toList_snakeCase, wordsFrom_intercalate (isSmallWord_of_mem name)]

theorem isUpper_of_mem_snakeCase (h : c ∈ (snakeCase name).toList) : c.isUpper = false := by
  rcases of_mem_snakeCase h with rfl | ⟨x, -, -, rfl⟩
  · rfl
  · exact Char.isUpper_toLower_eq_false x

/-! ### Fields -/

/-- An identifier of a field without the escape of a keyword. -/
def unescape (ident : String) : String := (dropStart? "r#" ident).getD ident

theorem unescape_of_notMem {ident : String} (h : '#' ∉ ident.toList) : unescape ident = ident := by
  rw [unescape, dropStart?_eq_none_iff.2, Option.getD_none]
  rintro rest rfl
  exact h (by simp)

theorem hash_notMem_snakeCase (h : '#' ∉ name.toList) : '#' ∉ (snakeCase name).toList := by
  intro hmem
  obtain ⟨x, hx, -, heq⟩ := (of_mem_snakeCase hmem).resolve_left (by decide)
  exact h (eq_of_toLower_eq rfl heq ▸ hx)

/-- **A field can be told from its identifier**, as far as its words go. -/
theorem snakeCase_unescape_fieldIdent (h : '#' ∉ name.toList) :
    snakeCase (unescape (fieldIdent name)) = snakeCase name := by
  have hsnake := hash_notMem_snakeCase h
  -- with an underscore in front of a digit the words are still the same
  have hident : ∃ ident, (if startsWithDigit (snakeCase name) then "_" ++ snakeCase name
      else snakeCase name) = ident ∧ '#' ∉ ident.toList ∧ snakeCase ident = snakeCase name := by
    refine ⟨_, rfl, ?_⟩
    split
    · rw [snakeCase_underscore_append, snakeCase_idem, String.toList_append, List.mem_append, not_or]
      exact ⟨⟨by decide, hsnake⟩, rfl⟩
    · exact ⟨hsnake, snakeCase_idem name⟩
  obtain ⟨ident, heq, hfree, hwords⟩ := hident
  rw [fieldIdent, heq]
  split
  · have hfree' : '#' ∉ (ident ++ "_").toList := by
      rw [String.toList_append, List.mem_append, not_or]
      exact ⟨hfree, by decide⟩
    rw [unescape_of_notMem hfree', snakeCase_append_underscore, hwords]
  · split
    · rw [unescape, dropStart?_eq_some_iff.2 rfl, Option.getD_some, hwords]
    · rw [unescape_of_notMem hfree, hwords]

theorem IsConvertible.notMem_hash (h : IsConvertible name) : '#' ∉ name.toList := by
  intro hmem
  rcases h '#' hmem with h | h <;> revert h <;> decide

theorem fieldIdent_inj {a b : String} (ha : '#' ∉ a.toList) (hb : '#' ∉ b.toList) :
    fieldIdent a = fieldIdent b ↔ snakeCase a = snakeCase b := by
  constructor
  · intro h
    rw [← snakeCase_unescape_fieldIdent ha, h, snakeCase_unescape_fieldIdent hb]
  · intro h
    rw [fieldIdent, fieldIdent, h]

end Naming

open Naming in
/-- **Conversion keeps what a name says.** What any name is converted to has its characters but the
separators, in small letters, if the underscores are left out. There are no capitals, each
underscore stands between other characters, and to convert once more changes nothing. Two names of
letters, digits and separators get one field exactly if they are converted to the same words, so no
escape brings different fields together. -/
theorem conversion_keeps_characters (name : String) :
    (snakeCase name).toList.filter (· != '_') =
        (name.toList.filter (!isSeparator ·)).map Char.toLower ∧
      (∀ c ∈ (snakeCase name).toList, c.isUpper = false) ∧
      IsTidy (snakeCase name).toList ∧
      snakeCase (snakeCase name) = snakeCase name ∧
      ∀ other, IsConvertible name → IsConvertible other →
        (fieldIdent name = fieldIdent other ↔ snakeCase name = snakeCase other) := by
  have hsmall := isSmallWord_of_mem name
  refine ⟨?_, fun c hc => isUpper_of_mem_snakeCase hc, ?_, snakeCase_idem name, fun other h hother => ?_⟩
  · rw [toList_snakeCase, filter_intercalate hsmall, flatten_wordsFrom, List.nil_append]
  · rw [toList_snakeCase]
    exact isTidy_intercalate hsmall
  · exact fieldIdent_inj h.notMem_hash hother.notMem_hash

/-- Two spellings of a word that gets an underscore behind it have one field, and a name with one
more digit has another. Letters beyond ASCII are kept as they are. -/
theorem conversion_keeps_characters_self :
    Naming.fieldIdent "Self" = Naming.fieldIdent "_-SELF" ∧
      Naming.fieldIdent "Self" ≠ Naming.fieldIdent "Self 0" ∧
      (Naming.snakeCase "ÄrmelMaß--ID7").toList.filter (· != '_') = "Ärmelmaßid7".toList := by
  obtain ⟨-, -, -, -, hself⟩ := conversion_keeps_characters "Self"
  obtain ⟨hkept, -⟩ := conversion_keeps_characters "ÄrmelMaß--ID7"
  have hspelling := hself "_-SELF" (by decide) (by decide)
  have hother := hself "Self 0" (by decide) (by decide)
  exact ⟨hspelling.2 (by decide +kernel), fun heq => absurd (hother.1 heq) (by decide +kernel),
    hkept.trans (by decide +kernel)⟩

end OpcWire
