import OpcWire.Proofs.Naming.Words

/-!
# Converted names are legal identifiers

Names are made of ASCII letters, digits and separators. What they are converted to is to be declared
in generated code, so it has to be an identifier there and no reserved word.

* A constant is always legal: a name that begins with a digit, or has no words, gets a letter in
  front, and no reserved word is written in capitals.
* A field is legal, or an escaped reserved word, if and only if its name has a letter or a digit. A
  name of separators alone has no words, and its field has no name
  (`fieldIdent_underscore_illegal`).

Both are in `converted_names_legal_iff`.
-/

namespace OpcWire

namespace Naming

/-! ### Legal identifiers -/

/-- Words that have a meaning of their own in generated code, and words that are kept for one. -/
def reservedWords : List String :=
  [ "as", "async", "await", "break", "const", "continue", "crate", "dyn", "else", "enum", "extern",
    "false", "fn", "for", "if", "impl", "in", "let", "loop", "match", "mod", "move", "mut", "pub",
    "ref", "return", "self", "Self", "static", "struct", "super", "trait", "true", "type", "unsafe",
    "use", "where", "while",
    "abstract", "become", "box", "do", "final", "gen", "macro", "override", "priv", "try", "typeof",
    "unsized", "virtual", "yield" ]

/-- Whether generated code may declare something under a name as it is. -/
structure IsLegal (name : String) : Prop where
  /-- It begins with a letter or an underscore. -/
  first : name.toList.head?.any (fun c => c.isAlpha || c == '_') = true
  /-- It has letters, digits and underscores. -/
  all : name.toList.all (fun c => c.isAlphanum || c == '_') = true
  /-- It is no underscore alone. -/
  ne_underscore : name ≠ "_"
  /-- It is no reserved word. -/
  notMem_reservedWords : name ∉ reservedWords

instance (name : String) : Decidable (IsLegal name) :=
  decidable_of_iff
    (name.toList.head?.any (fun c => c.isAlpha || c == '_') = true ∧
      name.toList.all (fun c => c.isAlphanum || c == '_') = true ∧ name ≠ "_" ∧
      name ∉ reservedWords)
    ⟨fun ⟨hfirst, hall, hne, hnot⟩ => ⟨hfirst, hall, hne, hnot⟩,
      fun ⟨hfirst, hall, hne, hnot⟩ => ⟨hfirst, hall, hne, hnot⟩⟩

/-- Whether a name is a reserved word with the escape that makes an identifier of it, which some
words cannot have. -/
def IsEscaped (name : String) : Prop :=
  ∃ word ∈ reservedWords, word ∉ ["self", "super", "crate", "Self", "_"] ∧ name = "r#" ++ word

instance (name : String) : Decidable (IsEscaped name) :=
  inferInstanceAs (Decidable (∃ word ∈ reservedWords, _ ∧ name = "r#" ++ word))

/-- Whether a name has nothing but ASCII letters, digits and separators. -/
def IsConvertible (name : String) : Prop :=
  ∀ c ∈ name.toList, c.isAlphanum = true ∨ isSeparator c = true

instance (name : String) : Decidable (IsConvertible name) :=
  List.decidableBAll _ _

variable {name : String}

/-! ### Characters -/

theorem isSeparator_of_isAlphanum {c : Char} (h : c.isAlphanum = true) : isSeparator c = false := by
  have hne {x : Char} (hx : x.isAlphanum = false) : (c == x) = false := by
    rw [beq_eq_false_iff_ne]
    rintro rfl
    exact Bool.false_ne_true (hx.symm.trans h)
  rw [isSeparator, hne (by decide), hne (by decide), hne (by decide)]
  rfl

theorem isLower_or_isDigit_toLower {c : Char} (h : c.isAlphanum = true) :
    c.toLower.isLower = true ∨ c.toLower.isDigit = true := by
  rw [Char.isLower_toLower_eq_isAlpha]
  rcases Bool.or_eq_true_iff.1 h with halpha | hdigit
  · exact .inl halpha
  · by_cases hupper : c.isUpper = true
    · exact .inl (by simp [Char.isAlpha, hupper])
    · exact .inr (by rwa [Char.toLower_eq_of_not_isUpper hupper])

theorem isUpper_or_isDigit_toUpper {c : Char} (h : c.isAlphanum = true) :
    c.toUpper.isUpper = true ∨ c.toUpper.isDigit = true := by
  rw [Char.isUpper_toUpper_eq_isAlpha]
  rcases Bool.or_eq_true_iff.1 h with halpha | hdigit
  · exact .inl halpha
  · by_cases hlower : c.isLower = true
    · exact .inl (by simp [Char.isAlpha, hlower])
    · exact .inr (by rwa [Char.toUpper_eq_of_not_isLower hlower])

theorem IsConvertible.isAlphanum (h : IsConvertible name) {c : Char} (hc : c ∈ name.toList)
    (hseparator : isSeparator c = false) : c.isAlphanum = true :=
  (h c hc).resolve_right (by simp [hseparator])

theorem IsConvertible.of_mem_snakeCase (h : IsConvertible name) {c : Char}
    (hc : c ∈ (snakeCase name).toList) : c.isLower = true ∨ c.isDigit = true ∨ c = '_' := by
  rcases Naming.of_mem_snakeCase hc with rfl | ⟨x, hx, hseparator, rfl⟩
  · exact .inr (.inr rfl)
  · exact (isLower_or_isDigit_toLower (h.isAlphanum hx hseparator)).imp_right .inl

theorem IsConvertible.of_mem_constIdent (h : IsConvertible name) {c : Char}
    (hc : c ∈ (constIdent name).toList) : c.isUpper = true ∨ c.isDigit = true ∨ c = '_' := by
  rcases Naming.of_mem_constIdent hc with rfl | rfl | ⟨x, hx, hseparator, rfl⟩
  · exact .inr (.inr rfl)
  · exact .inl rfl
  · exact (isUpper_or_isDigit_toUpper (h.isAlphanum hx hseparator)).imp_right .inl

/-! ### Constants -/

theorem screamingSnakeCase_eq_empty_iff : screamingSnakeCase name = "" ↔ snakeCase name = "" := by
  simp [screamingSnakeCase, ← String.toList_eq_nil_iff]

theorem IsConvertible.exists_head?_constIdent (h : IsConvertible name) :
    ∃ c, (constIdent name).toList.head? = some c ∧ c.isUpper = true := by
  rw [constIdent]
  split
  · exact ⟨'V', by simp, rfl⟩
  · rename_i hplain
    rw [Bool.or_eq_true, not_or, String.isEmpty_iff, screamingSnakeCase_eq_empty_iff,
      snakeCase_eq_empty_iff] at hplain
    obtain ⟨hwords, hdigit⟩ := hplain
    push Not at hwords
    obtain ⟨x, hx, hseparator⟩ := hwords
    obtain ⟨c, hc, hc', hhead⟩ := exists_head?_snakeCase ⟨x, hx, Bool.eq_false_iff.2 hseparator⟩
    have hfirst : (screamingSnakeCase name).toList.head? = some c.toUpper := by
      rw [screamingSnakeCase, String.toList_map, List.head?_map, hhead, Option.map_some,
        Char.toUpper_toLower_eq_toUpper]
    refine ⟨_, hfirst, (isUpper_or_isDigit_toUpper (h.isAlphanum hc hc')).resolve_right ?_⟩
    simpa [startsWithDigit, hfirst] using hdigit

theorem IsConvertible.isLegal_constIdent (h : IsConvertible name) : IsLegal (constIdent name) := by
  obtain ⟨c, hhead, hc⟩ := h.exists_head?_constIdent
  constructor
  · simp [hhead, Char.isAlpha, hc]
  · rw [List.all_eq_true]
    intro x hx
    rcases h.of_mem_constIdent hx with hx | hx | rfl
    · simp [Char.isAlphanum, Char.isAlpha, hx]
    · simp [Char.isAlphanum, hx]
    · rfl
  · intro heq
    rw [heq] at hhead
    obtain rfl : '_' = c := Option.some.inj hhead
    cases hc
  · -- every reserved word has a small letter
    intro hmem
    have hsmall : reservedWords.all (fun word =>
        word.toList.any fun x => !(x.isUpper || x.isDigit || x == '_')) = true := by decide
    obtain ⟨x, hx, hnot⟩ := List.any_eq_true.1 (List.all_eq_true.1 hsmall _ hmem)
    have hin := h.of_mem_constIdent hx
    simp only [Bool.not_eq_true', Bool.or_eq_false_iff, beq_eq_false_iff_ne] at hnot
    obtain ⟨⟨hupper, hdigit⟩, hne⟩ := hnot
    simp [hupper, hdigit, hne] at hin

/-! ### Fields -/

theorem fieldIdent_of_separators (h : ∀ c ∈ name.toList, isSeparator c = true) :
    fieldIdent name = "" := by
  rw [fieldIdent, snakeCase_eq_empty_iff.2 h]
  decide

/-- No word that a field may meet begins with an underscore, other than the underscore itself. -/
theorem eq_underscore_of_head? {word : String} (h : word ∈ reserved ++ keywords ++ reservedWords)
    (hhead : word.toList.head? = some '_') : word = "_" := by
  have hall : ∀ word ∈ reserved ++ keywords ++ reservedWords,
      word.toList.head? = some '_' → word = "_" := by decide
  exact hall word h hhead

/-- A field whose name has words is legal, if need be with an escape. -/
theorem IsConvertible.legal_fieldIdent (h : IsConvertible name)
    (hwords : ∃ c ∈ name.toList, isSeparator c = false) :
    IsLegal (fieldIdent name) ∨ IsEscaped (fieldIdent name) := by
  obtain ⟨c, hc, hseparator, hhead⟩ := exists_head?_snakeCase hwords
  have hfirst := isLower_or_isDigit_toLower (h.isAlphanum hc hseparator)
  have hchars : (snakeCase name).toList.all (fun c => c.isAlphanum || c == '_') = true := by
    rw [List.all_eq_true]
    intro x hx
    rcases h.of_mem_snakeCase hx with hx | hx | rfl
    · simp [Char.isAlphanum, Char.isAlpha, hx]
    · simp [Char.isAlphanum, hx]
    · rfl
  rw [fieldIdent]
  by_cases hdigit : startsWithDigit (snakeCase name) = true
  · -- the underscore in front makes an identifier that is none of the words
    have hnot : "_" ++ snakeCase name ∉ reserved ++ keywords ++ reservedWords := by
      intro hmem
      have heq := eq_underscore_of_head? hmem (by simp)
      have hnil : (snakeCase name).toList = [] := by
        simpa using congrArg String.toList heq
      rw [hnil] at hhead
      cases hhead
    simp only [List.mem_append, not_or] at hnot
    obtain ⟨⟨hreserved, hkeyword⟩, hword⟩ := hnot
    have hne : "_" ++ snakeCase name ≠ "_" := by
      intro heq
      rw [heq] at hreserved
      exact hreserved (by decide)
    left
    simp only [hdigit, if_true, List.contains_iff_mem, hreserved, hkeyword, if_false]
    exact ⟨by simp, by simpa using hchars, hne, hword⟩
  · have hlower : c.toLower.isLower = true := hfirst.resolve_right fun hx =>
      hdigit (by simp [startsWithDigit, hhead, hx])
    simp only [hdigit, Bool.false_eq_true, if_false, List.contains_iff_mem]
    split
    · -- a word that has no escape gets an underscore
      rename_i hreserved
      have hlegal : ∀ word ∈ reserved, IsLegal (word ++ "_") := by decide
      exact .inl (hlegal _ hreserved)
    · rename_i hreserved
      split
      · rename_i hkeyword
        have hescaped : ∀ word ∈ keywords, IsEscaped ("r#" ++ word) := by decide +kernel
        exact .inr (hescaped _ hkeyword)
      · -- every reserved word is one of those that have been looked for
        rename_i hkeyword
        have hknown : ∀ word ∈ reservedWords, word ∈ reserved ∨ word ∈ keywords := by decide
        refine .inl ⟨by simp [hhead, Char.isAlpha, hlower], hchars, ?_, fun hmem => ?_⟩
        · intro heq
          rw [heq] at hreserved
          exact hreserved (by decide)
        · exact (hknown _ hmem).elim hreserved hkeyword

end Naming

/-- **What names are converted to.** The constant of a name of letters, digits and separators is a
legal identifier. Its field is one, or an escaped reserved word, if and only if the name has a
letter or a digit; the field of any other name is the empty text. -/
theorem converted_names_legal_iff (name : String) (h : Naming.IsConvertible name) :
    Naming.IsLegal (Naming.constIdent name) ∧
      (Naming.IsLegal (Naming.fieldIdent name) ∨ Naming.IsEscaped (Naming.fieldIdent name) ↔
        ∃ c ∈ name.toList, c.isAlphanum = true) ∧
      ((∀ c ∈ name.toList, Naming.isSeparator c = true) → Naming.fieldIdent name = "") := by
  refine ⟨h.isLegal_constIdent, ⟨fun hfield => ?_, ?_⟩, Naming.fieldIdent_of_separators⟩
  · by_contra hnone
    have hempty : Naming.fieldIdent name = "" := Naming.fieldIdent_of_separators fun c hc =>
      (h c hc).resolve_left fun hc' => hnone ⟨c, hc, hc'⟩
    rw [hempty] at hfield
    revert hfield
    decide
  · rintro ⟨c, hc, halphanum⟩
    exact h.legal_fieldIdent ⟨c, hc, Naming.isSeparator_of_isAlphanum halphanum⟩

/-- A digit in front, a word that is kept for later, and a word that has no escape. -/
theorem converted_names_legal_iff_words :
    Naming.fieldIdent "3-D View" = "_3_d_view" ∧ Naming.IsLegal "_3_d_view" ∧
      Naming.IsLegal (Naming.constIdent "3-D View") ∧
      (Naming.IsLegal (Naming.fieldIdent "GEN") ∨ Naming.IsEscaped (Naming.fieldIdent "GEN")) ∧
      (Naming.IsLegal (Naming.fieldIdent "Self") ∨ Naming.IsEscaped (Naming.fieldIdent "Self")) := by
  have hview := converted_names_legal_iff "3-D View" (by decide)
  have hgen := converted_names_legal_iff "GEN" (by decide)
  have hself := converted_names_legal_iff "Self" (by decide)
  exact ⟨by decide +kernel, by decide +kernel, hview.1,
    hgen.2.1.2 ⟨'G', by decide, rfl⟩, hself.2.1.2 ⟨'f', by decide, rfl⟩⟩

/-- The field of a lone underscore has no name, though its constant has one. -/
theorem fieldIdent_underscore_illegal :
    Naming.IsConvertible "_" ∧ Naming.IsLegal (Naming.constIdent "_") ∧ Naming.fieldIdent "_" = "" ∧
      ¬ Naming.IsLegal (Naming.fieldIdent "_") ∧ ¬ Naming.IsEscaped (Naming.fieldIdent "_") := by
  decide +kernel

end OpcWire
