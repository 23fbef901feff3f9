import OpcWire.Proofs.LegalNames
import OpcWire.Proofs.Naming.Splitting

/-!
# Names follow their words

Names of the dictionary are put together from words: capitalised ones and acronyms, of ASCII letters
and digits (`Naming.Word`), one right behind the other or with separators between them. Where a word
ends can be told from the letters as long as no acronym stands right behind another one and a
capitalised word right behind an acronym goes on with a small letter (`Naming.Word.MayFollow`);
separators always tell. Under this condition the words of a name are those that it was put together
from, in small letters (`Naming.words_spell`), and so are what it is converted to and its constant
(`names_follow_words`).

The proof follows the words from left to right: each one is taken in whole, with what has been read
before as a word of its own (`Naming.Word.wordsFrom_append`), and leaves its last letter for the
next one to be told from.
-/

namespace OpcWire

namespace Naming

/-! ### Names as words -/

/-- A word of a name. -/
inductive Word
  /-- A capital, and small letters or digits behind it, at least one. -/
  | capitalised (first second : Char) (rest : List Char) (hfirst : first.isUpper = true)
      (hrest : (second :: rest).all (fun c => c.isLower || c.isDigit) = true)
  /-- Capitals, at least two. -/
  | acronym (first second : Char) (rest : List Char)
      (h : (first :: second :: rest).all Char.isUpper = true)

namespace Word

/-- The first letter. -/
def first : Word → Char
  | capitalised first _ _ _ _ => first
  | acronym first _ _ _ => first

/-- What comes behind the first letter. -/
def tail : Word → List Char
  | capitalised _ second rest _ _ => second :: rest
  | acronym _ second rest _ => second :: rest

/-- The word as it stands in a name. -/
def chars (w : Word) : List Char := w.first :: w.tail

/-- The last letter or digit. -/
def last (w : Word) : Char := w.tail.getLastD w.first

/-- The word in small letters. -/
def small (w : Word) : List Char := w.chars.map Char.toLower

/-- Whether a word can be told from the one right in front of it: behind an acronym only a
capitalised word can, and only if it goes on with a small letter. -/
def MayFollow : (before after : Word) → Prop
  | capitalised .., _ => True
  | acronym .., capitalised _ second _ _ _ => second.isLower = true
  | acronym .., acronym .. => False

instance : (before after : Word) → Decidable (before.MayFollow after)
  | capitalised .., _ => inferInstanceAs (Decidable True)
  | acronym .., capitalised _ second _ _ _ => inferInstanceAs (Decidable (second.isLower = true))
  | acronym .., acronym .. => inferInstanceAs (Decidable False)

end Word

/-- A word, and the separators in front of it, if there are any. -/
structure SpacedWord where
  /-- The separators. -/
  gap : List Char
  /-- There is nothing else in the gap. -/
  all_isSeparator : gap.all isSeparator = true
  /-- The word. -/
  word : Word

/-- Whether a word can be told from the one in front of it, by separators or by its letters. -/
def SpacedWord.MayFollow (before after : SpacedWord) : Prop :=
  after.gap ≠ [] ∨ before.word.MayFollow after.word

instance (before after : SpacedWord) : Decidable (before.MayFollow after) :=
  inferInstanceAs (Decidable (_ ∨ _))

/-- The name that is put together from words. -/
def spell (parts : List SpacedWord) : List Char := parts.flatMap fun p => p.gap ++ p.word.chars

variable {current rest : List Char} {previous c : Char} {before after w : Word}
  {p : SpacedWord} {parts : List SpacedWord}

theorem SpacedWord.isSeparator_of_mem (h : c ∈ p.gap) : isSeparator c = true :=
  List.all_eq_true.1 p.all_isSeparator c h

/-! ### One word -/

theorem isSeparator_of_isUpper (h : c.isUpper = true) : isSeparator c = false :=
  isSeparator_of_isAlphanum (by simp [Char.isAlphanum, Char.isAlpha, h])

theorem Word.isUpper_first (w : Word) : w.first.isUpper = true := by
  cases w with
  | capitalised first second rest hfirst hrest => exact hfirst
  | acronym first second rest h => exact List.all_eq_true.1 h first List.mem_cons_self

theorem Word.small_ne_nil (w : Word) : w.small ≠ [] := List.cons_ne_nil _ _

/-- What comes behind the first letter of a word belongs to it. -/
theorem Word.wordsFrom_tail_append (w : Word) (hrest : rest.head?.any Char.isLower = false) :
    wordsFrom [w.first.toLower] w.first (w.tail ++ rest) = wordsFrom w.small w.last rest := by
  cases w with
  | capitalised first second others hfirst hothers =>
    refine wordsFrom_append_of_not_isUpper fun c hc => ?_
    rcases Bool.or_eq_true_iff.1 (List.all_eq_true.1 hothers c hc) with hlower | hdigit
    · exact ⟨isSeparator_of_isAlphanum (by simp [Char.isAlphanum, Char.isAlpha, hlower]),
        Bool.eq_false_iff.2 (Char.not_isUpper_of_isLower hlower)⟩
    · refine ⟨isSeparator_of_isAlphanum (by simp [Char.isAlphanum, hdigit]), ?_⟩
      rw [Bool.eq_false_iff]
      intro hupper
      rw [isDigit_of_isUpper hupper] at hdigit
      cases hdigit
  | acronym first second others h =>
    obtain ⟨hfirst, hothers⟩ := List.forall_mem_cons.1 (List.all_eq_true.1 h)
    exact wordsFrom_append_of_isUpper hfirst
      (fun c hc => ⟨isSeparator_of_isUpper (hothers c hc), hothers c hc⟩) hrest

/-- **One word.** If none has begun, or the first letter ends what has, a word is taken in whole. -/
theorem Word.wordsFrom_append (w : Word) (hrest : rest.head?.any Char.isLower = false)
    (hstart : current = [] ∨ startsWord previous w.first (w.tail ++ rest) = true) :
    wordsFrom current previous (w.chars ++ rest) = flush current ++ wordsFrom w.small w.last rest := by
  have hfirst := isSeparator_of_isUpper w.isUpper_first
  rw [chars, List.cons_append, ← w.wordsFrom_tail_append hrest]
  by_cases hcurrent : current = []
  · subst hcurrent
    exact wordsFrom_cons_of_continues hfirst (.inl rfl)
  · rw [wordsFrom_cons_of_startsWord hfirst hcurrent (hstart.resolve_left hcurrent),
      flush_of_ne_nil hcurrent, List.singleton_append]

/-- A word that may follow another one is told from it by its first letter. -/
theorem Word.MayFollow.startsWord (h : before.MayFollow after) (rest : List Char) :
    startsWord before.last after.first (after.tail ++ rest) = true := by
  rw [Naming.startsWord, after.isUpper_first, Bool.true_and]
  cases before with
  | capitalised first second others hfirst hothers =>
    have hlast : ((second :: others).getLastD first).isLower = true ∨
        ((second :: others).getLastD first).isDigit = true := by
      rw [List.getLastD_cons]
      exact Bool.or_eq_true_iff.1 (List.all_eq_true.1 hothers _ List.getLastD_mem_cons)
    rcases hlast with hlast | hlast
    · simp only [last, tail, Word.first, hlast, Bool.true_or]
    · simp only [last, tail, Word.first, hlast, Bool.or_true, Bool.true_or]
  | acronym first second others hall =>
    cases after with
    | capitalised first' second' others' hfirst' hothers' =>
      have hlast : ((second :: others).getLastD first).isUpper = true :=
        List.all_eq_true.1 hall _ List.getLastD_mem_cons
      have hsecond : second'.isLower = true := h
      simp only [last, tail, Word.first, hlast, List.cons_append, List.head?_cons, Option.any_some,
        hsecond, Bool.true_and, Bool.or_true]
    | acronym => cases h

/-! ### All words -/

/-- No word begins with a small letter, and no gap. -/
theorem isLower_head?_spell (parts : List SpacedWord) :
    (spell parts).head?.any Char.isLower = false := by
  cases parts with
  | nil => rfl
  | cons p parts =>
    rw [spell, List.flatMap_cons]
    cases hgap : p.gap with
    | nil => exact Bool.eq_false_iff.2 (Char.not_isLower_of_isUpper p.word.isUpper_first)
    | cons c gap =>
      exact isLower_of_isSeparator (p.isSeparator_of_mem (hgap ▸ List.mem_cons_self))

/-- **From one word on**, the words of a name are those that it is put together from. -/
theorem wordsFrom_spell (hchain : (p :: parts).IsChain SpacedWord.MayFollow) :
    wordsFrom p.word.small p.word.last (spell parts) = (p :: parts).map (·.word.small) := by
  induction parts generalizing p with
  | nil => exact flush_of_ne_nil p.word.small_ne_nil
  | cons q parts ih =>
    obtain ⟨hfollows, hchain⟩ := List.isChain_cons_cons.1 hchain
    have hrest := isLower_head?_spell parts
    rw [spell, List.flatMap_cons, ← spell, List.append_assoc, List.map_cons, ← ih hchain]
    cases hgap : q.gap with
    | nil =>
      have hstarts := (hfollows.resolve_left (not_not_intro hgap)).startsWord (spell parts)
      rw [List.nil_append, q.word.wordsFrom_append hrest (.inr hstarts),
        flush_of_ne_nil p.word.small_ne_nil, List.singleton_append]
    | cons c gap =>
      have hfirst : isSeparator c = true := q.isSeparator_of_mem (hgap ▸ List.mem_cons_self)
      have hothers (x : Char) (hx : x ∈ gap) : isSeparator x = true :=
        q.isSeparator_of_mem (hgap ▸ List.mem_cons_of_mem c hx)
      rw [List.cons_append, wordsFrom_cons_of_isSeparator hfirst, wordsFrom_gap_append hothers,
        q.word.wordsFrom_append hrest (.inl rfl), flush_of_ne_nil p.word.small_ne_nil,
        List.singleton_append]
      rfl

/-- **The words of a name are those that it is put together from**, in small letters. -/
theorem words_spell (hchain : parts.IsChain SpacedWord.MayFollow) :
    words (String.ofList (spell parts)) = parts.map fun p => String.ofList p.word.small := by
  rw [words, String.toList_ofList]
  cases parts with
  | nil => rfl
  | cons p parts =>
    rw [spell, List.flatMap_cons, ← spell, List.append_assoc,
      wordsFrom_gap_append fun _ => p.isSeparator_of_mem,
      p.word.wordsFrom_append (isLower_head?_spell parts) (.inl rfl), wordsFrom_spell hchain]
    exact List.map_map

/-! ### Constants -/

theorem constIdent_of_head? {name : String} {c : Char} (hhead : (snakeCase name).toList.head? = some c)
    (hc : c.isAlpha = true) : constIdent name = (snakeCase name).map Char.toUpper := by
  have hfirst : (screamingSnakeCase name).toList.head? = some c.toUpper := by
    rw [screamingSnakeCase, String.toList_map, List.head?_map, hhead, Option.map_some]
  have hupper : c.toUpper.isUpper = true := by rw [Char.isUpper_toUpper_eq_isAlpha, hc]
  have hdigit : startsWithDigit (screamingSnakeCase name) = false := by
    rw [startsWithDigit, hfirst, Option.any_some, isDigit_of_isUpper hupper]
  have hne : (screamingSnakeCase name).isEmpty = false := by
    rw [Bool.eq_false_iff, ne_eq, String.isEmpty_iff]
    intro hempty
    rw [hempty] at hfirst
    cases hfirst
  rw [constIdent, hne, hdigit]
  rfl

theorem head?_snakeCase_spell (hchain : (p :: parts).IsChain SpacedWord.MayFollow) :
    (snakeCase (String.ofList (spell (p :: parts)))).toList.head? = some p.word.first.toLower := by
  rw [snakeCase, words_spell hchain, List.map_cons, String.toList_intercalate, List.map_cons,
    head?_intercalate]
  · rw [String.toList_ofList]
    rfl
  · rw [String.toList_ofList]
    exact p.word.small_ne_nil

end Naming

/-- **Names follow their words.** A name that is put together from capitalised words and acronyms,
where each can be told from the one in front of it, is converted to these words in small letters,
joined by underscores; and its constant is the same in capitals. -/
theorem names_follow_words (parts : List Naming.SpacedWord) (hne : parts ≠ [])
    (hchain : parts.IsChain Naming.SpacedWord.MayFollow) :
    let name := String.ofList (Naming.spell parts)
    let snake := "_".intercalate (parts.map fun p => String.ofList p.word.small)
    Naming.snakeCase name = snake ∧ Naming.constIdent name = snake.map Char.toUpper := by
  intro name snake
  have hsnake : Naming.snakeCase name = snake := by rw [Naming.snakeCase, Naming.words_spell hchain]
  obtain ⟨p, others, rfl⟩ := List.exists_cons_of_ne_nil hne
  have hletter : p.word.first.toLower.isAlpha = true := by
    rw [Char.isAlpha_toLower_eq_isAlpha, Char.isAlpha, p.word.isUpper_first, Bool.true_or]
  refine ⟨hsnake, ?_⟩
  rw [Naming.constIdent_of_head? (Naming.head?_snakeCase_spell hchain) hletter, hsnake]

/-- Words that letters tell apart, and words behind acronyms that only separators do. -/
def serverUnitWords : List Naming.SpacedWord :=
  [ ⟨[], rfl, .acronym 'E' 'U' [] rfl⟩,
    ⟨[], rfl, .capitalised 'U' 'n' ['i', 't'] rfl rfl⟩,
    ⟨[], rfl, .acronym 'X' 'M' ['L'] rfl⟩,
    ⟨['_', ' ', '-'], rfl, .acronym 'O' 'P' ['C'] rfl⟩,
    ⟨['_'], rfl, .capitalised 'V' '2' [] rfl rfl⟩,
    ⟨[], rfl, .capitalised 'I' 'n' ['t', '6', '4'] rfl rfl⟩ ]

/-- Every word is found again. -/
theorem names_follow_words_serverUnit :
    String.ofList (Naming.spell serverUnitWords) = "EUUnitXML_ -OPC_V2Int64" ∧
      Naming.snakeCase "EUUnitXML_ -OPC_V2Int64" = "eu_unit_xml_opc_v2_int64" ∧
      Naming.constIdent "EUUnitXML_ -OPC_V2Int64" = "EU_UNIT_XML_OPC_V2_INT64" := by
  have hname : String.ofList (Naming.spell serverUnitWords) = "EUUnitXML_ -OPC_V2Int64" := by
    decide +kernel
  obtain ⟨hsnake, hconst⟩ := names_follow_words serverUnitWords (List.cons_ne_nil _ _) (by decide)
  rw [hname] at hsnake hconst
  exact ⟨hname, hsnake.trans (by decide +kernel), hconst.trans (by decide +kernel)⟩

end OpcWire
