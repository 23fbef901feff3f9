import OpcWire.Source.Basic
import OpcWire.Text.Blank

/-!
# Lines of source text

Source text is made of lines, and read line by line. What is read is what was made, line for line
(`Source.lines_render`), except that a line with line breaks in it is read as several
(`Source.piecesOf`). Where there is none (`Source.AreLines`), it is just what was made
(`Source.AreLines.lines_render`).
-/

namespace OpcWire

namespace Text

variable {mark : Char} {chars part : List Char}

/-! ### Parts between marks -/

theorem splitAt_ne_nil (mark : Char) (chars : List Char) : splitAt mark chars ≠ [] := by
  induction chars with
  | nil => exact List.cons_ne_nil _ _
  | cons c rest ih =>
    rw [splitAt]
    split
    · contradiction
    · split <;> exact List.cons_ne_nil _ _

theorem exists_splitAt_cons (mark : Char) (chars : List Char) :
    ∃ part parts, splitAt mark chars = part :: parts ∧ ∀ c, splitAt mark (c :: chars) =
      if c = mark then [] :: part :: parts else (c :: part) :: parts := by
  obtain ⟨part, parts, hparts⟩ := List.exists_cons_of_ne_nil (splitAt_ne_nil mark chars)
  refine ⟨part, parts, hparts, fun c => ?_⟩
  rw [splitAt, hparts]

theorem splitAt_of_notMem (h : mark ∉ chars) : splitAt mark chars = [chars] := by
  induction chars with
  | nil => rfl
  | cons c rest ih =>
    obtain ⟨hc, hrest⟩ := List.ne_and_not_mem_of_not_mem_cons h
    rw [splitAt, ih hrest]
    exact if_neg hc.symm

theorem splitAt_append_cons (mark : Char) (a b : List Char) :
    splitAt mark (a ++ mark :: b) = splitAt mark a ++ splitAt mark b := by
  induction a with
  | nil =>
    obtain ⟨part, parts, hparts, hcons⟩ := exists_splitAt_cons mark b
    rw [List.nil_append, hcons, if_pos rfl, hparts]
    rfl
  | cons c rest ih =>
    obtain ⟨part, parts, hparts, hcons⟩ := exists_splitAt_cons mark rest
    rw [hcons, List.cons_append, splitAt, ih, hparts]
    dsimp only [List.cons_append]
    split <;> rfl

theorem of_mem_splitAt (h : part ∈ splitAt mark chars) : mark ∉ part ∧ part.Sublist chars := by
  induction chars generalizing part with
  | nil =>
    obtain rfl := List.mem_singleton.1 h
    exact ⟨List.not_mem_nil, .slnil⟩
  | cons c rest ih =>
    obtain ⟨first, parts, hparts, hcons⟩ := exists_splitAt_cons mark rest
    have hfirst := ih (hparts ▸ List.mem_cons_self)
    rw [hcons] at h
    split at h
    · rcases List.mem_cons.1 h with rfl | h
      · exact ⟨List.not_mem_nil, List.nil_sublist _⟩
      · have hpart := ih (hparts ▸ h)
        exact ⟨hpart.1, hpart.2.cons c⟩
    · rename_i hc
      rcases List.mem_cons.1 h with rfl | h
      · exact ⟨List.not_mem_cons_of_ne_of_not_mem (Ne.symm hc) hfirst.1, hfirst.2.cons_cons c⟩
      · have hpart := ih (hparts ▸ List.mem_cons_of_mem _ h)
        exact ⟨hpart.1, hpart.2.cons c⟩

/-! ### Lines -/

theorem linesOfParts_append (xs : List (List Char)) {ys : List (List Char)} (h : ys ≠ []) :
    linesOfParts (xs ++ ys) = xs.map dropReturn ++ linesOfParts ys := by
  induction xs with
  | nil => rfl
  | cons x rest ih =>
    obtain ⟨y, tail, hne⟩ := List.exists_cons_of_ne_nil (List.append_ne_nil_of_right_ne_nil rest h)
    rw [List.cons_append, hne, linesOfParts, ← hne, ih]
    · rfl
    · exact List.cons_ne_nil _ _

theorem not_mem_of_mem_lines {text line : String} (h : line ∈ lines text) :
    '\n' ∉ line.toList := by
  obtain ⟨l, hl, rfl⟩ := List.mem_map.1 h
  rw [String.toList_ofList]
  generalize hparts : splitAt '\n' text.toList = parts at hl
  have hfree : ∀ part ∈ parts, '\n' ∉ part := fun part hpart =>
    (of_mem_splitAt (hparts ▸ hpart)).1
  clear hparts
  induction parts using linesOfParts.induct with
  | case1 => cases hl
  | case2 last hempty =>
    rw [linesOfParts, if_pos hempty] at hl
    cases hl
  | case3 last hempty =>
    rw [linesOfParts, if_neg hempty] at hl
    exact hfree l hl
  | case4 part rest hrest ih =>
    rw [linesOfParts] at hl
    · rcases List.mem_cons.1 hl with rfl | hl
      · have hpart := hfree part List.mem_cons_self
        rw [dropReturn]
        split
        · exact fun hmem => hpart ((List.dropLast_sublist _).subset hmem)
        · exact hpart
      · exact ih hl fun p hp => hfree p (List.mem_cons_of_mem _ hp)
    · exact hrest

end Text

namespace Source

theorem ne_of_take_ne (n : Nat) {a b : String} (h : a.toList.take n ≠ b.toList.take n) : a ≠ b :=
  fun heq => h (heq ▸ rfl)

/-- The lines that are read where one line was made: one for each line break in it, and one
more. -/
def piecesOf (line : String) : List String :=
  ((Text.splitAt '\n' line.toList).map Text.dropReturn).map String.ofList

/-- Whether a line is read as it was made. -/
def IsLine (line : String) : Prop := '\n' ∉ line.toList ∧ line.toList.getLast? ≠ some '\r'

instance (line : String) : Decidable (IsLine line) := inferInstanceAs (Decidable (_ ∧ _))

theorem piecesOf_eq_self {line : String} (h : IsLine line) : piecesOf line = [line] := by
  rw [piecesOf, Text.splitAt_of_notMem h.1, List.map_singleton, Text.dropReturn, if_neg h.2,
    List.map_singleton, String.ofList_toList]

theorem render_append (xs ys : List String) : render (xs ++ ys) = render xs ++ render ys := by
  rw [render, List.map_append, String.join_append]
  rfl

/-- **Source text is read line by line.** -/
theorem lines_render (lines : List String) :
    Text.lines (render lines) = lines.flatMap piecesOf := by
  induction lines with
  | nil => rfl
  | cons line rest ih =>
    have htext : (render (line :: rest)).toList =
        line.toList ++ '\n' :: (render rest).toList := by
      rw [render, List.map_cons, String.join_cons, String.toList_append, String.toList_append,
        List.append_assoc]
      rfl
    rw [Text.lines, htext, Text.splitAt_append_cons,
      Text.linesOfParts_append _ (Text.splitAt_ne_nil _ _), List.map_append, List.flatMap_cons,
      ← ih]
    rfl

/-- Whether lines are read as they were made. -/
def AreLines (lines : List String) : Prop := ∀ line ∈ lines, IsLine line

instance (lines : List String) : Decidable (AreLines lines) :=
  inferInstanceAs (Decidable (∀ line ∈ lines, _))

@[simp] theorem areLines_nil : AreLines [] := nofun

@[simp] theorem areLines_cons {line : String} {lines : List String} :
    AreLines (line :: lines) ↔ IsLine line ∧ AreLines lines :=
  List.forall_mem_cons

@[simp] theorem areLines_append {xs ys : List String} :
    AreLines (xs ++ ys) ↔ AreLines xs ∧ AreLines ys :=
  List.forall_mem_append

theorem AreLines.lines_render {lines : List String} (h : AreLines lines) :
    Text.lines (render lines) = lines := by
  rw [Source.lines_render]
  induction lines with
  | nil => rfl
  | cons line rest ih =>
    obtain ⟨hline, hrest⟩ := areLines_cons.1 h
    rw [List.flatMap_cons, piecesOf_eq_self hline, ih hrest, List.singleton_append]

theorem lines_render_append (xs ys : List String) :
    Text.lines (render (xs ++ ys)) = Text.lines (render xs) ++ Text.lines (render ys) := by
  rw [lines_render, lines_render, lines_render, List.flatMap_append]

/-! ### Text without line breaks -/

/-- Whether a text has no character of a line break in it. -/
def OneLine (text : String) : Prop := '\n' ∉ text.toList ∧ '\r' ∉ text.toList

instance (text : String) : Decidable (OneLine text) :=
  inferInstanceAs (Decidable (_ ∧ _))

theorem OneLine.isLine {text : String} (h : OneLine text) : IsLine text :=
  ⟨h.1, fun hlast => h.2 (List.mem_of_getLast? hlast)⟩

@[simp] theorem oneLine_append {a b : String} : OneLine (a ++ b) ↔ OneLine a ∧ OneLine b := by
  simp only [OneLine, String.toList_append, List.mem_append, not_or]
  exact and_and_and_comm

theorem oneLine_indentLine {line : String} (h : OneLine line) : OneLine (indentLine line) := by
  rw [indentLine]
  split
  · exact h
  · exact oneLine_append.2 ⟨by decide, h⟩

/-- Whether no line has the character of a line break in it. -/
def OneLines (lines : List String) : Prop := ∀ line ∈ lines, OneLine line

instance (lines : List String) : Decidable (OneLines lines) :=
  inferInstanceAs (Decidable (∀ line ∈ lines, _))

@[simp] theorem oneLines_nil : OneLines [] := nofun

@[simp] theorem oneLines_cons {line : String} {lines : List String} :
    OneLines (line :: lines) ↔ OneLine line ∧ OneLines lines :=
  List.forall_mem_cons

@[simp] theorem oneLines_append {xs ys : List String} :
    OneLines (xs ++ ys) ↔ OneLines xs ∧ OneLines ys :=
  List.forall_mem_append

theorem oneLines_map {α : Type} {write : α → String} {l : List α}
    (h : ∀ a ∈ l, OneLine (write a)) : OneLines (l.map write) := by
  intro line hline
  obtain ⟨a, ha, rfl⟩ := List.mem_map.1 hline
  exact h a ha

theorem oneLines_indent {lines : List String} (h : OneLines lines) : OneLines (indent lines) :=
  oneLines_map fun line hline => oneLine_indentLine (h line hline)

theorem oneLines_blockWith {head tail : String} {body : List String} (hhead : OneLine head)
    (htail : OneLine tail) (hbody : OneLines body) : OneLines (blockWith head tail body) := by
  rw [blockWith, List.cons_append, oneLines_cons, oneLines_append, oneLines_cons, oneLine_append,
    oneLine_append]
  exact ⟨⟨hhead, by decide⟩, oneLines_indent hbody, ⟨by decide, htail⟩, oneLines_nil⟩

theorem oneLines_block {head : String} {body : List String} (hhead : OneLine head)
    (hbody : OneLines body) : OneLines (block head body) :=
  oneLines_blockWith (oneLine_append.2 ⟨hhead, by decide⟩) (by decide) hbody

theorem oneLine_quote {text : String} (h : OneLine text) : OneLine (quote text) :=
  oneLine_append.2 ⟨oneLine_append.2 ⟨by decide, h⟩, by decide⟩

section Implementations

variable {name buffer : String} {body : List String} (hname : OneLine name)
  (hbuffer : OneLine buffer) (hbody : OneLines body)

include hname hbuffer hbody

theorem oneLines_encodeImpl : OneLines (encodeImpl name buffer body) := by
  refine oneLines_block (oneLine_append.2 ⟨by decide, hname⟩) (oneLines_block ?_ hbody)
  simp only [oneLine_append, hbuffer, and_true]
  decide

theorem oneLines_decodeImpl : OneLines (decodeImpl name buffer body) := by
  refine oneLines_block (oneLine_append.2 ⟨by decide, hname⟩) (oneLines_block ?_ hbody)
  simp only [oneLine_append, hbuffer, and_true]
  decide

end Implementations

theorem OneLines.areLines {lines : List String} (h : OneLines lines) : AreLines lines :=
  fun line hline => (h line hline).isLine

theorem OneLines.lines_render {lines : List String} (h : OneLines lines) :
    Text.lines (render lines) = lines :=
  h.areLines.lines_render

/-! ### Lines that a text is put into

A carriage return does no harm in the middle of a line. -/

theorem isLine_append {a b : String} (ha : '\n' ∉ a.toList) (hb : IsLine b) (hne : b ≠ "") :
    IsLine (a ++ b) := by
  obtain ⟨l, c, hlast⟩ := (List.eq_nil_or_concat b.toList).resolve_left fun h =>
    hne (String.toList_eq_nil_iff.1 h)
  constructor
  · rw [String.toList_append, List.mem_append]
    exact not_or.2 ⟨ha, hb.1⟩
  · have hreturn := hb.2
    rw [hlast, List.concat_eq_append, List.getLast?_concat] at hreturn
    rw [String.toList_append, hlast, List.concat_eq_append, ← List.append_assoc,
      List.getLast?_concat]
    exact hreturn

theorem areLines_indent {lines : List String} (h : AreLines lines) : AreLines (indent lines) := by
  intro line hline
  obtain ⟨l, hl, rfl⟩ := List.mem_map.1 hline
  rw [indentLine]
  split
  · exact h l hl
  · rename_i hempty
    exact isLine_append (by decide) (h l hl) (mt String.isEmpty_iff.2 hempty)

theorem areLines_block {head : String} {body : List String} (hhead : '\n' ∉ head.toList)
    (hbody : AreLines body) : AreLines (block head body) := by
  have hopen : '\n' ∉ (head ++ " ").toList := by simp [hhead]
  rw [block, blockWith, List.cons_append, areLines_cons, areLines_append, areLines_cons]
  exact ⟨isLine_append hopen (by decide) (by decide), areLines_indent hbody, by decide,
    areLines_nil⟩

/-- The header of a file is read as it was made if the name of the module that it uses is not
torn. -/
theorem areLines_header {prelude : String} (h : '\n' ∉ prelude.toList) :
    AreLines (header (some prelude)) := by
  have huse : IsLine ("use " ++ prelude ++ "::*;") :=
    isLine_append (by simp [h]) (by decide) (by decide)
  simp only [header, areLines_cons, huse, areLines_nil, and_true]
  decide

end Source

end OpcWire
