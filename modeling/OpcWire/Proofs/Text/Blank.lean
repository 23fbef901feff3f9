import OpcWire.Proofs.Text.Lines

/-!
# Text without the blanks around it

Blanks at either end make no difference to what is left without them (`Text.trimChars_blank_append`,
`Text.trimChars_append_blank`), and text with none at its ends is left as it is
(`Text.trimChars_of_isTrimmed`). Parts between marks may be trimmed before or after the whole is
(`Text.map_trimChars_splitAt`).

The first lines of a text are the beginning of its lines (`Text.lines_firstLines`).
-/

namespace OpcWire

namespace Text

variable {c mark : Char} {chars gap rest : List Char}

/-! ### Blanks at the ends -/

/-- Characters are all blanks, or there is a first that is not. -/
theorem blank_or_exists_append_cons (chars : List Char) :
    (∀ c ∈ chars, isBlank c = true) ∨ ∃ gap c rest,
      (∀ x ∈ gap, isBlank x = true) ∧ isBlank c = false ∧ chars = gap ++ c :: rest := by
  induction chars with
  | nil => exact .inl nofun
  | cons c rest ih =>
    cases hc : isBlank c with
    | false => exact .inr ⟨[], c, rest, nofun, hc, rfl⟩
    | true =>
      rcases ih with hrest | ⟨gap, d, rest, hgap, hd, rfl⟩
      · exact .inl (List.forall_mem_cons.2 ⟨hc, hrest⟩)
      · exact .inr ⟨c :: gap, d, rest, List.forall_mem_cons.2 ⟨hc, hgap⟩, hd, rfl⟩

theorem trimChars_blank_append (h : ∀ x ∈ gap, isBlank x = true) (chars : List Char) :
    trimChars (gap ++ chars) = trimChars chars := by
  rw [trimChars, trimChars, List.dropWhile_append_of_pos h]

theorem trimChars_of_blank (h : ∀ x ∈ chars, isBlank x = true) : trimChars chars = [] := by
  rw [← List.append_nil chars, trimChars_blank_append h]
  rfl

theorem trimChars_cons (h : isBlank c = false) (rest : List Char) :
    trimChars (c :: rest) = c :: (rest.reverse.dropWhile isBlank).reverse := by
  rw [trimChars, List.dropWhile_cons_of_neg (by rw [h]; exact Bool.false_ne_true), List.reverse_cons,
    List.dropWhile_append]
  split
  · rename_i hempty
    rw [List.isEmpty_iff.1 hempty, List.dropWhile_cons_of_neg (by rw [h]; exact Bool.false_ne_true)]
    rfl
  · rw [List.reverse_append]
    rfl

theorem trimChars_append_blank (h : ∀ x ∈ gap, isBlank x = true) (chars : List Char) :
    trimChars (chars ++ gap) = trimChars chars := by
  rcases blank_or_exists_append_cons chars with hchars | ⟨before, c, rest, hbefore, hc, rfl⟩
  · rw [trimChars_blank_append hchars, trimChars_of_blank h, trimChars_of_blank hchars]
  · have hgap : ∀ x ∈ gap.reverse, isBlank x = true := fun x hx => h x (List.mem_reverse.1 hx)
    rw [List.append_assoc, trimChars_blank_append hbefore, trimChars_blank_append hbefore,
      List.cons_append, trimChars_cons hc, trimChars_cons hc, List.reverse_append,
      List.dropWhile_append_of_pos hgap]

theorem trimChars_of_isTrimmed {text : String} (h : IsTrimmed text) :
    trimChars text.toList = text.toList := by
  obtain ⟨hhead, hlast⟩ := h
  generalize text.toList = chars at hhead hlast
  cases chars with
  | nil => rfl
  | cons c rest =>
    rw [trimChars_cons (hhead c rfl)]
    congr 1
    rcases List.eq_nil_or_concat rest with rfl | ⟨init, last, rfl⟩
    · rfl
    · rw [List.concat_eq_append, ← List.cons_append] at hlast
      have hblank : isBlank last = false := hlast last List.getLast?_concat
      simp [hblank]

/-- A carriage return that belongs to a line break is a blank at the end. -/
theorem trimChars_dropReturn (chars : List Char) : trimChars (dropReturn chars) = trimChars chars := by
  rw [dropReturn]
  split
  · rename_i hlast
    obtain ⟨init, rfl⟩ := List.getLast?_eq_some_iff.1 hlast
    rw [List.dropLast_concat, trimChars_append_blank (List.forall_mem_singleton.2 rfl)]
  · rfl

/-! ### Parts between marks -/

/-- What is put behind characters goes behind the last of their parts. -/
theorem exists_splitAt_concat (mark : Char) (chars : List Char) :
    ∃ parts last, splitAt mark chars = parts ++ [last] ∧
      ∀ {tail}, mark ∉ tail → splitAt mark (chars ++ tail) = parts ++ [last ++ tail] := by
  induction chars with
  | nil => exact ⟨[], [], rfl, fun htail => splitAt_of_notMem htail⟩
  | cons c rest ih =>
    obtain ⟨parts, last, hparts, htail⟩ := ih
    have hcons (l : List Char) : splitAt mark (c :: l) =
        if c = mark then [] :: splitAt mark l
        else (splitAt mark l).modifyHead (c :: ·) := by
      obtain ⟨part, parts, hl, hcons⟩ := exists_splitAt_cons mark l
      rw [hcons, hl]
      rfl
    by_cases hc : c = mark
    · refine ⟨[] :: parts, last, ?_, fun h => ?_⟩
      · rw [hcons, if_pos hc, hparts]
        rfl
      · rw [List.cons_append, hcons, if_pos hc, htail h]
        rfl
    · cases parts with
      | nil =>
        refine ⟨[], c :: last, ?_, fun h => ?_⟩
        · rw [hcons, if_neg hc, hparts]
          rfl
        · rw [List.cons_append, hcons, if_neg hc, htail h]
          rfl
      | cons part parts =>
        refine ⟨(c :: part) :: parts, last, ?_, fun h => ?_⟩
        · rw [hcons, if_neg hc, hparts]
          rfl
        · rw [List.cons_append, hcons, if_neg hc, htail h]
          rfl

theorem map_trimChars_splitAt_blank_append (hmark : isBlank mark = false)
    (h : ∀ x ∈ gap, isBlank x = true) (chars : List Char) :
    (splitAt mark (gap ++ chars)).map trimChars = (splitAt mark chars).map trimChars := by
  induction gap with
  | nil => rfl
  | cons c gap ih =>
    obtain ⟨hc, hgap⟩ := List.forall_mem_cons.1 h
    obtain ⟨part, parts, hparts, hcons⟩ := exists_splitAt_cons mark (gap ++ chars)
    have hne : c ≠ mark := by
      rintro rfl
      rw [hc] at hmark
      cases hmark
    have hpart : trimChars ([c] ++ part) = trimChars part :=
      trimChars_blank_append (List.forall_mem_singleton.2 hc) part
    rw [List.cons_append, hcons, if_neg hne, ← ih hgap, hparts, List.map_cons, List.map_cons, ← hpart,
      List.singleton_append]

theorem map_trimChars_splitAt_append_blank (hmark : isBlank mark = false)
    (h : ∀ x ∈ gap, isBlank x = true) (chars : List Char) :
    (splitAt mark (chars ++ gap)).map trimChars = (splitAt mark chars).map trimChars := by
  obtain ⟨parts, last, hparts, htail⟩ := exists_splitAt_concat mark chars
  have hfree : mark ∉ gap := fun hmem => Bool.false_ne_true (hmark.symm.trans (h mark hmem))
  rw [htail hfree, hparts, List.map_append, List.map_append, List.map_singleton, List.map_singleton,
    trimChars_append_blank h]

/-- Characters are what is left of them, between blanks. -/
theorem exists_eq_append_trimChars (chars : List Char) : ∃ before after,
    (∀ x ∈ before, isBlank x = true) ∧ (∀ x ∈ after, isBlank x = true) ∧
      chars = before ++ trimChars chars ++ after := by
  rcases blank_or_exists_append_cons chars with hchars | ⟨before, c, rest, hbefore, hc, rfl⟩
  · refine ⟨chars, [], hchars, nofun, ?_⟩
    rw [trimChars_of_blank hchars, List.append_nil, List.append_nil]
  · refine ⟨before, (rest.reverse.takeWhile isBlank).reverse, hbefore, fun x hx => ?_, ?_⟩
    · exact List.all_eq_true.1 List.all_takeWhile x (List.mem_reverse.1 hx)
    · rw [trimChars_blank_append hbefore, trimChars_cons hc, List.append_assoc, List.cons_append,
        ← List.reverse_append, List.takeWhile_append_dropWhile, List.reverse_reverse]

/-- **Parts are the same without the blanks around them, whether the whole has any around it or
not.** -/
theorem map_trimChars_splitAt (hmark : isBlank mark = false) (chars : List Char) :
    (splitAt mark (trimChars chars)).map trimChars = (splitAt mark chars).map trimChars := by
  obtain ⟨before, after, hbefore, hafter, hchars⟩ := exists_eq_append_trimChars chars
  calc (splitAt mark (trimChars chars)).map trimChars
      = (splitAt mark (before ++ trimChars chars)).map trimChars :=
        (map_trimChars_splitAt_blank_append hmark hbefore _).symm
    _ = (splitAt mark (before ++ trimChars chars ++ after)).map trimChars :=
        (map_trimChars_splitAt_append_blank hmark hafter _).symm
    _ = (splitAt mark chars).map trimChars := by rw [← hchars]

/-! ### First lines -/

theorem linesOfParts_splitAt_append (h : '\n' ∉ chars) (rest : List Char) :
    linesOfParts (splitAt '\n' (chars ++ '\n' :: rest)) =
      dropReturn chars :: linesOfParts (splitAt '\n' rest) := by
  rw [splitAt_append_cons, splitAt_of_notMem h, linesOfParts_append _ (splitAt_ne_nil _ _)]
  rfl

theorem takeLines_append (h : '\n' ∉ chars) (n : Nat) (rest : List Char) :
    takeLines (n + 1) (chars ++ '\n' :: rest) = chars ++ '\n' :: takeLines n rest := by
  induction chars with
  | nil => rfl
  | cons c chars ih =>
    obtain ⟨hc, hchars⟩ := List.ne_and_not_mem_of_not_mem_cons h
    rw [List.cons_append, takeLines, if_neg (Ne.symm hc), ih hchars]
    rfl

theorem takeLines_of_notMem (h : '\n' ∉ chars) (n : Nat) : takeLines (n + 1) chars = chars := by
  induction chars with
  | nil => rfl
  | cons c chars ih =>
    obtain ⟨hc, hchars⟩ := List.ne_and_not_mem_of_not_mem_cons h
    rw [takeLines, if_neg (Ne.symm hc), ih hchars]

/-- **The first lines of a text are the beginning of its lines.** -/
theorem lines_firstLines (n : Nat) (text : String) :
    lines (firstLines n text) = (lines text).take n := by
  rw [lines, lines, firstLines, String.toList_ofList, ← List.map_take]
  congr 1
  generalize text.toList = chars
  induction n generalizing chars with
  | zero =>
    rw [takeLines, List.take_zero]
    rfl
  | succ n ih =>
    by_cases hmem : '\n' ∈ chars
    · obtain ⟨line, rest, rfl, hline⟩ := List.eq_append_cons_of_mem hmem
      rw [takeLines_append hline, linesOfParts_splitAt_append hline, linesOfParts_splitAt_append hline,
        ih, List.take_succ_cons]
    · rw [takeLines_of_notMem hmem, splitAt_of_notMem hmem, List.take_of_length_le]
      rw [linesOfParts]
      split <;> simp

end Text

end OpcWire
