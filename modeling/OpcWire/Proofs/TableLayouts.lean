import Mathlib.Data.List.Forall2
import OpcWire.IdTable.Layout
import OpcWire.Proofs.IdTable.Index
import OpcWire.Proofs.Text.Decimal

/-!
# The layout of a table does not matter

Whatever is put around the cells of a table and between its rows, the entries that are written are
read (`layout_does_not_matter`). A line comes out as it was written up to the blanks around it
(`TableLayout.exists_lines`), and such a line adds its entry or nothing
(`TableLine.addLine_of_entry?_eq_some`, `TableLine.addLine_of_entry?_eq_none`); the rest is an
induction over the lines (`TableLine.addLines_spec`).
-/

namespace OpcWire

namespace TableLine

open IdTable Text

variable {t : IdTable} {line : String} {e : IdEntry} {name id kind : Padding} {l : TableLine}

/-! ### Lines -/

theorem splitAt_around {p : Padding} {cell : String} (h : ',' ∉ cell.toList) :
    splitAt ',' (p.around cell) = [p.around cell] := by
  have hgap (gap : Gap) : ',' ∉ gap.chars := fun hmem => absurd (gap.blank ',' hmem) (by decide)
  refine splitAt_of_notMem ?_
  rw [Padding.around, List.mem_append, List.mem_append]
  exact not_or.2 ⟨not_or.2 ⟨hgap _, h⟩, hgap _⟩

theorem trimChars_around {p : Padding} {cell : String} (h : IsTrimmed cell) :
    trimChars (p.around cell) = cell.toList := by
  rw [Padding.around, trimChars_append_blank p.after.blank, trimChars_blank_append p.before.blank,
    trimChars_of_isTrimmed h]

theorem notMem_around {p : Padding} {cell : String} (h : '\n' ∉ cell.toList) : '\n' ∉ p.around cell := by
  rw [Padding.around, List.mem_append, List.mem_append]
  exact not_or.2 ⟨not_or.2 ⟨p.before.unbroken, h⟩, p.after.unbroken⟩

theorem isCell_toString (n : UInt32) : IdEntry.IsCell (toString n) := by
  have hdigit {c : Char} (hc : c ∈ (toString n).toList) : c.isDigit = true :=
    Decimal.isDigit_of_mem_toString hc
  have hblank {c : Char} (hc : c.isDigit = true) : isBlank c = false := by
    rw [Char.isDigit, Bool.and_eq_true, decide_eq_true_eq, decide_eq_true_eq] at hc
    have hrange : 48 ≤ c.toNat ∧ c.toNat ≤ 57 :=
      ⟨UInt32.le_iff_toNat_le.1 hc.1, UInt32.le_iff_toNat_le.1 hc.2⟩
    refine Bool.eq_false_iff.2 fun hmem => ?_
    rw [isBlank, List.contains_iff_mem] at hmem
    simp only [blankCodes, List.mem_cons, List.not_mem_nil, or_false] at hmem
    omega
  refine ⟨fun hmem => absurd (hdigit hmem) (by decide), fun hmem => absurd (hdigit hmem) (by decide),
    fun c hc => hblank (hdigit (List.mem_of_mem_head? hc)),
    fun c hc => hblank (hdigit (List.mem_of_getLast? hc))⟩

theorem cells_of_row (he : e.IsWritable) (h : line.toList = (row e name id kind).chars) :
    cells line = [e.name, toString e.id, e.kind] := by
  have hid := isCell_toString e.id
  rw [cells, h, chars, splitAt_append_cons, splitAt_append_cons, splitAt_around he.name.1,
    splitAt_around hid.1, splitAt_around he.kind.1]
  simp only [List.cons_append, List.nil_append, List.map_cons, List.map_nil,
    trimChars_around he.name.2.2, trimChars_around hid.2.2, trimChars_around he.kind.2.2,
    String.ofList_toList]

/-- The first character of a row that is no blank is that of the name, so a row is no comment. -/
theorem isComment_of_row (he : e.IsWritable) (h : line.toList = (row e name id kind).chars) :
    isComment line = false := by
  obtain ⟨c, rest, hname⟩ := List.exists_cons_of_ne_nil (mt String.toList_eq_nil_iff.1 he.name_ne)
  have hhead : e.name.toList.head? = some c := by rw [hname, List.head?_cons]
  have hc : isBlank c = false := he.name.2.2.1 c hhead
  rw [chars, Padding.around, hname, List.append_assoc, List.append_assoc, List.cons_append] at h
  rw [isComment_of_append_cons h name.before.blank hc]
  refine beq_false_of_ne ?_
  rintro rfl
  exact he.head_ne hhead

/-- **A line that writes an entry adds it.** -/
theorem addLine_of_entry?_eq_some (hl : l.entry? = some e) (he : e.IsWritable)
    (h : line.toList = l.chars) {u : IdTable} (hinsert : t.insert? e = some u) :
    t.addLine line = .ok u := by
  cases l with
  | row e' name id kind =>
    obtain rfl := Option.some.inj hl
    refine addLine_eq_ok_iff.2 (.inr ⟨isComment_of_row he h, e', ?_, hinsert⟩)
    rw [entryOfLine_of_cells (cells_of_row he h), if_neg he.name_ne, Decimal.uint32_toString]
  | blank gap => cases hl
  | comment gap text unbroken => cases hl

/-- **Any other line adds nothing.** -/
theorem addLine_of_entry?_eq_none (hl : l.entry? = none) (h : line.toList = l.chars) :
    t.addLine line = .ok t := by
  refine addLine_eq_ok_iff.2 (.inl ⟨isComment_eq_true_iff.2 ?_, rfl⟩)
  cases l with
  | row e name id kind => cases hl
  | blank gap => exact ⟨gap.chars, [], by rw [h, List.append_nil]; rfl, gap.blank, .inl rfl⟩
  | comment gap text unbroken => exact ⟨gap.chars, '#' :: text.toList, h, gap.blank, .inr rfl⟩

theorem notMem_chars (hl : ∀ e ∈ l.entry?, e.IsWritable) : '\n' ∉ l.chars := by
  cases l with
  | row e name id kind =>
    have he : e.IsWritable := hl e rfl
    simp only [chars, List.mem_append, List.mem_cons, not_or]
    exact ⟨notMem_around he.name.2.1, by decide, notMem_around (isCell_toString e.id).2.1, by decide,
      notMem_around he.kind.2.1⟩
  | blank gap => exact gap.unbroken
  | comment gap text unbroken =>
    rw [chars, List.mem_append, List.mem_cons]
    exact not_or.2 ⟨gap.unbroken, not_or.2 ⟨by decide, unbroken⟩⟩

theorem entry?_eq_none_of_chars (h : l.chars = []) : l.entry? = none := by
  cases l with
  | row e name id kind =>
    exact absurd h (List.append_ne_nil_of_right_ne_nil _ (List.cons_ne_nil _ _))
  | blank gap => rfl
  | comment gap text unbroken => rfl

/-- Whether a line that is read is a line that was written, up to the blanks around it. -/
def Stands (l : TableLine) (line : String) : Prop := trimChars line.toList = trimChars l.chars

/-- **Lines add the entries that they write**, behind those that are there, if no name is
repeated. -/
theorem addLines_spec {written : List TableLine} {lines : List String}
    (hlines : List.Forall₂ Stands written lines) (ht : t.IsIndexed) (number : Nat)
    (hwritable : ∀ l ∈ written, ∀ e ∈ l.entry?, e.IsWritable)
    (hnames : ((t.entries ++ written.filterMap entry?).map (·.name)).Nodup) :
    ∃ u, t.addLines number lines = .ok u ∧ u.IsIndexed ∧
      u.entries = t.entries ++ written.filterMap entry? := by
  induction hlines generalizing t number with
  | nil => exact ⟨t, rfl, ht, (List.append_nil _).symm⟩
  | @cons l line written lines hline _ ih =>
    obtain ⟨hl, hrest⟩ := List.forall_mem_cons.1 hwritable
    -- the line that is read does what the line that was written would do
    have hcongr : t.addLine line = t.addLine (String.ofList l.chars) :=
      addLine_congr (by rw [String.toList_ofList]; exact hline)
    cases hentry : l.entry? with
    | none =>
      rw [List.filterMap_cons_none hentry] at hnames ⊢
      obtain ⟨u, hu, hspec⟩ := ih ht (number + 1) hrest hnames
      have hadd := hcongr.trans (addLine_of_entry?_eq_none hentry String.toList_ofList)
      exact ⟨u, (addLines_cons_of_ok hadd).trans hu, hspec⟩
    | some e =>
      rw [List.filterMap_cons_some hentry, List.append_cons] at hnames ⊢
      have hfree : ∀ e' ∈ t.entries, e'.name ≠ e.name := by
        rw [List.map_append, List.map_append, List.append_assoc, List.nodup_append] at hnames
        exact fun e' he' => hnames.2.2 _ (List.mem_map_of_mem he') _ List.mem_cons_self
      have hinsert := ht.insert?_eq_some_iff.2 ⟨hfree, rfl⟩
      have hadd := hcongr.trans
        (addLine_of_entry?_eq_some hentry (hl e hentry) String.toList_ofList hinsert)
      obtain ⟨u, hu, hspec⟩ := ih (ht.insert? hinsert) (number + 1) hrest hnames
      exact ⟨u, (addLines_cons_of_ok hadd).trans hu, hspec⟩

end TableLine

namespace TableLayout

open IdTable Text TableLine

variable {l : TableLayout}

theorem charsOf_cons (rest : List Char) (line : TableLine) (lineBreak : LineBreak)
    (lines : List (TableLine × LineBreak)) :
    charsOf rest ((line, lineBreak) :: lines) =
      (line.chars ++ lineBreak.carriage) ++ '\n' :: charsOf rest lines := rfl

/-- The carriage return of a line break goes without the blanks around the line. -/
theorem stands_dropReturn (line : TableLine) (lineBreak : LineBreak) :
    line.Stands (String.ofList (dropReturn (line.chars ++ lineBreak.carriage))) := by
  have hblank : ∀ c ∈ lineBreak.carriage, isBlank c = true :=
    List.all_eq_true.1 (by cases lineBreak <;> rfl)
  rw [Stands, String.toList_ofList, trimChars_dropReturn, trimChars_append_blank hblank]

/-- **Every line is read as it was written**, up to the blanks around it; a last line without
characters is not read at all. -/
theorem exists_lines (h : ∀ line ∈ l.allLines, ∀ e ∈ line.entry?, e.IsWritable) :
    ∃ written, List.Forall₂ Stands written (Text.lines l.text) ∧ written.Sublist l.allLines ∧
      written.filterMap entry? = l.entries := by
  obtain ⟨lines, last⟩ := l
  rw [Text.lines, text, String.toList_ofList]
  rw [entries, allLines] at *
  dsimp only at h ⊢
  induction lines with
  | nil =>
    cases last with
    | none => exact ⟨[], .nil, List.Sublist.refl _, rfl⟩
    | some line =>
      have hfree := notMem_chars (h line List.mem_cons_self)
      rw [Option.map_some, Option.getD_some, charsOf, splitAt_of_notMem hfree, linesOfParts]
      split
      · rename_i hempty
        have hentry := entry?_eq_none_of_chars (List.isEmpty_iff.1 hempty)
        exact ⟨[], .nil, List.nil_sublist _, (List.filterMap_cons_none hentry).symm⟩
      · exact ⟨[line], .cons (congrArg trimChars String.toList_ofList) .nil, List.Sublist.refl _, rfl⟩
  | cons head lines ih =>
    obtain ⟨line, lineBreak⟩ := head
    obtain ⟨hline, hrest⟩ := List.forall_mem_cons.1 h
    obtain ⟨written, hwritten, hsublist, hentries⟩ := ih hrest
    have hfree : '\n' ∉ line.chars ++ lineBreak.carriage := by
      rw [List.mem_append]
      refine not_or.2 ⟨notMem_chars hline, ?_⟩
      cases lineBreak <;> decide
    refine ⟨line :: written, ?_, hsublist.cons_cons line, ?_⟩
    · rw [charsOf_cons, linesOfParts_splitAt_append hfree, List.map_cons]
      exact .cons (stands_dropReturn line lineBreak) hwritten
    · rw [List.map_cons, List.cons_append, List.filterMap_cons, List.filterMap_cons, hentries]

end TableLayout

/-- **The layout of a table does not matter.** Take entries with different names, each of which can
be written, and write them in any layout: with any blanks around the cells, with blank lines and
comments anywhere, with either line break, and with or without one at the end. The text is read as a
table of exactly these entries, in this order. Looking up the name of an entry gives its number, and
no other name has one. -/
theorem layout_does_not_matter (rows : List IdEntry) (hrows : ∀ e ∈ rows, e.IsWritable)
    (hnames : (rows.map (·.name)).Nodup) (layout : TableLayout) (hlayout : layout.entries = rows) :
    ∃ t, IdTable.parse layout.text = .ok t ∧ t.entries = rows ∧
      (∀ e ∈ rows, t.get? e.name = some e.id) ∧
      ∀ name, name ∉ rows.map (·.name) → t.get? name = none := by
  have hwritable : ∀ line ∈ layout.allLines, ∀ e ∈ line.entry?, e.IsWritable := fun line hline e he =>
    hrows e (hlayout ▸ List.mem_filterMap.2 ⟨line, hline, he⟩)
  obtain ⟨written, hlines, hsublist, hentries⟩ := TableLayout.exists_lines hwritable
  have hwritten : written.filterMap TableLine.entry? = rows := hentries.trans hlayout
  obtain ⟨t, ht, hindexed, hadded⟩ := TableLine.addLines_spec hlines IdTable.isIndexed_empty 1
    (fun line hline => hwritable line (hsublist.subset hline)) (hwritten.symm ▸ hnames)
  rw [hwritten] at hadded
  refine ⟨t, ht, hadded, fun e he => ?_, fun name hname => ?_⟩
  · exact hindexed.get?_eq_some_iff.2 ⟨e, hadded ▸ he, rfl, rfl⟩
  · refine hindexed.get?_eq_none_iff.2 fun e he heq => hname ?_
    rw [hadded] at he
    exact heq ▸ List.mem_map_of_mem he

/-- Two entries: one has a number sign and a blank within its name, the other the largest number and
no kind. -/
def shelfRows : List IdEntry := [⟨"Shelf #1", 7, "Object"⟩, ⟨"Board", 4294967295, ""⟩]

/-- No blanks. -/
def Gap.none : Gap := ⟨[], nofun, by decide⟩

/-- A tabulator and a wide blank. -/
def Gap.wide : Gap := ⟨['\t', '\u2003'], List.all_eq_true.1 rfl, by decide⟩

/-- A carriage return. -/
def Gap.carriageReturn : Gap := ⟨['\r'], List.all_eq_true.1 rfl, by decide⟩

/-- Two entries between a comment and blank lines; the last line has no line break. -/
def shelfLayout : TableLayout where
  lines :=
    [ (.comment .wide " shelves, boards" (by decide), .returnFeed),
      (.row ⟨"Shelf #1", 7, "Object"⟩ ⟨.wide, .none⟩ ⟨.none, .wide⟩ ⟨.wide, .carriageReturn⟩, .feed),
      (.blank .none, .feed),
      (.blank .wide, .returnFeed) ]
  last := some (.row ⟨"Board", 4294967295, ""⟩ ⟨.none, .none⟩ ⟨.none, .none⟩ ⟨.carriageReturn, .wide⟩)

/-- The shelves are read back. -/
theorem layout_does_not_matter_shelf :
    shelfLayout.text = "\t\u2003# shelves, boards\r\n\t\u2003Shelf #1,7\t\u2003,\t\u2003Object\r\n\n" ++
        "\t\u2003\r\nBoard,4294967295,\r\t\u2003" ∧
      ∃ t, IdTable.parse shelfLayout.text = .ok t ∧ t.entries = shelfRows ∧
        t.get? "Shelf #1" = some 7 ∧ t.get? "Board" = some 4294967295 ∧ t.get? "shelf #1" = none := by
  obtain ⟨t, ht, hentries, hget, hnone⟩ :=
    layout_does_not_matter shelfRows (by decide +kernel) (by decide) shelfLayout (by decide)
  refine ⟨by decide, t, ht, hentries, ?_, ?_, hnone _ (by decide)⟩
  · exact hget ⟨"Shelf #1", 7, "Object"⟩ List.mem_cons_self
  · exact hget ⟨"Board", 4294967295, ""⟩ (List.mem_cons_of_mem _ List.mem_cons_self)

end OpcWire
