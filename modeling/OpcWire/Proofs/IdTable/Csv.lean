import OpcWire.IdTable.Csv
import OpcWire.Proofs.Generator.Definitions
import OpcWire.Proofs.Text.Blank

/-!
# Tables read from text

A table is read line by line. What one line does is said once: it is passed over, or its entry is
added (`IdTable.addLine_eq_ok_iff`), or it has a fault (`IdTable.addLine_eq_error_iff`); blanks
around it make no difference (`IdTable.addLine_congr`). The first line with a fault ends the reading
(`IdTable.addLines_eq_error_iff`). What each line that is added keeps, holds of a table that is read
(`IdTable.addLines_induction`). Its names and kinds are parts of single lines, for one thing, and
have no line feeds in them (`IdTable.lacks_of_parse`).
-/

namespace OpcWire

theorem Text.trimChars_sublist (chars : List Char) : (trimChars chars).Sublist chars := by
  rw [trimChars, ← List.reverse_sublist, List.reverse_reverse]
  exact (List.dropWhile_sublist _).trans
    (List.reverse_sublist.2 (List.dropWhile_sublist _))

namespace IdTable

variable {c : Char} {t u : IdTable} {line : String} {lines : List String} {number : Nat}

/-! ### Cells and comments -/

/-- Whether a line is passed over: it holds nothing but blanks, or a comment behind them. -/
def IsPassedOver (line : String) : Prop :=
  ∃ gap rest, line.toList = gap ++ rest ∧ (∀ c ∈ gap, Text.isBlank c = true) ∧
    (rest = [] ∨ rest.head? = some '#')

theorem isComment_of_blank (h : ∀ c ∈ line.toList, Text.isBlank c = true) : isComment line = true := by
  rw [isComment, Text.trimChars_of_blank h]

theorem isComment_of_append_cons {gap rest : List Char} (h : line.toList = gap ++ c :: rest)
    (hgap : ∀ c ∈ gap, Text.isBlank c = true) (hc : Text.isBlank c = false) :
    isComment line = (c == '#') := by
  rw [isComment, h, Text.trimChars_blank_append hgap, Text.trimChars_cons hc]

/-- **Blank lines and comments are passed over, and no others.** -/
theorem isComment_eq_true_iff : isComment line = true ↔ IsPassedOver line := by
  constructor
  · intro h
    rcases Text.blank_or_exists_append_cons line.toList with hall | ⟨gap, c, rest, hgap, hc, hline⟩
    · exact ⟨line.toList, [], (List.append_nil _).symm, hall, .inl rfl⟩
    · rw [isComment_of_append_cons hline hgap hc, beq_iff_eq] at h
      exact ⟨gap, c :: rest, hline, hgap, .inr (h ▸ rfl)⟩
  · rintro ⟨gap, rest, hline, hgap, rfl | hhead⟩
    · refine isComment_of_blank fun c hc => hgap c ?_
      rwa [hline, List.append_nil] at hc
    · obtain ⟨tail, rfl⟩ := List.head?_eq_some_iff.1 hhead
      exact isComment_of_append_cons hline hgap (by decide)

/-- Blanks around a line make no difference to its cells. -/
theorem cells_trim (line : String) : cells (Text.trim line) = cells line := by
  have hcells (line : String) :
      cells line = ((Text.splitAt ',' line.toList).map Text.trimChars).map String.ofList := by
    rw [List.map_map]
    rfl
  rw [hcells, hcells, Text.trim, String.toList_ofList, Text.map_trimChars_splitAt (by decide)]

theorem entryOfLine_of_length_ne (h : (cells line).length ≠ 3) :
    entryOfLine line = .error (.columns (cells line).length) := by
  rw [entryOfLine, cells_trim]
  split
  · rename_i hcells
    exact absurd (hcells ▸ rfl) h
  · rfl

theorem entryOfLine_of_cells {name id kind : String} (h : cells line = [name, id, kind]) :
    entryOfLine line = if name = "" then .error .emptyName else
      match Decimal.uint32 id with
      | .error refusal => .error (.invalidId id refusal)
      | .ok number => .ok ⟨name, number, kind⟩ := by
  rw [entryOfLine, cells_trim, h]
  dsimp only
  by_cases hname : name = ""
  · exact (if_pos (String.isEmpty_iff.2 hname)).trans (if_pos hname).symm
  · exact (if_neg (mt String.isEmpty_iff.1 hname)).trans (if_neg hname).symm

/-! ### Lines -/

theorem addLine_congr {a b : String} (h : Text.trimChars a.toList = Text.trimChars b.toList) :
    t.addLine a = t.addLine b := by
  rw [addLine, addLine, isComment, isComment, entryOfLine, entryOfLine, Text.trim, Text.trim, h]

theorem addLine_eq_ok_iff : t.addLine line = .ok u ↔ isComment line = true ∧ u = t ∨
    isComment line = false ∧ ∃ e, entryOfLine line = .ok e ∧ t.insert? e = some u := by
  rw [addLine]
  cases isComment line with
  | true => simp [eq_comm]
  | false =>
    cases entryOfLine line with
    | error fault => simp
    | ok e => cases hinsert : t.insert? e <;> simp [hinsert]

theorem addLine_eq_error_iff {fault : LineFault} : t.addLine line = .error fault ↔
    isComment line = false ∧ (entryOfLine line = .error fault ∨
      ∃ e, entryOfLine line = .ok e ∧ t.insert? e = none ∧ fault = .duplicateName e.name) := by
  rw [addLine]
  cases isComment line with
  | true => simp
  | false =>
    cases entryOfLine line with
    | error fault => simp
    | ok e => cases hinsert : t.insert? e <;> simp [hinsert, eq_comm]

theorem addLines_cons_of_ok {rest : List String} (h : t.addLine line = .ok u) :
    t.addLines number (line :: rest) = u.addLines (number + 1) rest := by
  rw [addLines, h]

theorem addLines_cons_of_error {rest : List String} {fault : LineFault}
    (h : t.addLine line = .error fault) :
    t.addLines number (line :: rest) = .error (.invalidIdTable number fault) := by
  rw [addLines, h]

theorem addLines_append (t : IdTable) (number : Nat) (xs ys : List String) :
    t.addLines number (xs ++ ys) =
      t.addLines number xs >>= fun u => u.addLines (number + xs.length) ys := by
  induction xs generalizing t number with
  | nil => rfl
  | cons line rest ih =>
    cases hline : t.addLine line with
    | error fault =>
      rw [List.cons_append, addLines_cons_of_error hline, addLines_cons_of_error hline]
      rfl
    | ok u =>
      rw [List.cons_append, addLines_cons_of_ok hline, addLines_cons_of_ok hline, ih,
        List.length_cons, Nat.add_assoc, Nat.add_comm 1]

/-- **Lines are refused if one of them is and those before it are not.** The error has the number of
this line. -/
theorem addLines_eq_error_iff {error : GenerateError} : t.addLines number lines = .error error ↔
    ∃ earlier line later u fault, lines = earlier ++ line :: later ∧
      t.addLines number earlier = .ok u ∧ u.addLine line = .error fault ∧
      error = .invalidIdTable (number + earlier.length) fault := by
  constructor
  · intro h
    induction lines generalizing t number with
    | nil => cases h
    | cons line rest ih =>
      cases hline : t.addLine line with
      | error fault =>
        rw [addLines_cons_of_error hline] at h
        exact ⟨[], line, rest, t, fault, rfl, rfl, hline, (Except.error.inj h).symm⟩
      | ok t' =>
        rw [addLines_cons_of_ok hline] at h
        obtain ⟨earlier, line', later, u, fault, rfl, hearlier, hfault, rfl⟩ := ih h
        refine ⟨line :: earlier, line', later, u, fault, rfl,
          (addLines_cons_of_ok hline).trans hearlier, hfault, ?_⟩
        rw [List.length_cons, Nat.add_assoc, Nat.add_comm 1]
  · rintro ⟨earlier, line, later, u, fault, rfl, hearlier, hfault, rfl⟩
    rw [addLines_append, hearlier]
    exact addLines_cons_of_error hfault

/-- What every line that is added keeps, holds when all lines have been. -/
theorem addLines_induction {P : IdTable → Prop}
    (hstep : ∀ t u line, line ∈ lines → t.addLine line = .ok u → P t → P u) (ht : P t)
    (h : t.addLines number lines = .ok u) : P u := by
  induction lines generalizing t number with
  | nil =>
    cases h
    exact ht
  | cons line rest ih =>
    cases hline : t.addLine line with
    | error fault =>
      rw [addLines_cons_of_error hline] at h
      cases h
    | ok t' =>
      rw [addLines_cons_of_ok hline] at h
      exact ih (fun t u l hl => hstep t u l (List.mem_cons_of_mem _ hl))
        (hstep t t' line List.mem_cons_self hline ht) h

/-! ### Line feeds -/

theorem not_mem_of_mem_cells {cell : String} (hcell : cell ∈ cells (Text.trim line))
    (hc : c ∉ line.toList) : c ∉ cell.toList := by
  obtain ⟨part, hpart, rfl⟩ := List.mem_map.1 hcell
  rw [Text.trim, String.toList_ofList] at hpart
  rw [String.toList_ofList]
  intro hmem
  have hsublist := (Text.trimChars_sublist part).trans ((Text.of_mem_splitAt hpart).2.trans
    (Text.trimChars_sublist line.toList))
  exact hc (hsublist.subset hmem)

/-- Whether a character occurs in no name and no kind of a table. -/
def Lacks (t : IdTable) (c : Char) : Prop :=
  ∀ e ∈ t.entries, c ∉ e.name.toList ∧ c ∉ e.kind.toList

theorem not_mem_of_entryOfLine {e : IdEntry} (h : entryOfLine line = .ok e)
    (hc : c ∉ line.toList) : c ∉ e.name.toList ∧ c ∉ e.kind.toList := by
  rw [entryOfLine] at h
  split at h
  · rename_i name id kind hcells
    split at h
    · cases h
    · split at h
      · cases h
      · cases h
        have hname : name ∈ cells (Text.trim line) := hcells ▸ List.mem_cons_self
        have hkind : kind ∈ cells (Text.trim line) := by
          rw [hcells]
          exact List.mem_cons_of_mem _ (List.mem_cons_of_mem _ List.mem_cons_self)
        exact ⟨not_mem_of_mem_cells hname hc, not_mem_of_mem_cells hkind hc⟩
  · cases h

theorem Lacks.addLine (ht : t.Lacks c) (h : t.addLine line = .ok u) (hc : c ∉ line.toList) :
    u.Lacks c := by
  obtain ⟨-, rfl⟩ | ⟨-, e, he, hinsert⟩ := addLine_eq_ok_iff.1 h
  · exact ht
  · rw [Lacks, entries_of_insert?_eq_some hinsert]
    refine List.forall_mem_append.2 ⟨ht, ?_⟩
    rintro e' he'
    obtain rfl := List.mem_singleton.1 he'
    exact not_mem_of_entryOfLine he hc

/-- **The names and kinds of a table that is read have no line feeds.** -/
theorem lacks_of_parse {csv : String} (h : parse csv = .ok t) : t.Lacks '\n' := by
  have hempty : empty.Lacks '\n' := nofun
  refine addLines_induction (fun t u line hline hadd (ht : t.Lacks '\n') => ?_) hempty h
  exact ht.addLine hadd (Text.not_mem_of_mem_lines hline)

end IdTable

end OpcWire
