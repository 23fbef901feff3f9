import Mathlib.Data.List.Basic
import OpcWire.Proofs.IdTable.Index
import OpcWire.Proofs.Text.Decimal

/-!
# The first faulty line of a table

A text is refused as a table at the first line that is refused by the table that the lines before it
give (`table_faults_located`). What makes a table refuse a line is said without the reader, in
`IdTable.Refuses`, and a line is refused exactly for that (`IdTable.addLine_eq_error_iff_refuses`).
Since the lines of a text are added one by one, nothing behind a faulty line matters, and a text
that is read is read up to every one of its lines (`IdTable.exists_of_addLines_take`).
-/

namespace OpcWire

namespace IdTable

/-- Why a table refuses a line that is neither blank nor a comment. -/
inductive Refuses (t : IdTable) (line : String) : LineFault → Prop
  /-- There are not three columns. -/
  | columns (h : (cells line).length ≠ 3) : t.Refuses line (.columns (cells line).length)
  /-- There is no name. -/
  | emptyName {id kind : String} (h : cells line = ["", id, kind]) : t.Refuses line .emptyName
  /-- What stands for a number is none. -/
  | invalidId {name id kind : String} {refusal : Decimal.Refusal} (h : cells line = [name, id, kind])
      (hname : name ≠ "") (hid : ∀ n, ¬ Decimal.Denotes id n)
      (hrefusal : Decimal.uint32 id = .error refusal) : t.Refuses line (.invalidId id refusal)
  /-- An entry of the table has the name. -/
  | duplicateName {name id kind : String} {n : UInt32} (h : cells line = [name, id, kind])
      (hname : name ≠ "") (hid : Decimal.Denotes id n) (hold : ∃ e ∈ t.entries, e.name = name) :
      t.Refuses line (.duplicateName name)

variable {t u : IdTable} {line : String} {lines : List String} {number : Nat} {fault : LineFault}

/-! ### One line -/

theorem Refuses.entryOfLine_or (ht : t.IsIndexed) (h : t.Refuses line fault) :
    entryOfLine line = .error fault ∨
      ∃ e, entryOfLine line = .ok e ∧ t.insert? e = none ∧ fault = .duplicateName e.name := by
  cases h with
  | columns hlength => exact .inl (entryOfLine_of_length_ne hlength)
  | emptyName hcells => exact .inl (entryOfLine_of_cells hcells)
  | invalidId hcells hname hid hrefusal =>
    refine .inl ?_
    rw [entryOfLine_of_cells hcells, if_neg hname, hrefusal]
  | @duplicateName name id kind n hcells hname hid hold =>
    refine .inr ⟨⟨name, n, kind⟩, ?_, ht.insert?_eq_none_iff.2 hold, rfl⟩
    rw [entryOfLine_of_cells hcells, if_neg hname, Decimal.uint32_eq_ok_iff.2 hid]

theorem entryOfLine_spec (line : String) :
    (∃ fault, entryOfLine line = .error fault ∧ ∀ t : IdTable, t.Refuses line fault) ∨
      ∃ e id, entryOfLine line = .ok e ∧ cells line = [e.name, id, e.kind] ∧ e.name ≠ "" ∧
        Decimal.Denotes id e.id := by
  by_cases hlength : (cells line).length = 3
  · obtain ⟨name, id, kind, hcells⟩ := List.length_eq_three.1 hlength
    rw [entryOfLine_of_cells hcells]
    by_cases hname : name = ""
    · rw [if_pos hname]
      exact .inl ⟨_, rfl, fun t => .emptyName (hname ▸ hcells)⟩
    · rw [if_neg hname]
      cases hid : Decimal.uint32 id with
      | error refusal =>
        refine .inl ⟨_, rfl, fun t => .invalidId hcells hname (fun n hn => ?_) hid⟩
        exact absurd (hid.symm.trans (Decimal.uint32_eq_ok_iff.2 hn)) nofun
      | ok n => exact .inr ⟨_, id, rfl, hcells, hname, Decimal.uint32_eq_ok_iff.1 hid⟩
  · exact .inl ⟨_, entryOfLine_of_length_ne hlength, fun t => .columns hlength⟩

/-- **A line is refused exactly if it is neither blank nor a comment and there is a reason.** -/
theorem addLine_eq_error_iff_refuses (ht : t.IsIndexed) :
    t.addLine line = .error fault ↔ ¬ IsPassedOver line ∧ t.Refuses line fault := by
  rw [addLine_eq_error_iff, ← isComment_eq_true_iff, Bool.not_eq_true]
  refine and_congr_right fun _ => ⟨?_, Refuses.entryOfLine_or ht⟩
  rcases entryOfLine_spec line with ⟨fault', hentry, hrefuses⟩ | ⟨e, id, hentry, hcells, hname, hid⟩
  · rw [hentry]
    rintro (h | ⟨e, ⟨⟩, -⟩)
    exact Except.error.inj h ▸ hrefuses t
  · rw [hentry]
    rintro (⟨⟨⟩⟩ | ⟨e', he', hinsert, rfl⟩)
    obtain rfl := Except.ok.inj he'
    exact .duplicateName hcells hname hid (ht.insert?_eq_none_iff.1 hinsert)

/-! ### All lines -/

theorem prefix_of_addLines (h : t.addLines number lines = .ok u) : t.entries <+: u.entries := by
  refine addLines_induction (P := fun u => t.entries <+: u.entries) ?_ (List.prefix_rfl) h
  intro v w line _ hadd hv
  obtain ⟨-, rfl⟩ | ⟨-, e, -, hinsert⟩ := addLine_eq_ok_iff.1 hadd
  · exact hv
  · rw [entries_of_insert?_eq_some hinsert]
    exact hv.trans (List.prefix_append _ _)

theorem exists_of_addLines_take (h : t.addLines number lines = .ok u) (n : Nat) :
    ∃ v, t.addLines number (lines.take n) = .ok v ∧ v.entries <+: u.entries := by
  rw [← List.take_append_drop n lines, addLines_append] at h
  obtain ⟨v, hv, hrest⟩ := bind_eq_ok_iff.1 h
  exact ⟨v, hv, prefix_of_addLines hrest⟩

/-- Lines that are refused are refused whatever follows them. -/
theorem addLines_eq_error_of_prefix {xs ys : List String} {error : GenerateError} (hstart : xs <+: ys)
    (h : t.addLines number xs = .error error) : t.addLines number ys = .error error := by
  obtain ⟨later, rfl⟩ := hstart
  rw [addLines_append, h]
  rfl

theorem parse_firstLines (n : Nat) (text : String) :
    parse (Text.firstLines n text) = empty.addLines 1 ((Text.lines text).take n) := by
  rw [parse, Text.lines_firstLines]

theorem parse_eq_error_iff {text : String} {error : GenerateError} :
    parse text = .error error ↔ ∃ n t line fault, (Text.lines text)[n]? = some line ∧
      parse (Text.firstLines n text) = .ok t ∧ t.addLine line = .error fault ∧
      error = .invalidIdTable (n + 1) fault := by
  rw [parse, addLines_eq_error_iff]
  constructor
  · rintro ⟨earlier, line, later, t, fault, hlines, hearlier, hfault, rfl⟩
    refine ⟨earlier.length, t, line, fault, ?_, ?_, hfault, by rw [Nat.add_comm]⟩
    · rw [hlines, List.getElem?_append_right (Nat.le_refl _), Nat.sub_self, List.getElem?_cons_zero]
    · rw [parse_firstLines, hlines, List.take_left, hearlier]
  · rintro ⟨n, t, line, fault, hline, hearlier, hfault, rfl⟩
    obtain ⟨hn, rfl⟩ := List.getElem?_eq_some_iff.1 hline
    rw [parse_firstLines] at hearlier
    refine ⟨(Text.lines text).take n, _, (Text.lines text).drop (n + 1), t, fault, ?_, hearlier, hfault,
      ?_⟩
    · rw [← List.drop_eq_getElem_cons hn, List.take_append_drop]
    · rw [List.length_take_of_le (Nat.le_of_lt hn), Nat.add_comm]

/-- The lines up to the first faulty one are refused on their own. -/
theorem addLines_take_eq_error {text : String} {n : Nat}
    (h : parse text = .error (.invalidIdTable n fault)) :
    empty.addLines 1 ((Text.lines text).take n) = .error (.invalidIdTable n fault) := by
  obtain ⟨earlier, line, later, t, fault', hlines, hearlier, hfault, heq⟩ := addLines_eq_error_iff.1 h
  obtain ⟨rfl, rfl⟩ := GenerateError.invalidIdTable.inj heq
  rw [hlines, Nat.add_comm, List.take_length_add_append, Nat.add_comm]
  exact addLines_eq_error_iff.2 ⟨earlier, line, [], t, fault, rfl, hearlier, hfault, rfl⟩

end IdTable

open IdTable in
/-- **The error of a table names its first faulty line.** A text is refused with line `n` if and
only if the lines before are read as a table on their own, and this table refuses line `n`, which is
neither blank nor a comment: it has not three columns, no name, a number that is none, or the name
of an entry of the table. The first `n` lines are then refused alike, on their own and whatever
follows them. There are no other errors. And if a text is read as a table, then so are its first
lines, however many, and their entries are the beginning of all entries. -/
theorem table_faults_located (text : String) :
    (∀ n fault, parse text = .error (.invalidIdTable n fault) ↔
      ∃ t line, 1 ≤ n ∧ (Text.lines text)[n - 1]? = some line ∧
        parse (Text.firstLines (n - 1) text) = .ok t ∧ ¬ IsPassedOver line ∧ t.Refuses line fault) ∧
    (∀ n fault, parse text = .error (.invalidIdTable n fault) → n ≤ (Text.lines text).length ∧
      parse (Text.firstLines n text) = .error (.invalidIdTable n fault) ∧
      ∀ other, (Text.lines text).take n <+: Text.lines other →
        parse other = .error (.invalidIdTable n fault)) ∧
    (∀ error, parse text = .error error → ∃ n fault, error = .invalidIdTable n fault) ∧
    ∀ t, parse text = .ok t → ∀ n, ∃ u, parse (Text.firstLines n text) = .ok u ∧
      u.entries <+: t.entries := by
  have hlocated (n : Nat) (fault : LineFault) : parse text = .error (.invalidIdTable n fault) ↔
      ∃ t line, 1 ≤ n ∧ (Text.lines text)[n - 1]? = some line ∧
        parse (Text.firstLines (n - 1) text) = .ok t ∧ ¬ IsPassedOver line ∧ t.Refuses line fault := by
    rw [parse_eq_error_iff]
    constructor
    · rintro ⟨k, t, line, fault, hline, hearlier, hfault, ⟨⟩⟩
      exact ⟨t, line, Nat.le_add_left 1 k, hline, hearlier,
        (addLine_eq_error_iff_refuses (isIndexed_of_parse hearlier)).1 hfault⟩
    · rintro ⟨t, line, hn, hline, hearlier, hrefuses⟩
      refine ⟨n - 1, t, line, fault, hline, hearlier,
        (addLine_eq_error_iff_refuses (isIndexed_of_parse hearlier)).2 hrefuses, ?_⟩
      rw [Nat.sub_add_cancel hn]
  refine ⟨hlocated, fun n fault h => ?_, fun error h => ?_, fun t ht n => ?_⟩
  · obtain ⟨t, line, hn, hline, -⟩ := (hlocated n fault).1 h
    have hlength : n - 1 < (Text.lines text).length := (List.getElem?_eq_some_iff.1 hline).1
    have htake := addLines_take_eq_error h
    exact ⟨by omega, (parse_firstLines n text).trans htake,
      fun other hother => addLines_eq_error_of_prefix hother htake⟩
  · obtain ⟨n, t, line, fault, -, -, -, rfl⟩ := parse_eq_error_iff.1 h
    exact ⟨_, fault, rfl⟩
  · rw [parse_firstLines]
    exact exists_of_addLines_take ht n

/-- A text with a comment and blank lines, of which the fifth line repeats a name and the sixth has
one column. -/
def repeatedCsv : String := "# lamps\r\n\r\nLamp,7,Object\n \nLamp, 8 ,Object\nShelf"

/-- The fifth line is blamed, and what comes behind it does not matter. -/
theorem table_faults_located_repeated :
    ∃ t, IdTable.parse (Text.firstLines 4 repeatedCsv) = .ok t ∧ t.entries = [⟨"Lamp", 7, "Object"⟩] ∧
      t.Refuses "Lamp, 8 ,Object" (.duplicateName "Lamp") ∧
      ∀ other, ["# lamps", "", "Lamp,7,Object", " ", "Lamp, 8 ,Object"] <+: Text.lines other →
        IdTable.parse other = .error (.invalidIdTable 5 (.duplicateName "Lamp")) := by
  have herror : IdTable.parse repeatedCsv = .error (.invalidIdTable 5 (.duplicateName "Lamp")) := by
    decide +kernel
  have hearlier : IdTable.parse (Text.firstLines 4 repeatedCsv) =
      .ok { entries := [⟨"Lamp", 7, "Object"⟩] } := by decide +kernel
  obtain ⟨hlocated, hfollowed, -, -⟩ := table_faults_located repeatedCsv
  obtain ⟨t, line, -, hline, ht, -, hrefuses⟩ := (hlocated _ _).1 herror
  obtain rfl : line = "Lamp, 8 ,Object" := Option.some.inj (hline.symm.trans (by decide +kernel))
  obtain rfl := Except.ok.inj (ht.symm.trans hearlier)
  refine ⟨_, ht, rfl, hrefuses, fun other hother => (hfollowed _ _ herror).2.2 other ?_⟩
  have hlines : (Text.lines repeatedCsv).take 5 =
      ["# lamps", "", "Lamp,7,Object", " ", "Lamp, 8 ,Object"] := by decide +kernel
  rwa [hlines]

end OpcWire
