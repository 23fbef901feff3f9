import OpcWire.Proofs.Generator.Run
import OpcWire.Proofs.IdTable.Csv
import OpcWire.Proofs.Naming
import OpcWire.Proofs.Source.Reading

/-!
# What the file of constants defines

The file of an identifier table is read as one constant for each entry, in the order of the table
(`Source.constants_identifierFile`). Since no two entries have the same constant, every constant is
defined once, with the number of its entry (`Source.filter_constants_eq_singleton`).
-/

namespace OpcWire

/-- The constant of an entry. -/
def IdEntry.constant (e : IdEntry) : Source.Constant := ⟨Naming.constIdent e.name, e.id⟩

namespace Source

theorem identifierLines_eq (e : IdEntry) :
    identifierLines e = ["/// `" ++ e.name ++ "` (" ++ e.kind ++ ").", e.constant.line] := by
  have hline : "pub const " ++ Naming.constIdent e.name ++ (": u32 = " ++ toString e.id ++ ";") =
      e.constant.line := by
    unfold Constant.line
    simp only [String.append_assoc]
    rfl
  rw [← hline]
  rfl

theorem read?_constant (e : IdEntry) : Constant.read? e.constant.line = some e.constant :=
  Constant.read?_line (Naming.not_mem_constIdent (by decide) (by decide) (.inr (by decide)))

theorem read?_description (e : IdEntry) :
    Constant.read? ("/// `" ++ e.name ++ "` (" ++ e.kind ++ ").") = none := by
  exact Constant.read?_eq_none fun rest => ne_of_take_ne 1 (by simp)

theorem isLine_identifierLines {e : IdEntry} (hname : '\n' ∉ e.name.toList)
    (hkind : '\n' ∉ e.kind.toList) : ∀ line ∈ identifierLines e, IsLine line := by
  have hconstant : '\n' ∉ (Naming.constIdent e.name).toList :=
    Naming.not_mem_constIdent (by decide) (by decide) (.inl hname)
  have hnumber : '\n' ∉ (toString e.id).toList := fun hmem =>
    absurd (Decimal.isDigit_of_mem_toString hmem) (by decide)
  rw [identifierLines_eq, List.forall_mem_cons, List.forall_mem_singleton]
  refine ⟨isLine_append ?_ (by decide) (by decide), isLine_append ?_ (by decide) (by decide)⟩
  · simp [hname, hkind]
  · simp [IdEntry.constant, hconstant, hnumber]

theorem lines_identifierFile {t : IdTable} (ht : t.Lacks '\n') {text : String}
    (h : identifierFile t = .ok text) :
    Text.lines text = header none ++ [""] ++ t.entries.flatMap identifierLines := by
  obtain ⟨-, rfl⟩ := identifierFile_eq_ok_iff.1 h
  refine AreLines.lines_render fun line hline => ?_
  rcases List.mem_append.1 hline with hheader | hentry
  · exact (by decide : ∀ line ∈ header none ++ [""], IsLine line) line hheader
  · obtain ⟨e, he, hline⟩ := List.mem_flatMap.1 hentry
    exact isLine_identifierLines (ht e he).1 (ht e he).2 line hline

/-- **The file of a table defines a constant for each entry**, in order, and nothing else. -/
theorem constants_identifierFile {t : IdTable} (ht : t.Lacks '\n') {text : String}
    (h : identifierFile t = .ok text) : constants text = t.entries.map IdEntry.constant := by
  have hread : ∀ entries : List IdEntry,
      (entries.flatMap identifierLines).filterMap Constant.read? =
        entries.map IdEntry.constant := by
    intro entries
    induction entries with
    | nil => rfl
    | cons e rest ih =>
      rw [List.flatMap_cons, identifierLines_eq, List.filterMap_append, ih, List.filterMap_cons,
        read?_description, List.filterMap_cons, read?_constant]
      rfl
  have hheader : (header none ++ [""]).filterMap Constant.read? = [] := by decide
  rw [constants, lines_identifierFile ht h, List.filterMap_append, hheader, hread, List.nil_append]

/-- **Every constant is defined once**, with the number of its entry. -/
theorem filter_constants_eq_singleton {t : IdTable} (ht : t.Lacks '\n') {text : String}
    (h : identifierFile t = .ok text) {e : IdEntry} (he : e ∈ t.entries) :
    (constants text).filter (·.name == Naming.constIdent e.name) = [e.constant] := by
  obtain ⟨hnodup, -⟩ := identifierFile_eq_ok_iff.1 h
  rw [constants_identifierFile ht h]
  have hnames : (t.entries.map IdEntry.constant).map (·.name) =
      t.entries.map fun e => Naming.constIdent e.name := List.map_map
  exact filter_eq_singleton_of_nodup (hnames ▸ hnodup) (List.mem_map_of_mem he)

end Source

end OpcWire
