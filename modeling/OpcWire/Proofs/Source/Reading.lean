import OpcWire.Proofs.Text.Decimal
import OpcWire.Proofs.Text.Lines
import OpcWire.Source.Reading

/-!
# What generated source text says

The line of a constant is read as that constant (`Source.Constant.read?_line`), and a statement is
read as a call if and only if it is the statement of that call (`Source.Call.read?_eq_some_iff`).
The statements of a function are those between its braces (`Source.statements?_block`), whatever
stands in front of it (`Source.statements?_append`).
-/

namespace OpcWire

namespace Source

/-! ### Constants -/

theorem Constant.read?_eq_none {line : String} (h : ∀ rest, line ≠ "pub const " ++ rest) :
    Constant.read? line = none := by
  rw [Constant.read?, between?, Naming.dropStart?_eq_none_iff.2 h]
  rfl

/-- **A constant is read back.** -/
theorem Constant.read?_line {c : Constant} (h : ' ' ∉ c.name.toList) :
    Constant.read? c.line = some c := by
  have hbetween : between? "pub const " ";" c.line =
      some (c.name ++ ": u32 = " ++ toString c.number) :=
    between?_eq_some_iff.2 (by simp only [Constant.line, String.append_assoc])
  have hcut : cut? ' ' (c.name ++ ": u32 = " ++ toString c.number) =
      some (c.name ++ ":", "u32 = " ++ toString c.number) := by
    refine cut?_eq_some_iff.2 ⟨?_, ?_⟩
    · have hcolon : ": u32 = " = ":" ++ (String.singleton ' ' ++ "u32 = ") := by decide
      simp only [hcolon, String.append_assoc]
    · rw [String.toList_append, List.mem_append]
      exact not_or.2 ⟨h, by decide⟩
  have hname : dropEnd? ":" (c.name ++ ":") = some c.name := dropEnd?_eq_some_iff.2 rfl
  have hdigits : Naming.dropStart? "u32 = " ("u32 = " ++ toString c.number) =
      some (toString c.number) := Naming.dropStart?_eq_some_iff.2 rfl
  simp only [Constant.read?, hbetween, Option.bind_some, hcut, Option.bind_eq_bind, hname, hdigits,
    Decimal.uint32_toString, Except.toOption]
  rfl

/-! ### Calls -/

/-- **A statement is read as a call if and only if it makes it.** -/
theorem Call.read?_eq_some_iff {statement : String} {c : Call} :
    Call.read? statement = some c ↔
      statement = c.statement ∧ '>' ∉ c.typeName.toList ∧ ',' ∉ c.constant.toList := by
  have hstatement : c.statement = "registry.register::<" ++ (c.typeName ++ String.singleton '>' ++
      ("(id::" ++ (c.constant ++ String.singleton ',' ++ (" \"" ++ c.name)))) ++ "\")?;" := by
    unfold Call.statement quote
    apply String.toList_inj.1
    simp
  rw [Call.read?, hstatement]
  simp only [Option.bind_eq_bind, Option.bind_eq_some_iff, between?_eq_some_iff, cut?_eq_some_iff,
    Naming.dropStart?_eq_some_iff, Prod.exists]
  constructor
  · rintro ⟨typeName, rest, ⟨_, rfl, rfl, htype⟩, constant, rest', ⟨_, rfl, rfl, hconstant⟩, name,
      rfl, ⟨⟩⟩
    exact ⟨rfl, htype, hconstant⟩
  · rintro ⟨rfl, htype, hconstant⟩
    exact ⟨c.typeName, _, ⟨_, rfl, rfl, htype⟩, c.constant, _, ⟨_, rfl, rfl, hconstant⟩, c.name,
      rfl, rfl⟩

/-! ### Functions -/

theorem unindentLine_indentLine (line : String) : unindentLine (indentLine line) = line := by
  rw [indentLine]
  split
  · rename_i hempty
    rw [String.isEmpty_iff.1 hempty]
    rfl
  · rw [unindentLine, Naming.dropStart?_eq_some_iff.2 rfl]
    rfl

theorem block_eq (head : String) (body : List String) :
    block head body = (head ++ " \x7b") :: (indent body ++ ["\x7d"]) := by
  rw [block, blockWith, String.append_assoc]
  rfl

/-- An indented line is empty or starts with a blank, so it is not a line that starts with anything
else. -/
theorem indentLine_ne {line other : String} (hne : other ≠ "")
    (hhead : other.toList.head? ≠ some ' ') : indentLine line ≠ other := by
  rintro rfl
  rw [indentLine] at hne hhead
  split at hne
  · rename_i hempty
    exact hne (String.isEmpty_iff.1 hempty)
  · rename_i hempty
    rw [if_neg hempty, String.toList_append] at hhead
    exact hhead rfl

theorem statements?_append {head : String} {body xs ys : List String}
    (h : statements? head ys = some body) : statements? head (xs ++ ys) = some body := by
  induction xs with
  | nil => exact h
  | cons x rest ih => rw [List.cons_append, statements?, ih]

theorem statements?_eq_none {head : String} {lines : List String} (h : head ∉ lines) :
    statements? head lines = none := by
  induction lines with
  | nil => rfl
  | cons line rest ih =>
    obtain ⟨hline, hrest⟩ := List.ne_and_not_mem_of_not_mem_cons h
    rw [statements?, ih hrest]
    exact if_neg (Ne.symm hline)

theorem statements?_block {head : String} (hne : head ≠ "") (hhead : head.toList.head? ≠ some ' ')
    (body : List String) :
    statements? (head ++ " \x7b") (block head body) = some body := by
  have hfirst : (head ++ " \x7b").toList.head? ≠ some ' ' := by
    obtain ⟨c, l, hl⟩ := List.exists_cons_of_ne_nil (mt String.toList_eq_nil_iff.1 hne)
    rw [String.toList_append, hl, List.cons_append, List.head?_cons]
    rwa [hl, List.head?_cons] at hhead
  have hfree : head ++ " \x7b" ∉ indent body ++ ["\x7d"] := by
    rw [List.mem_append, List.mem_singleton]
    rintro (hmem | heq)
    · obtain ⟨line, -, hline⟩ := List.mem_map.1 hmem
      exact indentLine_ne (fun heq => by simp at heq) hfirst hline
    · have hlast := congrArg (·.toList.getLast?) heq
      simp at hlast
  have hbody : (indent body ++ ["\x7d"]).takeWhile (· ≠ "\x7d") = indent body := by
    have hall : ∀ line ∈ indent body, decide (line ≠ "\x7d") = true := by
      intro line hline
      obtain ⟨l, -, rfl⟩ := List.mem_map.1 hline
      exact decide_eq_true (indentLine_ne (by decide) (by decide))
    rw [List.takeWhile_append_of_pos hall]
    exact List.append_nil _
  have hunindent : (indent body).map unindentLine = body := by
    rw [indent, List.map_map]
    exact List.map_id'' (fun line => unindentLine_indentLine line) body
  rw [block_eq, statements?, statements?_eq_none hfree, hbody, hunindent]
  exact if_pos rfl

theorem callsOfStatements?_map {calls : List Call}
    (h : ∀ c ∈ calls, Call.read? c.statement = some c) :
    callsOfStatements? (calls.map Call.statement ++ ["Ok(())"]) = some calls := by
  induction calls with
  | nil => exact if_pos ⟨rfl, rfl⟩
  | cons c rest ih =>
    obtain ⟨hc, hrest⟩ := List.forall_mem_cons.1 h
    rw [List.map_cons, List.cons_append, callsOfStatements?, if_neg, hc, ih hrest]
    · rfl
    · rintro ⟨-, hnil⟩
      exact List.append_ne_nil_of_right_ne_nil _ (List.cons_ne_nil _ _) hnil

end Source

end OpcWire
