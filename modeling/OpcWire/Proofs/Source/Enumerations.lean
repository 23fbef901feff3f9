import OpcWire.Proofs.Source.Registration
import OpcWire.Source.EnumerationReading

/-!
# What the text of enumerations says

A line says an item only if it is the line of that item, however far it is indented
(`Source.EnumerationItem.unindented_eq_line`, `Source.EnumerationItem.read?_indentLine`), and a
block says what the lines in it say. The text of an enumeration says its declaration, the constants
of its members, the table with their rows, the look-up with their arms, and the decoding, and
nothing else (`Source.enumerationItems_enumerationLines`); a file says this of each of its
enumerations, behind whatever its header says (`Source.enumerationItems_enumerationFile`).
-/

namespace OpcWire

namespace Source

/-! ### Forms -/

theorem unindented_indentLine (line : String) : unindented (indentLine line) = unindented line := by
  rw [indentLine]
  split
  · rfl
  · rw [unindented, String.toList_append]
    rfl

theorem unindented_eq_self {line : String} (h : line.toList.head? ≠ some ' ') :
    unindented line = line := by
  have hdrop : line.toList.dropWhile (· == ' ') = line.toList := by
    cases hline : line.toList with
    | nil => rfl
    | cons c rest =>
      rw [hline, List.head?_cons] at h
      exact List.dropWhile_cons_of_neg fun hc => h (congrArg some (beq_iff_eq.1 hc))
  rw [unindented, hdrop, String.ofList_toList]

/-- A text ends as its last part does. -/
theorem getLast?_append {a b : String} (hb : b ≠ "") :
    (a ++ b).toList.getLast? = b.toList.getLast? := by
  rw [String.toList_append, List.getLast?_append_of_ne_nil _ (mt String.toList_eq_nil_iff.1 hb)]

theorem getLast?_append_ne {a b : String} {last : Option Char} (hb : b ≠ "")
    (hlast : b.toList.getLast? ≠ last) : (a ++ b).toList.getLast? ≠ last := by
  rwa [getLast?_append hb]

theorem parts?_eq_some_iff {start middle stop text : String} {mark : Char} {parts : String × String} :
    parts? start mark middle stop text = some parts ↔
      text = start ++ (parts.1 ++ String.singleton mark ++ (middle ++ parts.2)) ++ stop ∧
        mark ∉ parts.1.toList := by
  simp only [parts?, Option.bind_eq_bind, Option.bind_eq_some_iff, between?_eq_some_iff,
    cut?_eq_some_iff, Naming.dropStart?_eq_some_iff, Prod.exists]
  constructor
  · rintro ⟨first, rest, ⟨_, rfl, rfl, hfirst⟩, second, rfl, ⟨⟩⟩
    exact ⟨rfl, hfirst⟩
  · rintro ⟨rfl, hfirst⟩
    exact ⟨parts.1, _, ⟨_, rfl, rfl, hfirst⟩, parts.2, rfl, rfl⟩

namespace EnumerationItem

/-! ### Lines -/

theorem read?_indentLine (line : String) : read? (indentLine line) = read? line := by
  rw [read?, unindented_indentLine, read?]

section Readers

variable {text : String} {item : EnumerationItem}

theorem map_parts?_eq_some_iff {start middle stop : String} {mark : Char}
    {build : String → String → EnumerationItem}
    (hline : ∀ first second, (build first second).line =
      start ++ (first ++ String.singleton mark ++ (middle ++ second)) ++ stop) :
    (parts? start mark middle stop text).map (fun parts => build parts.1 parts.2) = some item ↔
      ∃ first second, item = build first second ∧ text = item.line ∧ mark ∉ first.toList := by
  simp only [Option.map_eq_some_iff, parts?_eq_some_iff, Prod.exists]
  constructor
  · rintro ⟨first, second, ⟨rfl, hfirst⟩, rfl⟩
    exact ⟨first, second, rfl, (hline first second).symm, hfirst⟩
  · rintro ⟨first, second, rfl, rfl, hfirst⟩
    exact ⟨first, second, ⟨hline first second, hfirst⟩, rfl⟩

theorem declaration?_eq_some_iff : declaration? text = some item ↔
    ∃ name integer, item = declaration name integer ∧ text = item.line ∧ '(' ∉ name.toList :=
  map_parts?_eq_some_iff fun _ _ => String.toList_inj.1 (by simp)

theorem constant?_eq_some_iff : constant? text = some item ↔
    ∃ ident value, item = constant ident value ∧ text = item.line ∧ ':' ∉ ident.toList :=
  map_parts?_eq_some_iff fun _ _ => String.toList_inj.1 (by simp)

theorem row?_eq_some_iff : row? text = some item ↔
    ∃ name ident, item = row name ident ∧ text = item.line ∧ '"' ∉ name.toList :=
  map_parts?_eq_some_iff fun _ _ => String.toList_inj.1 (by simp [quote])

theorem arm?_eq_some_iff : arm? text = some item ↔
    ∃ name ident, item = arm name ident ∧ text = item.line ∧ '"' ∉ name.toList :=
  map_parts?_eq_some_iff fun _ _ => String.toList_inj.1 (by simp [quote])

theorem decoding?_eq_some_iff : decoding? text = some item ↔
    ∃ integer, item = decoding integer ∧ text = item.line := by
  simp only [decoding?, Option.map_eq_some_iff, dropEnd?_eq_some_iff]
  constructor
  · rintro ⟨integer, rfl, rfl⟩
    exact ⟨integer, rfl, rfl⟩
  · rintro ⟨integer, rfl, rfl⟩
    exact ⟨integer, rfl, rfl⟩

/-- **What a line says is what is written in it**, however far it is indented. -/
theorem unindented_eq_line (h : read? text = some item) : unindented text = item.line := by
  rw [read?] at h
  split at h
  · rename_i htable
    cases h
    exact htable
  · split at h
    · rename_i hlookup
      cases h
      exact hlookup
    · simp only [Option.orElse_eq_orElse, Option.orElse_eq_or, Option.or_eq_some_iff] at h
      rcases h with h | ⟨-, h | ⟨-, h | ⟨-, h | ⟨-, h⟩⟩⟩⟩
      · obtain ⟨_, _, _, hline, -⟩ := declaration?_eq_some_iff.1 h
        exact hline
      · obtain ⟨_, _, _, hline, -⟩ := constant?_eq_some_iff.1 h
        exact hline
      · obtain ⟨_, _, _, hline, -⟩ := row?_eq_some_iff.1 h
        exact hline
      · obtain ⟨_, _, _, hline, -⟩ := arm?_eq_some_iff.1 h
        exact hline
      · obtain ⟨_, _, hline⟩ := decoding?_eq_some_iff.1 h
        exact hline

theorem declaration?_eq_none (h : text.toList.take 5 ≠ "pub s".toList) :
    declaration? text = none := by
  refine Option.eq_none_iff_forall_ne_some.2 fun item hitem => h ?_
  obtain ⟨name, integer, rfl, rfl, -⟩ := declaration?_eq_some_iff.1 hitem
  simp

theorem constant?_eq_none (h : text.toList.take 5 ≠ "pub c".toList) : constant? text = none := by
  refine Option.eq_none_iff_forall_ne_some.2 fun item hitem => h ?_
  obtain ⟨ident, value, rfl, rfl, -⟩ := constant?_eq_some_iff.1 hitem
  simp

/-- What is read of a line that is not indented, and neither that of the table nor of the
look-up. -/
theorem read?_eq (hspace : text.toList.head? ≠ some ' ') (htable : text ≠ table.line)
    (hlookup : text ≠ lookup.line) :
    read? text =
      (declaration? text <|> constant? text <|> row? text <|> arm? text <|> decoding? text) := by
  rw [read?, unindented_eq_self hspace, if_neg htable, if_neg hlookup]

/-- The same, if the line does not begin like the one of a declaration. -/
theorem read?_of_head? {c : Char} (hfirst : text.toList.head? = some c) (hspace : c ≠ ' ')
    (hp : c ≠ 'p') : read? text = (row? text <|> arm? text <|> decoding? text) := by
  have htake (start : String) (hstart : start.toList.head? = some 'p') :
      text.toList.take 5 ≠ start.toList.take 5 := by
    intro heq
    have hheads := congrArg List.head? heq
    rw [List.head?_take, List.head?_take] at hheads
    exact hp (Option.some.inj (hfirst.symm.trans (hheads.trans hstart)))
  have hindented : text.toList.head? ≠ some ' ' := by
    rw [hfirst]
    exact fun heq => hspace (Option.some.inj heq)
  rw [read?_eq hindented (ne_of_take_ne 5 (htake _ rfl)) (ne_of_take_ne 5 (htake _ rfl)),
    declaration?_eq_none (htake "pub s" rfl), constant?_eq_none (htake "pub c" rfl)]
  rfl

end Readers

theorem read?_declaration {name integer : String} (h : '(' ∉ name.toList) :
    read? (declaration name integer).line = some (declaration name integer) := by
  have htable : (declaration name integer).line ≠ table.line := ne_of_take_ne 5 (by simp)
  have hlookup : (declaration name integer).line ≠ lookup.line := ne_of_take_ne 5 (by simp)
  rw [read?_eq (by simp) htable hlookup, declaration?_eq_some_iff.2 ⟨_, _, rfl, rfl, h⟩]
  rfl

theorem read?_constant {ident value : String} (h : ':' ∉ ident.toList) :
    read? (constant ident value).line = some (constant ident value) := by
  have htable : (constant ident value).line ≠ table.line := by
    intro heq
    have hlast : (constant ident value).line.toList.getLast? = some ';' := by
      rw [line_constant, getLast?_append (by decide)]
      rfl
    rw [heq] at hlast
    exact absurd hlast (by decide)
  have hlookup : (constant ident value).line ≠ lookup.line := ne_of_take_ne 5 (by simp)
  rw [read?_eq (by simp) htable hlookup, declaration?_eq_none (by simp),
    constant?_eq_some_iff.2 ⟨_, _, rfl, rfl, h⟩]
  rfl

theorem read?_row {name ident : String} (h : '"' ∉ name.toList) :
    read? (row name ident).line = some (row name ident) := by
  rw [read?_of_head? (c := '(') (by simp) (by decide) (by decide),
    row?_eq_some_iff.2 ⟨_, _, rfl, rfl, h⟩]
  rfl

theorem read?_arm {name ident : String} (h : '"' ∉ name.toList) :
    read? (arm name ident).line = some (arm name ident) := by
  have hrow : row? (arm name ident).line = none := by
    refine Option.eq_none_iff_forall_ne_some.2 fun item hitem => ?_
    obtain ⟨name', ident', rfl, heq, -⟩ := row?_eq_some_iff.1 hitem
    exact ne_of_take_ne 1 (by simp [quote]) heq
  rw [read?_of_head? (c := '"') (by simp [quote]) (by decide) (by decide), hrow,
    arm?_eq_some_iff.2 ⟨_, _, rfl, rfl, h⟩]
  rfl

theorem read?_decoding (r : EnumRepr) :
    read? (decoding r.render).line = some (decoding r.render) := by
  cases r <;> decide

/-- A line that begins and ends like no item says nothing. -/
theorem read?_eq_none {text : String} {c : Char} (hfirst : text.toList.head? = some c)
    (hc : c ∉ [' ', 'p', '(', '"']) (hlast : text.toList.getLast? ≠ some ')') :
    read? text = none := by
  refine Option.eq_none_iff_forall_ne_some.2 fun item hitem => ?_
  have hspace : text.toList.head? ≠ some ' ' := by
    rintro hspace
    obtain rfl := Option.some.inj (hfirst.symm.trans hspace)
    exact hc (by decide)
  obtain rfl : text = item.line := by
    rw [← unindented_eq_line hitem, unindented_eq_self hspace]
  cases item with
  | decoding integer =>
    refine hlast ?_
    rw [line_decoding, getLast?_append (by decide)]
    rfl
  | _ =>
    simp [quote] at hfirst
    exact hc (hfirst ▸ by decide)

end EnumerationItem

/-! ### Lists of lines -/

section Lines

variable {line head tail : String} {xs ys body : List String}

theorem enumerationItems_cons :
    enumerationItems (line :: xs) = (EnumerationItem.read? line).toList ++ enumerationItems xs := by
  rw [enumerationItems, List.filterMap_cons]
  split <;> rename_i hread <;> rw [hread] <;> rfl

theorem enumerationItems_cons_of_none (h : EnumerationItem.read? line = none) :
    enumerationItems (line :: xs) = enumerationItems xs :=
  List.filterMap_cons_none h

theorem enumerationItems_append :
    enumerationItems (xs ++ ys) = enumerationItems xs ++ enumerationItems ys :=
  List.filterMap_append

theorem enumerationItems_indent : enumerationItems (indent body) = enumerationItems body := by
  have hread : EnumerationItem.read? ∘ indentLine = EnumerationItem.read? := by
    funext line
    rw [Function.comp_apply, EnumerationItem.read?_indentLine]
  rw [enumerationItems, indent, List.filterMap_map, hread, enumerationItems]

theorem enumerationItems_block :
    enumerationItems (block head body) =
      (EnumerationItem.read? (head ++ " \x7b")).toList ++ enumerationItems body := by
  have hclose : enumerationItems ["\x7d"] = [] := by decide
  rw [block_eq, enumerationItems_cons, enumerationItems_append, enumerationItems_indent, hclose,
    List.append_nil]

theorem enumerationItems_map {α : Type} {write : α → String} {item : α → EnumerationItem}
    {l : List α} (h : ∀ a ∈ l, EnumerationItem.read? (write a) = some (item a)) :
    enumerationItems (l.map write) = l.map item := by
  rw [enumerationItems, List.filterMap_map, ← List.filterMap_eq_map]
  exact List.filterMap_congr h

end Lines

end Source

/-! ### Enumerations -/

namespace Definition

/-- The items of an enumeration. -/
def enumerationItems (d : Definition) : List Source.EnumerationItem :=
  .declaration d.name d.integerType ::
    (d.members.map fun m => .constant m.ident (toString m.value)) ++
    .table :: (d.members.map fun m => .row m.name m.ident) ++
    .lookup :: (d.members.map fun m => .arm m.name m.ident) ++ [.decoding d.integerType]

/-- Whether the names of an enumeration and its members are identifiers, and each member has the
constant of its name. -/
structure IsPlain (d : Definition) : Prop where
  /-- The name of the enumeration is. -/
  name : Naming.IsIdentifier d.name
  /-- The names of members are. -/
  members : ∀ m ∈ d.members, Naming.IsIdentifier m.name
  /-- Constants are made from names. -/
  idents : ∀ m ∈ d.members, m.ident = Naming.constIdent m.name

end Definition

namespace Source

open Definition (Member)

variable {d : Definition}

theorem enumerationItems_constantLines (h : ∀ m ∈ d.members, ':' ∉ m.ident.toList) :
    enumerationItems d.constantLines = d.members.map fun m => .constant m.ident (toString m.value) := by
  have hmembers : enumerationItems (d.members.map Member.constantLine) =
      d.members.map fun m => .constant m.ident (toString m.value) := by
    refine enumerationItems_map fun m hm => ?_
    have hline : m.constantLine = (EnumerationItem.constant m.ident (toString m.value)).line := by
      simp only [EnumerationItem.line_constant, String.append_assoc]
      rfl
    rw [hline, EnumerationItem.read?_constant (h m hm)]
  have hempty : enumerationItems [""] = [] := by decide
  rw [Definition.constantLines]
  split
  · rename_i hnil
    rw [List.isEmpty_iff.1 hnil]
    rfl
  · rw [enumerationItems_append, hmembers, hempty, List.append_nil]

theorem enumerationItems_tableLines (h : ∀ m ∈ d.members, '"' ∉ m.name.toList) :
    enumerationItems d.tableLines =
      .table :: d.members.map fun m => .row m.name m.ident := by
  have hmembers : enumerationItems (d.members.map Member.tableLine) =
      d.members.map fun m => .row m.name m.ident :=
    enumerationItems_map fun m hm => EnumerationItem.read?_row (h m hm)
  have hopen : enumerationItems ["/// Members in declaration order.",
      "pub const VALUES: &'static [(&'static str, Self)] = &["] = [.table] := by decide
  have hclose : enumerationItems ["];"] = [] := by decide
  rw [Definition.tableLines, enumerationItems_append, enumerationItems_append, hopen,
    enumerationItems_indent, hmembers, hclose, List.append_nil]
  rfl

theorem enumerationItems_lookupLines (h : ∀ m ∈ d.members, '"' ∉ m.name.toList) :
    enumerationItems d.lookupLines =
      .lookup :: d.members.map fun m => .arm m.name m.ident := by
  have hmembers : enumerationItems (d.members.map Member.lookupLine) =
      d.members.map fun m => .arm m.name m.ident :=
    enumerationItems_map fun m hm => EnumerationItem.read?_arm (h m hm)
  have hdescription : EnumerationItem.read? "/// Look up a member by its dictionary name." = none :=
    EnumerationItem.read?_eq_none (c := '/') rfl (by decide) (by decide)
  have hother : EnumerationItem.read?
      ("_ => Err(UnknownEnumName::new(" ++ quote d.name ++ ", name)),") = none :=
    EnumerationItem.read?_eq_none (c := '_') (by simp) (by decide)
      (getLast?_append_ne (by decide) (by decide))
  have hhead : EnumerationItem.read?
      ("pub fn from_name(name: &str) -> Result<Self, UnknownEnumName>" ++ " \x7b") =
        some .lookup := by decide
  have hmatch : EnumerationItem.read? ("match name" ++ " \x7b") = none := by decide
  rw [Definition.lookupLines, enumerationItems_cons_of_none hdescription, enumerationItems_block,
    enumerationItems_block, enumerationItems_append, hmembers, hhead, hmatch,
    enumerationItems_cons_of_none hother]
  simp [enumerationItems]

theorem read?_implementation (start name : String) :
    EnumerationItem.read? ("impl " ++ start ++ name ++ " \x7b") = none :=
  EnumerationItem.read?_eq_none (c := 'i') (by simp) (by decide)
    (getLast?_append_ne (by decide) (by decide))

theorem enumerationItems_implementation (start name : String) (body : List String) :
    enumerationItems (block ("impl " ++ start ++ name) body) = enumerationItems body := by
  rw [enumerationItems_block, read?_implementation]
  rfl

theorem enumerationItems_encodeImpl (name : String) :
    enumerationItems (encodeImpl name "buf" ["self.0.encode(buf)"]) = [] := by
  have himpl := enumerationItems_implementation "BinaryEncode for " name
    (block ("fn encode(&self, " ++ "buf" ++ ": &mut ::bytes::BytesMut) -> Result<(), CodecError>")
      ["self.0.encode(buf)"])
  have hbody : enumerationItems (block
      ("fn encode(&self, " ++ "buf" ++ ": &mut ::bytes::BytesMut) -> Result<(), CodecError>")
      ["self.0.encode(buf)"]) = [] := by decide
  exact himpl.trans hbody

theorem enumerationItems_decodeImpl (name : String) (r : EnumRepr) :
    enumerationItems (decodeImpl name "buf" [r.render ++ "::decode(buf).map(Self)"]) =
      [.decoding r.render] := by
  have himpl := enumerationItems_implementation "BinaryDecode for " name
    (block ("fn decode(" ++ "buf" ++ ": &mut ::bytes::Bytes) -> Result<Self, CodecError>")
      [r.render ++ "::decode(buf).map(Self)"])
  have hhead : EnumerationItem.read?
      ("fn decode(" ++ "buf" ++ ": &mut ::bytes::Bytes) -> Result<Self, CodecError>" ++ " \x7b") =
        none := by decide
  have hdecoding : EnumerationItem.read? (r.render ++ "::decode(buf).map(Self)") =
      some (.decoding r.render) := EnumerationItem.read?_decoding r
  refine himpl.trans ?_
  rw [enumerationItems_block, hhead, enumerationItems_cons, hdecoding]
  rfl

/-- **The text of an enumeration says its items**, in order, and nothing else. -/
theorem enumerationItems_enumerationLines (h : d.IsPlain) :
    enumerationItems d.enumerationLines = d.enumerationItems := by
  have hident : ∀ m ∈ d.members, ':' ∉ m.ident.toList := fun m hm => h.idents m hm ▸
    Naming.not_mem_constIdent (by decide) (by decide) (.inl ((h.members m hm).not_mem (by decide)))
  have hname : ∀ m ∈ d.members, '"' ∉ m.name.toList := fun m hm =>
    (h.members m hm).not_mem (by decide)
  have hdescription : EnumerationItem.read? ("/// `" ++ d.name ++ "` enumeration.") = none :=
    EnumerationItem.read?_eq_none (c := '/') (by simp) (by decide)
      (getLast?_append_ne (by decide) (by decide))
  have hderive : EnumerationItem.read?
      "#[derive(Debug, Clone, Copy, Default, PartialEq, Eq, Hash, PartialOrd, Ord)]" = none :=
    EnumerationItem.read?_eq_none (c := '#') rfl (by decide) (by decide)
  have hdeclaration : EnumerationItem.read?
      ("pub struct " ++ d.name ++ "(pub " ++ d.integerType ++ ");") =
        some (.declaration d.name d.integerType) :=
    EnumerationItem.read?_declaration (h.name.not_mem (by decide))
  have hempty : EnumerationItem.read? "" = none := by decide
  have hnames : enumerationItems Definition.nameLines = [] := by decide
  have himpl (body : List String) :
      enumerationItems (block ("impl " ++ d.name) body) = enumerationItems body :=
    enumerationItems_implementation "" d.name body
  have hdecode := enumerationItems_decodeImpl d.name (d.repr.getD .bits32)
  rw [← Definition.integerType] at hdecode
  simp only [Definition.enumerationLines, enumerationItems_append, enumerationItems_cons, hempty,
    hdescription, hderive, hdeclaration, himpl, hdecode, hnames, enumerationItems_encodeImpl,
    enumerationItems_constantLines hident, enumerationItems_tableLines hname,
    enumerationItems_lookupLines hname, Option.toList_none, Option.toList_some, List.nil_append,
    List.append_nil, List.append_assoc, List.cons_append, Definition.enumerationItems]

/-! ### Files -/

theorem oneLine_toString (value : Int) : OneLine (toString value) := by
  have hnat (n : Nat) : OneLine n.repr := by
    have hdigit {c : Char} (hc : c.isDigit = false) : c ∉ n.repr.toList := fun hmem =>
      Bool.false_ne_true (hc.symm.trans
        (Nat.isDigit_of_mem_toDigits (by decide) (by decide) (Nat.toList_repr ▸ hmem)))
    exact ⟨hdigit (by decide), hdigit (by decide)⟩
  cases value with
  | ofNat n => exact hnat n
  | negSucc n => exact oneLine_append.2 ⟨by decide, hnat (n + 1)⟩

theorem oneLine_render (r : EnumRepr) : OneLine r.render := by
  cases r <;> decide

theorem oneLines_constantLines (h : ∀ m ∈ d.members, OneLine m.ident) :
    OneLines d.constantLines := by
  rw [Definition.constantLines]
  split
  · exact oneLines_nil
  · refine oneLines_append.2 ⟨oneLines_map fun m hm => ?_, by decide⟩
    have hvalue : OneLine (": Self = Self(" ++ toString m.value ++ ");") :=
      oneLine_append.2 ⟨oneLine_append.2 ⟨by decide, oneLine_toString m.value⟩, by decide⟩
    exact oneLine_append.2 ⟨oneLine_append.2 ⟨by decide, h m hm⟩, hvalue⟩

theorem oneLines_tableLines (hname : ∀ m ∈ d.members, OneLine m.name)
    (h : ∀ m ∈ d.members, OneLine m.ident) : OneLines d.tableLines := by
  have hrows : OneLines (d.members.map Member.tableLine) := oneLines_map fun m hm => by
    simp only [Member.tableLine, oneLine_append, oneLine_quote (hname m hm), h m hm, and_true]
    decide
  exact oneLines_append.2 ⟨oneLines_append.2 ⟨by decide, oneLines_indent hrows⟩, by decide⟩

theorem oneLines_lookupLines (hd : OneLine d.name) (hname : ∀ m ∈ d.members, OneLine m.name)
    (h : ∀ m ∈ d.members, OneLine m.ident) : OneLines d.lookupLines := by
  have harms : OneLines (d.members.map Member.lookupLine) := oneLines_map fun m hm => by
    simp only [Member.lookupLine, oneLine_append, oneLine_quote (hname m hm), h m hm, and_true]
    decide
  have hother : OneLines ["_ => Err(UnknownEnumName::new(" ++ quote d.name ++ ", name)),"] := by
    simp only [oneLines_cons, oneLine_append, oneLine_quote hd, oneLines_nil, and_true]
    decide
  exact oneLines_cons.2 ⟨by decide, oneLines_block (by decide)
    (oneLines_block (by decide) (oneLines_append.2 ⟨harms, hother⟩))⟩

/-- Whether what an enumeration is made of has no line breaks. -/
structure IsUnbrokenEnumeration (d : Definition) : Prop where
  /-- Its name has none. -/
  name : OneLine d.name
  /-- The names and identifiers of its members have none. -/
  members : ∀ m ∈ d.members, OneLine m.name ∧ OneLine m.ident

theorem isUnbrokenEnumeration_of_isPlain (h : d.IsPlain) : IsUnbrokenEnumeration d where
  name := oneLine_of_isIdentifier h.name
  members m hm := by
    have hname := oneLine_of_isIdentifier (h.members m hm)
    exact ⟨hname, h.idents m hm ▸ oneLine_constIdent hname⟩

theorem oneLines_enumerationLines (h : IsUnbrokenEnumeration d) : OneLines d.enumerationLines := by
  have hd := h.name
  have hinteger : OneLine d.integerType := oneLine_render _
  have hname : ∀ m ∈ d.members, OneLine m.name := fun m hm => (h.members m hm).1
  have hident : ∀ m ∈ d.members, OneLine m.ident := fun m hm => (h.members m hm).2
  have hempty : OneLine "" := by decide
  have hnames : OneLines Definition.nameLines := by decide
  have himpl : OneLines (block ("impl " ++ d.name)
      (d.constantLines ++ d.tableLines ++ [""] ++ d.lookupLines ++ [""] ++ Definition.nameLines)) := by
    refine oneLines_block (oneLine_append.2 ⟨by decide, hd⟩) ?_
    simp only [oneLines_append, oneLines_cons, oneLines_nil, oneLines_constantLines hident,
      oneLines_tableLines hname hident, oneLines_lookupLines hd hname hident, hnames, hempty,
      and_self]
  have hencode : OneLines (encodeImpl d.name "buf" ["self.0.encode(buf)"]) :=
    oneLines_encodeImpl hd (by decide) (by decide)
  have hdecode : OneLines (decodeImpl d.name "buf" [d.integerType ++ "::decode(buf).map(Self)"]) :=
    oneLines_decodeImpl hd (by decide)
      (oneLines_cons.2 ⟨oneLine_append.2 ⟨hinteger, by decide⟩, oneLines_nil⟩)
  simp only [Definition.enumerationLines, oneLines_append, oneLines_cons, oneLines_nil,
    oneLine_append, hd, hinteger, himpl, hencode, hdecode, hempty, and_true, true_and]
  decide

theorem oneLines_flatMap_enumerationLines {ds : List Definition}
    (h : ∀ d ∈ ds, d.kind = .enumeration ∧ IsUnbrokenEnumeration d) :
    OneLines (ds.flatMap Definition.lines) := by
  intro line hline
  obtain ⟨d, hd, hline⟩ := List.mem_flatMap.1 hline
  rw [Definition.lines, (h d hd).1] at hline
  exact oneLines_enumerationLines (h d hd).2 line hline

theorem lines_enumerationFile {prelude : String} (hprelude : OneLine prelude)
    {ds : List Definition} (hlines : OneLines (ds.flatMap Definition.lines)) :
    Text.lines (enumerationFile prelude ds) =
      header (some prelude) ++ ds.flatMap Definition.lines :=
  (areLines_append.2 ⟨areLines_header hprelude.1, hlines.areLines⟩).lines_render

/-- **The file of enumerations says the items of each of them**, behind what its header says. -/
theorem enumerationItems_enumerationFile (prelude : String) {ds : List Definition}
    (h : ∀ d ∈ ds, d.kind = .enumeration ∧ d.IsPlain) :
    enumerationItems (Text.lines (enumerationFile prelude ds)) =
      enumerationItems (Text.lines (render (header (some prelude)))) ++
        ds.flatMap Definition.enumerationItems := by
  have hunbroken : OneLines (ds.flatMap Definition.lines) :=
    oneLines_flatMap_enumerationLines fun d hd =>
      ⟨(h d hd).1, isUnbrokenEnumeration_of_isPlain (h d hd).2⟩
  have hitems : enumerationItems (ds.flatMap Definition.lines) =
      ds.flatMap Definition.enumerationItems := by
    rw [enumerationItems, List.filterMap_flatMap]
    refine List.flatMap_congr fun d hd => ?_
    rw [Definition.lines, (h d hd).1]
    exact enumerationItems_enumerationLines (h d hd).2
  rw [enumerationFile, lines_render_append, enumerationItems_append, hunbroken.lines_render, hitems]

theorem enumerationItems_header {prelude : String} (h : OneLine prelude) :
    enumerationItems (Text.lines (render (header (some prelude)))) = [] := by
  have huse : EnumerationItem.read? ("use " ++ prelude ++ "::*;") = none :=
    EnumerationItem.read?_eq_none (c := 'u') (by simp) (by decide)
      (getLast?_append_ne (by decide) (by decide))
  have hothers : enumerationItems [marker, "", "#[allow(unused_imports)]"] = [] := by decide
  have hheader : header (some prelude) =
      [marker, "", "#[allow(unused_imports)]"] ++ ["use " ++ prelude ++ "::*;"] := rfl
  rw [(areLines_header h.1).lines_render, hheader, enumerationItems_append, hothers,
    enumerationItems_cons_of_none huse]
  rfl

end Source

end OpcWire
