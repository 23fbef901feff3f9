import OpcWire.Proofs.Source.Items
import OpcWire.Proofs.Source.Unbroken

/-!
# Constants of enumerations

The implementation of an enumeration defines a constant for each member, and one more for the table
of members, which is always called `VALUES`. When a dictionary is accepted, the constants of members
are different from each other, but they have not been compared with the name of the table: all
constants of an enumeration are different if and only if no member is converted to that name
(`associated_constants_distinct_iff`). An enumeration with such a member is accepted all the same
(`associated_constants_collide_setting`).
-/

namespace OpcWire

namespace Definition

variable (d : Definition)

/-- The names of the constants that the implementation of an enumeration defines. -/
def constantNames : List String := d.members.map (·.ident) ++ ["VALUES"]

/-- What stands behind the keywords on the lines that define constants. -/
def constantTexts : List String :=
  (d.members.map fun m => m.ident ++ ": Self = Self(" ++ toString m.value ++ ");") ++
    ["VALUES: &'static [(&'static str, Self)] = &["]

end Definition

namespace Source

open Definition (Member)

variable {d : Definition} {line start : String} {lines : List String}

/-! ### Lines that define constants -/

/-- What an indented line begins with begins it behind the indentation. -/
theorem dropStart?_indentLine (hstart : start ≠ "") :
    Naming.dropStart? ("    " ++ start) (indentLine line) = Naming.dropStart? start line := by
  refine Option.ext fun rest => ?_
  rw [Naming.dropStart?_eq_some_iff, Naming.dropStart?_eq_some_iff, indentLine]
  split
  · rename_i hempty
    rw [String.isEmpty_iff.1 hempty]
    refine iff_of_false (fun heq => ?_) fun heq => hstart ?_
    · simpa using congrArg String.toList heq
    · exact (String.append_eq_empty_iff.1 heq.symm).1
  · rw [String.append_assoc, String.append_right_inj]

theorem filterMap_indent (hstart : start ≠ "") :
    (indent lines).filterMap (Naming.dropStart? ("    " ++ start)) =
      lines.filterMap (Naming.dropStart? start) := by
  rw [indent, List.filterMap_map]
  exact List.filterMap_congr fun line _ => dropStart?_indentLine hstart

/-- An indented line is empty or begins with a blank. -/
theorem filterMap_indent_eq_nil (hstart : start ≠ "") (hhead : start.toList.head? ≠ some ' ') :
    (indent lines).filterMap (Naming.dropStart? start) = [] := by
  have hne (rest : String) : start ++ rest ≠ "" := fun heq =>
    hstart (String.append_eq_empty_iff.1 heq).1
  have hfirst (rest : String) : (start ++ rest).toList.head? ≠ some ' ' := by
    rwa [String.toList_append, List.head?_append_of_ne_nil _ (mt String.toList_eq_nil_iff.1 hstart)]
  refine List.filterMap_eq_nil_iff.2 fun line hline => Naming.dropStart?_eq_none_iff.2 fun rest => ?_
  obtain ⟨l, -, rfl⟩ := List.mem_map.1 hline
  exact indentLine_ne (hne rest) (hfirst rest)

theorem filterMap_block {head : String} {body : List String} (h : beginsItem head = true) :
    (block head body).filterMap (Naming.dropStart? "    pub const ") =
      body.filterMap (Naming.dropStart? "pub const ") := by
  -- the head begins with a letter, so it is not indented
  have hopen : Naming.dropStart? "    pub const " (head ++ " \x7b") = none := by
    refine Naming.dropStart?_eq_none_iff.2 fun rest heq => ?_
    have hbegins := beginsItem_append (b := " \x7b") h
    rw [heq] at hbegins
    simp [beginsItem] at hbegins
  have hclose : ["\x7d"].filterMap (Naming.dropStart? "    pub const ") = [] := by decide
  have hindent : "    pub const " = "    " ++ "pub const " := by decide
  rw [block_eq, List.filterMap_cons_none hopen, List.filterMap_append, hclose, List.append_nil,
    hindent, filterMap_indent (by decide)]

theorem filterMap_block_eq_nil {head : String} {body : List String}
    (h : (head ++ " \x7b").toList.take 5 ≠ "pub c".toList) :
    (block head body).filterMap (Naming.dropStart? "pub const ") = [] := by
  have hopen : Naming.dropStart? "pub const " (head ++ " \x7b") = none :=
    dropStart?_eq_none_of_take 5 h (by decide)
  have hclose : ["\x7d"].filterMap (Naming.dropStart? "pub const ") = [] := by decide
  rw [block_eq, List.filterMap_cons_none hopen, List.filterMap_append, hclose, List.append_nil,
    filterMap_indent_eq_nil (by decide) (by decide)]

theorem filterMap_constantLines (d : Definition) :
    d.constantLines.filterMap (Naming.dropStart? "pub const ") =
      d.members.map fun m => m.ident ++ ": Self = Self(" ++ toString m.value ++ ");" := by
  have hmember (m : Member) : Naming.dropStart? "pub const " m.constantLine =
      some (m.ident ++ ": Self = Self(" ++ toString m.value ++ ");") := by
    rw [Naming.dropStart?_eq_some_iff]
    simp only [Member.constantLine, String.append_assoc]
    rfl
  have hempty : [""].filterMap (Naming.dropStart? "pub const ") = [] := by decide
  rw [Definition.constantLines]
  split
  · rename_i hnil
    rw [List.isEmpty_iff.1 hnil]
    rfl
  · rw [List.filterMap_append, hempty, List.append_nil, List.filterMap_map, ← List.filterMap_eq_map]
    exact List.filterMap_congr fun m _ => hmember m

theorem filterMap_tableLines (d : Definition) :
    d.tableLines.filterMap (Naming.dropStart? "pub const ") =
      ["VALUES: &'static [(&'static str, Self)] = &["] := by
  have hopen : ["/// Members in declaration order.",
      "pub const VALUES: &'static [(&'static str, Self)] = &["].filterMap
        (Naming.dropStart? "pub const ") = ["VALUES: &'static [(&'static str, Self)] = &["] := by
    decide
  have hclose : ["];"].filterMap (Naming.dropStart? "pub const ") = [] := by decide
  rw [Definition.tableLines, List.filterMap_append, List.filterMap_append, hopen, hclose,
    filterMap_indent_eq_nil (by decide) (by decide)]
  rfl

theorem filterMap_enumerationLines (d : Definition) :
    d.enumerationLines.filterMap (Naming.dropStart? "    pub const ") = d.constantTexts := by
  have hempty : [""].filterMap (Naming.dropStart? "pub const ") = [] := by decide
  have hempty' : [""].filterMap (Naming.dropStart? "    pub const ") = [] := by decide
  have hnames : Definition.nameLines.filterMap (Naming.dropStart? "pub const ") = [] := by
    rw [Definition.nameLines, List.filterMap_cons_none (by decide),
      filterMap_block_eq_nil (by simp)]
  have hlookup : d.lookupLines.filterMap (Naming.dropStart? "pub const ") = [] := by
    rw [Definition.lookupLines, List.filterMap_cons_none (by decide),
      filterMap_block_eq_nil (by simp)]
  have hfront : ["", "/// `" ++ d.name ++ "` enumeration.",
      "#[derive(Debug, Clone, Copy, Default, PartialEq, Eq, Hash, PartialOrd, Ord)]",
      "pub struct " ++ d.name ++ "(pub " ++ d.integerType ++ ");", ""].filterMap
        (Naming.dropStart? "    pub const ") = [] := by
    refine List.filterMap_eq_nil_iff.2 fun line hline => dropStart?_eq_none_of_take 1 ?_ (by decide)
    simp only [List.mem_cons, List.not_mem_nil, or_false] at hline
    rcases hline with rfl | rfl | rfl | rfl | rfl <;> simp
  have hencode : (encodeImpl d.name "buf" ["self.0.encode(buf)"]).filterMap
      (Naming.dropStart? "    pub const ") = [] := by
    rw [encodeImpl, filterMap_block (beginsItem_append (by decide)),
      filterMap_block_eq_nil (by simp)]
  have hdecode : (decodeImpl d.name "buf" [d.integerType ++ "::decode(buf).map(Self)"]).filterMap
      (Naming.dropStart? "    pub const ") = [] := by
    rw [decodeImpl, filterMap_block (beginsItem_append (by decide)),
      filterMap_block_eq_nil (by simp)]
  simp only [Definition.enumerationLines, List.filterMap_append, hfront, hempty', hencode, hdecode,
    List.nil_append, List.append_nil]
  rw [filterMap_block (beginsItem_append (by decide))]
  simp only [List.filterMap_append, filterMap_constantLines, filterMap_tableLines, hempty, hlookup,
    hnames, List.append_nil, Definition.constantTexts]

/-! ### Names of constants -/

theorem constantName?_eq_none (h : line.toList.take 5 ≠ "pub c".toList) :
    constantName? line = none := by
  rw [constantName?, dropStart?_eq_none_of_take 5 h (by decide)]
  rfl

theorem constantName?_constantLine {m : Member} (h : ':' ∉ m.ident.toList) :
    constantName? (unindented m.constantLine) = some m.ident := by
  have hline : m.constantLine = "pub const " ++ (m.ident ++ String.singleton ':' ++
      (" Self = Self(" ++ toString m.value ++ ");")) := by
    have hcolon : ": Self = Self(" = String.singleton ':' ++ " Self = Self(" := by decide
    have hplain : m.constantLine = "pub const " ++ m.ident ++
        (": Self = Self(" ++ toString m.value ++ ");") := rfl
    rw [hplain, hcolon]
    simp only [String.append_assoc]
  rw [hline, unindented_eq_self (by simp), constantName?, Naming.dropStart?_eq_some_iff.2 rfl,
    Option.bind_some, cut?_eq_some_iff.2 ⟨rfl, h⟩]
  rfl

theorem constantName?_unindented_eq_none {c : Char} (hfirst : line.toList.head? = some c)
    (hc : c ≠ ' ' ∧ c ≠ 'p') : constantName? (unindented line) = none := by
  rw [unindented_eq_self (by simp [hfirst, hc.1])]
  refine constantName?_eq_none fun htake => hc.2 ?_
  have hhead := congrArg List.head? htake
  rw [List.head?_take, if_neg (by decide), hfirst] at hhead
  exact Option.some.inj hhead

theorem filterMap_constantName?_members {write : Member → String} {c : Char}
    (h : ∀ m, (write m).toList.head? = some c) (hc : c ≠ ' ' ∧ c ≠ 'p') (members : List Member) :
    ((members.map write).map unindented).filterMap constantName? = [] := by
  refine List.filterMap_eq_nil_iff.2 fun line hline => ?_
  obtain ⟨_, hwritten, rfl⟩ := List.mem_map.1 hline
  obtain ⟨m, -, rfl⟩ := List.mem_map.1 hwritten
  exact constantName?_unindented_eq_none (h m) hc

theorem filterMap_constantName?_block {head : String} {body : List String}
    (hspace : head.toList.head? ≠ some ' ') (hne : head ≠ "")
    (hhead : (head ++ " \x7b").toList.take 5 ≠ "pub c".toList) :
    ((block head body).map unindented).filterMap constantName? =
      (body.map unindented).filterMap constantName? := by
  have hclose : ["\x7d"].filterMap constantName? = [] := by decide
  rw [map_unindented_block hspace hne, List.cons_append,
    List.filterMap_cons_none (constantName?_eq_none hhead), List.filterMap_append, hclose,
    List.append_nil]

theorem filterMap_constantName?_constantLines (h : ∀ m ∈ d.members, ':' ∉ m.ident.toList) :
    (d.constantLines.map unindented).filterMap constantName? = d.members.map (·.ident) := by
  have hempty : ([""].map unindented).filterMap constantName? = [] := by decide
  rw [Definition.constantLines]
  split
  · rename_i hnil
    rw [List.isEmpty_iff.1 hnil]
    rfl
  · rw [List.map_append, List.filterMap_append, hempty, List.append_nil, List.map_map,
      List.filterMap_map, ← List.filterMap_eq_map]
    refine List.filterMap_congr fun m hm => ?_
    rw [Function.comp_apply, Function.comp_apply, constantName?_constantLine (h m hm)]
    rfl

theorem filterMap_constantName?_tableLines (d : Definition) :
    (d.tableLines.map unindented).filterMap constantName? = ["VALUES"] := by
  have hopen : (["/// Members in declaration order.",
      "pub const VALUES: &'static [(&'static str, Self)] = &["].map unindented).filterMap
        constantName? = ["VALUES"] := by decide +kernel
  have hclose : (["];"].map unindented).filterMap constantName? = [] := by decide
  have hrows : ((d.members.map Member.tableLine).map unindented).filterMap constantName? = [] :=
    filterMap_constantName?_members (c := '(') (by simp [Member.tableLine]) (by decide) _
  rw [Definition.tableLines, List.map_append, List.map_append, List.filterMap_append,
    List.filterMap_append, hopen, map_unindented_indent, hrows, hclose]
  rfl

theorem filterMap_constantName?_lookupLines (d : Definition) :
    (d.lookupLines.map unindented).filterMap constantName? = [] := by
  have hdescription : constantName? (unindented "/// Look up a member by its dictionary name.") =
      none := constantName?_unindented_eq_none (c := '/') rfl (by decide)
  have harms : ((d.members.map Member.lookupLine).map unindented).filterMap constantName? = [] :=
    filterMap_constantName?_members (c := '"') (by simp [Member.lookupLine, quote]) (by decide) _
  have hother : constantName? (unindented
      ("_ => Err(UnknownEnumName::new(" ++ quote d.name ++ ", name)),")) = none :=
    constantName?_unindented_eq_none (c := '_') (by simp) (by decide)
  rw [Definition.lookupLines, List.map_cons, List.filterMap_cons_none hdescription,
    filterMap_constantName?_block (by decide) (by decide) (by simp),
    filterMap_constantName?_block (by decide) (by decide) (by simp), List.map_append,
    List.filterMap_append, harms, List.map_singleton, List.filterMap_cons_none hother]
  rfl

theorem filterMap_constantName?_nameLines :
    (Definition.nameLines.map unindented).filterMap constantName? = [] := by
  have hdescription : constantName? (unindented
      "/// Dictionary name of this value, if it is a declared member.") = none :=
    constantName?_unindented_eq_none (c := '/') rfl (by decide)
  have hsearch : constantName? (unindented
      "Self::VALUES.iter().find(|(_, v)| *v == self).map(|(n, _)| *n)") = none :=
    constantName?_unindented_eq_none (c := 'S') rfl (by decide)
  rw [Definition.nameLines, List.map_cons, List.filterMap_cons_none hdescription,
    filterMap_constantName?_block (by decide) (by decide) (by simp), List.map_singleton,
    List.filterMap_cons_none hsearch]
  rfl

theorem filterMap_constantName? (h : ∀ m ∈ d.members, ':' ∉ m.ident.toList) :
    ((d.constantLines ++ d.tableLines ++ [""] ++ d.lookupLines ++ [""] ++
      Definition.nameLines).map unindented).filterMap constantName? = d.constantNames := by
  have hempty : ([""].map unindented).filterMap constantName? = [] := by decide
  simp only [List.map_append, List.filterMap_append, filterMap_constantName?_constantLines h,
    filterMap_constantName?_tableLines, filterMap_constantName?_lookupLines,
    filterMap_constantName?_nameLines, hempty, List.append_nil, Definition.constantNames]

/-! ### Implementations -/

variable {typeName : String} {ds : List Definition}

theorem implementedConstants?_eq_none {i : Item} (h : i.head ≠ "impl " ++ typeName ++ " \x7b") :
    implementedConstants? typeName i = none :=
  if_neg h

theorem implementedConstants?_implementation (body : List String) :
    implementedConstants? typeName ⟨"impl " ++ typeName ++ " \x7b", body⟩ =
      some (body.filterMap constantName?) :=
  if_pos rfl

theorem associatedConstants_enumerationLines (htype : ' ' ∉ typeName.toList)
    (h : ∀ m ∈ d.members, ':' ∉ m.ident.toList) (ys : List String) :
    associatedConstants typeName (d.enumerationLines ++ ys) =
      (if d.name = typeName then [d.constantNames] else []) ++ associatedConstants typeName ys := by
  obtain ⟨others, hothers, hitems⟩ := items_enumerationLines d
  have hdeclaration : "pub struct " ++ d.name ++ "(pub " ++ d.integerType ++ ");" ≠
      "impl " ++ typeName ++ " \x7b" := ne_of_take_ne 1 (by simp)
  have himplementation : "impl " ++ d.name ++ " \x7b" = "impl " ++ typeName ++ " \x7b" ↔
      d.name = typeName := by
    rw [String.append_left_inj, String.append_right_inj]
  -- the implementation of a capability has a blank where the name of a type has none
  have hcapability : ∀ i ∈ others, implementedConstants? typeName i = none := by
    intro i hi
    obtain ⟨capability, -, hhead⟩ := hothers i hi
    refine implementedConstants?_eq_none fun heq => htype ?_
    have hname : capability ++ " for " ++ d.name = typeName := by
      rw [hhead, implementationHead] at heq
      refine (String.append_right_inj "impl ").1 ((String.append_left_inj " \x7b").1 ?_)
      simpa only [String.append_assoc] using heq
    simp [← hname]
  rw [associatedConstants, hitems,
    List.filterMap_cons_none (implementedConstants?_eq_none hdeclaration)]
  by_cases hname : d.name = typeName
  · rw [hname, List.filterMap_cons_some (implementedConstants?_implementation _),
      List.filterMap_append, List.filterMap_eq_nil_iff.2 hcapability, filterMap_constantName? h,
      if_pos rfl]
    rfl
  · rw [List.filterMap_cons_none (implementedConstants?_eq_none (mt himplementation.1 hname)),
      List.filterMap_append, List.filterMap_eq_nil_iff.2 hcapability, if_neg hname]
    rfl

theorem associatedConstants_flatMap_lines (htype : ' ' ∉ typeName.toList)
    (h : ∀ d ∈ ds, d.kind = .enumeration ∧ ∀ m ∈ d.members, ':' ∉ m.ident.toList) :
    associatedConstants typeName (ds.flatMap Definition.lines) =
      (ds.filter (·.name == typeName)).map Definition.constantNames := by
  induction ds with
  | nil => rfl
  | cons d rest ih =>
    obtain ⟨⟨hkind, hd⟩, hrest⟩ := List.forall_mem_cons.1 h
    have hlines : d.lines = d.enumerationLines := by rw [Definition.lines, hkind]
    rw [List.flatMap_cons, hlines, associatedConstants_enumerationLines htype hd, ih hrest,
      List.filter_cons]
    by_cases hname : d.name = typeName <;> simp [hname]

theorem associatedConstants_enumerationFile {prelude : String} (hprelude : OneLine prelude)
    (hlines : OneLines (ds.flatMap Definition.lines)) (htype : ' ' ∉ typeName.toList)
    (h : ∀ d ∈ ds, d.kind = .enumeration ∧ ∀ m ∈ d.members, ':' ∉ m.ident.toList) :
    associatedConstants typeName (Text.lines (enumerationFile prelude ds)) =
      (ds.filter (·.name == typeName)).map Definition.constantNames := by
  have huse : "use " ++ prelude ++ "::*;" ≠ "impl " ++ typeName ++ " \x7b" :=
    ne_of_take_ne 1 (by simp)
  rw [← associatedConstants_flatMap_lines htype h, lines_enumerationFile hprelude hlines,
    associatedConstants, items_header, List.filterMap_cons_none (implementedConstants?_eq_none huse),
    associatedConstants]

end Source

namespace Dictionary

variable {d : Dictionary} {ds : List Definition} {a : Definition}

namespace EnumeratedType

variable (e : EnumeratedType)

/-- The names of the constants of an enumerated type: those of its members, and that of the
table. -/
def constantNames : List String := (e.members.map fun m => Naming.constIdent m.name) ++ ["VALUES"]

/-- What stands behind the keywords where the constants of an enumerated type are defined. -/
def constantTexts : List String :=
  (e.members.map fun m => Naming.constIdent m.name ++ ": Self = Self(" ++ toString m.value ++ ");") ++
    ["VALUES: &'static [(&'static str, Self)] = &["]

variable {e}

theorem Defines.constantNames (h : e.Defines a) : a.constantNames = e.constantNames := by
  rw [Definition.constantNames, EnumeratedType.constantNames, h.members, List.map_map]
  rfl

theorem Defines.constantTexts (h : e.Defines a) : a.constantTexts = e.constantTexts := by
  rw [Definition.constantTexts, EnumeratedType.constantTexts, h.members, List.map_map]
  rfl

theorem nodup_constantNames_iff (h : (e.members.map fun m => Naming.constIdent m.name).Nodup) :
    e.constantNames.Nodup ↔ ∀ m ∈ e.members, Naming.constIdent m.name ≠ "VALUES" := by
  rw [EnumeratedType.constantNames, ← List.concat_eq_append, List.nodup_concat, and_iff_left h]
  simp

end EnumeratedType

/-- Whether the names of enumerated types are identifiers, and those of members can be told from
what stands behind them. -/
structure ConstantsPlain (d : Dictionary) : Prop where
  /-- The names of types are identifiers. -/
  types : ∀ e ∈ d.enumerations, Naming.IsIdentifier e.name
  /-- The names of members have no line breaks and no colons. -/
  members : ∀ e ∈ d.enumerations, ∀ m ∈ e.members, Source.OneLine m.name ∧ ':' ∉ m.name.toList

namespace ConstantsPlain

variable (hd : d.ConstantsPlain) (h : List.Forall₂ EnumeratedType.Defines d.enumerations ds)

include hd h

theorem oneLines : Source.OneLines (ds.flatMap Definition.lines) := by
  refine Source.oneLines_flatMap_enumerationLines fun a ha => ?_
  obtain ⟨e, he, hdefines⟩ := exists_left_of_forall₂ h ha
  exact ⟨hdefines.kind, hdefines.isUnbroken (Source.oneLine_of_isIdentifier (hd.types e he))
    fun m hm => (hd.members e he m hm).1⟩

theorem notMem_colon : ∀ a ∈ ds, a.kind = .enumeration ∧ ∀ m ∈ a.members, ':' ∉ m.ident.toList := by
  intro a ha
  obtain ⟨e, he, hdefines⟩ := exists_left_of_forall₂ h ha
  refine ⟨hdefines.kind, ?_⟩
  rw [hdefines.members]
  intro m hm
  obtain ⟨n, hn, rfl⟩ := List.mem_map.1 hm
  exact Naming.not_mem_constIdent (by decide) (by decide) (.inl (hd.members e he n hn).2)

end ConstantsPlain

theorem associatedConstants_enumerationFile (h : d.enumerationDefinitions = .ok ds)
    (hd : d.ConstantsPlain) {prelude : String} (hprelude : Source.OneLine prelude)
    {e : EnumeratedType} (he : e ∈ d.enumerations) :
    Source.associatedConstants e.name (Text.lines (Source.enumerationFile prelude ds)) =
      [e.constantNames] := by
  obtain ⟨hfaithful, hdefines⟩ := enumerationDefinitions_eq_ok_iff.1 h
  obtain ⟨a, ha, hea⟩ := exists_right_of_forall₂ hdefines he
  have hnames : ds.map (·.name) = d.enumerations.map (·.name) :=
    map_eq_map_of_forall₂ hdefines fun e a hea => hea.name
  have hfilter : ds.filter (·.name == e.name) = [a] := by
    rw [← hea.name]
    exact filter_eq_singleton_of_nodup (hnames ▸ hfaithful.distinct) ha
  rw [Source.associatedConstants_enumerationFile hprelude (hd.oneLines hdefines)
    ((hd.types e he).not_mem (by decide)) (hd.notMem_colon hdefines), hfilter, List.map_singleton,
    hea.constantNames]

end Dictionary

/-- **The constants of an enumeration are different if and only if no member has the constant of the
table**, which is not checked. -/
theorem associated_constants_distinct_iff (d : Dictionary) (ds : List Definition)
    (h : d.enumerationDefinitions = .ok ds) :
    List.Forall₂ (fun e a => a.name = e.name ∧
        a.enumerationLines.filterMap (Naming.dropStart? "    pub const ") = e.constantTexts)
      d.enumerations ds ∧
    (d.ConstantsPlain → ∀ prelude, Source.OneLine prelude → ∀ e ∈ d.enumerations,
      Source.associatedConstants e.name (Text.lines (Source.enumerationFile prelude ds)) =
        [e.constantNames]) ∧
    ∀ e ∈ d.enumerations, (e.members.map fun m => Naming.constIdent m.name).Nodup ∧
      (e.constantNames.Nodup ↔ ∀ m ∈ e.members, Naming.constIdent m.name ≠ "VALUES") := by
  obtain ⟨hfaithful, hdefines⟩ := Dictionary.enumerationDefinitions_eq_ok_iff.1 h
  refine ⟨hdefines.imp fun e a hea => ?_, fun hplain prelude hprelude e he => ?_, fun e he => ?_⟩
  · rw [Source.filterMap_enumerationLines, hea.constantTexts]
    exact ⟨hea.name, rfl⟩
  · exact Dictionary.associatedConstants_enumerationFile h hplain hprelude he
  · have hnodup := (hfaithful.types e he).constants
    exact ⟨hnodup, Dictionary.EnumeratedType.nodup_constantNames_iff hnodup⟩

/-- A dictionary with one enumerated type of 8 bits. -/
def singleEnumeration (e : Dictionary.EnumeratedType) : Dictionary := ⟨"urn:single", [e], []⟩

theorem exists_definitions_singleEnumeration {e : Dictionary.EnumeratedType}
    (hlength : e.lengthInBits = 8) (hvalues : ∀ m ∈ e.members, 0 ≤ m.value ∧ m.value ≤ 255)
    (hconstants : (e.members.map fun m => Naming.constIdent m.name).Nodup) :
    ∃ ds, (singleEnumeration e).enumerationDefinitions = .ok ds := by
  have hcovers : IsCoveringWidth 8 8 :=
    ((EnumRepr.ofBits?_eq_some_iff (r := .bits8)).1 (by decide)).2
  have hfaithful : e.IsFaithful :=
    ⟨by omega, by omega, fun w hw => (hlength ▸ hw).unique hcovers ▸ hvalues, hconstants⟩
  exact Dictionary.EnumerationsFaithful.exists_definitions
    ⟨List.nodup_singleton _, List.forall_mem_singleton.2 hfaithful⟩

/-- Colours, one of which is called almost like the table. -/
def palette : Dictionary.EnumeratedType := ⟨"Palette", 8, [⟨"DarkRed", 3⟩, ⟨"Value", 1⟩]⟩

theorem associated_constants_distinct_iff_palette :
    ∃ ds, (singleEnumeration palette).enumerationDefinitions = .ok ds ∧
      Source.associatedConstants "Palette"
        (Text.lines (Source.enumerationFile "crate::prelude" ds)) =
          [["DARK_RED", "VALUE", "VALUES"]] ∧
      ["DARK_RED", "VALUE", "VALUES"].Nodup := by
  obtain ⟨ds, hds⟩ := exists_definitions_singleEnumeration (e := palette) rfl (by decide)
    (by decide +kernel)
  obtain ⟨-, hread, hdistinct⟩ := associated_constants_distinct_iff _ ds hds
  have hplain : (singleEnumeration palette).ConstantsPlain := ⟨by decide, by decide⟩
  have hnames : palette.constantNames = ["DARK_RED", "VALUE", "VALUES"] := by decide +kernel
  refine ⟨ds, hds, ?_, ?_⟩
  · rw [← hnames]
    exact hread hplain "crate::prelude" (by decide) palette (List.mem_singleton_self _)
  · rw [← hnames]
    exact (hdistinct palette (List.mem_singleton_self _)).2.2 (by decide +kernel)

/-- Settings, one of which is called like the table. -/
def setting : Dictionary.EnumeratedType := ⟨"Setting", 8, [⟨"Values", 0⟩, ⟨"Limits", 1⟩]⟩

/-- Two constants of the settings have one name, and they are accepted. -/
theorem associated_constants_collide_setting :
    ∃ ds, (singleEnumeration setting).enumerationDefinitions = .ok ds ∧
      Source.associatedConstants "Setting"
        (Text.lines (Source.enumerationFile "crate::prelude" ds)) =
          [["VALUES", "LIMITS", "VALUES"]] ∧
      ¬ ["VALUES", "LIMITS", "VALUES"].Nodup := by
  obtain ⟨ds, hds⟩ := exists_definitions_singleEnumeration (e := setting) rfl (by decide)
    (by decide +kernel)
  have hplain : (singleEnumeration setting).ConstantsPlain := ⟨by decide, by decide⟩
  have hnames : setting.constantNames = ["VALUES", "LIMITS", "VALUES"] := by decide +kernel
  refine ⟨ds, hds, ?_, by decide⟩
  rw [← hnames]
  exact Dictionary.associatedConstants_enumerationFile hds hplain (by decide) (e := setting)
    (List.mem_singleton_self setting)

end OpcWire
