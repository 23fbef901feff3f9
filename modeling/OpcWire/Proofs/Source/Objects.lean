import OpcWire.Proofs.Source.Registration

/-!
# What bodies of extension objects say about their encodings

The body of a definition gives the constant of its encoding, wherever it stands in a file
(`Source.mem_encodingConstants_objectFile`). If what the file is made of has no line breaks, so that
no line is torn, the file has no other bodies (`Source.encodingConstants_objectFile`).
-/

namespace OpcWire

namespace Source

/-! ### Bodies -/

theorem encodingConstants_cons_of_none {line : String} (h : implementedType? line = none)
    (rest : List String) : encodingConstants (line :: rest) = encodingConstants rest := by
  rw [encodingConstants, h]
  rfl

theorem encodingConstants_append_of_none {xs : List String}
    (h : ∀ line ∈ xs, implementedType? line = none) (ys : List String) :
    encodingConstants (xs ++ ys) = encodingConstants ys := by
  induction xs with
  | nil => rfl
  | cons line rest ih =>
    obtain ⟨hline, hrest⟩ := List.forall_mem_cons.1 h
    rw [List.cons_append, encodingConstants_cons_of_none hline, ih hrest]

/-- What stands in front of a body does not hide it. -/
theorem mem_encodingConstants_append {found : String × String} (xs : List String)
    {ys : List String} (h : found ∈ encodingConstants ys) : found ∈ encodingConstants (xs ++ ys) := by
  induction xs with
  | nil => exact h
  | cons line rest ih =>
    rw [List.cons_append, encodingConstants]
    exact List.mem_append_right _ ih

/-- The first lines of a body, up to the constant. -/
def bodyStart (d : Definition) : List String :=
  [ "impl ExtensionObjectBody for " ++ d.name ++ " \x7b",
    "    fn type_name(&self) -> &'static str \x7b",
    "        " ++ quote d.name,
    "    \x7d",
    "",
    "    fn encoding_id(&self) -> u32 \x7b",
    "        id::" ++ d.encodingConstant ]

theorem indentLine_of_ne {line : String} (h : line ≠ "") : indentLine line = "    " ++ line :=
  if_neg fun hempty => h (String.isEmpty_iff.1 hempty)

theorem indentLine_indentLine {line : String} (h : line ≠ "") :
    indentLine (indentLine line) = "        " ++ line := by
  have hne : "    " ++ line ≠ "" := ne_of_take_ne 1 (by simp)
  rw [indentLine_of_ne h, indentLine_of_ne hne, ← String.append_assoc]
  rfl

/-- The lines of a body are indented twice around what they say of the definition. -/
theorem bodyLines_eq (d : Definition) : ∃ rest, d.bodyLines = bodyStart d ++ rest := by
  have hquote : indentLine (indentLine (quote d.name)) = "        " ++ quote d.name :=
    indentLine_indentLine (ne_of_take_ne 1 (by simp [quote]))
  have hvalue : indentLine (indentLine ("id::" ++ d.encodingConstant)) =
      "        id::" ++ d.encodingConstant := by
    rw [indentLine_indentLine (ne_of_take_ne 1 (by simp)), ← String.append_assoc]
    rfl
  have hhead : "impl ExtensionObjectBody for " ++ d.name ++ " " ++ "\x7b" =
      "impl ExtensionObjectBody for " ++ d.name ++ " \x7b" := by
    have hopen : " " ++ "\x7b" = " \x7b" := by decide
    rw [String.append_assoc, hopen]
  have htype : indentLine ("fn type_name(&self) -> &'static str" ++ " " ++ "\x7b") =
      "    fn type_name(&self) -> &'static str \x7b" := by decide
  have hid : indentLine ("fn encoding_id(&self) -> u32" ++ " " ++ "\x7b") =
      "    fn encoding_id(&self) -> u32 \x7b" := by decide
  have hclose : indentLine "\x7d" = "    \x7d" := by decide
  unfold Definition.bodyLines bodyStart
  simp only [block, blockWith, indent, List.map_append, List.map_cons, List.map_nil,
    List.cons_append, List.nil_append, List.append_assoc, String.append_empty, hhead, htype, hquote,
    hclose, hid, hvalue]
  exact ⟨_, rfl⟩

theorem encodingConstant?_bodyStart (d : Definition) (rest : List String) :
    encodingConstant? (((bodyStart d).tail ++ rest).takeWhile (· ≠ "\x7d")) =
      some d.encodingConstant := by
  have hquote : "        " ++ quote d.name ≠ "\x7d" := ne_of_take_ne 1 (by simp)
  have hquote' : "        " ++ quote d.name ≠ "    fn encoding_id(&self) -> u32 \x7b" :=
    ne_of_take_ne 5 (by simp)
  have hvalue : "        id::" ++ d.encodingConstant ≠ "\x7d" := ne_of_take_ne 1 (by simp)
  have htake : ((bodyStart d).tail ++ rest).takeWhile (· ≠ "\x7d") =
      (bodyStart d).tail ++ rest.takeWhile (· ≠ "\x7d") := by
    refine List.takeWhile_append_of_pos ?_
    simp only [bodyStart, List.tail_cons, List.forall_mem_cons, decide_eq_true_eq]
    exact ⟨by decide, hquote, by decide, by decide, by decide, hvalue, nofun⟩
  have hdrop : ((bodyStart d).tail ++ rest.takeWhile (· ≠ "\x7d")).dropWhile
      (· ≠ "    fn encoding_id(&self) -> u32 \x7b") = "    fn encoding_id(&self) -> u32 \x7b" ::
        ("        id::" ++ d.encodingConstant) :: rest.takeWhile (· ≠ "\x7d") := by
    simp [bodyStart, hquote']
  rw [htake, encodingConstant?, hdrop]
  exact Naming.dropStart?_eq_some_iff.2 rfl

theorem encodingConstants_bodyStart (d : Definition) (rest : List String) :
    encodingConstants (bodyStart d ++ rest) =
      (d.name, d.encodingConstant) :: encodingConstants ((bodyStart d).tail ++ rest) := by
  have htype : implementedType? ("impl ExtensionObjectBody for " ++ d.name ++ " \x7b") =
      some d.name := between?_eq_some_iff.2 rfl
  have hcons : bodyStart d = ("impl ExtensionObjectBody for " ++ d.name ++ " \x7b") ::
      (bodyStart d).tail := rfl
  rw [hcons, List.cons_append, encodingConstants, htype]
  simp only [Option.bind_eq_bind, Option.bind_some, encodingConstant?_bodyStart, List.tail_cons]
  rfl

theorem objectLines_eq (d : Definition) :
    ∃ before after, d.objectLines = before ++ (bodyStart d ++ after) := by
  obtain ⟨rest, hrest⟩ := bodyLines_eq d
  unfold Definition.objectLines
  rw [hrest, List.append_assoc _ _ d.capabilityLines, List.append_assoc (bodyStart d)]
  exact ⟨_, _, rfl⟩

theorem oneLines_bodyStart {d : Definition} (hname : OneLine d.name) :
    OneLines (bodyStart d) := by
  have hconstant := oneLine_encodingConstant hname
  unfold bodyStart quote
  simp only [oneLines_cons, oneLine_append, hname, hconstant, oneLines_nil, and_true]
  decide

/-- **The body of a structure is found in the file of structures**, whatever else is there. -/
theorem mem_encodingConstants_objectFile (prelude : String) {ds : List Definition} {d : Definition}
    (hd : d ∈ ds) (hkind : d.kind = .object) (hname : Naming.IsIdentifier d.name) :
    (d.name, d.encodingConstant) ∈ encodingConstants (Text.lines (objectFile prelude ds)) := by
  obtain ⟨earlier, later, rfl⟩ := List.append_of_mem hd
  obtain ⟨before, after, hlines⟩ := objectLines_eq d
  have hdefinition : d.lines = before ++ (bodyStart d ++ after) := by
    rw [Definition.lines, hkind, hlines]
  have hfile : objectFile prelude (earlier ++ d :: later) =
      render ((header (some prelude) ++ messageCapabilityLines ++ earlier.flatMap Definition.lines ++
        before) ++ (bodyStart d ++ (after ++ later.flatMap Definition.lines))) := by
    rw [objectFile, List.flatMap_append, List.flatMap_cons, hdefinition]
    simp only [List.append_assoc]
  rw [hfile, lines_render_append, lines_render_append (bodyStart d),
    (oneLines_bodyStart (oneLine_of_isIdentifier hname)).lines_render]
  refine mem_encodingConstants_append _ ?_
  rw [encodingConstants_bodyStart]
  exact List.mem_cons_self

/-! ### Everything else -/

/-- Whether no line is the first one of a body. -/
def NoBodies (lines : List String) : Prop := ∀ line ∈ lines, implementedType? line = none

theorem implementedType?_eq_none {line : String}
    (h : line.toList.take 6 ≠ ['i', 'm', 'p', 'l', ' ', 'E']) : implementedType? line = none := by
  refine Option.eq_none_iff_forall_ne_some.2 fun name hname => h ?_
  rw [between?_eq_some_iff.1 hname]
  simp

@[simp] theorem noBodies_nil : NoBodies [] := nofun

@[simp] theorem noBodies_cons {line : String} {lines : List String} :
    NoBodies (line :: lines) ↔ implementedType? line = none ∧ NoBodies lines :=
  List.forall_mem_cons

@[simp] theorem noBodies_append {xs ys : List String} :
    NoBodies (xs ++ ys) ↔ NoBodies xs ∧ NoBodies ys :=
  List.forall_mem_append

theorem noBodies_indent (lines : List String) : NoBodies (indent lines) := by
  intro line hline
  obtain ⟨l, -, rfl⟩ := List.mem_map.1 hline
  refine implementedType?_eq_none ?_
  rw [indentLine]
  split
  · rename_i hempty
    rw [String.isEmpty_iff.1 hempty]
    decide
  · simp

theorem noBodies_blockWith {head tail : String} (body : List String)
    (hhead : implementedType? (head ++ "\x7b") = none) : NoBodies (blockWith head tail body) := by
  have htail : implementedType? ("\x7d" ++ tail) = none := implementedType?_eq_none (by simp)
  rw [blockWith, List.cons_append, noBodies_cons, noBodies_append, noBodies_cons]
  exact ⟨hhead, noBodies_indent body, htail, noBodies_nil⟩

theorem noBodies_header (prelude : Option String) : NoBodies (header prelude) := by
  cases prelude with
  | none => exact noBodies_cons.2 ⟨implementedType?_eq_none (by decide), noBodies_nil⟩
  | some path =>
    unfold header
    simp only [noBodies_cons]
    exact ⟨implementedType?_eq_none (by decide), implementedType?_eq_none (by decide),
      implementedType?_eq_none (by decide), implementedType?_eq_none (by simp), noBodies_nil⟩

theorem noBodies_messageCapabilityLines : NoBodies messageCapabilityLines := by
  intro line hline
  refine implementedType?_eq_none ?_
  revert line
  decide +kernel

/-- The lines of a definition in front of its body. -/
def linesBeforeBody (d : Definition) : List String :=
  ["", d.descriptionLine, "#[derive(Debug, Clone, Default, PartialEq)]"] ++ d.declarationLines ++
    [""] ++ d.encodeLines ++ [""] ++ d.decodeLines ++ [""]

theorem noBodies_linesBeforeBody (d : Definition) : NoBodies (linesBeforeBody d) := by
  have hempty : implementedType? "" = none := implementedType?_eq_none (by decide)
  have hdescription : implementedType? d.descriptionLine = none := by
    refine implementedType?_eq_none ?_
    unfold Definition.descriptionLine
    split <;> simp
  have hdeclaration : NoBodies d.declarationLines := by
    unfold Definition.declarationLines
    split
    · exact noBodies_cons.2 ⟨implementedType?_eq_none (by simp), noBodies_nil⟩
    · exact noBodies_blockWith _ (implementedType?_eq_none (by simp))
  have hencode : NoBodies d.encodeLines :=
    noBodies_blockWith _ (implementedType?_eq_none (by simp))
  have hdecode : NoBodies d.decodeLines :=
    noBodies_blockWith _ (implementedType?_eq_none (by simp))
  simp only [linesBeforeBody, noBodies_append, noBodies_cons, noBodies_nil, and_true]
  exact ⟨⟨⟨⟨⟨⟨⟨hempty, hdescription, implementedType?_eq_none (by decide)⟩, hdeclaration⟩, hempty⟩,
    hencode⟩, hempty⟩, hdecode⟩, hempty⟩

theorem noBodies_tail_bodyLines (d : Definition) : NoBodies d.bodyLines.tail := by
  rw [Definition.bodyLines, block, blockWith, List.cons_append, List.tail_cons]
  exact noBodies_append.2 ⟨noBodies_indent _,
    noBodies_cons.2 ⟨implementedType?_eq_none (by decide), noBodies_nil⟩⟩

theorem noBodies_capabilityLines (d : Definition) : NoBodies d.capabilityLines := by
  have hempty : implementedType? "" = none := implementedType?_eq_none (by decide)
  unfold Definition.capabilityLines
  split
  · exact noBodies_nil
  · split
    · exact noBodies_cons.2 ⟨hempty, noBodies_blockWith _ (implementedType?_eq_none (by simp))⟩
    · split
      · exact noBodies_cons.2 ⟨hempty, noBodies_blockWith _ (implementedType?_eq_none (by simp))⟩
      · exact noBodies_nil

theorem encodingConstants_objectLines (d : Definition) (rest : List String) :
    encodingConstants (d.objectLines ++ rest) =
      (d.name, d.encodingConstant) :: encodingConstants rest := by
  obtain ⟨tail, htail⟩ := bodyLines_eq d
  have hbody : NoBodies ((bodyStart d).tail ++ tail) := by
    have hbody := noBodies_tail_bodyLines d
    rwa [htail] at hbody
  have hlines : d.objectLines ++ rest =
      linesBeforeBody d ++ (bodyStart d ++ (tail ++ (d.capabilityLines ++ rest))) := by
    unfold Definition.objectLines linesBeforeBody
    rw [htail]
    simp only [List.append_assoc]
  rw [hlines, encodingConstants_append_of_none (noBodies_linesBeforeBody d),
    encodingConstants_bodyStart, ← List.append_assoc, encodingConstants_append_of_none hbody,
    encodingConstants_append_of_none (noBodies_capabilityLines d)]

/-! ### Lines that are not torn -/

/-- Whether what a definition is made of breaks no line, apart from its name. Bases and types stand
in the middle of lines. -/
structure IsUnbroken (d : Definition) : Prop where
  /-- The base has no line feed. -/
  base : ∀ b ∈ d.base, '\n' ∉ b.toList
  /-- The names and identifiers of fields have no line break. -/
  fields : ∀ f ∈ d.fields, OneLine f.name ∧ OneLine f.ident
  /-- The types of fields have no line feed. -/
  types : ∀ f ∈ d.fields, '\n' ∉ f.type.render.toList

theorem oneLine_context {owner : String} (howner : OneLine owner) {f : Definition.Field}
    (hf : OneLine f.name) : OneLine (f.context owner) := by
  unfold Definition.Field.context
  simp only [oneLine_append, oneLine_quote howner, oneLine_quote hf, and_true]
  decide

theorem oneLines_viewLines {function capability : String} (hfunction : OneLine function)
    (hcapability : OneLine capability) :
    OneLines (Definition.viewLines function capability) := by
  have hsome : OneLines ["Some(self)"] := oneLines_cons.2 ⟨by decide, oneLines_nil⟩
  unfold Definition.viewLines
  simp only [oneLines_append]
  refine ⟨⟨⟨by decide, oneLines_block ?_ hsome⟩, by decide⟩, oneLines_block ?_ hsome⟩ <;>
  · simp only [oneLine_append, hfunction, hcapability, and_true]
    decide

theorem oneLine_bufferName (d : Definition) : OneLine d.bufferName := by
  unfold Definition.bufferName
  split <;> decide

section FieldLines

variable {owner : String} (howner : OneLine owner) {f : Definition.Field} (hfield : OneLine f.name)
  (hident : OneLine f.ident)

include howner hfield hident

theorem oneLines_fieldEncodeLines : OneLines (f.encodeLines owner) := by
  unfold Definition.Field.encodeLines
  refine oneLines_cons.2 ⟨oneLine_append.2 ⟨by decide, hident⟩, oneLines_indent ?_⟩
  simp only [oneLines_cons, oneLine_append, oneLine_context howner hfield, oneLines_nil, and_true]
  decide

theorem oneLines_fieldDecodeLines : OneLines (f.decodeLines owner) := by
  unfold Definition.Field.decodeLines
  refine oneLines_cons.2 ⟨oneLine_append.2 ⟨hident, by decide⟩, oneLines_indent ?_⟩
  simp only [oneLines_cons, oneLine_append, oneLine_context howner hfield, oneLines_nil, and_true]
  decide

end FieldLines

section ObjectLines

variable {d : Definition} (hname : OneLine d.name)

include hname

theorem isLine_descriptionLine (h : IsUnbroken d) : IsLine d.descriptionLine := by
  unfold Definition.descriptionLine
  split
  · rename_i base hbase
    have hfront :
        '\n' ∉ ("/// `" ++ d.name ++ "` extension object, derived from `" ++ base).toList := by
      simp [hname.1, h.base base hbase]
    exact isLine_append hfront (by decide) (by decide)
  · have hfront : '\n' ∉ ("/// `" ++ d.name).toList := by simp [hname.1]
    exact isLine_append hfront (by decide) (by decide)

theorem areLines_declarationLines (h : IsUnbroken d) : AreLines d.declarationLines := by
  have hhead : '\n' ∉ ("pub struct " ++ d.name).toList := by simp [hname.1]
  unfold Definition.declarationLines
  split
  · exact areLines_cons.2 ⟨isLine_append hhead (by decide) (by decide), areLines_nil⟩
  · refine areLines_block hhead fun line hline => ?_
    obtain ⟨f, hf, rfl⟩ := List.mem_map.1 hline
    have hfront : '\n' ∉ ("pub " ++ f.ident ++ ": " ++ f.type.render).toList := by
      simp [(h.fields f hf).2.1, h.types f hf]
    exact isLine_append hfront (by decide) (by decide)

theorem oneLines_encodeLines (h : IsUnbroken d) : OneLines d.encodeLines := by
  refine oneLines_encodeImpl hname (oneLine_bufferName d)
    (oneLines_append.2 ⟨fun line hline => ?_, by decide⟩)
  obtain ⟨f, hf, hline⟩ := List.mem_flatMap.1 hline
  obtain ⟨hfield, hident⟩ := h.fields f hf
  exact oneLines_fieldEncodeLines hname hfield hident line hline

theorem oneLines_decodeLines (h : IsUnbroken d) : OneLines d.decodeLines := by
  refine oneLines_decodeImpl hname (oneLine_bufferName d)
    (oneLines_blockWith (by decide) (by decide) fun line hline => ?_)
  obtain ⟨f, hf, hline⟩ := List.mem_flatMap.1 hline
  obtain ⟨hfield, hident⟩ := h.fields f hf
  exact oneLines_fieldDecodeLines hname hfield hident line hline

theorem oneLines_bodyLines (hconstant : OneLine d.encodingConstant) : OneLines d.bodyLines := by
  have hviews {function capability : String} {condition : Prop} [Decidable condition]
      (hfunction : OneLine function) (hcapability : OneLine capability) :
      OneLines (if condition then Definition.viewLines function capability else []) := by
    split
    · exact oneLines_viewLines hfunction hcapability
    · exact oneLines_nil
  have htype : OneLines [quote d.name] := oneLines_cons.2 ⟨oneLine_quote hname, oneLines_nil⟩
  have hvalue : OneLines ["id::" ++ d.encodingConstant] :=
    oneLines_cons.2 ⟨oneLine_append.2 ⟨by decide, hconstant⟩, oneLines_nil⟩
  unfold Definition.bodyLines
  refine oneLines_block (oneLine_append.2 ⟨by decide, hname⟩) ?_
  simp only [oneLines_append]
  exact ⟨⟨⟨⟨oneLines_block (by decide) htype, by decide⟩, oneLines_block (by decide) hvalue⟩,
    hviews (by decide) (by decide)⟩, hviews (by decide) (by decide)⟩

theorem oneLines_headerLines {capability header ident : String} (hcapability : OneLine capability)
    (hheader : OneLine header) (hident : OneLine ident) :
    OneLines (d.headerLines capability header ident) := by
  unfold Definition.headerLines
  refine oneLines_append.2 ⟨by decide, oneLines_block ?_ (oneLines_append.2
    ⟨oneLines_append.2 ⟨oneLines_block ?_ ?_, by decide⟩, oneLines_block ?_ ?_⟩)⟩ <;>
  · simp only [oneLines_cons, oneLine_append, hname, hcapability, hheader, hident, oneLines_nil,
      and_true]
    decide

theorem oneLines_capabilityLines (h : IsUnbroken d) : OneLines d.capabilityLines := by
  unfold Definition.capabilityLines
  split
  · exact oneLines_nil
  · rename_i first rest hfields
    obtain ⟨-, hident⟩ := h.fields first (hfields ▸ List.mem_cons_self)
    split
    · exact oneLines_headerLines hname (by decide) (by decide) hident
    · split
      · exact oneLines_headerLines hname (by decide) (by decide) hident
      · exact oneLines_nil

end ObjectLines

theorem areLines_objectLines {d : Definition} (hline : OneLine d.name) (h : IsUnbroken d) :
    AreLines d.objectLines := by
  have hempty : IsLine "" := by decide
  have hderive : IsLine "#[derive(Debug, Clone, Default, PartialEq)]" := by decide
  have hdescription := isLine_descriptionLine hline h
  have hdeclaration := areLines_declarationLines hline h
  have hencode := (oneLines_encodeLines hline h).areLines
  have hdecode := (oneLines_decodeLines hline h).areLines
  have hbody := (oneLines_bodyLines hline (oneLine_encodingConstant hline)).areLines
  have hcapability := (oneLines_capabilityLines hline h).areLines
  simp only [Definition.objectLines, areLines_append, areLines_cons, areLines_nil, hempty, hderive,
    hdescription, hdeclaration, hencode, hdecode, hbody, hcapability, and_self]

theorem areLines_flatMap_lines {ds : List Definition}
    (hds : ∀ d ∈ ds, d.kind = .object ∧ OneLine d.name ∧ IsUnbroken d) :
    AreLines (ds.flatMap Definition.lines) := by
  intro line hline
  obtain ⟨d, hd, hline⟩ := List.mem_flatMap.1 hline
  obtain ⟨hkind, hname, hunbroken⟩ := hds d hd
  rw [Definition.lines, hkind] at hline
  exact areLines_objectLines hname hunbroken line hline

theorem encodingConstants_flatMap_lines {ds : List Definition} (hds : ∀ d ∈ ds, d.kind = .object) :
    encodingConstants (ds.flatMap Definition.lines) =
      ds.map fun d => (d.name, d.encodingConstant) := by
  induction ds with
  | nil => rfl
  | cons d rest ih =>
    obtain ⟨hkind, hrest⟩ := List.forall_mem_cons.1 hds
    have hdefinition : d.lines = d.objectLines := by rw [Definition.lines, hkind]
    rw [List.flatMap_cons, hdefinition, encodingConstants_objectLines, ih hrest]
    rfl

theorem lines_objectFile {prelude : String} (hprelude : '\n' ∉ prelude.toList)
    {ds : List Definition} (hlines : AreLines (ds.flatMap Definition.lines)) :
    Text.lines (objectFile prelude ds) =
      header (some prelude) ++ messageCapabilityLines ++ ds.flatMap Definition.lines :=
  (areLines_append.2 ⟨areLines_append.2 ⟨areLines_header hprelude, by decide +kernel⟩,
    hlines⟩).lines_render

/-- **The file of structures has a body for each of them**, in order, and no others, if no line is
torn. -/
theorem encodingConstants_objectFile {prelude : String} (hprelude : '\n' ∉ prelude.toList)
    {ds : List Definition} (hds : ∀ d ∈ ds, d.kind = .object ∧ Naming.IsIdentifier d.name ∧
      IsUnbroken d) :
    encodingConstants (Text.lines (objectFile prelude ds)) =
      ds.map fun d => (d.name, d.encodingConstant) := by
  have hlines := areLines_flatMap_lines fun d hd =>
    ⟨(hds d hd).1, oneLine_of_isIdentifier (hds d hd).2.1, (hds d hd).2.2⟩
  rw [lines_objectFile hprelude hlines, encodingConstants_append_of_none,
    encodingConstants_flatMap_lines fun d hd => (hds d hd).1]
  exact noBodies_append.2 ⟨noBodies_header _, noBodies_messageCapabilityLines⟩

end Source

end OpcWire
