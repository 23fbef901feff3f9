import OpcWire.Proofs.Source.Visits

/-!
# What the text of structures says

The declaration of a structure is read as its name with the identifiers and types of its fields, its
encoding and its decoding as the identifiers that they visit and the names that they report errors
with. All of these are the fields of the structure in their order (`Source.read?_declarationItem`,
`Source.encoding?_encodingItem`, `Source.decoding?_decodingItem`); no other item of a structure is
read as any of them. So the lines of structures say the fields of each of them
(`Source.readings_flatMap_lines`).
-/

namespace OpcWire

namespace Definition

/-- What the declaration of a structure says. -/
def declaredStructure (d : Definition) : Source.DeclaredStructure :=
  ⟨d.name, d.fields.map fun f => (f.ident, f.type.render)⟩

/-- What the implementation of the function `function` says, which visits the fields. -/
def wireForm (function : String) (d : Definition) : Source.WireForm :=
  ⟨d.name, [function], d.fields.map (·.ident), d.fields.map fun f => (d.name, f.name)⟩

end Definition

namespace Source

open Definition (Field)

variable {d : Definition} {fields : List Field} {owner : String}

/-! ### Lines of fields -/

theorem parts?_declarationLine {f : Field} (h : ':' ∉ f.ident.toList) :
    parts? "pub " ':' " " "," (unindented f.declarationLine) = some (f.ident, f.type.render) := by
  have hline : unindented f.declarationLine = f.declarationLine :=
    unindented_eq_self (by simp [Field.declarationLine])
  rw [hline, parts?_eq_some_iff]
  exact ⟨String.toList_inj.1 (by simp [Field.declarationLine]), h⟩

/-! ### Functions -/

theorem functionName?_eq_none_of_take {text : String} (h : text.toList.take 1 ≠ ['f']) :
    functionName? text = none := by
  rw [functionName?, dropStart?_eq_none_of_take 1 h (by decide)]
  rfl

/-- The line that reads a field begins no function, since there is no blank behind its
identifier. -/
theorem functionName?_ident {f : Field} (h : ' ' ∉ f.ident.toList) :
    functionName? (f.ident ++ ": BinaryDecode::decode(buf)") = none := by
  have hdrop : Naming.dropStart? "fn " (f.ident ++ ": BinaryDecode::decode(buf)") = none := by
    refine Option.eq_none_iff_forall_ne_some.2 fun rest hrest => ?_
    -- up to the first blank, the line ends with a colon, and the beginning of a function does not
    have htext := congrArg String.toList (Naming.dropStart?_eq_some_iff.1 hrest)
    have hall : ∀ c ∈ f.ident.toList, (c != ' ') = true := fun c hc =>
      bne_iff_ne.2 fun heq => h (heq ▸ hc)
    have hfirst := congrArg (List.takeWhile (· != ' ')) htext
    rw [String.toList_append, List.takeWhile_append_of_pos hall] at hfirst
    have hlast := congrArg List.getLast? hfirst
    simp at hlast
  rw [functionName?, hdrop]
  rfl

theorem functionName?_head {name rest : String} (h : '(' ∉ name.toList) :
    functionName? ("fn " ++ (name ++ String.singleton '(' ++ rest)) = some name := by
  rw [functionName?, Naming.dropStart?_eq_some_iff.2 rfl, Option.bind_some,
    cut?_eq_some_iff.2 ⟨rfl, h⟩]
  rfl

theorem functionName?_context (f : Field) (stop : String) :
    functionName? (f.context owner ++ stop) = none :=
  functionName?_eq_none_of_take (by simp [context_eq])

theorem filterMap_functionName?_writingLines :
    (fields.flatMap (writingLines owner)).filterMap functionName? = [] := by
  have hself (f : Field) : functionName? ("self." ++ f.ident) = none :=
    functionName?_eq_none_of_take (by simp)
  have hcall : functionName? ".encode(buf)" = none := by decide
  simp [List.filterMap_flatMap, writingLines, hself, hcall, functionName?_context]

theorem filterMap_functionName?_readingLines (h : ∀ f ∈ fields, ' ' ∉ f.ident.toList) :
    (fields.flatMap (readingLines owner)).filterMap functionName? = [] := by
  rw [List.filterMap_flatMap, List.flatMap_eq_nil_iff]
  intro f hf
  simp [readingLines, functionName?_ident (h f hf), functionName?_context]

/-! ### Items -/

theorem functionName?_encodeHead (buffer : String) :
    functionName? (encodeHead buffer) = some "encode" := by
  have hparts : encodeHead buffer = "fn " ++ ("encode" ++ String.singleton '(' ++ ("&self, " ++
      buffer ++ ": &mut ::bytes::BytesMut) -> Result<(), CodecError> \x7b")) := by
    unfold encodeHead
    apply String.toList_inj.1
    simp
  rw [hparts, functionName?_head (by decide)]

theorem functionName?_decodeHead (buffer : String) :
    functionName? (decodeHead buffer) = some "decode" := by
  have hparts : decodeHead buffer = "fn " ++ ("decode" ++ String.singleton '(' ++ (buffer ++
      ": &mut ::bytes::Bytes) -> Result<Self, CodecError> \x7b")) := by
    unfold decodeHead
    apply String.toList_inj.1
    simp
  rw [hparts, functionName?_head (by decide)]

/-- **The declaration of a structure says its fields.** -/
theorem read?_declarationItem (h : d.IsReadable) :
    DeclaredStructure.read? (declarationItem d) = some d.declaredStructure := by
  have hfields : (d.fields.map fun f => unindented f.declarationLine).filterMap
      (parts? "pub " ':' " " ",") = d.fields.map fun f => (f.ident, f.type.render) := by
    have hread : ∀ f ∈ d.fields, parts? "pub " ':' " " "," (unindented f.declarationLine) =
        some (f.ident, f.type.render) := by
      intro f hf
      obtain ⟨-, -, hcolon⟩ := h.idents f hf
      exact parts?_declarationLine hcolon
    rw [List.filterMap_map, ← List.filterMap_eq_map]
    exact List.filterMap_congr hread
  have hname : (between? "pub struct " " \x7b\x7d" (declarationItem d).head <|>
      between? "pub struct " " \x7b" (declarationItem d).head) = some d.name := by
    rw [declarationItem]
    split
    · rw [between?_eq_some_iff.2 rfl]
      rfl
    · have hempty : between? "pub struct " " \x7b\x7d" ("pub struct " ++ d.name ++ " \x7b") =
          none :=
        between?_eq_none_of_getLast? (by decide) (getLast?_append_ne (by decide) (by decide))
      rw [hempty, between?_eq_some_iff.2 rfl]
      rfl
  rw [DeclaredStructure.read?, hname, Option.map_some, declarationItem, hfields]
  rfl

/-- **The encoding of a structure writes its fields in their order.** -/
theorem encoding?_encodingItem (h : d.IsReadable) (buffer : String) :
    WireForm.encoding? (encodingItem d.name buffer
      (d.fields.flatMap (·.encodeLines d.name) ++ ["Ok(())"])) = some (d.wireForm "encode") := by
  have hhead : between? "impl BinaryEncode for " " \x7b"
      (implementationHead "BinaryEncode" d.name) = some d.name := by
    refine between?_eq_some_iff.2 (String.toList_inj.1 ?_)
    simp [implementationHead]
  have hfunctions : ([encodeHead buffer] ++ (d.fields.flatMap (writingLines d.name) ++
      ["Ok(())", "\x7d"])).filterMap functionName? = ["encode"] := by
    have hlast : ["Ok(())", "\x7d"].filterMap functionName? = [] := by decide
    rw [List.filterMap_append, List.filterMap_append, filterMap_functionName?_writingLines, hlast,
      List.filterMap_cons_some (functionName?_encodeHead buffer)]
    rfl
  have hbefore : VisitNothing [encodeHead buffer] :=
    visitNothing_singleton.2 (visitsNothing_encodeHead buffer)
  have hafter : VisitNothing ["Ok(())", "\x7d"] :=
    visitNothing_cons.2 ⟨visitsNothing_return, visitNothing_singleton.2 visitsNothing_close⟩
  have hvisits := writtenVisits_around h.name hbefore hafter fun f hf => (h.idents f hf).2.2
  obtain ⟨hidents, hcontexts⟩ := Visits.mk.inj hvisits
  rw [WireForm.encoding?, body_encodingItem, encodingItem, hhead, Option.map_some, hfunctions,
    hidents, hcontexts]
  rfl

/-- **The decoding of a structure reads its fields in their order.** -/
theorem decoding?_decodingItem (h : d.IsReadable) (buffer : String) :
    WireForm.decoding? (decodingItem d.name buffer
      (blockWith "Ok(Self " ")" (d.fields.flatMap (·.decodeLines d.name)))) =
        some (d.wireForm "decode") := by
  have hhead : between? "impl BinaryDecode for " " \x7b"
      (implementationHead "BinaryDecode" d.name) = some d.name := by
    refine between?_eq_some_iff.2 (String.toList_inj.1 ?_)
    simp [implementationHead]
  have hfunctions : ([decodeHead buffer, "Ok(Self \x7b"] ++ (d.fields.flatMap
      (readingLines d.name) ++ ["\x7d)", "\x7d"])).filterMap functionName? = ["decode"] := by
    have hlast : ["\x7d)", "\x7d"].filterMap functionName? = [] := by decide
    rw [List.filterMap_append, List.filterMap_append, hlast,
      filterMap_functionName?_readingLines fun f hf => (h.idents f hf).2.1,
      List.filterMap_cons_some (functionName?_decodeHead buffer),
      List.filterMap_cons_none (by decide)]
    rfl
  have hbefore : VisitNothing [decodeHead buffer, "Ok(Self \x7b"] :=
    visitNothing_cons.2 ⟨visitsNothing_decodeHead buffer, visitNothing_singleton.2 visitsNothing_open⟩
  have hafter : VisitNothing ["\x7d)", "\x7d"] :=
    visitNothing_cons.2 ⟨visitsNothing_closeCall, visitNothing_singleton.2 visitsNothing_close⟩
  have hvisits := readVisits_around h.name hbefore hafter d.fields
  obtain ⟨hidents, hcontexts⟩ := Visits.mk.inj hvisits
  rw [WireForm.decoding?, body_decodingItem h, decodingItem, hhead, Option.map_some, hfunctions,
    hidents, hcontexts]
  rfl

/-! ### Other items -/

/-- Whether an item is none of a declaration, an encoding and a decoding. -/
structure IsSilent (i : Item) : Prop where
  /-- It declares no structure. -/
  declared : DeclaredStructure.read? i = none
  /-- It is no encoding. -/
  encoding : WireForm.encoding? i = none
  /-- It is no decoding. -/
  decoding : WireForm.decoding? i = none

section Heads

variable {i : Item}

theorem declared_eq_none (h : i.head.toList.take 5 ≠ "pub s".toList) :
    DeclaredStructure.read? i = none := by
  rw [DeclaredStructure.read?, between?_eq_none_of_take 5 h (by decide),
    between?_eq_none_of_take 5 h (by decide)]
  rfl

theorem encoding_eq_none (h : i.head.toList.take 12 ≠ "impl BinaryE".toList) :
    WireForm.encoding? i = none := by
  rw [WireForm.encoding?, between?_eq_none_of_take 12 h (by decide)]
  rfl

theorem decoding_eq_none (h : i.head.toList.take 12 ≠ "impl BinaryD".toList) :
    WireForm.decoding? i = none := by
  rw [WireForm.decoding?, between?_eq_none_of_take 12 h (by decide)]
  rfl

/-- What a structure is as a body, and the access to its header, are silent. -/
theorem isSilent_of_mem_bodyCapabilities {capability : String} (h : capability ∈ bodyCapabilities)
    (hhead : i.head = implementationHead capability d.name) : IsSilent i := by
  simp only [bodyCapabilities, List.mem_cons, List.not_mem_nil, or_false] at h
  rcases h with rfl | rfl | rfl
  all_goals
    exact ⟨declared_eq_none (by simp [hhead, implementationHead]),
      encoding_eq_none (by simp [hhead, implementationHead]),
      decoding_eq_none (by simp [hhead, implementationHead])⟩

end Heads

/-! ### Structures -/

theorem readings_objectLines (h : d.IsReadable) (ys : List String) :
    declaredStructures (d.objectLines ++ ys) = d.declaredStructure :: declaredStructures ys ∧
      encodings (d.objectLines ++ ys) = d.wireForm "encode" :: encodings ys ∧
      decodings (d.objectLines ++ ys) = d.wireForm "decode" :: decodings ys := by
  obtain ⟨others, hothers, hitems⟩ := items_objectLines d
  have hsilent : ∀ i ∈ others, IsSilent i := by
    intro i hi
    obtain ⟨capability, hcapability, hhead⟩ := hothers i hi
    exact isSilent_of_mem_bodyCapabilities hcapability hhead
  have hdeclaration : WireForm.encoding? (declarationItem d) = none ∧
      WireForm.decoding? (declarationItem d) = none :=
    ⟨encoding_eq_none (by simp [declarationItem]), decoding_eq_none (by simp [declarationItem])⟩
  refine ⟨?_, ?_, ?_⟩
  · rw [declaredStructures, hitems, List.filterMap_cons_some (read?_declarationItem h),
      List.filterMap_cons_none (declared_eq_none (by simp [encodingItem, implementationHead])),
      List.filterMap_cons_none (declared_eq_none (by simp [decodingItem, implementationHead])),
      List.filterMap_append, List.filterMap_eq_nil_iff.2 fun i hi => (hsilent i hi).declared]
    rfl
  · rw [encodings, hitems, List.filterMap_cons_none hdeclaration.1,
      List.filterMap_cons_some (encoding?_encodingItem h _),
      List.filterMap_cons_none (encoding_eq_none (by simp [decodingItem, implementationHead])),
      List.filterMap_append, List.filterMap_eq_nil_iff.2 fun i hi => (hsilent i hi).encoding]
    rfl
  · rw [decodings, hitems, List.filterMap_cons_none hdeclaration.2,
      List.filterMap_cons_none (decoding_eq_none (by simp [encodingItem, implementationHead])),
      List.filterMap_cons_some (decoding?_decodingItem h _),
      List.filterMap_append, List.filterMap_eq_nil_iff.2 fun i hi => (hsilent i hi).decoding]
    rfl

theorem readings_flatMap_lines {ds : List Definition}
    (h : ∀ d ∈ ds, d.kind = .object ∧ d.IsReadable) :
    declaredStructures (ds.flatMap Definition.lines) = ds.map Definition.declaredStructure ∧
      encodings (ds.flatMap Definition.lines) = ds.map (Definition.wireForm "encode") ∧
      decodings (ds.flatMap Definition.lines) = ds.map (Definition.wireForm "decode") := by
  induction ds with
  | nil => exact ⟨rfl, rfl, rfl⟩
  | cons d rest ih =>
    obtain ⟨⟨hkind, hreadable⟩, hrest⟩ := List.forall_mem_cons.1 h
    obtain ⟨hdeclared, hencoded, hdecoded⟩ := ih hrest
    obtain ⟨hd, he, hr⟩ := readings_objectLines hreadable (rest.flatMap Definition.lines)
    have hlines : d.lines = d.objectLines := by rw [Definition.lines, hkind]
    rw [List.flatMap_cons, hlines, hd, he, hr, hdeclared, hencoded, hdecoded]
    exact ⟨rfl, rfl, rfl⟩

/-! ### Files -/

/-- The item by which the capability of giving access to a header is declared. -/
def capabilityItem (capability header : String) : Item :=
  ⟨"pub trait " ++ capability ++ ": ExtensionObjectBody" ++ " \x7b",
    ["fn header(&self) -> Option<&" ++ header ++ ">;",
      "fn set_header(&mut self, header: " ++ header ++ ");"].map unindented⟩

theorem items_capability (capability kind header : String) (ys : List String) :
    items (capabilityLines capability kind header ++ ys) =
      capabilityItem capability header :: items ys := by
  rw [capabilityLines, List.append_assoc, List.cons_append, items_empty_cons, List.singleton_append,
    items_cons_of_not (by simp [beginsItem]), items_block (by simp [beginsItem])]
  rfl

theorem exists_items_front (prelude : String) :
    ∃ front, (∀ i ∈ front, IsSilent i) ∧
      ∀ ys, items (header (some prelude) ++ messageCapabilityLines ++ ys) = front ++ items ys := by
  have huse : IsSilent ⟨"use " ++ prelude ++ "::*;", []⟩ :=
    ⟨declared_eq_none (by simp), encoding_eq_none (by simp), decoding_eq_none (by simp)⟩
  have hcapability (capability header : String) : IsSilent (capabilityItem capability header) :=
    ⟨declared_eq_none (by simp [capabilityItem]), encoding_eq_none (by simp [capabilityItem]),
      decoding_eq_none (by simp [capabilityItem])⟩
  refine ⟨[⟨"use " ++ prelude ++ "::*;", []⟩, capabilityItem "Request" "RequestHeader",
    capabilityItem "Response" "ResponseHeader"], ?_, fun ys => ?_⟩
  · exact List.forall_mem_cons.2 ⟨huse, List.forall_mem_cons.2 ⟨hcapability _ _,
      List.forall_mem_singleton.2 (hcapability _ _)⟩⟩
  · rw [messageCapabilityLines, List.append_assoc, List.append_assoc, items_header, items_capability,
      items_capability]
    rfl

/-- **A file of structures says the fields of each of them**, and nothing besides, if no line is
torn. -/
theorem readings_objectFile {prelude : String} (hprelude : '\n' ∉ prelude.toList)
    {ds : List Definition} (h : ∀ d ∈ ds, d.kind = .object ∧ d.IsReadable)
    (hlines : AreLines (ds.flatMap Definition.lines)) :
    declaredStructures (Text.lines (objectFile prelude ds)) = ds.map Definition.declaredStructure ∧
      encodings (Text.lines (objectFile prelude ds)) = ds.map (Definition.wireForm "encode") ∧
      decodings (Text.lines (objectFile prelude ds)) = ds.map (Definition.wireForm "decode") := by
  obtain ⟨front, hsilent, hfront⟩ := exists_items_front prelude
  obtain ⟨hdeclared, hencoded, hdecoded⟩ := readings_flatMap_lines h
  rw [lines_objectFile hprelude hlines]
  refine ⟨?_, ?_, ?_⟩
  · rw [declaredStructures, hfront, List.filterMap_append,
      List.filterMap_eq_nil_iff.2 fun i hi => (hsilent i hi).declared]
    exact hdeclared
  · rw [encodings, hfront, List.filterMap_append,
      List.filterMap_eq_nil_iff.2 fun i hi => (hsilent i hi).encoding]
    exact hencoded
  · rw [decodings, hfront, List.filterMap_append,
      List.filterMap_eq_nil_iff.2 fun i hi => (hsilent i hi).decoding]
    exact hdecoded

/-- Whatever module a file of structures uses, it ends with their lines. -/
theorem lines_objectFile_append (prelude : String) {ds : List Definition}
    (hlines : AreLines (ds.flatMap Definition.lines)) :
    Text.lines (objectFile prelude ds) =
      Text.lines (render (header (some prelude) ++ messageCapabilityLines)) ++
        ds.flatMap Definition.lines := by
  rw [objectFile, lines_render_append, hlines.lines_render]

/-- Whatever module a file of structures uses, it says the fields of each of them, at its end. -/
theorem readings_suffix (prelude : String) {ds : List Definition}
    (h : ∀ d ∈ ds, d.kind = .object ∧ d.IsReadable)
    (hlines : AreLines (ds.flatMap Definition.lines)) :
    ds.map Definition.declaredStructure <:+
        declaredStructures (Text.lines (objectFile prelude ds)) ∧
      ds.map (Definition.wireForm "encode") <:+ encodings (Text.lines (objectFile prelude ds)) ∧
      ds.map (Definition.wireForm "decode") <:+ decodings (Text.lines (objectFile prelude ds)) := by
  obtain ⟨hdeclared, hencoded, hdecoded⟩ := readings_flatMap_lines h
  obtain ⟨front, hfront⟩ := exists_items_append
    (Text.lines (render (header (some prelude) ++ messageCapabilityLines)))
    (ds.flatMap Definition.lines)
  rw [lines_objectFile_append prelude hlines, declaredStructures, encodings, decodings, hfront,
    List.filterMap_append, List.filterMap_append, List.filterMap_append]
  exact ⟨⟨_, congrArg _ hdeclared.symm⟩, ⟨_, congrArg _ hencoded.symm⟩,
    ⟨_, congrArg _ hdecoded.symm⟩⟩

/-- What a torn line declares is declared, wherever the line stands. -/
theorem mem_declaredStructures_render {name line : String} {lines : List String}
    (hline : line ∈ lines) (hpiece : "pub struct " ++ name ++ " \x7b\x7d" ∈ piecesOf line) :
    ⟨name, []⟩ ∈ declaredStructures (Text.lines (render lines)) := by
  have hmem : "pub struct " ++ name ++ " \x7b\x7d" ∈ Text.lines (render lines) :=
    lines_render lines ▸ List.mem_flatMap.2 ⟨line, hline, hpiece⟩
  obtain ⟨before, after, hsplit⟩ := List.append_of_mem hmem
  obtain ⟨front, hfront⟩ :=
    exists_items_append before (("pub struct " ++ name ++ " \x7b\x7d") :: after)
  have hread :
      DeclaredStructure.read? ⟨"pub struct " ++ name ++ " \x7b\x7d", []⟩ = some ⟨name, []⟩ := by
    rw [DeclaredStructure.read?, between?_eq_some_iff.2 rfl]
    rfl
  rw [hsplit, declaredStructures, hfront, List.filterMap_append,
    items_cons_of_closed (beginsItem_append (beginsItem_append (by decide)))
      (getLast?_append_ne (by decide) (by decide)), List.filterMap_cons_some hread]
  exact List.mem_append_right _ List.mem_cons_self

end Source

end OpcWire
