import OpcWire.Proofs.Source.WireForms

/-!
# Structures are written and read field by field

A file of structures is read back line by line. Of each structure, in the order of the list, it has
one declaration, one function that writes it and one that reads it. All three go through the fields
in their order: the declaration with identifiers and types, the functions with the identifiers and
the names that errors are reported with. No other line of the file writes or reads a field, not even
in the access to the header of a message, which mentions a field too.

Two lists of structures with the same text therefore have the same names, fields, identifiers and
types (`wire_forms_follow_fields`).

What a structure extends, the types of its fields and the module that the file uses are put into
lines as they are. If there is a line feed in them, the lines behind it may say anything, and two
lists of structures may have the same text (`wire_forms_of_torn_lines`).
-/

namespace OpcWire

namespace Naming

/-- Whether a name is an identifier, which may be escaped. -/
def IsRawIdentifier (name : String) : Prop :=
  IsIdentifier name ∨ ∃ rest, IsIdentifier rest ∧ name = "r#" ++ rest

namespace IsRawIdentifier

variable {name : String}

theorem ne_empty (h : IsRawIdentifier name) : name ≠ "" := by
  rcases h with h | ⟨rest, -, rfl⟩
  · exact h.1
  · exact Source.ne_of_take_ne 1 (by simp)

theorem not_mem (h : IsRawIdentifier name) {c : Char} (hc : isIdentifierChar c = false)
    (hescape : c ≠ '#') : c ∉ name.toList := by
  rcases h with h | ⟨rest, h, rfl⟩
  · exact h.not_mem hc
  · have hr : c ≠ 'r' := by
      rintro rfl
      cases hc
    simp [hr, hescape, h.not_mem hc]

theorem oneLine (h : IsRawIdentifier name) : Source.OneLine name :=
  ⟨h.not_mem (by decide) (by decide), h.not_mem (by decide) (by decide)⟩

end IsRawIdentifier

end Naming

namespace Definition

/-- Whether a structure and its fields are named by identifiers. -/
structure HasIdentifiers (d : Definition) : Prop where
  /-- The name of the structure is an identifier. -/
  name : Naming.IsRawIdentifier d.name
  /-- Names and identifiers of fields are identifiers. -/
  fields : ∀ f ∈ d.fields, Naming.IsRawIdentifier f.name ∧ Naming.IsRawIdentifier f.ident

/-- Whether what a structure refers to tears no line apart. -/
structure KeepsLines (d : Definition) : Prop where
  /-- The type that the structure extends has no line feed in it. -/
  base : ∀ b ∈ d.base, '\n' ∉ b.toList
  /-- The types of fields have none. -/
  types : ∀ f ∈ d.fields, '\n' ∉ f.type.render.toList

namespace HasIdentifiers

variable {d : Definition} {ds : List Definition}

theorem isReadable (h : d.HasIdentifiers) : d.IsReadable where
  name := h.name.not_mem (by decide) (by decide)
  idents f hf :=
    have hident := (h.fields f hf).2
    ⟨hident.ne_empty, hident.not_mem (by decide) (by decide),
      hident.not_mem (by decide) (by decide)⟩

theorem isUnbroken (h : d.HasIdentifiers) (hlines : d.KeepsLines) : Source.IsUnbroken d where
  base := hlines.base
  fields f hf := ⟨(h.fields f hf).1.oneLine, (h.fields f hf).2.oneLine⟩
  types := hlines.types

theorem areLines (h : ∀ d ∈ ds, d.kind = .object ∧ d.HasIdentifiers)
    (hlines : ∀ d ∈ ds, d.KeepsLines) : Source.AreLines (ds.flatMap Definition.lines) :=
  Source.areLines_flatMap_lines fun d hd =>
    ⟨(h d hd).1, (h d hd).2.name.oneLine, (h d hd).2.isUnbroken (hlines d hd)⟩

end HasIdentifiers

/-- The name of a structure, and of each of its fields the name, the identifier and the type. -/
def outline (d : Definition) : String × List (String × String × String) :=
  (d.name, d.fields.map fun f => (f.name, f.ident, f.type.render))

/-- What a declaration and an implementation say together. -/
def joinReadings (s : Source.DeclaredStructure) (w : Source.WireForm) :
    String × List (String × String × String) :=
  (s.name, List.zipWith (fun field context => (context.2, field.1, field.2)) s.fields w.contexts)

theorem joinReadings_eq_outline (function : String) (d : Definition) :
    joinReadings d.declaredStructure (d.wireForm function) = d.outline := by
  simp [joinReadings, declaredStructure, wireForm, outline, List.zipWith_map]

theorem map_outline (function : String) (ds : List Definition) :
    ds.map outline =
      List.zipWith joinReadings (ds.map declaredStructure) (ds.map (wireForm function)) := by
  simp [List.zipWith_map, joinReadings_eq_outline]

end Definition

open Source

/-- **The encoder and the decoder of a structure visit its fields in their order**, and the text of
structures determines their fields, where no line is torn apart. -/
theorem wire_forms_follow_fields (ds : List Definition)
    (hds : ∀ d ∈ ds, d.kind = .object ∧ d.HasIdentifiers) (hkeep : ∀ d ∈ ds, d.KeepsLines) :
    (∀ prelude : String, '\n' ∉ prelude.toList →
      declaredStructures (Text.lines (objectFile prelude ds)) =
          ds.map Definition.declaredStructure ∧
        encodings (Text.lines (objectFile prelude ds)) = ds.map (Definition.wireForm "encode") ∧
        decodings (Text.lines (objectFile prelude ds)) = ds.map (Definition.wireForm "decode") ∧
        writtenVisits ((Text.lines (objectFile prelude ds)).map unindented) = Definition.visits ds ∧
        readVisits ((Text.lines (objectFile prelude ds)).map unindented) = Definition.visits ds) ∧
    (∀ prelude,
      ds.map Definition.declaredStructure <:+
          declaredStructures (Text.lines (objectFile prelude ds)) ∧
        ds.map (Definition.wireForm "encode") <:+ encodings (Text.lines (objectFile prelude ds)) ∧
        ds.map (Definition.wireForm "decode") <:+ decodings (Text.lines (objectFile prelude ds))) ∧
    ∀ ds', (∀ d ∈ ds', d.kind = .object ∧ d.HasIdentifiers) → (∀ d ∈ ds', d.KeepsLines) →
      ∀ prelude prelude' : String,
      prelude' = prelude ∨ '\n' ∉ prelude'.toList ∧ '\n' ∉ prelude.toList →
      objectFile prelude' ds' = objectFile prelude ds →
      ds'.map Definition.outline = ds.map Definition.outline := by
  have hreadable {ds : List Definition} (hds : ∀ d ∈ ds, d.kind = .object ∧ d.HasIdentifiers) :
      ∀ d ∈ ds, d.kind = .object ∧ d.IsReadable := fun d hd =>
    ⟨(hds d hd).1, (hds d hd).2.isReadable⟩
  have hlines := Definition.HasIdentifiers.areLines hds hkeep
  have hvisits : ∀ d ∈ ds, d.kind = .object ∧ d.IsReadable ∧ ')' ∉ d.name.toList := fun d hd =>
    ⟨(hds d hd).1, (hds d hd).2.isReadable, (hds d hd).2.name.not_mem (by decide) (by decide)⟩
  refine ⟨fun prelude hprelude => ?_, fun prelude => readings_suffix prelude (hreadable hds) hlines,
    fun ds' hds' hkeep' prelude prelude' hpreludes htext => ?_⟩
  · obtain ⟨hdeclared, hencoded, hdecoded⟩ := readings_objectFile hprelude (hreadable hds) hlines
    exact ⟨hdeclared, hencoded, hdecoded, visits_objectFile hprelude hvisits hlines⟩
  have hlines' := Definition.HasIdentifiers.areLines hds' hkeep'
  -- either the files say the same, or they have the same lines behind the same front
  have hreadings : ds'.map Definition.declaredStructure = ds.map Definition.declaredStructure ∧
      ds'.map (Definition.wireForm "encode") = ds.map (Definition.wireForm "encode") := by
    rcases hpreludes with rfl | ⟨hprelude', hprelude⟩
    · have hsame := congrArg Text.lines htext
      rw [lines_objectFile_append _ hlines, lines_objectFile_append _ hlines'] at hsame
      have hsame : ds'.flatMap Definition.lines = ds.flatMap Definition.lines :=
        List.append_cancel_left hsame
      obtain ⟨hdeclared, hencoded, -⟩ := readings_flatMap_lines (hreadable hds)
      obtain ⟨hdeclared', hencoded', -⟩ := readings_flatMap_lines (hreadable hds')
      rw [hsame] at hdeclared' hencoded'
      exact ⟨hdeclared'.symm.trans hdeclared, hencoded'.symm.trans hencoded⟩
    · obtain ⟨hdeclared, hencoded, -⟩ := readings_objectFile hprelude (hreadable hds) hlines
      obtain ⟨hdeclared', hencoded', -⟩ := readings_objectFile hprelude' (hreadable hds') hlines'
      rw [htext] at hdeclared' hencoded'
      exact ⟨hdeclared'.symm.trans hdeclared, hencoded'.symm.trans hencoded⟩
  rw [Definition.map_outline "encode", Definition.map_outline "encode", hreadings.1, hreadings.2]

/-- A message with an escaped identifier, and a structure without fields. -/
def messages : List Definition :=
  [ { name := "BrowseRequest", kind := .object, repr := none, base := some "ExtensionObject",
      fields :=
        [ ⟨"RequestHeader", "request_header", .reference "RequestHeader"⟩,
          ⟨"Type", "r#type", .sequence (.builtin .uint32)⟩ ],
      members := [] },
    { name := "r#Nothing", kind := .object, repr := none, base := none, fields := [],
      members := [] } ]

theorem wire_forms_follow_fields_messages :
    declaredStructures (Text.lines (objectFile "crate::prelude" messages)) =
        [ ⟨"BrowseRequest", [("request_header", "Option<Box<RequestHeader>>"),
            ("r#type", "Option<Vec<u32>>")]⟩,
          ⟨"r#Nothing", []⟩ ] ∧
      encodings (Text.lines (objectFile "crate::prelude" messages)) =
        [ ⟨"BrowseRequest", ["encode"], ["request_header", "r#type"],
            [("BrowseRequest", "RequestHeader"), ("BrowseRequest", "Type")]⟩,
          ⟨"r#Nothing", ["encode"], [], []⟩ ] ∧
      decodings (Text.lines (objectFile "crate::prelude" messages)) =
        [ ⟨"BrowseRequest", ["decode"], ["request_header", "r#type"],
            [("BrowseRequest", "RequestHeader"), ("BrowseRequest", "Type")]⟩,
          ⟨"r#Nothing", ["decode"], [], []⟩ ] ∧
      writtenVisits ((Text.lines (objectFile "crate::prelude" messages)).map unindented) =
        ⟨["request_header", "r#type"],
          [("BrowseRequest", "RequestHeader"), ("BrowseRequest", "Type")]⟩ ∧
      readVisits ((Text.lines (objectFile "crate::prelude" messages)).map unindented) =
        ⟨["request_header", "r#type"],
          [("BrowseRequest", "RequestHeader"), ("BrowseRequest", "Type")]⟩ := by
  have hmessage : (messages[0]).HasIdentifiers := by
    refine ⟨.inl (by decide), ?_⟩
    exact List.forall_mem_cons.2 ⟨⟨.inl (by decide), .inl (by decide)⟩,
      List.forall_mem_singleton.2 ⟨.inl (by decide), .inr ⟨"type", by decide, rfl⟩⟩⟩
  have hnothing : (messages[1]).HasIdentifiers := ⟨.inr ⟨"Nothing", by decide, rfl⟩, nofun⟩
  have hkeep : ∀ d ∈ messages, d.KeepsLines :=
    List.forall_mem_cons.2 ⟨⟨by decide, by decide⟩, List.forall_mem_singleton.2 ⟨nofun, nofun⟩⟩
  exact (wire_forms_follow_fields messages (List.forall_mem_cons.2 ⟨⟨rfl, hmessage⟩,
    List.forall_mem_singleton.2 ⟨rfl, hnothing⟩⟩) hkeep).1 "crate::prelude" (by decide)

/-- A text with a line that declares a structure. -/
def tornText : String := "Part\npub struct Ghost \x7b\x7d\nPart"

/-- A structure with the given base and fields. -/
def spare (base : String) (fields : List Definition.Field) : Definition :=
  { name := "Spare", kind := .object, repr := none, base := some base, fields, members := [] }

/-- A field of the given type. -/
def sizeField (type : FieldType) : Definition.Field := ⟨"Size", "size", type⟩

/-- A base with all the lines behind that of a base, and those of the next structure up to its
own. -/
def longBase : String :=
  "Part`.\n" ++ render ((spare "Part" []).objectLines.drop 2) ++
    "\n" ++ "/// `Spare` extension object, derived from `" ++ "Part"

/-- One structure with the text of two. -/
theorem objectFile_longBase : objectFile "crate" [spare longBase []] =
    objectFile "crate" [spare "Part" [], spare "Part" []] := by
  have hlines (base : String) : (spare base []).lines =
      ["", "/// `Spare` extension object, derived from `" ++ base ++ "`."] ++
        (spare "Part" []).objectLines.drop 2 := rfl
  have htop (line : String) : render ["", line] = "\n" ++ line ++ "\n" := by
    simp [render, String.append_assoc]
  have htext (start body : String) :
      "\n" ++ (start ++ ("Part`.\n" ++ body ++ "\n" ++ start ++ "Part") ++ "`.") ++ "\n" ++ body =
        "\n" ++ (start ++ "Part" ++ "`.") ++ "\n" ++ body ++
          ("\n" ++ (start ++ "Part" ++ "`.") ++ "\n" ++ body) := by
    rw [← String.toList_inj]
    simp
  rw [objectFile, objectFile, List.flatMap_singleton, List.flatMap_cons, List.flatMap_singleton,
    hlines, hlines]
  simp only [render_append, htop]
  exact congrArg _ (htext _ _)

/-- **Torn lines are read otherwise.** A line feed in the module that is used, in a base or in the
type of a field lets a file declare a structure that is none of its definitions. So a file of one
structure may be the same as one of two. -/
theorem wire_forms_of_torn_lines :
    (∀ base type, (spare base []).HasIdentifiers ∧ (spare base [sizeField type]).HasIdentifiers) ∧
      declaredStructures (Text.lines (objectFile tornText [])) ≠ [] ∧
      declaredStructures (Text.lines (objectFile "crate" [spare tornText []])) ≠
        [spare tornText []].map Definition.declaredStructure ∧
      declaredStructures (Text.lines
          (objectFile "crate" [spare "Part" [sizeField (.reference tornText)]])) ≠
        [spare "Part" [sizeField (.reference tornText)]].map Definition.declaredStructure ∧
      objectFile "crate" [spare longBase []] =
        objectFile "crate" [spare "Part" [], spare "Part" []] := by
  have hname : Naming.IsRawIdentifier "Spare" := .inl (by decide)
  have hfield : Naming.IsRawIdentifier "Size" ∧ Naming.IsRawIdentifier "size" :=
    ⟨.inl (by decide), .inl (by decide)⟩
  -- in each file, one line is torn into three
  have htorn {ds : List Definition} (line : String) (hline : line ∈ ds.flatMap Definition.lines)
      (hpiece : "pub struct " ++ "Ghost" ++ " \x7b\x7d" ∈ piecesOf line)
      (hnone : ⟨"Ghost", []⟩ ∉ ds.map Definition.declaredStructure) :
      declaredStructures (Text.lines (objectFile "crate" ds)) ≠
        ds.map Definition.declaredStructure := by
    intro heq
    rw [← heq] at hnone
    exact hnone (mem_declaredStructures_render (List.mem_append_right _ hline) hpiece)
  refine ⟨fun base type => ⟨⟨hname, nofun⟩, hname, List.forall_mem_singleton.2 hfield⟩,
    ?_, ?_, ?_, objectFile_longBase⟩
  · have hpiece : "pub struct " ++ "Ghost" ++ " \x7b\x7d" ∈
        piecesOf ("use " ++ tornText ++ "::*;") := by decide +kernel
    exact List.ne_nil_of_mem (mem_declaredStructures_render (by simp [header]) hpiece)
  · exact htorn (spare tornText []).descriptionLine (List.mem_of_getElem? (i := 1) rfl)
      (by decide +kernel) (by decide)
  · exact htorn (indentLine (sizeField (.reference tornText)).declarationLine)
      (List.mem_of_getElem? (i := 4) rfl) (by decide +kernel) (by decide)

end OpcWire
