import OpcWire.Proofs.Source.Enumerations
import OpcWire.Proofs.Source.Objects
import OpcWire.Source.Items

/-!
# Items of generated source text

A block is one item, whose body has the lines in the block without indentation
(`Source.items_block`), and lines that begin no item can be left out. So the items of an enumeration
are its declaration and three implementations (`Source.items_enumerationLines`), those of a
structure its declaration, its encoding, its decoding and what it is as a body
(`Source.items_objectLines`).
-/

namespace OpcWire

namespace Source

variable {line head : String} {xs ys body : List String}

/-! ### Texts that are not read -/

section Misses

variable {start middle stop text : String} {mark : Char} (n : Nat)

theorem dropStart?_eq_none_of_take (h : text.toList.take n ≠ start.toList.take n)
    (hn : n ≤ start.length) : Naming.dropStart? start text = none := by
  refine Option.eq_none_iff_forall_ne_some.2 fun rest hrest => h ?_
  rw [Naming.dropStart?_eq_some_iff.1 hrest, String.toList_append, List.take_append_of_le_length]
  rwa [String.length_toList]

theorem between?_eq_none_of_take (h : text.toList.take n ≠ start.toList.take n)
    (hn : n ≤ start.length) : between? start stop text = none := by
  rw [between?, dropStart?_eq_none_of_take n h hn]
  rfl

theorem parts?_eq_none_of_take (h : text.toList.take n ≠ start.toList.take n)
    (hn : n ≤ start.length) : parts? start mark middle stop text = none := by
  rw [parts?, between?_eq_none_of_take n h hn]
  rfl

theorem dropEnd?_eq_none_of_getLast? (hstop : stop ≠ "")
    (h : text.toList.getLast? ≠ stop.toList.getLast?) : dropEnd? stop text = none := by
  refine Option.eq_none_iff_forall_ne_some.2 fun rest hrest => h ?_
  rw [dropEnd?_eq_some_iff.1 hrest]
  exact getLast?_append hstop

theorem between?_eq_none_of_getLast? (hstop : stop ≠ "")
    (h : text.toList.getLast? ≠ stop.toList.getLast?) : between? start stop text = none := by
  refine Option.eq_none_iff_forall_ne_some.2 fun rest hrest => h ?_
  rw [between?_eq_some_iff.1 hrest]
  exact getLast?_append hstop

theorem parts?_eq_none_of_getLast? (hstop : stop ≠ "")
    (h : text.toList.getLast? ≠ stop.toList.getLast?) :
    parts? start mark middle stop text = none := by
  rw [parts?, between?_eq_none_of_getLast? hstop h]
  rfl

end Misses

/-! ### Lines that begin items -/

theorem beginsItem_append {a b : String} (h : beginsItem a = true) : beginsItem (a ++ b) = true := by
  rw [beginsItem] at h ⊢
  cases hhead : a.toList.head? with
  | none => simp [hhead] at h
  | some c => simpa [List.head?_append, hhead] using h

theorem beginsItem_indentLine : beginsItem (indentLine line) = false := by
  rw [indentLine]
  split
  · rename_i hempty
    rw [String.isEmpty_iff.1 hempty]
    rfl
  · simp [beginsItem]

theorem items_cons_of_begins (h : beginsItem line = true) :
    items (line :: xs) = ⟨line, blockLines line xs⟩ :: items xs :=
  if_pos h

theorem items_cons_of_not (h : beginsItem line = false) : items (line :: xs) = items xs :=
  if_neg (Bool.eq_false_iff.1 h)

theorem items_append_of_not (h : ∀ line ∈ xs, beginsItem line = false) :
    items (xs ++ ys) = items ys := by
  induction xs with
  | nil => rfl
  | cons line rest ih =>
    obtain ⟨hline, hrest⟩ := List.forall_mem_cons.1 h
    rw [List.cons_append, items_cons_of_not hline, ih hrest]

/-- What stands in front of lines has its own items, whatever they are. -/
theorem exists_items_append (xs ys : List String) :
    ∃ front, items (xs ++ ys) = front ++ items ys := by
  induction xs with
  | nil => exact ⟨[], rfl⟩
  | cons line rest ih =>
    obtain ⟨front, hfront⟩ := ih
    by_cases h : beginsItem line = true
    · exact ⟨_ :: front, by rw [List.cons_append, items_cons_of_begins h, hfront]; rfl⟩
    · exact ⟨front, by rw [List.cons_append, items_cons_of_not (Bool.eq_false_iff.2 h), hfront]⟩

/-! ### Blocks -/

theorem blockLines_of_opens (h : line.toList.getLast? = some '\x7b') :
    blockLines line (indent body ++ "\x7d" :: ys) = body.map unindented := by
  -- the lines inside are indented, so the first brace that is not closes the block
  have hinside : ∀ l ∈ indent body, decide (l ≠ "\x7d") = true := by
    intro l hl
    obtain ⟨l, -, rfl⟩ := List.mem_map.1 hl
    exact decide_eq_true (indentLine_ne (by decide) (by decide))
  rw [blockLines, if_pos h, List.takeWhile_append_of_pos hinside,
    List.takeWhile_cons_of_neg (by simp), List.append_nil, indent, List.map_map]
  exact List.map_congr_left fun l _ => unindented_indentLine l

theorem items_cons_of_closed (h : beginsItem line = true)
    (hlast : line.toList.getLast? ≠ some '\x7b') : items (line :: xs) = ⟨line, []⟩ :: items xs := by
  rw [items_cons_of_begins h, blockLines, if_neg hlast]

theorem items_block (h : beginsItem head = true) :
    items (block head body ++ ys) = ⟨head ++ " \x7b", body.map unindented⟩ :: items ys := by
  have hlast : (head ++ " \x7b").toList.getLast? = some '\x7b' := getLast?_append (by decide)
  have hrest : ∀ l ∈ indent body ++ ["\x7d"], beginsItem l = false := by
    intro l hl
    rcases List.mem_append.1 hl with hl | hl
    · obtain ⟨l, -, rfl⟩ := List.mem_map.1 hl
      exact beginsItem_indentLine
    · obtain rfl := List.mem_singleton.1 hl
      decide
  rw [block_eq, List.cons_append, items_cons_of_begins (beginsItem_append h),
    items_append_of_not hrest, List.append_assoc, List.singleton_append, blockLines_of_opens hlast]

theorem map_unindented_indent (lines : List String) :
    (indent lines).map unindented = lines.map unindented := by
  simp [indent, Function.comp_def, unindented_indentLine]

theorem map_unindented_block (h : head.toList.head? ≠ some ' ') (hne : head ≠ "") :
    (block head body).map unindented = (head ++ " \x7b") :: body.map unindented ++ ["\x7d"] := by
  have hhead : unindented (head ++ " \x7b") = head ++ " \x7b" := by
    refine unindented_eq_self ?_
    rwa [String.toList_append, List.head?_append_of_ne_nil _ (mt String.toList_eq_nil_iff.1 hne)]
  have hclose : unindented "\x7d" = "\x7d" := by decide
  rw [block_eq, List.map_cons, List.map_append, List.map_singleton, hclose, hhead,
    map_unindented_indent]
  rfl

/-! ### Implementations -/

/-- The line that begins the implementation of a capability for a type. -/
def implementationHead (capability typeName : String) : String :=
  "impl " ++ capability ++ " for " ++ typeName ++ " \x7b"

/-- The item by which a type is written. -/
def encodingItem (typeName buffer : String) (body : List String) : Item :=
  ⟨implementationHead "BinaryEncode" typeName,
    ("fn encode(&self, " ++ buffer ++ ": &mut ::bytes::BytesMut) -> Result<(), CodecError>" ++
      " \x7b") :: body.map unindented ++ ["\x7d"]⟩

/-- The item by which a type is read. -/
def decodingItem (typeName buffer : String) (body : List String) : Item :=
  ⟨implementationHead "BinaryDecode" typeName,
    ("fn decode(" ++ buffer ++ ": &mut ::bytes::Bytes) -> Result<Self, CodecError>" ++
      " \x7b") :: body.map unindented ++ ["\x7d"]⟩

/-- Whether items are implementations for a type, each of one of the given capabilities. -/
def AreImplementations (capabilities : List String) (typeName : String) (others : List Item) : Prop :=
  ∀ i ∈ others, ∃ capability ∈ capabilities, i.head = implementationHead capability typeName

theorem items_implementation (capability typeName : String) {start : String}
    (h : start = "impl " ++ capability ++ " for ") :
    items (block (start ++ typeName) body ++ ys) =
      ⟨implementationHead capability typeName, body.map unindented⟩ :: items ys := by
  subst h
  exact items_block (beginsItem_append (beginsItem_append (beginsItem_append (by decide))))

theorem exists_items_implementation (capability typeName : String) {start : String}
    (h : start = "impl " ++ capability ++ " for ") (body : List String) :
    ∃ i : Item, i.head = implementationHead capability typeName ∧
      ∀ ys, items (block (start ++ typeName) body ++ ys) = i :: items ys :=
  ⟨_, rfl, fun _ => items_implementation capability typeName h⟩

theorem items_encodeImpl (typeName buffer : String) :
    items (encodeImpl typeName buffer body ++ ys) = encodingItem typeName buffer body :: items ys := by
  rw [encodeImpl, items_implementation "BinaryEncode" typeName (by decide),
    map_unindented_block (by simp) (ne_of_take_ne 1 (by simp))]
  rfl

theorem items_decodeImpl (typeName buffer : String) :
    items (decodeImpl typeName buffer body ++ ys) = decodingItem typeName buffer body :: items ys := by
  rw [decodeImpl, items_implementation "BinaryDecode" typeName (by decide),
    map_unindented_block (by simp) (ne_of_take_ne 1 (by simp))]
  rfl

theorem map_unindented_encodeImpl (typeName buffer : String) :
    (encodeImpl typeName buffer body).map unindented = implementationHead "BinaryEncode" typeName ::
      ((encodingItem typeName buffer body).body ++ ["\x7d"]) := by
  have hhead : "impl BinaryEncode for " = "impl " ++ "BinaryEncode" ++ " for " := by decide
  rw [encodeImpl, map_unindented_block (by simp) (ne_of_take_ne 1 (by simp)),
    map_unindented_block (by simp) (ne_of_take_ne 1 (by simp)), hhead]
  rfl

theorem map_unindented_decodeImpl (typeName buffer : String) :
    (decodeImpl typeName buffer body).map unindented = implementationHead "BinaryDecode" typeName ::
      ((decodingItem typeName buffer body).body ++ ["\x7d"]) := by
  have hhead : "impl BinaryDecode for " = "impl " ++ "BinaryDecode" ++ " for " := by decide
  rw [decodeImpl, map_unindented_block (by simp) (ne_of_take_ne 1 (by simp)),
    map_unindented_block (by simp) (ne_of_take_ne 1 (by simp)), hhead]
  rfl

/-! ### Definitions -/

theorem items_empty_cons : items ("" :: ys) = items ys := items_cons_of_not (by decide)

theorem items_header (prelude : String) (ys : List String) :
    items (header (some prelude) ++ ys) = ⟨"use " ++ prelude ++ "::*;", []⟩ :: items ys := by
  have hfront : header (some prelude) ++ ys = [marker, "", "#[allow(unused_imports)]"] ++
      ("use " ++ prelude ++ "::*;") :: ys := rfl
  rw [hfront, items_append_of_not (by decide), items_cons_of_closed (by simp [beginsItem])
    (getLast?_append_ne (by decide) (by decide))]

theorem items_enumerationLines (d : Definition) :
    ∃ others, AreImplementations ["BinaryEncode", "BinaryDecode"] d.name others ∧
      ∀ ys, items (d.enumerationLines ++ ys) =
        ⟨"pub struct " ++ d.name ++ "(pub " ++ d.integerType ++ ");", []⟩ ::
        ⟨"impl " ++ d.name ++ " \x7b", (d.constantLines ++ d.tableLines ++ [""] ++ d.lookupLines ++
          [""] ++ Definition.nameLines).map unindented⟩ :: (others ++ items ys) := by
  have hdescription (xs : List String) :
      items (("/// `" ++ d.name ++ "` enumeration.") :: xs) = items xs :=
    items_cons_of_not (by simp [beginsItem])
  have hderive (xs : List String) :
      items ("#[derive(Debug, Clone, Copy, Default, PartialEq, Eq, Hash, PartialOrd, Ord)]" :: xs) =
        items xs := items_cons_of_not (by decide)
  have hdeclaration (xs : List String) :
      items (("pub struct " ++ d.name ++ "(pub " ++ d.integerType ++ ");") :: xs) =
        ⟨"pub struct " ++ d.name ++ "(pub " ++ d.integerType ++ ");", []⟩ :: items xs :=
    items_cons_of_closed (by simp [beginsItem]) (getLast?_append_ne (by decide) (by decide))
  refine ⟨[encodingItem d.name "buf" ["self.0.encode(buf)"],
    decodingItem d.name "buf" [d.integerType ++ "::decode(buf).map(Self)"]], ?_, fun ys => ?_⟩
  · simp [AreImplementations, encodingItem, decodingItem]
  · simp only [Definition.enumerationLines, List.append_assoc, List.cons_append, List.nil_append,
      items_empty_cons, hdescription, hderive, hdeclaration]
    rw [items_block (beginsItem_append (by decide)), items_empty_cons, items_encodeImpl,
      items_empty_cons, items_decodeImpl]

/-- The item by which a structure is declared. -/
def declarationItem (d : Definition) : Item :=
  ⟨"pub struct " ++ d.name ++ if d.fields.isEmpty then " \x7b\x7d" else " \x7b",
    d.fields.map fun f => unindented f.declarationLine⟩

theorem items_declarationLines (d : Definition) :
    items (d.declarationLines ++ ys) = declarationItem d :: items ys := by
  rw [Definition.declarationLines, declarationItem]
  split
  · rename_i hempty
    rw [List.singleton_append, items_cons_of_closed (by simp [beginsItem])
      (getLast?_append_ne (by decide) (by decide)), List.isEmpty_iff.1 hempty]
    rfl
  · rw [items_block (beginsItem_append (by decide)), List.map_map]
    rfl

/-- The capabilities of a structure besides being written and read. -/
def bodyCapabilities : List String := ["ExtensionObjectBody", "Request", "Response"]

theorem items_capabilityLines (d : Definition) :
    ∃ others, AreImplementations bodyCapabilities d.name others ∧
      ∀ ys, items (d.capabilityLines ++ ys) = others ++ items ys := by
  have hheader {capability header ident : String} (hcapability : capability ∈ bodyCapabilities) :
      ∃ others, AreImplementations bodyCapabilities d.name others ∧
        ∀ ys, items (d.headerLines capability header ident ++ ys) = others ++ items ys := by
    obtain ⟨i, hi, hitems⟩ := exists_items_implementation capability d.name rfl
      (block ("fn header(&self) -> Option<&" ++ header ++ ">")
        ["self." ++ ident ++ ".as_deref()"] ++ [""] ++
      block ("fn set_header(&mut self, header: " ++ header ++ ")")
        ["self." ++ ident ++ " = Some(Box::new(header));"])
    refine ⟨[i], List.forall_mem_singleton.2 ⟨capability, hcapability, hi⟩, fun ys => ?_⟩
    rw [Definition.headerLines, List.append_assoc, List.singleton_append, items_empty_cons, hitems,
      List.singleton_append]
  unfold Definition.capabilityLines
  split
  · exact ⟨[], nofun, fun _ => rfl⟩
  · split
    · exact hheader (by decide)
    · split
      · exact hheader (by decide)
      · exact ⟨[], nofun, fun _ => rfl⟩

theorem items_objectLines (d : Definition) :
    ∃ others, AreImplementations bodyCapabilities d.name others ∧
      ∀ ys, items (d.objectLines ++ ys) = declarationItem d ::
        encodingItem d.name d.bufferName (d.fields.flatMap (·.encodeLines d.name) ++ ["Ok(())"]) ::
        decodingItem d.name d.bufferName
          (blockWith "Ok(Self " ")" (d.fields.flatMap (·.decodeLines d.name))) ::
        (others ++ items ys) := by
  have hdescription (xs : List String) : items (d.descriptionLine :: xs) = items xs := by
    refine items_cons_of_not ?_
    rw [Definition.descriptionLine]
    split <;> simp [beginsItem]
  have hderive (xs : List String) :
      items ("#[derive(Debug, Clone, Default, PartialEq)]" :: xs) = items xs :=
    items_cons_of_not (by decide)
  obtain ⟨i, hi, hbody⟩ : ∃ i : Item, i.head = implementationHead "ExtensionObjectBody" d.name ∧
      ∀ ys, items (d.bodyLines ++ ys) = i :: items ys :=
    exists_items_implementation "ExtensionObjectBody" d.name (by decide) _
  obtain ⟨others, hothers, hcapability⟩ := items_capabilityLines d
  refine ⟨i :: others, List.forall_mem_cons.2 ⟨⟨_, by decide, hi⟩, hothers⟩, fun ys => ?_⟩
  simp only [Definition.objectLines, Definition.encodeLines, Definition.decodeLines,
    List.append_assoc, List.cons_append, List.nil_append, items_empty_cons, hdescription, hderive,
    items_declarationLines, items_encodeImpl, items_decodeImpl, hbody, hcapability]

end Source

end OpcWire
