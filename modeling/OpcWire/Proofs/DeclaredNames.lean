import OpcWire.Proofs.Generator.Run
import OpcWire.Proofs.Source.Unbroken
import OpcWire.Proofs.Source.WireForms

/-!
# Names that generated files declare

The file of structures declares two capabilities, `Request` and `Response`, and each structure; the
file of enumerations declares each enumeration. A run has checked that all types of the dictionary
have names of their own, but it has not compared them with the names of the capabilities. So no name
is declared twice in the file of enumerations, and none in the file of structures if and only if no
structure is called like a capability (`items_declared_once_iff`). A structure that is called like
one is accepted all the same (`items_declared_twice_request`).
-/

namespace OpcWire

namespace Source

variable {line name rest : String} {ds : List Definition}

/-! ### Lines that declare -/

theorem declaredName?_eq_none_of_take (h : line.toList.take 1 ≠ ['p']) :
    declaredName? line = none := by
  rw [declaredName?, dropStart?_eq_none_of_take 1 h (by decide),
    dropStart?_eq_none_of_take 1 h (by decide)]
  rfl

theorem declaredName?_eq_none_of_not_begins (h : beginsItem line = false) :
    declaredName? line = none := by
  have hnone {start : String} (hstart : beginsItem start = true) :
      Naming.dropStart? start line = none := by
    refine Naming.dropStart?_eq_none_iff.2 fun rest => ?_
    rintro rfl
    exact Bool.false_ne_true (h.symm.trans (beginsItem_append hstart))
  rw [declaredName?, hnone (by decide), hnone (by decide)]
  rfl

section Lists

variable {xs ys : List String}

theorem declaredNames_cons_some (h : declaredName? line = some name) :
    declaredNames (line :: xs) = name :: declaredNames xs :=
  List.filterMap_cons_some h

theorem declaredNames_cons_none (h : declaredName? line = none) :
    declaredNames (line :: xs) = declaredNames xs :=
  List.filterMap_cons_none h

theorem declaredNames_append_of_none (h : ∀ line ∈ xs, declaredName? line = none) :
    declaredNames (xs ++ ys) = declaredNames ys := by
  rw [declaredNames, List.filterMap_append, List.filterMap_eq_nil_iff.2 h]
  rfl

theorem declaredNames_items (lines : List String) :
    declaredNames ((items lines).map Item.head) = declaredNames lines := by
  induction lines with
  | nil => rfl
  | cons line rest ih =>
    by_cases h : beginsItem line = true
    · rw [items_cons_of_begins h, List.map_cons, declaredNames, declaredNames, List.filterMap_cons,
        List.filterMap_cons, ← declaredNames, ← declaredNames, ih]
    · have hnot := Bool.eq_false_iff.2 h
      rw [items_cons_of_not hnot, ih,
        declaredNames_cons_none (declaredName?_eq_none_of_not_begins hnot)]

end Lists

/-- Whether a text begins with a character that ends a name. -/
def EndsName (rest : String) : Prop :=
  ∃ c ∈ [' ', '(', ':'], rest.toList.head? = some c

theorem takeWhile_name (h : Naming.IsIdentifier name) (hrest : EndsName rest) :
    String.ofList ((name ++ rest).toList.takeWhile fun c => !(c == ' ' || c == '(' || c == ':')) =
      name := by
  have hname : ∀ c ∈ name.toList, (!(c == ' ' || c == '(' || c == ':')) = true := by
    intro c hc
    have hne {x : Char} (hx : Naming.isIdentifierChar x = false) : (c == x) = false :=
      beq_eq_false_iff_ne.2 fun heq => h.not_mem hx (heq ▸ hc)
    rw [hne (by decide), hne (by decide), hne (by decide)]
    rfl
  obtain ⟨c, hc, hhead⟩ := hrest
  obtain ⟨chars, hchars⟩ := List.head?_eq_some_iff.1 hhead
  have hstop : (c :: chars).takeWhile (fun c => !(c == ' ' || c == '(' || c == ':')) = [] := by
    simp only [List.mem_cons, List.not_mem_nil, or_false] at hc
    rcases hc with rfl | rfl | rfl <;> rfl
  rw [String.toList_append, hchars, List.takeWhile_append_of_pos hname, hstop, List.append_nil,
    String.ofList_toList]

theorem declaredName?_struct (h : Naming.IsIdentifier name) (hrest : EndsName rest) :
    declaredName? ("pub struct " ++ name ++ rest) = some name := by
  rw [declaredName?, String.append_assoc, Naming.dropStart?_eq_some_iff.2 rfl]
  exact congrArg some (takeWhile_name h hrest)

theorem declaredName?_implementationHead (capability typeName : String) :
    declaredName? (implementationHead capability typeName) = none :=
  declaredName?_eq_none_of_take (by simp [implementationHead])

theorem AreImplementations.declaredName?_eq_none {capabilities : List String} {typeName : String}
    {others : List Item} (h : AreImplementations capabilities typeName others) :
    ∀ head ∈ others.map Item.head, declaredName? head = none := by
  intro head hhead
  obtain ⟨i, hi, rfl⟩ := List.mem_map.1 hhead
  obtain ⟨capability, -, himplements⟩ := h i hi
  rw [himplements, declaredName?_implementationHead]

/-! ### Definitions -/

section Definitions

variable {d : Definition} (h : Naming.IsIdentifier d.name) (ys : List String)

include h

omit ys in
theorem declaredName?_declarationItem : declaredName? (declarationItem d).head = some d.name := by
  rw [declarationItem]
  refine declaredName?_struct h ?_
  split <;> exact ⟨' ', by decide, rfl⟩

omit ys in
theorem declaredName?_wrapped :
    declaredName? ("pub struct " ++ d.name ++ "(pub " ++ d.integerType ++ ");") = some d.name := by
  rw [String.append_assoc, String.append_assoc]
  exact declaredName?_struct h ⟨'(', by decide, by simp⟩

theorem declaredNames_objectLines :
    declaredNames (d.objectLines ++ ys) = d.name :: declaredNames ys := by
  obtain ⟨others, hothers, hitems⟩ := items_objectLines d
  have hencoding (body : List String) :
      declaredName? (encodingItem d.name d.bufferName body).head = none :=
    declaredName?_implementationHead _ _
  have hdecoding (body : List String) :
      declaredName? (decodingItem d.name d.bufferName body).head = none :=
    declaredName?_implementationHead _ _
  rw [← declaredNames_items, hitems, List.map_cons, List.map_cons, List.map_cons, List.map_append,
    declaredNames_cons_some (declaredName?_declarationItem h), declaredNames_cons_none (hencoding _),
    declaredNames_cons_none (hdecoding _),
    declaredNames_append_of_none hothers.declaredName?_eq_none, declaredNames_items]

theorem declaredNames_enumerationLines :
    declaredNames (d.enumerationLines ++ ys) = d.name :: declaredNames ys := by
  obtain ⟨others, hothers, hitems⟩ := items_enumerationLines d
  have himplementation : declaredName? ("impl " ++ d.name ++ " \x7b") = none :=
    declaredName?_eq_none_of_take (by simp)
  rw [← declaredNames_items, hitems, List.map_cons, List.map_cons, List.map_append (f := Item.head),
    declaredNames_cons_some (declaredName?_wrapped h), declaredNames_cons_none himplementation,
    declaredNames_append_of_none hothers.declaredName?_eq_none, declaredNames_items]

end Definitions

theorem declaredNames_flatMap_lines (h : ∀ d ∈ ds, Naming.IsIdentifier d.name) :
    declaredNames (ds.flatMap Definition.lines) = ds.map (·.name) := by
  induction ds with
  | nil => rfl
  | cons d rest ih =>
    obtain ⟨hd, hrest⟩ := List.forall_mem_cons.1 h
    rw [List.flatMap_cons, Definition.lines]
    split
    · rw [declaredNames_enumerationLines hd, ih hrest, List.map_cons]
    · rw [declaredNames_objectLines hd, ih hrest, List.map_cons]

theorem declaredNames_messageCapabilityLines :
    declaredNames messageCapabilityLines = ["Request", "Response"] := by
  have hrequest : declaredName? (capabilityItem "Request" "RequestHeader").head = some "Request" := by
    decide
  have hresponse : declaredName? (capabilityItem "Response" "ResponseHeader").head =
      some "Response" := by
    decide
  have hitems : items messageCapabilityLines =
      [capabilityItem "Request" "RequestHeader", capabilityItem "Response" "ResponseHeader"] := by
    rw [messageCapabilityLines, items_capability,
      ← List.append_nil (capabilityLines "Response" "response" "ResponseHeader"), items_capability]
    rfl
  rw [← declaredNames_items, hitems, List.map_cons, List.map_singleton,
    declaredNames_cons_some hrequest, declaredNames_cons_some hresponse]
  rfl

/-! ### Files -/

/-- What a line declares is read unless the line is torn. -/
theorem mem_declaredNames_render {lines : List String} (hline : line ∈ lines) (h : OneLine line)
    (hname : declaredName? line = some name) :
    name ∈ declaredNames (Text.lines (render lines)) := by
  rw [lines_render]
  refine List.mem_filterMap.2 ⟨line, List.mem_flatMap.2 ⟨line, hline, ?_⟩, hname⟩
  rw [piecesOf_eq_self h.isLine]
  exact List.mem_singleton_self line

theorem head_mem_of_mem_items {i : Item} {lines : List String} (h : i ∈ items lines) :
    i.head ∈ lines := by
  induction lines with
  | nil => cases h
  | cons line rest ih =>
    rw [items] at h
    split at h
    · rcases List.mem_cons.1 h with rfl | h
      · exact List.mem_cons_self
      · exact List.mem_cons_of_mem _ (ih h)
    · exact List.mem_cons_of_mem _ (ih h)

/-- Whatever else definitions are made of, the text of each of them declares it. -/
theorem mem_declaredNames_lines {d : Definition} (h : Naming.IsIdentifier d.name) :
    d.name ∈ declaredNames (Text.lines (render d.lines)) := by
  have hname := oneLine_of_isIdentifier h
  rw [Definition.lines]
  split
  · have hmem : "pub struct " ++ d.name ++ "(pub " ++ d.integerType ++ ");" ∈ d.enumerationLines := by
      simp [Definition.enumerationLines]
    have hinteger : OneLine d.integerType := oneLine_render _
    refine mem_declaredNames_render hmem ?_ (declaredName?_wrapped h)
    simp only [oneLine_append, hname, hinteger, and_true]
    decide
  · obtain ⟨others, -, hitems⟩ := items_objectLines d
    have hline : OneLine (declarationItem d).head := by
      rw [declarationItem]
      split <;> simp [hname] <;> decide
    have hitem : declarationItem d ∈ items d.objectLines := by
      rw [← List.append_nil d.objectLines, hitems]
      exact List.mem_cons_self
    exact mem_declaredNames_render (head_mem_of_mem_items hitem) hline (declaredName?_declarationItem h)

theorem sublist_declaredNames (h : ∀ d ∈ ds, Naming.IsIdentifier d.name) :
    (ds.map (·.name)).Sublist (declaredNames (Text.lines (render (ds.flatMap Definition.lines)))) := by
  induction ds with
  | nil => exact List.nil_sublist _
  | cons d rest ih =>
    obtain ⟨hd, hrest⟩ := List.forall_mem_cons.1 h
    rw [List.flatMap_cons, lines_render_append, declaredNames, List.filterMap_append, List.map_cons,
      ← List.singleton_append]
    exact (List.singleton_sublist.2 (mem_declaredNames_lines hd)).append (ih hrest)

theorem sublist_declaredNames_objectFile (prelude : String)
    (h : ∀ d ∈ ds, Naming.IsIdentifier d.name) :
    ("Request" :: "Response" :: ds.map (·.name)).Sublist
      (declaredNames (Text.lines (objectFile prelude ds))) := by
  have hfront : declaredNames (Text.lines (render messageCapabilityLines)) =
      ["Request", "Response"] := by
    have hlines : OneLines messageCapabilityLines := by decide +kernel
    rw [hlines.lines_render, declaredNames_messageCapabilityLines]
  have hfile : declaredNames (Text.lines (objectFile prelude ds)) =
      declaredNames (Text.lines (render (header (some prelude)))) ++ (["Request", "Response"] ++
        declaredNames (Text.lines (render (ds.flatMap Definition.lines)))) := by
    rw [objectFile, lines_render_append, lines_render_append, declaredNames, List.filterMap_append,
      List.filterMap_append, List.append_assoc, ← hfront]
    rfl
  have hnames := (sublist_declaredNames h).append_left ["Request", "Response"]
  rw [hfile]
  exact hnames.trans (List.sublist_append_right _ _)

theorem sublist_declaredNames_enumerationFile (prelude : String)
    (h : ∀ d ∈ ds, Naming.IsIdentifier d.name) :
    (ds.map (·.name)).Sublist (declaredNames (Text.lines (enumerationFile prelude ds))) := by
  rw [enumerationFile, lines_render_append, declaredNames, List.filterMap_append]
  exact (sublist_declaredNames h).trans (List.sublist_append_right _ _)

theorem declaredNames_header (prelude : String) (ys : List String) :
    declaredNames (header (some prelude) ++ ys) = declaredNames ys := by
  have huse : declaredName? ("use " ++ prelude ++ "::*;") = none :=
    declaredName?_eq_none_of_take (by simp)
  rw [← declaredNames_items, items_header, List.map_cons, declaredNames_cons_none huse,
    declaredNames_items]

section Files

variable {prelude : String} (h : ∀ d ∈ ds, Naming.IsIdentifier d.name)

include h

theorem declaredNames_objectFile (hprelude : '\n' ∉ prelude.toList)
    (hlines : AreLines (ds.flatMap Definition.lines)) :
    declaredNames (Text.lines (objectFile prelude ds)) =
      "Request" :: "Response" :: ds.map (·.name) := by
  rw [lines_objectFile hprelude hlines, List.append_assoc, declaredNames_header, declaredNames,
    List.filterMap_append, ← declaredNames, ← declaredNames, declaredNames_messageCapabilityLines,
    declaredNames_flatMap_lines h]
  rfl

theorem declaredNames_enumerationFile (hprelude : OneLine prelude)
    (hlines : OneLines (ds.flatMap Definition.lines)) :
    declaredNames (Text.lines (enumerationFile prelude ds)) = ds.map (·.name) := by
  rw [lines_enumerationFile hprelude hlines, declaredNames_header, declaredNames_flatMap_lines h]

end Files

end Source

/-- Structures with names of their own are called like nothing else unless one of them is called
like a capability. -/
theorem Source.nodup_capabilities_iff {objects : List Definition}
    (h : (objects.map (·.name)).Nodup) :
    ("Request" :: "Response" :: objects.map (·.name)).Nodup ↔
      ∀ a ∈ objects, a.name ≠ "Request" ∧ a.name ≠ "Response" := by
  rw [List.nodup_cons, List.nodup_cons, and_iff_left h]
  simp [forall_and]

namespace Dictionary

variable {d : Dictionary} {table : Option IdTable} {options : GenerateOptions}
  {files : GeneratedFiles}

/-- The names of all types of a dictionary. -/
def typeNames (d : Dictionary) : List String :=
  d.enumerations.map (·.name) ++ d.structures.map (·.name)

theorem nodup_typeNames_of_generate (h : d.generate table options = .ok files) :
    d.typeNames.Nodup := by
  obtain ⟨enumerations, objects, -, henumerations, hobjects, -⟩ := generate_eq_ok_iff.1 h
  have hfaithful := (enumerationDefinitions_eq_ok_iff.1 henumerations).1
  have hwellFormed := wellFormed_of_objectDefinitions hobjects
  refine List.nodup_append.2 ⟨hfaithful.distinct, hwellFormed.distinct, ?_⟩
  intro n hn m hm heq
  obtain ⟨e, he, rfl⟩ := List.mem_map.1 hn
  obtain ⟨s, hs, rfl⟩ := List.mem_map.1 hm
  exact hwellFormed.fresh s hs e he heq.symm

end Dictionary

/-- **No name is declared twice if and only if no structure is called like a capability**, which is
not checked. -/
theorem items_declared_once_iff (d : Dictionary) (table : Option IdTable) (options : GenerateOptions)
    (hd : d.HasIdentifiers) :
    (¬ d.typeNames.Nodup → ∃ e, d.generate table options = .error e) ∧
    ∀ files, d.generate table options = .ok files →
      ∃ objects, d.objectDefinitions options.roots = .ok objects ∧
        ("Request" :: "Response" :: objects.map (·.name)).Sublist
          (Source.declaredNames (Text.lines files.objects)) ∧
        (d.enumerations.map (·.name)).Sublist
          (Source.declaredNames (Text.lines files.enumerations)) ∧
        (Source.OneLine options.prelude → d.IsUnbroken →
          Source.declaredNames (Text.lines files.objects) =
            "Request" :: "Response" :: objects.map (·.name)) ∧
        (Source.OneLine options.prelude →
          (∀ e ∈ d.enumerations, ∀ m ∈ e.members, Source.OneLine m.name) →
          Source.declaredNames (Text.lines files.enumerations) = d.enumerations.map (·.name)) ∧
        (d.enumerations.map (·.name)).Nodup ∧
        (("Request" :: "Response" :: objects.map (·.name)).Nodup ↔
          ∀ a ∈ objects, a.name ≠ "Request" ∧ a.name ≠ "Response") := by
  constructor
  · intro hnodup
    cases hrun : d.generate table options with
    | error e => exact ⟨e, rfl⟩
    | ok files => exact absurd (Dictionary.nodup_typeNames_of_generate hrun) hnodup
  · intro files h
    obtain ⟨enumerations, objects, -, henumerations, hobjects, -, -, rfl⟩ :=
      Dictionary.generate_eq_ok_iff.1 h
    obtain ⟨hfaithful, hdefines⟩ := Dictionary.enumerationDefinitions_eq_ok_iff.1 henumerations
    have hwellFormed := Dictionary.wellFormed_of_objectDefinitions hobjects
    have hresolves := Dictionary.resolves_of_objectDefinitions hobjects
    -- definitions have the names of their types, which are identifiers
    have hobjectNames : ∀ a ∈ objects, Naming.IsIdentifier a.name := by
      intro a ha
      obtain ⟨s, hs, -, hsa⟩ := hresolves.exists_source ha
      exact hsa.name ▸ hd.structures s hs
    have henumerationNames : ∀ a ∈ enumerations, Naming.IsIdentifier a.name := by
      intro a ha
      obtain ⟨e, he, hea⟩ := exists_left_of_forall₂ hdefines ha
      exact hea.name ▸ hd.enumerations e he
    have hnames : enumerations.map (·.name) = d.enumerations.map (·.name) :=
      map_eq_map_of_forall₂ hdefines fun e a hea => hea.name
    dsimp only
    refine ⟨objects, hobjects, Source.sublist_declaredNames_objectFile _ hobjectNames, ?_,
      fun hprelude hunbroken => ?_, fun hprelude hmembers => ?_, hfaithful.distinct, ?_⟩
    · rw [← hnames]
      exact Source.sublist_declaredNames_enumerationFile _ henumerationNames
    · refine Source.declaredNames_objectFile hobjectNames hprelude.1
        (Source.areLines_flatMap_lines fun a ha => ?_)
      obtain ⟨s, hs, -, hsa⟩ := hresolves.exists_source ha
      exact ⟨hsa.kind, Source.oneLine_of_isIdentifier (hobjectNames a ha),
        hsa.isUnbroken hd hunbroken hs⟩
    · rw [← hnames]
      refine Source.declaredNames_enumerationFile henumerationNames hprelude
        (Source.oneLines_flatMap_enumerationLines fun a ha => ?_)
      obtain ⟨e, he, hea⟩ := exists_left_of_forall₂ hdefines ha
      exact ⟨hea.kind, hea.isUnbroken (Source.oneLine_of_isIdentifier (hd.enumerations e he))
        (hmembers e he)⟩
    · exact Source.nodup_capabilities_iff (hresolves.nodup_names hwellFormed)

/-- A structure without fields that may travel in an extension object. -/
def emptyStructure (name : String) : Dictionary.StructuredType := ⟨name, some "ua:ExtensionObject", []⟩

/-- The definition of a structure without fields. -/
def emptyDefinition (name : String) : Definition :=
  ⟨name, .object, none, some "ExtensionObject", [], []⟩

/-- The options of a run that uses the module `crate::prelude`. -/
def preludeOptions : GenerateOptions := ⟨"crate::prelude", .standard⟩

theorem Dictionary.exists_files (d : Dictionary) (options : GenerateOptions)
    (enumerations : List Definition) {objects : List Definition}
    (henumerations : d.enumerationDefinitions = .ok enumerations)
    (hobjects : d.objectDefinitions options.roots = .ok objects) :
    ∃ files, d.generate none options = .ok files ∧
      files.objects = Source.objectFile options.prelude objects := by
  refine ⟨⟨Source.enumerationFile options.prelude enumerations,
    Source.objectFile options.prelude objects,
    Source.objectRegistrationFile options.prelude objects,
    Source.serviceRegistrationFile options.prelude objects, none⟩, ?_, ?_⟩
  · exact Dictionary.generate_eq_ok_iff.2
      ⟨enumerations, objects, none, henumerations, hobjects, nofun, rfl, rfl⟩
  · dsimp only

/-- A colour and a shape. -/
def drawing : Dictionary where
  targetNamespace := "urn:drawing"
  enumerations := [⟨"Colour", 8, [⟨"Red", 1⟩]⟩]
  structures := [emptyStructure "Shape"]

theorem items_declared_once_iff_drawing :
    ∃ files, drawing.generate none preludeOptions = .ok files ∧
      Source.declaredNames (Text.lines files.objects) = ["Request", "Response", "Shape"] ∧
      Source.declaredNames (Text.lines files.enumerations) = ["Colour"] := by
  have hobjects : drawing.objectDefinitions .standard = .ok [emptyDefinition "Shape"] := by
    decide +kernel
  obtain ⟨files, hfiles, -⟩ := drawing.exists_files preludeOptions
    [⟨"Colour", .enumeration, some .bits8, none, [], [⟨"RED", "Red", 1⟩]⟩] (by decide +kernel)
    hobjects
  have hidentifiers : drawing.HasIdentifiers := ⟨by decide, by decide⟩
  obtain ⟨objects, hok, -, -, hread, hread', -⟩ :=
    (items_declared_once_iff drawing none preludeOptions hidentifiers).2 files hfiles
  obtain rfl : [emptyDefinition "Shape"] = objects := Except.ok.inj (hobjects.symm.trans hok)
  have hunbroken : drawing.IsUnbroken := List.forall_mem_singleton.2 ⟨by decide, nofun⟩
  exact ⟨files, hfiles, hread (by decide) hunbroken, hread' (by decide) (by decide)⟩

/-- A structure that is called like the capability of requests. -/
def requests : Dictionary where
  targetNamespace := "urn:requests"
  enumerations := []
  structures := [emptyStructure "Request"]

/-- It is declared under the name that the capability has, and is accepted. -/
theorem items_declared_twice_request :
    requests.HasIdentifiers ∧ ∃ files, requests.generate none preludeOptions = .ok files ∧
      Source.declaredNames (Text.lines files.objects) = ["Request", "Response", "Request"] ∧
      ¬ ["Request", "Response", "Request"].Nodup := by
  have hobjects : requests.objectDefinitions .standard = .ok [emptyDefinition "Request"] := by
    decide +kernel
  obtain ⟨files, hfiles, hfile⟩ := requests.exists_files preludeOptions [] rfl hobjects
  refine ⟨⟨by decide, by decide⟩, files, hfiles, ?_, by decide⟩
  rw [hfile]
  refine Source.declaredNames_objectFile (by decide) (by decide) (Source.areLines_flatMap_lines ?_)
  exact List.forall_mem_singleton.2 ⟨rfl, by decide, by decide, by decide, by decide⟩

end OpcWire
