import OpcWire.Proofs.Generator.Enumerations
import OpcWire.Proofs.Generator.Resolution
import OpcWire.Proofs.Generator.Run

/-!
# Generated definitions are closed

What is generated in one run refers to nothing but itself and what is known beforehand
(`definitions_closed`). Enumerations and structures have names of their own; a field holds a simple
built-in type, an enumeration, a structure, or a sequence of such; and the enumerations and
structures that are named are generated too, or known beforehand. A structure outside the hierarchy,
which is not generated, is not referred to: where its name occurs, it is the name of a type that is
known beforehand.

Requests and responses are told by their first field, which refers to a header that is generated.
-/

namespace OpcWire

/-! ### Names of enumerations -/

namespace Dictionary

theorem names_of_enumerationDefinitionsFrom {taken : List String} {types : List EnumeratedType}
    {enumerations : List Definition}
    (h : enumerationDefinitionsFrom taken types = .ok enumerations) :
    enumerations.map (·.name) = types.map (·.name) ∧ (types.map (·.name)).Nodup ∧
      ∀ e ∈ types, e.name ∉ taken := by
  obtain ⟨⟨hnodup, hfree⟩, hdefined⟩ := enumerationDefinitionsFrom_eq_ok_iff.1 h
  refine ⟨map_eq_map_of_forall₂ hdefined fun e a ha => ?_, hnodup, fun e he => ?_⟩
  · exact (EnumeratedType.definition_eq_ok_iff.1 ha).2.name
  · exact hfree e.name (List.mem_map_of_mem he)

end Dictionary

/-! ### Fields -/

/-- What a field holds, or its elements if it holds a sequence. -/
def FieldType.element : FieldType → FieldType
  | sequence item => item
  | t => t

/-- What the values of a field, or the elements of an array, may be when `enumerations` and
`objects` are generated. -/
inductive FieldType.IsAvailable (enumerations objects : List Definition) : FieldType → Prop
  /-- A simple built-in type. -/
  | builtin (b : Builtin) : IsAvailable enumerations objects (.builtin b)
  /-- An attribute identifier. -/
  | attributeId : IsAvailable enumerations objects (.enumeration attributeIdName)
  /-- A generated enumeration. -/
  | enumeration {e : Definition} (he : e ∈ enumerations) :
      IsAvailable enumerations objects (.enumeration e.name)
  /-- A structured built-in type. -/
  | known {n : String} (hn : n ∈ knownTypes) : IsAvailable enumerations objects (.reference n)
  /-- A generated structure. -/
  | object {o : Definition} (ho : o ∈ objects) :
      IsAvailable enumerations objects (.reference o.name)

theorem FieldType.IsAvailable.element_eq {enumerations objects : List Definition} {t : FieldType}
    (h : t.IsAvailable enumerations objects) : t.element = t := by
  cases h <;> rfl

namespace Dictionary

variable {d : Dictionary} {roots : HierarchyRoots} {enumerations objects : List Definition}

theorem ElementType.isAvailable (hnames : enumerations.map (·.name) = d.enumerationNames)
    (hobjects : d.Resolves roots objects) {f : Field} {t : FieldType}
    (h : d.ElementType roots f t) : t.IsAvailable enumerations objects := by
  cases h with
  | attributeId => exact .attributeId
  | named _ ht =>
    cases ht with
    | builtin => exact .builtin _
    | @enumeration e he =>
      have hmem : e.name ∈ enumerations.map (·.name) := hnames ▸ List.mem_map_of_mem he
      obtain ⟨a, ha, hname⟩ := List.mem_map.1 hmem
      exact hname ▸ .enumeration ha
    | object hs hends =>
      obtain ⟨a, ha, hdefines⟩ := hobjects.exists_definition hs hends
      exact hdefines.name ▸ .object ha
    | known hn => exact .known hn

theorem DefinesField.isAvailable (hnames : enumerations.map (·.name) = d.enumerationNames)
    (hobjects : d.Resolves roots objects) {f : Field} {g : Definition.Field}
    (h : d.DefinesField roots f g) : g.type.element.IsAvailable enumerations objects := by
  obtain ⟨t, ht, htype⟩ := h.type
  have havailable := ht.isAvailable hnames hobjects
  cases harray : f.isArray with
  | true =>
    rw [htype, harray, if_pos rfl]
    exact havailable
  | false =>
    rw [htype, harray, if_neg Bool.false_ne_true, havailable.element_eq]
    exact havailable

theorem mem_of_isAvailable {t : FieldType} {n : String} (h : t.IsAvailable enumerations objects)
    (hn : t.target? = some n) :
    n ∈ (enumerations ++ objects).map (·.name) ∨
      n ∈ FieldType.attributeIdName :: FieldType.knownTypes := by
  cases h with
  | builtin => cases hn
  | attributeId =>
    cases hn
    exact .inr List.mem_cons_self
  | enumeration he =>
    cases hn
    exact .inl (List.mem_map_of_mem (List.mem_append_left _ he))
  | known hknown =>
    cases hn
    exact .inr (List.mem_cons_of_mem _ hknown)
  | object ho =>
    cases hn
    exact .inl (List.mem_map_of_mem (List.mem_append_right _ ho))

theorem StandsFor.of_own {name : String} {t : FieldType} (h : d.StandsFor roots ("tns:" ++ name) t) :
    (∃ e ∈ d.enumerations, e.name = name) ∨
      ∃ s ∈ d.structures, d.ChainEnds roots s true ∧ s.name = name := by
  cases h with
  | builtin h =>
    have hnone := Builtin.ofTypeName?_own name
    rw [Builtin.ofTypeName?_eq_some_iff.2 h] at hnone
    cases hnone
  | enumeration he h => exact .inl ⟨_, he, ((String.append_right_inj "tns:").1 h).symm⟩
  | object hs hends h => exact .inr ⟨_, hs, hends, ((String.append_right_inj "tns:").1 h).symm⟩
  | @known n hn h =>
    exact absurd h.symm (Naming.dropStart?_eq_none_iff.1 (Naming.dropStart?_own_foreign n) name)

/-- A field of a member whose type is a structure outside the hierarchy holds attribute
identifiers. -/
theorem attributeId_of_outside (hd : d.WellFormed roots) (hobjects : d.Resolves roots objects)
    {s r : StructuredType} (hs : s ∈ d.structures) (houtside : ∀ o ∈ objects, o.name ≠ s.name)
    (hr : r ∈ d.structures) (hmember : ∃ o ∈ objects, o.name = r.name) {f : Field}
    (hf : f ∈ r.dataFields) (htypeName : f.typeName = "tns:" ++ s.name) :
    FieldType.equalIgnoringCase f.name FieldType.attributeIdName = true := by
  obtain ⟨o, ho, hname⟩ := hmember
  obtain ⟨r', hr', hends, hdefines⟩ := hobjects.exists_source ho
  obtain rfl := hd.distinct.eq hr' hr (hdefines.name.symm.trans hname)
  obtain ⟨t, ht⟩ := hd.types r' hr' hends f hf
  cases ht with
  | attributeId hattribute => exact hattribute
  | named _ ht =>
    rw [htypeName] at ht
    rcases ht.of_own with ⟨e, he, hename⟩ | ⟨s', hs', hends', hs'name⟩
    · exact absurd hename.symm (hd.fresh s hs e he)
    · obtain ⟨o', ho', hdefines'⟩ := hobjects.exists_definition hs' hends'
      exact absurd (hdefines'.name.trans hs'name) (houtside o' ho')

/-! ### Headers -/

/-- The first field with a wire form refers to the structure called `header` of the dictionary, and
is no array. -/
def StructuredType.StartsWith (s : StructuredType) (header : String) : Prop :=
  ∃ f rest, s.dataFields = f :: rest ∧ f.isArray = false ∧
    FieldType.equalIgnoringCase f.name FieldType.attributeIdName = false ∧
    f.typeName = "tns:" ++ header

theorem startsWith_eq_true_iff {a : Definition} {header : String} : a.startsWith header = true ↔
    ∃ g rest, a.fields = g :: rest ∧ g.type = .reference header := by
  rw [Definition.startsWith]
  cases a.fields with
  | nil => simp
  | cons g rest => simp [FieldType.isReferenceTo]

/-- **What starts with a header** is what its first field says, and the header is generated. -/
theorem Defines.startsWith_iff (hfresh : d.NamesFresh) (hobjects : d.Resolves roots objects)
    {s : StructuredType} {a : Definition} {header : String}
    (hheader : header ∉ FieldType.knownTypes) (h : d.Defines roots s a) :
    a.startsWith header = true ↔ s.StartsWith header ∧ ∃ o ∈ objects, o.name = header := by
  have hfields := h.fields
  rw [startsWith_eq_true_iff]
  constructor
  · rintro ⟨g, rest, hg, hreference⟩
    rw [hg] at hfields
    obtain ⟨f, fs, hfg, -, hf⟩ := List.forall₂_cons_right_iff.1 hfields
    obtain ⟨t, ht, htype⟩ := hfg.type
    rw [hreference] at htype
    cases harray : f.isArray with
    | true =>
      rw [harray, if_pos rfl] at htype
      cases htype
    | false =>
      rw [harray, if_neg Bool.false_ne_true] at htype
      subst htype
      cases ht with
      | named hname ht =>
        cases ht with
        | known hn => exact absurd hn hheader
        | object hs hends htypeName =>
          obtain ⟨o, ho, hdefines⟩ := hobjects.exists_definition hs hends
          exact ⟨⟨f, fs, hf, harray, hname, htypeName⟩, o, ho, hdefines.name⟩
  · rintro ⟨⟨f, fs, hf, harray, hname, htypeName⟩, o, ho, rfl⟩
    rw [hf] at hfields
    obtain ⟨g, gs, hfg, -, hg⟩ := List.forall₂_cons_left_iff.1 hfields
    obtain ⟨t, ht, htype⟩ := hfg.type
    obtain ⟨s', hs', hends', hdefines⟩ := hobjects.exists_source ho
    have hobject : d.ElementType roots f (.reference o.name) :=
      hdefines.name ▸ .named hname (.object hs' hends' (hdefines.name ▸ htypeName))
    refine ⟨g, gs, hg, ?_⟩
    rw [htype, harray, if_neg Bool.false_ne_true, ht.unique hfresh hobject]

end Dictionary

theorem Definition.startsWith_unique {a : Definition} {header header' : String}
    (h : a.startsWith header = true) (h' : a.startsWith header' = true) : header = header' := by
  obtain ⟨g, rest, hg, htype⟩ := Dictionary.startsWith_eq_true_iff.1 h
  obtain ⟨g', rest', hg', htype'⟩ := Dictionary.startsWith_eq_true_iff.1 h'
  cases hg.symm.trans hg'
  exact FieldType.reference.inj (htype.symm.trans htype')

/-- Access to a header is given through the first field, which refers to it, or not at all. -/
theorem Definition.capabilityLines_eq (a : Definition) :
    a.capabilityLines = [] ∨ ∃ capability header g rest, a.startsWith header = true ∧
      header ∉ FieldType.knownTypes ∧ a.fields = g :: rest ∧ g.type = .reference header ∧
        a.capabilityLines = a.headerLines capability header g.ident := by
  have hheader (capability : String) {header : String} (hknown : header ∉ FieldType.knownTypes)
      (h : a.startsWith header = true)
      (hlines : ∀ g rest, a.fields = g :: rest →
        a.capabilityLines = a.headerLines capability header g.ident) :
      ∃ capability header g rest, a.startsWith header = true ∧
        header ∉ FieldType.knownTypes ∧ a.fields = g :: rest ∧ g.type = .reference header ∧
          a.capabilityLines = a.headerLines capability header g.ident := by
    obtain ⟨g, rest, hg, htype⟩ := Dictionary.startsWith_eq_true_iff.1 h
    exact ⟨capability, header, g, rest, h, hknown, hg, htype, hlines g rest hg⟩
  cases hrequest : a.isRequest with
  | true =>
    refine .inr (hheader "Request" (by decide) hrequest fun g rest hg => ?_)
    rw [capabilityLines, hg]
    exact if_pos hrequest
  | false =>
    cases hresponse : a.isResponse with
    | true =>
      refine .inr (hheader "Response" (by decide) hresponse fun g rest hg => ?_)
      rw [capabilityLines, hg]
      simp only [hrequest, hresponse, if_true, Bool.false_eq_true, if_false]
    | false =>
      refine .inl ?_
      rw [capabilityLines]
      split
      · rfl
      · simp only [hrequest, hresponse, Bool.false_eq_true, if_false]

/-- **Generated definitions are closed.** Definitions have names of their own, and their fields hold
what is generated with them or known beforehand. Structures that are not generated are not referred
to: fields that hold their names mean types that are known beforehand, and a field of the dictionary
whose type is such a structure holds attribute identifiers instead. A definition is a request or a
response if and only if its first field refers to the header of one, which is generated, and it is
not both; access to a header is given through that field. -/
theorem definitions_closed (d : Dictionary) (table : Option IdTable) (options : GenerateOptions)
    (files : GeneratedFiles) (h : d.generate table options = .ok files) :
    ∃ enumerations objects, d.enumerationDefinitions = .ok enumerations ∧
      d.objectDefinitions options.roots = .ok objects ∧
      ((enumerations ++ objects).map (·.name)).Nodup ∧
      (∀ a ∈ objects, ∀ g ∈ a.fields, g.type.element.IsAvailable enumerations objects) ∧
      (∀ s ∈ d.structures, (∀ o ∈ objects, o.name ≠ s.name) →
        (∀ a ∈ objects, ∀ g ∈ a.fields, g.type.element.target? = some s.name →
          s.name ∈ FieldType.attributeIdName :: FieldType.knownTypes) ∧
        ∀ r ∈ d.structures, (∃ o ∈ objects, o.name = r.name) → ∀ f ∈ r.dataFields,
          f.typeName = "tns:" ++ s.name →
          FieldType.equalIgnoringCase f.name FieldType.attributeIdName = true) ∧
      ∀ a ∈ objects, ∃ s ∈ d.structures, d.Defines options.roots s a ∧
        (a.isRequest = true ↔
          s.StartsWith "RequestHeader" ∧ ∃ o ∈ objects, o.name = "RequestHeader") ∧
        (a.isResponse = true ↔
          s.StartsWith "ResponseHeader" ∧ ∃ o ∈ objects, o.name = "ResponseHeader") ∧
        ¬ (a.isRequest = true ∧ a.isResponse = true) ∧
        (a.capabilityLines = [] ∨ ∃ capability g rest, a.fields = g :: rest ∧
          ∃ o ∈ objects, g.type = .reference o.name ∧
            a.capabilityLines = a.headerLines capability o.name g.ident) := by
  obtain ⟨enumerations, objects, -, henumerations, hobjects, -⟩ := Dictionary.generate_eq_ok_iff.1 h
  have hd := Dictionary.wellFormed_of_objectDefinitions hobjects
  have hresolves := Dictionary.resolves_of_objectDefinitions hobjects
  obtain ⟨hnames, hnodup, -⟩ := Dictionary.names_of_enumerationDefinitionsFrom henumerations
  -- enumerations and structures do not share names, since their types do not
  have hdisjoint : ∀ n ∈ enumerations.map (·.name), n ∉ d.structures.map (·.name) := by
    intro n hn hmem
    rw [hnames] at hn
    obtain ⟨e, he, rfl⟩ := List.mem_map.1 hn
    obtain ⟨s, hs, hname⟩ := List.mem_map.1 hmem
    exact hd.fresh s hs e he hname
  have havailable (a : Definition) (ha : a ∈ objects) (g : Definition.Field) (hg : g ∈ a.fields) :
      g.type.element.IsAvailable enumerations objects := by
    obtain ⟨s, -, -, hdefines⟩ := hresolves.exists_source ha
    obtain ⟨f, -, hfg⟩ := exists_left_of_forall₂ hdefines.fields hg
    exact hfg.isAvailable hnames hresolves
  refine ⟨enumerations, objects, henumerations, hobjects, ?_, havailable, ?_, ?_⟩
  · rw [List.map_append, List.nodup_append]
    refine ⟨hnames ▸ hnodup, hresolves.nodup_names hd, ?_⟩
    rintro n hn _ hmem rfl
    exact hdisjoint n hn (hresolves.sublist_names.subset hmem)
  · intro s hs houtside
    have hnone : s.name ∉ (enumerations ++ objects).map (·.name) := by
      rw [List.map_append, List.mem_append]
      rintro (henum | hobject)
      · exact hdisjoint _ henum (List.mem_map_of_mem hs)
      · obtain ⟨o, ho, hname⟩ := List.mem_map.1 hobject
        exact houtside o ho hname
    constructor
    · intro a ha g hg htarget
      exact (Dictionary.mem_of_isAvailable (havailable a ha g hg) htarget).resolve_left hnone
    · intro r hr hmember f hf htypeName
      exact Dictionary.attributeId_of_outside hd hresolves hs houtside hr hmember hf htypeName
  · intro a ha
    obtain ⟨s, hs, -, hdefines⟩ := hresolves.exists_source ha
    have hstarts {header : String} (hheader : header ∉ FieldType.knownTypes) :
        a.startsWith header = true ↔ s.StartsWith header ∧ ∃ o ∈ objects, o.name = header :=
      hdefines.startsWith_iff hd.fresh hresolves hheader
    refine ⟨s, hs, hdefines, hstarts (by decide), hstarts (by decide), ?_, ?_⟩
    · rintro ⟨hrequest, hresponse⟩
      exact absurd (Definition.startsWith_unique hrequest hresponse) (by decide)
    · refine a.capabilityLines_eq.imp_right ?_
      rintro ⟨capability, header, g, rest, hheader, hknown, hg, htype, hlines⟩
      obtain ⟨-, o, ho, rfl⟩ := (hstarts hknown).1 hheader
      exact ⟨capability, g, rest, hg, o, ho, htype, hlines⟩

/-- A dictionary with a request, its header, and a structure outside the hierarchy that has the name
of a type known beforehand. -/
def greetingDictionary : Dictionary where
  targetNamespace := "http://opcfoundation.org/UA/"
  enumerations := [⟨"Mood", 8, [⟨"Glad", 0⟩]⟩]
  structures :=
    [ ⟨"GreetRequest", some "ua:ExtensionObject",
        [ ⟨"RequestHeader", "tns:RequestHeader", none⟩, ⟨"Mood", "tns:Mood", none⟩,
          ⟨"AttributeId", "tns:NodeId", none⟩, ⟨"NoOfGuests", "opc:Int32", none⟩,
          ⟨"Guests", "ua:NodeId", some "NoOfGuests"⟩ ]⟩,
      ⟨"NodeId", none, []⟩,
      ⟨"RequestHeader", some "ua:ExtensionObject", [⟨"Handle", "opc:UInt32", none⟩]⟩ ]

/-- The definition of the request. -/
def greetRequest : Definition where
  name := "GreetRequest"
  kind := .object
  repr := none
  base := some "ExtensionObject"
  fields :=
    [ ⟨"RequestHeader", "request_header", .reference "RequestHeader"⟩,
      ⟨"Mood", "mood", .enumeration "Mood"⟩,
      ⟨"AttributeId", "attribute_id", .enumeration "AttributeId"⟩,
      ⟨"Guests", "guests", .sequence (.reference "NodeId")⟩ ]
  members := []

/-- The request has a header that is generated, and its guests are node identifiers, not the
structure of that name. -/
theorem definitions_closed_greeting :
    ∃ files objects, greetingDictionary.generate none .standard = .ok files ∧
      greetingDictionary.objectDefinitions .standard = .ok objects ∧ greetRequest ∈ objects ∧
      greetRequest.isRequest = true ∧ (∃ o ∈ objects, o.name = "RequestHeader") ∧
      (∀ o ∈ objects, o.name ≠ "NodeId") ∧
      "NodeId" ∈ FieldType.attributeIdName :: FieldType.knownTypes := by
  have henumerations : greetingDictionary.enumerationDefinitions.isOk = true := by decide +kernel
  have hnames : (greetingDictionary.objectDefinitions .standard).map (fun objects =>
      (objects.head?, objects.map (·.name))) =
        .ok (some greetRequest, ["GreetRequest", "RequestHeader"]) := by decide +kernel
  obtain ⟨enumerations, henumerations⟩ := exists_of_isOk henumerations
  have hobjects : (greetingDictionary.objectDefinitions .standard).isOk = true := by decide +kernel
  obtain ⟨objects, hobjects⟩ := exists_of_isOk hobjects
  rw [hobjects] at hnames
  have hfiles : greetingDictionary.generate none .standard = .ok _ :=
    Dictionary.generate_eq_ok_iff.2
      ⟨enumerations, objects, none, henumerations, hobjects, nofun, rfl, rfl⟩
  obtain ⟨-, objects', -, hobjects', -, -, houtside, hall⟩ :=
    definitions_closed greetingDictionary none .standard _ hfiles
  obtain rfl := Except.ok.inj (hobjects.symm.trans hobjects')
  obtain ⟨hhead, hnames⟩ := Prod.mk.inj (Except.ok.inj hnames)
  have hrequest : greetRequest ∈ objects := List.mem_of_head? hhead
  have hnodeId (o : Definition) (ho : o ∈ objects) : o.name ≠ "NodeId" := by
    have hname : o.name ∈ ["GreetRequest", "RequestHeader"] :=
      hnames ▸ List.mem_map_of_mem ho
    intro heq
    rw [heq] at hname
    exact absurd hname (by decide)
  obtain ⟨s, -, -, hiff, -⟩ := hall greetRequest hrequest
  have hknown := (houtside ⟨"NodeId", none, []⟩ (by decide) hnodeId).1 greetRequest hrequest
    ⟨"Guests", "guests", .sequence (.reference "NodeId")⟩ (by decide) rfl
  exact ⟨_, objects, hfiles, hobjects, hrequest, rfl, (hiff.1 rfl).2, hnodeId, hknown⟩

end OpcWire
