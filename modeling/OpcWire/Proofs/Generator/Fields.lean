import Mathlib.Data.List.Forall2
import OpcWire.Proofs.Generator.Hierarchy

/-!
# What fields are defined as

`Dictionary.StandsFor` says what the name of a type stands for, and `Dictionary.ElementType` what
the values of a field are, or its elements if it is an array. Neither asks in which order names are
tried; as structures do not share names with enumerated types, there is at most one answer
(`ElementType.unique`), and it is the one that is found (`elementOf?_eq_some_iff`).

The fields of a structure are defined one by one (`fieldDefinitions_spec`) unless the type of one is
unknown or two of them have the same identifier.
-/

namespace OpcWire

namespace Builtin

theorem ofTypeName?_eq_some_iff {name : String} {b : Builtin} :
    ofTypeName? name = some b ↔ name = b.typeName := by
  constructor
  · intro h
    exact (by simpa using List.find?_some h : b.typeName = name).symm
  · rintro rfl
    cases b <;> decide

theorem ofTypeName?_own (name : String) : ofTypeName? ("tns:" ++ name) = none := by
  refine Option.eq_none_iff_forall_ne_some.2 fun b h => ?_
  have hb : Naming.dropStart? "tns:" b.typeName = some name :=
    Naming.dropStart?_eq_some_iff.2 (ofTypeName?_eq_some_iff.1 h).symm
  cases b <;> simp [typeName, Naming.dropStart?] at hb

theorem ofTypeName?_known :
    ∀ n ∈ FieldType.knownTypes, ofTypeName? ("ua:" ++ n) = none := by decide

end Builtin

theorem Naming.dropStart?_own_foreign (name : String) :
    dropStart? "tns:" ("ua:" ++ name) = none := by
  simp [dropStart?, String.toList_append]

namespace Dictionary

variable (d : Dictionary) (roots : HierarchyRoots)

/-- No structure has the name of an enumerated type. -/
def NamesFresh : Prop := ∀ s ∈ d.structures, ∀ e ∈ d.enumerations, s.name ≠ e.name

/-- What the qualified name of a type stands for. -/
inductive StandsFor (typeName : String) : FieldType → Prop
  /-- For a simple built-in type. -/
  | builtin {b : Builtin} (h : typeName = b.typeName) : StandsFor typeName (.builtin b)
  /-- For an enumerated type of the dictionary. -/
  | enumeration {e : EnumeratedType} (he : e ∈ d.enumerations) (h : typeName = "tns:" ++ e.name) :
      StandsFor typeName (.enumeration e.name)
  /-- For a member of the hierarchy. -/
  | object {s : StructuredType} (hs : s ∈ d.structures) (hends : d.ChainEnds roots s true)
      (h : typeName = "tns:" ++ s.name) : StandsFor typeName (.reference s.name)
  /-- For a structured built-in type. -/
  | known {n : String} (hn : n ∈ FieldType.knownTypes) (h : typeName = "ua:" ++ n) :
      StandsFor typeName (.reference n)

/-- What the values of a field are, or its elements if it is an array. -/
inductive ElementType (f : Field) : FieldType → Prop
  /-- A field of this name holds attribute identifiers, whatever its type. -/
  | attributeId (h : FieldType.equalIgnoringCase f.name FieldType.attributeIdName = true) :
      ElementType f (.enumeration FieldType.attributeIdName)
  /-- Any other field holds what its type stands for. -/
  | named {t : FieldType}
      (h : FieldType.equalIgnoringCase f.name FieldType.attributeIdName = false)
      (ht : d.StandsFor roots f.typeName t) : ElementType f t

/-- How a field is defined. -/
structure DefinesField (f : Field) (g : Definition.Field) : Prop where
  /-- It keeps its name. -/
  name : g.name = f.name
  /-- Its identifier is made from the name. -/
  ident : g.ident = Naming.fieldIdent f.name
  /-- It holds a sequence if it is an array. -/
  type : ∃ t, d.ElementType roots f t ∧ g.type = if f.isArray then .sequence t else t

/-- Fields may refer to the enumerated types of the dictionary and to the members of the
hierarchy. -/
structure IsScope (scope : FieldType.Scope) : Prop where
  /-- All enumerated types. -/
  enumerations : scope.enumerations = d.enumerationNames
  /-- The structures whose chain ends in a root. -/
  structures : ∀ n, n ∈ scope.structures ↔
    ∃ s ∈ d.structures, s.name = n ∧ d.ChainEnds roots s true

variable {d roots} {scope : FieldType.Scope}

/-! ### Types -/

theorem ofTypeName?_eq_some_iff (hfresh : d.NamesFresh) (hscope : d.IsScope roots scope)
    {typeName : String} {t : FieldType} :
    FieldType.ofTypeName? scope typeName = some t ↔ d.StandsFor roots typeName t := by
  have henum (n : String) : scope.enumerations.contains n = true ↔
      ∃ e ∈ d.enumerations, e.name = n := by
    rw [List.contains_iff_mem, hscope.enumerations, enumerationNames, List.mem_map]
  have hobject (n : String) : scope.structures.contains n = true ↔
      ∃ s ∈ d.structures, s.name = n ∧ d.ChainEnds roots s true := by
    rw [List.contains_iff_mem, hscope.structures]
  constructor
  · -- the cases are the namespaces, in the order in which they are tried
    intro h
    rw [FieldType.ofTypeName?] at h
    cases hbuiltin : Builtin.ofTypeName? typeName with
    | some b =>
      simp only [hbuiltin] at h
      cases h
      exact .builtin (Builtin.ofTypeName?_eq_some_iff.1 hbuiltin)
    | none =>
      cases hown : Naming.dropStart? "tns:" typeName with
      | some name =>
        simp only [hbuiltin, hown] at h
        obtain rfl := Naming.dropStart?_eq_some_iff.1 hown
        by_cases hname : scope.enumerations.contains name = true
        · rw [if_pos hname] at h
          obtain ⟨e, he, rfl⟩ := (henum name).1 hname
          cases h
          exact .enumeration he rfl
        · rw [if_neg hname] at h
          obtain ⟨hname, ⟨⟩⟩ := Option.ite_none_right_eq_some.1 h
          obtain ⟨s, hs, rfl, hends⟩ := (hobject name).1 hname
          exact .object hs hends rfl
      | none =>
        cases hforeign : Naming.dropStart? "ua:" typeName with
        | some name =>
          simp only [hbuiltin, hown, hforeign] at h
          obtain ⟨hknown, ⟨⟩⟩ := Option.ite_none_right_eq_some.1 h
          exact .known (List.contains_iff_mem.1 hknown) (Naming.dropStart?_eq_some_iff.1 hforeign)
        | none =>
          simp only [hbuiltin, hown, hforeign] at h
          cases h
  · intro h
    rw [FieldType.ofTypeName?]
    cases h with
    | builtin h => rw [Builtin.ofTypeName?_eq_some_iff.2 h]
    | enumeration he h =>
      rw [h, Builtin.ofTypeName?_own, Naming.dropStart?_eq_some_iff.2 rfl]
      exact if_pos ((henum _).2 ⟨_, he, rfl⟩)
    | @object s hs hends h =>
      have hno : ¬ scope.enumerations.contains s.name = true := by
        intro hname
        obtain ⟨e, he, hename⟩ := (henum _).1 hname
        exact hfresh s hs e he hename.symm
      rw [h, Builtin.ofTypeName?_own, Naming.dropStart?_eq_some_iff.2 rfl]
      exact (if_neg hno).trans (if_pos ((hobject _).2 ⟨s, hs, rfl, hends⟩))
    | known hn h =>
      rw [h, Builtin.ofTypeName?_known _ hn, Naming.dropStart?_own_foreign,
        Naming.dropStart?_eq_some_iff.2 rfl]
      exact if_pos (List.contains_iff_mem.2 hn)

theorem elementOf?_eq_some_iff (hfresh : d.NamesFresh) (hscope : d.IsScope roots scope)
    {f : Field} {t : FieldType} :
    FieldType.elementOf? scope f = some t ↔ d.ElementType roots f t := by
  rw [FieldType.elementOf?]
  cases hname : FieldType.equalIgnoringCase f.name FieldType.attributeIdName with
  | true =>
    rw [if_pos rfl]
    constructor
    · rintro ⟨⟩
      exact .attributeId hname
    · intro h
      cases h with
      | attributeId => rfl
      | named hname' => cases hname.symm.trans hname'
  | false =>
    rw [if_neg Bool.false_ne_true, ofTypeName?_eq_some_iff hfresh hscope]
    constructor
    · exact .named hname
    · intro h
      cases h with
      | attributeId hname' => cases hname.symm.trans hname'
      | named _ ht => exact ht

theorem exists_isScope (roots : HierarchyRoots) : ∃ scope, d.IsScope roots scope := by
  classical
  let members := d.structures.filter fun s => d.ChainEnds roots s true
  refine ⟨⟨d.enumerationNames, members.map (·.name)⟩, rfl, fun n => ?_⟩
  simp only [List.mem_map, members, List.mem_filter, decide_eq_true_eq]
  exact exists_congr fun s => and_assoc.trans (and_congr_right fun _ => and_comm)

theorem ElementType.unique (hfresh : d.NamesFresh) {f : Field} {t t' : FieldType}
    (h : d.ElementType roots f t) (h' : d.ElementType roots f t') : t = t' := by
  obtain ⟨scope, hscope⟩ := d.exists_isScope roots
  have ht := (elementOf?_eq_some_iff hfresh hscope).2 h
  have ht' := (elementOf?_eq_some_iff hfresh hscope).2 h'
  exact Option.some.inj (ht.symm.trans ht')

theorem ElementType.mono {d' : Dictionary} (hstructures : d.structures ⊆ d'.structures)
    (henumerations : d.enumerations ⊆ d'.enumerations) {f : Field} {t : FieldType}
    (h : d.ElementType roots f t) : d'.ElementType roots f t := by
  cases h with
  | attributeId hname => exact .attributeId hname
  | named hname ht =>
    refine .named hname ?_
    cases ht with
    | builtin h => exact .builtin h
    | enumeration he h => exact .enumeration (henumerations he) h
    | object hs hends h => exact .object (hstructures hs) (hends.mono hstructures) h
    | known hn h => exact .known hn h

theorem DefinesField.unique (hfresh : d.NamesFresh) {f : Field} {g g' : Definition.Field}
    (h : d.DefinesField roots f g) (h' : d.DefinesField roots f g') : g = g' := by
  obtain ⟨t, ht, htype⟩ := h.type
  obtain ⟨t', ht', htype'⟩ := h'.type
  obtain rfl := ht.unique hfresh ht'
  cases g
  cases g'
  simp only [Definition.Field.mk.injEq]
  exact ⟨h.name.trans h'.name.symm, h.ident.trans h'.ident.symm, htype.trans htype'.symm⟩

theorem DefinesField.mono {d' : Dictionary} (hstructures : d.structures ⊆ d'.structures)
    (henumerations : d.enumerations ⊆ d'.enumerations) {f : Field} {g : Definition.Field}
    (h : d.DefinesField roots f g) : d'.DefinesField roots f g where
  name := h.name
  ident := h.ident
  type :=
    let ⟨t, ht, htype⟩ := h.type
    ⟨t, ht.mono hstructures henumerations, htype⟩

/-! ### Fields of a structure -/

/-- The type of a field is found if it has one; otherwise the error names the field. -/
theorem ofField_spec (hfresh : d.NamesFresh) (hscope : d.IsScope roots scope) (owner : String)
    (f : Field) :
    (∃ t, d.ElementType roots f t ∧
        FieldType.ofField scope owner f = .ok (if f.isArray then .sequence t else t)) ∨
      (∀ t, ¬ d.ElementType roots f t) ∧
        FieldType.ofField scope owner f = .error (.unknownFieldType owner f.name f.typeName) := by
  rw [FieldType.ofField]
  cases hfound : FieldType.elementOf? scope f with
  | some t => exact .inl ⟨t, (elementOf?_eq_some_iff hfresh hscope).1 hfound, rfl⟩
  | none =>
    refine .inr ⟨fun t ht => ?_, rfl⟩
    rw [(elementOf?_eq_some_iff hfresh hscope).2 ht] at hfound
    cases hfound

/-- **The fields of a structure are defined one by one**, or one is to blame. -/
theorem fieldDefinitions_spec (hfresh : d.NamesFresh) (hscope : d.IsScope roots scope)
    (owner : String) (taken : List String) (fields : List Field) :
    let idents := fields.map fun f => Naming.fieldIdent f.name
    (∃ defined, fieldDefinitions scope owner taken fields = .ok defined ∧
        List.Forall₂ (d.DefinesField roots) fields defined ∧
        (taken.Nodup → (taken ++ idents).Nodup)) ∨
      (∃ f ∈ fields, (∀ t, ¬ d.ElementType roots f t) ∧
        fieldDefinitions scope owner taken fields =
          .error (.unknownFieldType owner f.name f.typeName)) ∨
      ∃ ident, 1 < (taken ++ idents).count ident ∧
        fieldDefinitions scope owner taken fields = .error (.duplicateField owner ident) := by
  induction fields generalizing taken with
  | nil => exact .inl ⟨[], rfl, .nil, by simp⟩
  | cons f rest ih =>
    rw [fieldDefinitions]
    simp only [List.map_cons]
    -- the identifier is one of those taken for the fields that follow
    have hperm : (taken ++ Naming.fieldIdent f.name ::
        rest.map fun f => Naming.fieldIdent f.name).Perm
          (Naming.fieldIdent f.name :: taken ++ rest.map fun f => Naming.fieldIdent f.name) :=
      List.perm_middle
    by_cases htaken : taken.contains (Naming.fieldIdent f.name) = true
    · refine .inr (.inr ⟨Naming.fieldIdent f.name, ?_, if_pos htaken⟩)
      have hcount := List.count_pos_iff.2 (List.contains_iff_mem.1 htaken)
      rw [hperm.count_eq, List.cons_append, List.count_cons_self, List.count_append]
      omega
    · rw [if_neg htaken]
      rcases ofField_spec hfresh hscope owner f with ⟨t, ht, hf⟩ | ⟨hno, hf⟩
      · rcases ih (Naming.fieldIdent f.name :: taken) with
          ⟨defined, hrest, hall, hnodup⟩ | ⟨g, hg, hno, hrest⟩ | ⟨ident, hcount, hrest⟩
        · refine .inl ⟨_, bind_eq_ok_iff.2 ⟨_, hf, bind_eq_ok_iff.2 ⟨_, hrest, rfl⟩⟩, ?_, ?_⟩
          · exact .cons ⟨rfl, rfl, t, ht, rfl⟩ hall
          · intro h
            have hfree : Naming.fieldIdent f.name ∉ taken := fun hmem =>
              htaken (List.contains_iff_mem.2 hmem)
            exact hperm.nodup_iff.2 (hnodup (List.nodup_cons.2 ⟨hfree, h⟩))
        · refine .inr (.inl ⟨g, List.mem_cons_of_mem f hg, hno, ?_⟩)
          exact bind_eq_error_iff.2 (.inr ⟨_, hf, bind_eq_error_iff.2 (.inl hrest)⟩)
        · refine .inr (.inr ⟨ident, hperm.count_eq ident ▸ hcount, ?_⟩)
          exact bind_eq_error_iff.2 (.inr ⟨_, hf, bind_eq_error_iff.2 (.inl hrest)⟩)
      · exact .inr (.inl ⟨f, List.mem_cons_self, hno, bind_eq_error_iff.2 (.inl hf)⟩)

end Dictionary

end OpcWire
