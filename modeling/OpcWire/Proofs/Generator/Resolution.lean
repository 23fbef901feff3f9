import OpcWire.Proofs.Generator.Fields

/-!
# Resolving a dictionary

`Dictionary.WellFormed` says of a dictionary what resolving asks of it, `Dictionary.Resolves` what
the definitions of its members are, and `Dictionary.Fault` what an error tells. A dictionary is
resolved, or the error tells the truth (`objectDefinitions_spec`); and no error tells the truth of a
well-formed dictionary (`Fault.not_wellFormed`).
-/

namespace OpcWire

open Relation (TransGen)

/-! ### Lists side by side -/

section

variable {α β : Type} {R : α → β → Prop} {l : List α} {m : List β}

theorem exists_right_of_forall₂ (h : List.Forall₂ R l m) {a : α} (ha : a ∈ l) :
    ∃ b ∈ m, R a b := by
  induction h with
  | nil => cases ha
  | @cons a' b l m hab _ ih =>
    rcases List.mem_cons.1 ha with rfl | ha
    · exact ⟨b, List.mem_cons_self, hab⟩
    · obtain ⟨b', hb', hab'⟩ := ih ha
      exact ⟨b', List.mem_cons_of_mem b hb', hab'⟩

theorem exists_left_of_forall₂ (h : List.Forall₂ R l m) {b : β} (hb : b ∈ m) :
    ∃ a ∈ l, R a b :=
  exists_right_of_forall₂ (List.Forall₂.flip (R := flip R) h) hb

theorem map_eq_map_of_forall₂ {γ : Type} {f : α → γ} {g : β → γ} (h : List.Forall₂ R l m)
    (hfg : ∀ a b, R a b → g b = f a) : m.map g = l.map f := by
  induction h with
  | nil => rfl
  | cons hab _ ih => rw [List.map_cons, List.map_cons, hfg _ _ hab, ih]

end

/-! ### Definitions and faults -/

namespace Dictionary

variable (d : Dictionary) (roots : HierarchyRoots)

/-- How a member of the hierarchy is defined. -/
structure Defines (s : StructuredType) (a : Definition) : Prop where
  /-- It keeps its name. -/
  name : a.name = s.name
  /-- It is a structure. -/
  kind : a.kind = .object
  /-- It has no integer type. -/
  repr : a.repr = none
  /-- Its base is named without its namespace. -/
  base : a.base = s.baseType.map Naming.stripNamespace
  /-- Its fields are those with a wire form, in their order. -/
  fields : List.Forall₂ (d.DefinesField roots) s.dataFields a.fields
  /-- It has no members. -/
  members : a.members = []

/-- What is asked of a dictionary. -/
structure WellFormed : Prop where
  /-- Structures have names of their own. -/
  distinct : d.NamesDistinct
  /-- They do not share them with enumerated types. -/
  fresh : d.NamesFresh
  /-- The chain of every structure ends. -/
  ends : ∀ s ∈ d.structures, ∃ isMember, d.ChainEnds roots s isMember
  /-- In a member of the hierarchy, fields with a wire form have identifiers of their own. -/
  idents : ∀ s ∈ d.structures, d.ChainEnds roots s true →
    (s.dataFields.map fun f => Naming.fieldIdent f.name).Nodup
  /-- They have types. -/
  types : ∀ s ∈ d.structures, d.ChainEnds roots s true →
    ∀ f ∈ s.dataFields, ∃ t, d.ElementType roots f t

/-- The definitions are those of the members of the hierarchy, in the order of the dictionary. -/
def Resolves (objects : List Definition) : Prop :=
  ∃ members, members.Sublist d.structures ∧
    (∀ s ∈ d.structures, s ∈ members ↔ d.ChainEnds roots s true) ∧
    List.Forall₂ (d.Defines roots) members objects

/-- What an error tells of a dictionary. -/
inductive Fault : GenerateError → Prop
  /-- A structure is defined twice, or has the name of an enumerated type. -/
  | duplicateType {s : StructuredType} (hs : s ∈ d.structures)
      (h : 1 < (d.structures.map (·.name)).count s.name ∨ ∃ e ∈ d.enumerations, e.name = s.name) :
      Fault (.duplicateType s.name)
  /-- The base of a structure is no root, is in the namespace of the dictionary, and is not
  defined. -/
  | unresolvedBase {s : StructuredType} {name : String} (hs : s ∈ d.structures)
      (hbase : s.baseType = some ("tns:" ++ name)) (hroot : roots.contains ("tns:" ++ name) = false)
      (h : ∀ t ∈ d.structures, t.name ≠ name) : Fault (.unresolvedBase s.name ("tns:" ++ name))
  /-- The chain of a structure comes back to it. -/
  | baseCycle {s : StructuredType} (hs : s ∈ d.structures)
      (h : TransGen (d.Extends roots) s s) : Fault (.baseCycle s.name)
  /-- A field of a member has no type. -/
  | unknownFieldType {s : StructuredType} {f : Field} (hs : s ∈ d.structures)
      (hends : d.ChainEnds roots s true) (hf : f ∈ s.dataFields)
      (h : ∀ t, ¬ d.ElementType roots f t) : Fault (.unknownFieldType s.name f.name f.typeName)
  /-- Two fields of a member have the same identifier. -/
  | duplicateField {s : StructuredType} {ident : String} (hs : s ∈ d.structures)
      (hends : d.ChainEnds roots s true)
      (h : 1 < (s.dataFields.map fun f => Naming.fieldIdent f.name).count ident) :
      Fault (.duplicateField s.name ident)

variable {d roots} {scope : FieldType.Scope} {s : StructuredType}

/-! ### Names -/

theorem checkNames_spec (taken : List String) (structures : List StructuredType) :
    checkNames taken structures = .ok () ∨
      ∃ s ∈ structures, checkNames taken structures = .error (.duplicateType s.name) ∧
        (1 < (structures.map (·.name)).count s.name ∨ s.name ∈ taken) := by
  induction structures generalizing taken with
  | nil => exact .inl rfl
  | cons s rest ih =>
    rw [checkNames]
    by_cases htaken : taken.contains s.name = true
    · rw [if_pos htaken]
      exact .inr ⟨s, List.mem_cons_self, rfl, .inr (List.contains_iff_mem.1 htaken)⟩
    · rw [if_neg htaken]
      refine (ih (s.name :: taken)).imp_right ?_
      rintro ⟨t, ht, herror, hcause⟩
      refine ⟨t, List.mem_cons_of_mem s ht, herror, ?_⟩
      have hcount := List.count_pos_iff.2 (List.mem_map_of_mem (f := (·.name)) ht)
      rw [List.mem_cons, ← or_assoc] at hcause
      refine hcause.imp_left ?_
      rintro (htwice | hname)
      · rw [List.map_cons]
        exact Nat.lt_of_lt_of_le htwice List.count_le_count_cons
      · rw [List.map_cons, hname, List.count_cons_self, ← hname]
        omega

/-! ### Structures -/

theorem Defines.unique (hfresh : d.NamesFresh) {a a' : Definition} (h : d.Defines roots s a)
    (h' : d.Defines roots s a') : a = a' := by
  have hfields : a.fields = a'.fields :=
    List.right_unique_forall₂' (fun _ _ _ hg hg' => hg.unique hfresh hg') h.fields h'.fields
  cases a
  cases a'
  simp only [Definition.mk.injEq]
  exact ⟨h.name.trans h'.name.symm, h.kind.trans h'.kind.symm, h.repr.trans h'.repr.symm,
    h.base.trans h'.base.symm, hfields, h.members.trans h'.members.symm⟩

theorem Defines.mono {d' : Dictionary} (hstructures : d.structures ⊆ d'.structures)
    (henumerations : d.enumerations ⊆ d'.enumerations) {a : Definition}
    (h : d.Defines roots s a) : d'.Defines roots s a where
  name := h.name
  kind := h.kind
  repr := h.repr
  base := h.base
  fields := h.fields.imp fun _ _ hfg => hfg.mono hstructures henumerations
  members := h.members

theorem definition_spec (hfresh : d.NamesFresh) (hscope : d.IsScope roots scope)
    (hs : s ∈ d.structures) (hends : d.ChainEnds roots s true) :
    (∃ a, s.definition scope = .ok a ∧ d.Defines roots s a ∧
        (s.dataFields.map fun f => Naming.fieldIdent f.name).Nodup) ∨
      ∃ e, s.definition scope = .error e ∧ d.Fault roots e := by
  rcases fieldDefinitions_spec hfresh hscope s.name [] s.dataFields with
    ⟨defined, hfields, hall, hnodup⟩ | ⟨f, hf, hno, hfields⟩ | ⟨ident, hcount, hfields⟩
  · refine .inl ⟨_, bind_eq_ok_iff.2 ⟨defined, hfields, rfl⟩, ?_, hnodup .nil⟩
    exact ⟨rfl, rfl, rfl, rfl, hall, rfl⟩
  · exact .inr ⟨_, bind_eq_error_iff.2 (.inl hfields), .unknownFieldType hs hends hf hno⟩
  · exact .inr ⟨_, bind_eq_error_iff.2 (.inl hfields), .duplicateField hs hends hcount⟩

theorem mapM_definition_spec (hfresh : d.NamesFresh) (hscope : d.IsScope roots scope)
    {members : List StructuredType}
    (hmembers : ∀ s ∈ members, s ∈ d.structures ∧ d.ChainEnds roots s true) :
    (∃ objects, members.mapM (·.definition scope) = .ok objects ∧
        List.Forall₂ (d.Defines roots) members objects ∧
        ∀ s ∈ members, (s.dataFields.map fun f => Naming.fieldIdent f.name).Nodup) ∨
      ∃ e, members.mapM (·.definition scope) = .error e ∧ d.Fault roots e := by
  induction members with
  | nil => exact .inl ⟨[], rfl, .nil, nofun⟩
  | cons s rest ih =>
    obtain ⟨⟨hs, hends⟩, hrest⟩ := List.forall_mem_cons.1 hmembers
    rw [List.mapM_cons]
    rcases definition_spec hfresh hscope hs hends with ⟨a, ha, hdefines, hidents⟩ | ⟨e, he, hfault⟩
    · rcases ih hrest with ⟨objects, hobjects, hall, hnodup⟩ | ⟨e, he, hfault⟩
      · refine .inl ⟨a :: objects, ?_, .cons hdefines hall, ?_⟩
        · exact bind_eq_ok_iff.2 ⟨a, ha, bind_eq_ok_iff.2 ⟨objects, hobjects, rfl⟩⟩
        · exact List.forall_mem_cons.2 ⟨hidents, hnodup⟩
      · exact .inr ⟨e, bind_eq_error_iff.2 (.inr ⟨a, ha, bind_eq_error_iff.2 (.inl he)⟩), hfault⟩
    · exact .inr ⟨e, bind_eq_error_iff.2 (.inl he), hfault⟩

/-! ### The dictionary -/

theorem Blames.fault {e : GenerateError} (hs : s ∈ d.structures) (h : d.Blames roots s e) :
    d.Fault roots e := by
  cases h with
  | cycle h => exact .baseCycle hs h
  | undefined h =>
    cases h with
    | undefined hbase hroot hnone => exact .unresolvedBase hs hbase hroot hnone

/-- No error tells the truth of a well-formed dictionary. -/
theorem Fault.not_wellFormed {e : GenerateError} (h : d.Fault roots e) : ¬ d.WellFormed roots := by
  intro hd
  cases h with
  | duplicateType hs h =>
    rcases h with htwice | ⟨e, he, hname⟩
    · have hle := List.nodup_iff_count_le_one.1 hd.distinct
      exact absurd htwice (Nat.not_lt.2 (hle _))
    · exact hd.fresh _ hs e he hname.symm
  | unresolvedBase hs hbase hroot hnone =>
    obtain ⟨isMember, hends⟩ := hd.ends _ hs
    exact hends.not_undefined hd.distinct (.undefined hbase hroot hnone)
  | baseCycle hs h =>
    obtain ⟨isMember, hends⟩ := hd.ends _ hs
    exact hends.not_cycle hd.distinct h
  | unknownFieldType hs hends hf hno =>
    obtain ⟨t, ht⟩ := hd.types _ hs hends _ hf
    exact hno t ht
  | duplicateField hs hends htwice =>
    have hle := List.nodup_iff_count_le_one.1 (hd.idents _ hs hends)
    exact absurd htwice (Nat.not_lt.2 (hle _))

/-- **A dictionary is well-formed and resolved, or the error tells the truth.** -/
theorem objectDefinitions_spec (d : Dictionary) (roots : HierarchyRoots) :
    (∃ objects, d.objectDefinitions roots = .ok objects ∧ d.WellFormed roots ∧
        d.Resolves roots objects) ∨
      ∃ e, d.objectDefinitions roots = .error e ∧ d.Fault roots e := by
  rcases checkNames_spec d.enumerationNames d.structures with hnames | ⟨s, hs, hnames, hcause⟩
  · obtain ⟨hdistinct, hfree⟩ := freshFrom_of_checkNames hnames
    have hd : d.NamesDistinct := hdistinct
    have hfresh : d.NamesFresh := fun s hs e he hname =>
      hfree s.name (List.mem_map_of_mem hs) (List.mem_map.2 ⟨e, he, hname.symm⟩)
    have hmemo : Memo.Sound d roots [] [] := .nil
    rcases d.membersAmong_spec hd (List.Subset.refl _) hmemo with
      ⟨members, hmembers, hsublist, hmem⟩ | ⟨e, he, t, ht, hblame⟩
    · have hscope : d.IsScope roots ⟨d.enumerationNames, members.map (·.name)⟩ := by
        refine ⟨rfl, fun n => List.mem_map.trans (exists_congr fun s => ?_)⟩
        constructor
        · rintro ⟨hs, rfl⟩
          exact ⟨hsublist.subset hs, rfl, (hmem s (hsublist.subset hs)).2.1 hs⟩
        · rintro ⟨hs, rfl, hends⟩
          exact ⟨(hmem s hs).2.2 hends, rfl⟩
      have hmembersEnd (s : StructuredType) (hs : s ∈ members) :
          s ∈ d.structures ∧ d.ChainEnds roots s true :=
        ⟨hsublist.subset hs, (hmem s (hsublist.subset hs)).2.1 hs⟩
      rcases mapM_definition_spec hfresh hscope hmembersEnd with
        ⟨objects, hobjects, hall, hidents⟩ | ⟨e, he, hfault⟩
      · refine .inl ⟨objects, ?_, ⟨hd, hfresh, fun s hs => (hmem s hs).1, ?_, ?_⟩, ?_⟩
        · exact bind_eq_ok_iff.2 ⟨(), hnames, bind_eq_ok_iff.2 ⟨members, hmembers, hobjects⟩⟩
        · intro s hs hends
          exact hidents s ((hmem s hs).2.2 hends)
        · intro s hs hends f hf
          obtain ⟨a, -, ha⟩ := exists_right_of_forall₂ hall ((hmem s hs).2.2 hends)
          obtain ⟨g, -, hg⟩ := exists_right_of_forall₂ ha.fields hf
          obtain ⟨t, ht, -⟩ := hg.type
          exact ⟨t, ht⟩
        · exact ⟨members, hsublist, fun s hs => (hmem s hs).2, hall⟩
      · refine .inr ⟨e, ?_, hfault⟩
        exact bind_eq_error_iff.2 (.inr ⟨(), hnames, bind_eq_error_iff.2 (.inr ⟨_, hmembers, he⟩)⟩)
    · refine .inr ⟨e, ?_, hblame.fault ht⟩
      exact bind_eq_error_iff.2 (.inr ⟨(), hnames, bind_eq_error_iff.2 (.inl he)⟩)
  · refine .inr ⟨_, bind_eq_error_iff.2 (.inl hnames), .duplicateType hs ?_⟩
    exact hcause.imp_right List.mem_map.1

theorem objectDefinitions_eq_ok_iff_wellFormed :
    (∃ objects, d.objectDefinitions roots = .ok objects) ↔ d.WellFormed roots := by
  rcases objectDefinitions_spec d roots with ⟨objects, hok, hd, -⟩ | ⟨e, herror, hfault⟩
  · exact iff_of_true ⟨objects, hok⟩ hd
  · refine iff_of_false ?_ hfault.not_wellFormed
    rintro ⟨objects, hok⟩
    cases hok.symm.trans herror

theorem wellFormed_of_objectDefinitions {objects : List Definition}
    (h : d.objectDefinitions roots = .ok objects) : d.WellFormed roots :=
  objectDefinitions_eq_ok_iff_wellFormed.1 ⟨objects, h⟩

theorem resolves_of_objectDefinitions {objects : List Definition}
    (h : d.objectDefinitions roots = .ok objects) : d.Resolves roots objects := by
  rcases objectDefinitions_spec d roots with ⟨objects', hok, -, hresolves⟩ | ⟨e, herror, -⟩
  · cases hok.symm.trans h
    exact hresolves
  · cases herror.symm.trans h

namespace Resolves

variable {objects : List Definition}

theorem sublist_names (h : d.Resolves roots objects) :
    (objects.map (·.name)).Sublist (d.structures.map (·.name)) := by
  obtain ⟨members, hsublist, -, hall⟩ := h
  rw [map_eq_map_of_forall₂ hall fun _ _ ha => ha.name]
  exact hsublist.map _

theorem nodup_names (hd : d.WellFormed roots) (h : d.Resolves roots objects) :
    (objects.map (·.name)).Nodup :=
  h.sublist_names.nodup hd.distinct

theorem exists_source (h : d.Resolves roots objects) {a : Definition} (ha : a ∈ objects) :
    ∃ s ∈ d.structures, d.ChainEnds roots s true ∧ d.Defines roots s a := by
  obtain ⟨members, hsublist, hmem, hall⟩ := h
  obtain ⟨s, hs, hdefines⟩ := exists_left_of_forall₂ hall ha
  have hsource := hsublist.subset hs
  exact ⟨s, hsource, (hmem s hsource).1 hs, hdefines⟩

theorem exists_definition (h : d.Resolves roots objects) (hs : s ∈ d.structures)
    (hends : d.ChainEnds roots s true) : ∃ a ∈ objects, d.Defines roots s a := by
  obtain ⟨members, -, hmem, hall⟩ := h
  exact exists_right_of_forall₂ hall ((hmem s hs).2 hends)

end Resolves

end Dictionary

end OpcWire
