import OpcWire.Generator.ZeroValue

/-!
# What is known of generated structures

When a dictionary is accepted, its structures have names of their own, and every name that a field
of theirs stands for is that of a type: of another structure, of an enumeration, or of a type known
beforehand (`GeneratedTypes.closed_of_objectDefinitions`). Nothing else is checked of the fields;
in particular, a structure may refer to itself.
-/

namespace OpcWire

theorem bind_eq_ok_iff {ε α β : Type} {x : Except ε α} {f : α → Except ε β} {b : β} :
    x >>= f = .ok b ↔ ∃ a, x = .ok a ∧ f a = .ok b := by
  cases x with
  | error cause =>
    refine ⟨nofun, ?_⟩
    rintro ⟨a, ha, -⟩
    cases ha
  | ok a =>
    constructor
    · intro h
      exact ⟨a, rfl, h⟩
    · rintro ⟨a', ha, h⟩
      cases ha
      exact h

theorem exists_of_isOk {ε α : Type} {x : Except ε α} (h : x.isOk = true) : ∃ a, x = .ok a := by
  cases x with
  | error e => cases h
  | ok a => exact ⟨a, rfl⟩

theorem bind_eq_error_iff {ε α β : Type} {x : Except ε α} {f : α → Except ε β} {e : ε} :
    x >>= f = .error e ↔ x = .error e ∨ ∃ a, x = .ok a ∧ f a = .error e := by
  cases x with
  | error cause =>
    constructor
    · intro h
      cases h
      exact .inl rfl
    · rintro (h | ⟨a, ha, -⟩)
      · cases h
        rfl
      · cases ha
  | ok a =>
    constructor
    · intro h
      exact .inr ⟨a, rfl, h⟩
    · rintro (h | ⟨a', ha, h⟩)
      · cases h
      · cases ha
        exact h

/-! ### Fresh names -/

theorem filter_eq_singleton_of_nodup {α β : Type} [DecidableEq β] {f : α → β} {l : List α}
    (hnodup : (l.map f).Nodup) {a : α} (ha : a ∈ l) : l.filter (f · == f a) = [a] := by
  induction l with
  | nil => cases ha
  | cons x rest ih =>
    obtain ⟨hx, hrest⟩ := List.nodup_cons.1 hnodup
    rcases List.mem_cons.1 ha with rfl | ha
    · have hnone : rest.filter (f · == f a) = [] := by
        refine List.filter_eq_nil_iff.2 fun y hy heq => hx ?_
        exact beq_iff_eq.1 heq ▸ List.mem_map_of_mem hy
      rw [List.filter_cons_of_pos (by simp), hnone]
    · have hne : f x ≠ f a := fun heq => hx (heq ▸ List.mem_map_of_mem ha)
      rw [List.filter_cons_of_neg (by simpa using hne), ih hrest ha]

/-- Whether names are different from each other and from those taken. -/
def FreshFrom (taken names : List String) : Prop := names.Nodup ∧ ∀ n ∈ names, n ∉ taken

theorem freshFrom_nil {names : List String} : FreshFrom [] names ↔ names.Nodup :=
  and_iff_left fun _ _ => List.not_mem_nil

theorem freshFrom_cons {taken names : List String} {n : String} :
    FreshFrom taken (n :: names) ↔ n ∉ taken ∧ FreshFrom (n :: taken) names := by
  rw [FreshFrom, FreshFrom, List.nodup_cons, List.forall_mem_cons]
  constructor
  · rintro ⟨⟨hn, hnodup⟩, hfree, hrest⟩
    refine ⟨hfree, hnodup, fun m hm => List.not_mem_cons_of_ne_of_not_mem ?_ (hrest m hm)⟩
    rintro rfl
    exact hn hm
  · rintro ⟨hfree, hnodup, hrest⟩
    exact ⟨⟨fun hn => hrest n hn List.mem_cons_self, hnodup⟩, hfree,
      fun m hm hmem => hrest m hm (List.mem_cons_of_mem n hmem)⟩

namespace Dictionary

variable {d : Dictionary} {roots : HierarchyRoots}

/-! ### Names -/

/-- Structures whose names have been checked have different names, and none of those taken. -/
theorem freshFrom_of_checkNames {taken : List String} {structures : List StructuredType}
    (h : checkNames taken structures = .ok ()) : FreshFrom taken (structures.map (·.name)) := by
  induction structures generalizing taken with
  | nil => exact ⟨.nil, nofun⟩
  | cons s rest ih =>
    rw [checkNames] at h
    by_cases htaken : taken.contains s.name
    · rw [if_pos htaken] at h
      cases h
    · rw [if_neg htaken] at h
      exact freshFrom_cons.2 ⟨mt List.contains_iff_mem.2 htaken, ih h⟩

theorem sublist_of_membersAmong {memo : Memo} {structures members : List StructuredType}
    (h : d.membersAmong roots memo structures = .ok members) : members.Sublist structures := by
  induction structures generalizing memo members with
  | nil =>
    cases h
    exact .slnil
  | cons s rest ih =>
    rw [membersAmong, bind_eq_ok_iff] at h
    obtain ⟨⟨isMember, memo'⟩, -, h⟩ := h
    obtain ⟨others, hothers, h⟩ := bind_eq_ok_iff.1 h
    cases h
    cases isMember with
    | true => exact (ih hothers).cons_cons s
    | false => exact (ih hothers).cons s

/-! ### Fields -/

theorem lookup_knownWireTypes :
    ∀ n ∈ FieldType.attributeIdName :: FieldType.knownTypes,
      (FieldType.knownWireTypes.lookup n).isSome := by decide

theorem target?_of_ofTypeName? {scope : FieldType.Scope} {typeName n : String} {t : FieldType}
    (h : FieldType.ofTypeName? scope typeName = some t) (hn : t.target? = some n) :
    n ∈ scope.enumerations ∨ n ∈ scope.structures ∨
      n ∈ FieldType.attributeIdName :: FieldType.knownTypes := by
  -- the cases are the namespaces, in the order in which they are tried
  rw [FieldType.ofTypeName?] at h
  cases hbuiltin : Builtin.ofTypeName? typeName with
  | some b =>
    simp only [hbuiltin] at h
    cases h
    cases hn
  | none =>
    cases hown : Naming.dropStart? "tns:" typeName with
    | some name =>
      simp only [hbuiltin, hown] at h
      by_cases henum : scope.enumerations.contains name
      · rw [if_pos henum] at h
        cases h
        cases hn
        exact .inl (List.contains_iff_mem.1 henum)
      · rw [if_neg henum] at h
        obtain ⟨hstructure, ⟨⟩⟩ := Option.ite_none_right_eq_some.1 h
        cases hn
        exact .inr (.inl (List.contains_iff_mem.1 hstructure))
    | none =>
      cases hforeign : Naming.dropStart? "ua:" typeName with
      | some name =>
        simp only [hbuiltin, hown, hforeign] at h
        obtain ⟨hknown, ⟨⟩⟩ := Option.ite_none_right_eq_some.1 h
        cases hn
        exact .inr (.inr (List.mem_cons_of_mem _ (List.contains_iff_mem.1 hknown)))
      | none =>
        simp only [hbuiltin, hown, hforeign] at h
        cases h

theorem target?_of_ofField {scope : FieldType.Scope} {owner n : String} {f : Field}
    {t : FieldType} (h : FieldType.ofField scope owner f = .ok t) (hn : t.target? = some n) :
    n ∈ scope.enumerations ∨ n ∈ scope.structures ∨
      n ∈ FieldType.attributeIdName :: FieldType.knownTypes := by
  rw [FieldType.ofField] at h
  cases hitem : FieldType.elementOf? scope f with
  | none =>
    simp only [hitem] at h
    cases h
  | some item =>
    simp only [hitem] at h
    by_cases harray : f.isArray
    · rw [if_pos harray] at h
      cases h
      cases hn
    · rw [if_neg harray] at h
      cases h
      rw [FieldType.elementOf?] at hitem
      by_cases hattribute : FieldType.equalIgnoringCase f.name FieldType.attributeIdName
      · rw [if_pos hattribute] at hitem
        cases hitem
        cases hn
        exact .inr (.inr List.mem_cons_self)
      · rw [if_neg hattribute] at hitem
        exact target?_of_ofTypeName? hitem hn

theorem exists_ofField {scope : FieldType.Scope} {owner : String} {taken : List String}
    {fields : List Field} {defined : List Definition.Field}
    (h : fieldDefinitions scope owner taken fields = .ok defined) :
    ∀ f ∈ defined, ∃ source, FieldType.ofField scope owner source = .ok f.type := by
  induction fields generalizing taken defined with
  | nil =>
    cases h
    exact nofun
  | cons source rest ih =>
    rw [fieldDefinitions] at h
    split at h
    · cases h
    · obtain ⟨type, htype, h⟩ := bind_eq_ok_iff.1 h
      obtain ⟨others, hothers, h⟩ := bind_eq_ok_iff.1 h
      cases h
      intro f hf
      rcases List.mem_cons.1 hf with rfl | hrest
      · exact ⟨source, htype⟩
      · exact ih hothers f hrest

/-! ### Structures -/

theorem of_definition {scope : FieldType.Scope} {s : StructuredType} {a : Definition}
    (h : s.definition scope = .ok a) :
    a.name = s.name ∧ fieldDefinitions scope s.name [] s.dataFields = .ok a.fields := by
  obtain ⟨fields, hfields, h⟩ := bind_eq_ok_iff.1 h
  cases h
  exact ⟨rfl, hfields⟩

theorem of_mapM_definition {scope : FieldType.Scope} {members : List StructuredType}
    {objects : List Definition} (h : members.mapM (·.definition scope) = .ok objects) :
    objects.map (·.name) = members.map (·.name) ∧
      ∀ a ∈ objects, ∃ s, StructuredType.definition scope s = .ok a := by
  induction members generalizing objects with
  | nil =>
    cases h
    exact ⟨rfl, nofun⟩
  | cons s rest ih =>
    rw [List.mapM_cons] at h
    obtain ⟨a, ha, h⟩ := bind_eq_ok_iff.1 h
    obtain ⟨others, hothers, h⟩ := bind_eq_ok_iff.1 h
    cases h
    obtain ⟨hnames, hsources⟩ := ih hothers
    constructor
    · rw [List.map_cons, List.map_cons, (of_definition ha).1, hnames]
    · intro b hb
      rcases List.mem_cons.1 hb with rfl | hrest
      · exact ⟨s, ha⟩
      · exact hsources b hrest

end Dictionary

namespace GeneratedTypes

/-- Every name stands for one structure at most, and names in fields stand for something. -/
structure Closed (g : GeneratedTypes) : Prop where
  /-- No two structures have the same name. -/
  nodup : (g.objects.map (·.name)).Nodup
  /-- What is no structure is an enumeration or known beforehand. -/
  resolves : ∀ a ∈ g.objects, ∀ f ∈ a.fields, ∀ n, f.type.target? = some n →
    n ∈ g.objects.map (·.name) ∨ ∃ e, g.plainEncoding? n = some e

theorem exists_plainEncoding {g : GeneratedTypes} {n : String}
    (h : (∃ e ∈ g.enumerations, e.name = n) ∨ (FieldType.knownWireTypes.lookup n).isSome) :
    ∃ e, g.plainEncoding? n = some e := by
  rw [plainEncoding?]
  cases hfind : g.enumerations.find? (·.name == n) with
  | some e => exact ⟨e.zeroEncoding, rfl⟩
  | none =>
    rcases h with ⟨e, he, rfl⟩ | hknown
    · exact absurd (List.find?_eq_none.1 hfind e he) (by simp)
    · obtain ⟨t, ht⟩ := Option.isSome_iff_exists.1 hknown
      exact ⟨t.zeroEncoding, by rw [ht]; rfl⟩

/-- **The structures of an accepted dictionary are closed.** -/
theorem closed_of_objectDefinitions {d : Dictionary} {roots : HierarchyRoots}
    {objects : List Definition} (h : d.objectDefinitions roots = .ok objects) :
    (GeneratedTypes.mk d.enumerations objects).Closed := by
  obtain ⟨⟨⟩, hnames, h⟩ := bind_eq_ok_iff.1 h
  obtain ⟨members, hmembers, h⟩ := bind_eq_ok_iff.1 h
  obtain ⟨hobjects, hsources⟩ := Dictionary.of_mapM_definition h
  constructor
  · have hsublist := (Dictionary.sublist_of_membersAmong hmembers).map (·.name)
    rw [hobjects]
    exact hsublist.nodup (Dictionary.freshFrom_of_checkNames hnames).1
  · intro a ha f hf n hn
    obtain ⟨s, hs⟩ := hsources a ha
    obtain ⟨source, hsource⟩ := Dictionary.exists_ofField (Dictionary.of_definition hs).2 f hf
    rcases Dictionary.target?_of_ofField hsource hn with henum | hobject | hknown
    · obtain ⟨e, he, rfl⟩ := List.mem_map.1 henum
      exact .inr (exists_plainEncoding (.inl ⟨e, he, rfl⟩))
    · rw [hobjects]
      exact .inl hobject
    · exact .inr (exists_plainEncoding (.inr (Dictionary.lookup_knownWireTypes n hknown)))

end GeneratedTypes

end OpcWire
