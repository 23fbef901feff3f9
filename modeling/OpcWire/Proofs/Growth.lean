import OpcWire.Proofs.Generator.Resolution

/-!
# Layouts survive reordering and growth

The definition of a structure depends on the structures and enumerated types that its chain and its
fields name, and on nothing else in the dictionary (`layouts_survive_growth`). So it is the same in
every order, and stays the same when other types are defined besides, as long as the dictionary is
accepted.
-/

namespace OpcWire

namespace Dictionary

variable {d d' : Dictionary} {roots : HierarchyRoots}

theorem WellFormed.perm (hd : d.WellFormed roots) (hstructures : d.structures.Perm d'.structures)
    (henumerations : d.enumerations.Perm d'.enumerations) : d'.WellFormed roots where
  distinct :=
    have hdistinct : (d.structures.map (·.name)).Nodup := hd.distinct
    (hstructures.map _).nodup_iff.1 hdistinct
  fresh s hs e he := hd.fresh s (hstructures.mem_iff.2 hs) e (henumerations.mem_iff.2 he)
  ends s hs :=
    let ⟨isMember, hends⟩ := hd.ends s (hstructures.mem_iff.2 hs)
    ⟨isMember, hends.mono hstructures.subset⟩
  idents s hs hends :=
    hd.idents s (hstructures.mem_iff.2 hs) (hends.mono hstructures.symm.subset)
  types s hs hends f hf :=
    let ⟨t, ht⟩ :=
      hd.types s (hstructures.mem_iff.2 hs) (hends.mono hstructures.symm.subset) f hf
    ⟨t, ht.mono hstructures.subset henumerations.subset⟩

/-- A structure is defined in a larger dictionary if and only if it is in the smaller one, and in
the same way. -/
theorem Resolves.mem_iff (hd : d.WellFormed roots) (hd' : d'.WellFormed roots)
    {objects objects' : List Definition} (h : d.Resolves roots objects)
    (h' : d'.Resolves roots objects') (hstructures : d.structures ⊆ d'.structures)
    (henumerations : d.enumerations ⊆ d'.enumerations) {s : StructuredType}
    (hs : s ∈ d.structures) {a : Definition} (hname : a.name = s.name) :
    a ∈ objects ↔ a ∈ objects' := by
  constructor
  · intro ha
    obtain ⟨t, ht, hends, hdefines⟩ := h.exists_source ha
    have hmore := hdefines.mono hstructures henumerations
    obtain ⟨a', ha', hdefines'⟩ :=
      h'.exists_definition (hstructures ht) (hends.mono hstructures)
    rwa [hmore.unique hd'.fresh hdefines']
  · intro ha
    obtain ⟨t, ht, hends', hdefines'⟩ := h'.exists_source ha
    obtain rfl : t = s := hd'.distinct.eq ht (hstructures hs) (hdefines'.name.symm.trans hname)
    -- the chain of the structure ended before, and so it ended in the same way
    obtain ⟨isMember, hends⟩ := hd.ends t hs
    obtain rfl := (hends.mono hstructures).unique hd'.distinct hends'
    obtain ⟨a', ha', hdefines⟩ := h.exists_definition hs hends
    rwa [hdefines'.unique hd'.fresh (hdefines.mono hstructures henumerations)]

end Dictionary

/-- **Layouts survive reordering and growth.** A dictionary is accepted in every order of its types
or in none, and its definitions are the same, each time in the order of the dictionary. When one
accepted dictionary holds all types of another one, and whatever else, the structures of the smaller
one are defined in both in the same way, or in neither. -/
theorem layouts_survive_growth (d d' : Dictionary) (roots : HierarchyRoots) :
    (d.structures.Perm d'.structures → d.enumerations.Perm d'.enumerations →
      ((∃ objects, d.objectDefinitions roots = .ok objects) ↔
          ∃ objects', d'.objectDefinitions roots = .ok objects') ∧
        ∀ objects objects', d.objectDefinitions roots = .ok objects →
          d'.objectDefinitions roots = .ok objects' →
          objects.Perm objects' ∧
            (objects.map (·.name)).Sublist (d.structures.map (·.name)) ∧
            (objects'.map (·.name)).Sublist (d'.structures.map (·.name))) ∧
      ∀ objects objects', d.objectDefinitions roots = .ok objects →
        d'.objectDefinitions roots = .ok objects' →
        d.structures ⊆ d'.structures → d.enumerations ⊆ d'.enumerations →
        ∀ s ∈ d.structures, ∀ a : Definition, a.name = s.name → (a ∈ objects ↔ a ∈ objects') := by
  have hgrowth {d d' : Dictionary} {objects objects' : List Definition}
      (h : d.objectDefinitions roots = .ok objects)
      (h' : d'.objectDefinitions roots = .ok objects')
      (hstructures : d.structures ⊆ d'.structures)
      (henumerations : d.enumerations ⊆ d'.enumerations) (s : Dictionary.StructuredType)
      (hs : s ∈ d.structures) (a : Definition) (hname : a.name = s.name) :
      a ∈ objects ↔ a ∈ objects' :=
    Dictionary.Resolves.mem_iff (Dictionary.wellFormed_of_objectDefinitions h)
      (Dictionary.wellFormed_of_objectDefinitions h')
      (Dictionary.resolves_of_objectDefinitions h) (Dictionary.resolves_of_objectDefinitions h')
      hstructures henumerations hs hname
  refine ⟨fun hstructures henumerations => ⟨?_, ?_⟩, fun objects objects' h h' => hgrowth h h'⟩
  · simp only [Dictionary.objectDefinitions_eq_ok_iff_wellFormed]
    exact ⟨fun hd => hd.perm hstructures henumerations,
      fun hd' => hd'.perm hstructures.symm henumerations.symm⟩
  · intro objects objects' h h'
    have hresolves := Dictionary.resolves_of_objectDefinitions h
    have hresolves' := Dictionary.resolves_of_objectDefinitions h'
    refine ⟨?_, hresolves.sublist_names, hresolves'.sublist_names⟩
    have hnodup : objects.Nodup := .of_map _
      (hresolves.nodup_names (Dictionary.wellFormed_of_objectDefinitions h))
    have hnodup' : objects'.Nodup := .of_map _
      (hresolves'.nodup_names (Dictionary.wellFormed_of_objectDefinitions h'))
    refine (List.perm_ext_iff_of_nodup hnodup hnodup').2 fun a => ⟨fun ha => ?_, fun ha => ?_⟩
    · obtain ⟨s, hs, -, hdefines⟩ := hresolves.exists_source ha
      exact (hgrowth h h' hstructures.subset henumerations.subset s hs a hdefines.name).1 ha
    · obtain ⟨s, hs, -, hdefines⟩ := hresolves'.exists_source ha
      exact (hgrowth h' h hstructures.symm.subset henumerations.symm.subset s hs a
        hdefines.name).1 ha

/-! ### A garden -/

/-- A bed, which extends a plot. -/
def bed : Dictionary.StructuredType :=
  ⟨"Bed", some "tns:Plot", [⟨"Soil", "tns:Soil", none⟩, ⟨"Next", "tns:Bed", none⟩]⟩

/-- What a bed extends. -/
def plot : Dictionary.StructuredType :=
  ⟨"Plot", some "ua:ExtensionObject", [⟨"Area", "opc:Double", none⟩]⟩

/-- The kinds of soil. -/
def soil : Dictionary.EnumeratedType := ⟨"Soil", 8, [⟨"Loam", 0⟩, ⟨"Sand", 1⟩]⟩

/-- The definition of beds. -/
def bedDefinition : Definition where
  name := "Bed"
  kind := .object
  repr := none
  base := some "Plot"
  fields := [⟨"Soil", "soil", .enumeration "Soil"⟩, ⟨"Next", "next", .reference "Bed"⟩]
  members := []

/-- The definition of plots. -/
def plotDefinition : Definition where
  name := "Plot"
  kind := .object
  repr := none
  base := some "ExtensionObject"
  fields := [⟨"Area", "area", .builtin .double⟩]
  members := []

/-- Plots and beds trade places, and a pond is dug between them. -/
theorem layouts_survive_growth_garden :
    let garden : Dictionary := ⟨"", [soil], [bed, plot]⟩
    let turned : Dictionary := ⟨"", [soil], [plot, bed]⟩
    let pond : Dictionary.StructuredType := ⟨"Pond", some "tns:Bed", []⟩
    let grown : Dictionary := ⟨"", [⟨"Fish", 8, []⟩, soil], [plot, pond, bed]⟩
    garden.objectDefinitions .standard = .ok [bedDefinition, plotDefinition] ∧
      (∃ objects, turned.objectDefinitions .standard = .ok objects) ∧
      [bedDefinition, plotDefinition].Perm [plotDefinition, bedDefinition] ∧
      ∃ objects, grown.objectDefinitions .standard = .ok objects ∧ bedDefinition ∈ objects := by
  intro garden turned pond grown
  have hgarden : garden.objectDefinitions .standard = .ok [bedDefinition, plotDefinition] := by
    decide +kernel
  have hturned : turned.objectDefinitions .standard = .ok [plotDefinition, bedDefinition] := by
    decide +kernel
  have hgrown : (grown.objectDefinitions .standard).isOk = true := by decide +kernel
  obtain ⟨hperm, -⟩ := layouts_survive_growth garden turned .standard
  obtain ⟨-, hmore⟩ := layouts_survive_growth garden grown .standard
  obtain ⟨hiff, hsame⟩ := hperm (by decide) (by decide)
  obtain ⟨objects, hobjects⟩ := exists_of_isOk hgrown
  refine ⟨hgarden, hiff.1 ⟨_, hgarden⟩, (hsame _ _ hgarden hturned).1, objects, hobjects, ?_⟩
  exact (hmore _ _ hgarden hobjects (by decide) (by decide) bed List.mem_cons_self bedDefinition
    rfl).1 List.mem_cons_self

end OpcWire
