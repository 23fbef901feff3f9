import OpcWire.Proofs.Generator.Enumerations
import OpcWire.Proofs.Generator.Resolution
import OpcWire.Proofs.Source.Enumerations
import OpcWire.Proofs.Source.Objects

/-!
# Dictionaries without line breaks

If no name in a dictionary has a line break, neither has what is made of its structures
(`Dictionary.Defines.isUnbroken`) and of its enumerated types
(`Dictionary.EnumeratedType.Defines.isUnbroken`).
-/

namespace OpcWire

namespace Dictionary

variable {d : Dictionary} {roots : HierarchyRoots}

/-- Whether the names of all types are identifiers. -/
structure HasIdentifiers (d : Dictionary) : Prop where
  /-- The names of structures are. -/
  structures : ∀ s ∈ d.structures, Naming.IsIdentifier s.name
  /-- The names of enumerated types are. -/
  enumerations : ∀ e ∈ d.enumerations, Naming.IsIdentifier e.name

/-- Whether the names of bases and fields have no line breaks. -/
def IsUnbroken (d : Dictionary) : Prop :=
  ∀ s ∈ d.structures, (∀ b ∈ s.baseType, Source.OneLine b) ∧ ∀ f ∈ s.fields, Source.OneLine f.name

theorem oneLine_stripNamespace {name : String} (h : Source.OneLine name) :
    Source.OneLine (Naming.stripNamespace name) := by
  have hrest {start rest : String} (hstart : Naming.dropStart? start name = some rest) :
      Source.OneLine rest := by
    rw [Naming.dropStart?_eq_some_iff.1 hstart] at h
    exact (Source.oneLine_append.1 h).2
  rw [Naming.stripNamespace]
  split
  · rename_i rest hua
    exact hrest hua
  · cases htns : Naming.dropStart? "tns:" name with
    | none => exact h
    | some rest => exact hrest htns

theorem oneLine_fieldIdent {name : String} (h : Source.OneLine name) :
    Source.OneLine (Naming.fieldIdent name) := by
  have hchar {c : Char} (hc : c.isLower = false) (hother : c ≠ '_' ∧ c ≠ '#')
      (hname : c ∉ name.toList) : c ∉ (Naming.fieldIdent name).toList := by
    intro hmem
    rcases Naming.of_mem_fieldIdent hmem with rfl | rfl | rfl | ⟨x, hx, -, heq⟩
    · exact hother.1 rfl
    · cases hc
    · exact hother.2 rfl
    · obtain rfl := Naming.eq_of_toLower_eq hc heq
      exact hname hx
  exact ⟨hchar (by decide) (by decide) h.1, hchar (by decide) (by decide) h.2⟩

theorem ElementType.oneLine_render (hd : d.HasIdentifiers) {f : Field} {t : FieldType}
    (h : d.ElementType roots f t) : Source.OneLine t.render := by
  have hreference {name : String} (hname : Source.OneLine name) :
      Source.OneLine (FieldType.reference name).render := by
    unfold FieldType.render
    exact Source.oneLine_append.2 ⟨Source.oneLine_append.2 ⟨by decide, hname⟩, by decide⟩
  cases h with
  | attributeId => decide
  | named _ ht =>
    cases ht with
    | @builtin b => cases b <;> decide
    | enumeration he => exact Source.oneLine_of_isIdentifier (hd.enumerations _ he)
    | object hs => exact hreference (Source.oneLine_of_isIdentifier (hd.structures _ hs))
    | known hn =>
      have hall : ∀ n ∈ FieldType.knownTypes, Source.OneLine n := by decide
      exact hreference (hall _ hn)

theorem Defines.isUnbroken (hd : d.HasIdentifiers) (hunbroken : d.IsUnbroken)
    {s : StructuredType} (hs : s ∈ d.structures) {a : Definition} (h : d.Defines roots s a) :
    Source.IsUnbroken a where
  base b hb := by
    rw [h.base, Option.mem_map] at hb
    obtain ⟨base, hbase, rfl⟩ := hb
    exact (oneLine_stripNamespace ((hunbroken s hs).1 base hbase)).1
  fields g hg := by
    obtain ⟨f, hf, hfg⟩ := exists_left_of_forall₂ h.fields hg
    have hname := (hunbroken s hs).2 f (List.mem_filter.1 hf).1
    rw [hfg.name, hfg.ident]
    exact ⟨hname, oneLine_fieldIdent hname⟩
  types g hg := by
    obtain ⟨f, hf, hfg⟩ := exists_left_of_forall₂ h.fields hg
    obtain ⟨t, ht, htype⟩ := hfg.type
    have hrender := ht.oneLine_render hd
    rw [htype]
    split
    · unfold FieldType.render
      exact (Source.oneLine_append.2 ⟨Source.oneLine_append.2 ⟨by decide, hrender⟩, by decide⟩).1
    · exact hrender.1

theorem EnumeratedType.Defines.isUnbroken {e : EnumeratedType} {a : Definition} (h : e.Defines a)
    (hname : Source.OneLine e.name) (hmembers : ∀ m ∈ e.members, Source.OneLine m.name) :
    Source.IsUnbrokenEnumeration a where
  name := h.name ▸ hname
  members := by
    rw [h.members]
    intro m hm
    obtain ⟨n, hn, rfl⟩ := List.mem_map.1 hm
    exact ⟨hmembers n hn, Source.oneLine_constIdent (hmembers n hn)⟩

end Dictionary

end OpcWire
