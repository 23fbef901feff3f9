import OpcWire.Proofs.Generator.Resolution

/-!
# Which fields of a structure have a wire form

An array carries its own length, so the field that holds the length of another one has no wire form
of its own. A field is taken for such a field if any field of the structure names it, be it the
field itself: an array that names itself has no wire form either (`data_field_lost_samples`). The
fields of a definition are those that no *other* field names if and only if none of these names
itself (`data_fields_kept_iff`); whatever is kept keeps its name and its place, and is a sequence if
and only if it is an array.
-/

namespace OpcWire

namespace Dictionary

variable {d : Dictionary} {roots : HierarchyRoots}

/-! ### Fields that others name -/

/-- The declared fields that no other field of the structure names as its length field. -/
def StructuredType.fieldsUnnamedByOthers (s : StructuredType) : List Field :=
  (s.fields.zipIdx.filter fun (f, i) =>
    !(s.fields.eraseIdx i).any fun g => g.lengthField == some f.name).map Prod.fst

theorem any_eq_or_eraseIdx {α : Type} (p : α → Bool) {l : List α} {i : Nat} {a : α}
    (h : l[i]? = some a) : l.any p = (p a || (l.eraseIdx i).any p) := by
  obtain ⟨hi, rfl⟩ := List.getElem?_eq_some_iff.1 h
  exact (List.getElem_cons_eraseIdx_perm hi).any_eq.symm

/-- A field has a wire form if no other field names it, and it does not name itself. -/
theorem StructuredType.dataFields_eq (s : StructuredType) :
    s.dataFields = s.fieldsUnnamedByOthers.filter fun f => f.lengthField != some f.name := by
  have hlength (x : Field × Nat) (hx : x ∈ s.fields.zipIdx) : s.isLengthField x.1 =
      (x.1.lengthField == some x.1.name ||
        (s.fields.eraseIdx x.2).any fun g => g.lengthField == some x.1.name) :=
    any_eq_or_eraseIdx _ (List.mem_zipIdx_iff_getElem?.1 hx)
  calc s.dataFields
      = (s.fields.zipIdx.map Prod.fst).filter fun f => !s.isLengthField f := by
        rw [List.zipIdx_map_fst]
        rfl
    _ = (s.fields.zipIdx.filter fun x => !s.isLengthField x.1).map Prod.fst := List.filter_map
    _ = _ := by
        rw [fieldsUnnamedByOthers, List.filter_map, List.filter_filter]
        refine congrArg _ (List.filter_congr fun x hx => ?_)
        rw [hlength x hx, Bool.not_or]
        rfl

/-- The names of what is kept show whether anything was lost. -/
theorem StructuredType.map_dataFields_eq_iff (s : StructuredType) :
    s.dataFields.map (·.name) = s.fieldsUnnamedByOthers.map (·.name) ↔
      ∀ f ∈ s.fieldsUnnamedByOthers, f.lengthField ≠ some f.name := by
  rw [s.dataFields_eq]
  constructor
  · intro h f hf
    have hlength := congrArg List.length h
    rw [List.length_map, List.length_map, List.length_filter_eq_length_iff] at hlength
    exact bne_iff_ne.1 (hlength f hf)
  · intro h
    rw [List.filter_eq_self.2 fun f hf => bne_iff_ne.2 (h f hf)]

/-! ### Types -/

theorem ElementType.ne_sequence {f : Field} {t u : FieldType} (h : d.ElementType roots f t) :
    t ≠ .sequence u := by
  cases h with
  | attributeId => exact nofun
  | named _ ht => cases ht <;> exact nofun

/-- How a field is kept: under its name, and as a sequence of its elements if and only if it is an
array. -/
structure KeepsField (d : Dictionary) (roots : HierarchyRoots) (f : Field) (g : Definition.Field) :
    Prop where
  /-- It keeps its name. -/
  name : g.name = f.name
  /-- An array is a sequence of its elements. -/
  array : f.lengthField ≠ none → ∃ t, d.ElementType roots f t ∧ g.type = .sequence t
  /-- Any other field is no sequence. -/
  single : f.lengthField = none → ∀ t, g.type ≠ .sequence t

theorem DefinesField.keeps {f : Field} {g : Definition.Field} (h : d.DefinesField roots f g) :
    d.KeepsField roots f g := by
  obtain ⟨t, ht, htype⟩ := h.type
  refine ⟨h.name, fun harray => ⟨t, ht, ?_⟩, fun hsingle u => ?_⟩
  · rw [htype, Field.isArray, if_pos (Option.isSome_iff_ne_none.2 harray)]
  · rw [htype, Field.isArray, hsingle]
    exact ht.ne_sequence

end Dictionary

/-- **Which fields are kept.** Each member of an accepted dictionary has one definition. Its fields
are the declared ones that no field names as its length field, in their order, under their names,
sequences if and only if they are arrays. These are the fields that no *other* field names if and
only if none of those names itself. -/
theorem data_fields_kept_iff (d : Dictionary) (roots : HierarchyRoots) (objects : List Definition)
    (h : d.objectDefinitions roots = .ok objects) (s : Dictionary.StructuredType)
    (hs : s ∈ d.structures) (hmember : d.ChainEnds roots s true) :
    ∃ a ∈ objects, a.name = s.name ∧ (∀ b ∈ objects, b.name = s.name → b = a) ∧
      List.Forall₂ (d.KeepsField roots) (s.fields.filter fun f => !s.isLengthField f) a.fields ∧
      (a.fields.map (·.name) = s.fieldsUnnamedByOthers.map (·.name) ↔
        ∀ f ∈ s.fieldsUnnamedByOthers, f.lengthField ≠ some f.name) := by
  have hresolves := Dictionary.resolves_of_objectDefinitions h
  have hnodup := hresolves.nodup_names (Dictionary.wellFormed_of_objectDefinitions h)
  obtain ⟨a, ha, hdefines⟩ := hresolves.exists_definition hs hmember
  have hkeeps : List.Forall₂ (d.KeepsField roots) s.dataFields a.fields :=
    hdefines.fields.imp fun _ _ hfg => hfg.keeps
  refine ⟨a, ha, hdefines.name, fun b hb hname => ?_, hkeeps, ?_⟩
  · exact List.inj_on_of_nodup_map hnodup hb ha (hname.trans hdefines.name.symm)
  · rw [map_eq_map_of_forall₂ hkeeps fun _ _ hfg => hfg.name]
    exact s.map_dataFields_eq_iff

/-! ### An array that names itself -/

/-- A chart whose samples name themselves as their length field. -/
def chart : Dictionary.StructuredType :=
  ⟨"Chart", some "ua:ExtensionObject",
    [⟨"Samples", "opc:Int32", some "Samples"⟩, ⟨"Title", "opc:String", none⟩]⟩

/-- A dictionary with charts. -/
def chartDictionary : Dictionary where
  targetNamespace := "http://opcfoundation.org/UA/"
  enumerations := []
  structures := [chart]

/-- The definition of charts. -/
def chartDefinition : Definition where
  name := "Chart"
  kind := .object
  repr := none
  base := some "ExtensionObject"
  fields := [⟨"Title", "title", .builtin .string⟩]
  members := []

/-- The samples of a chart are an array, and no other field names them; yet the definition of charts
does not have them. -/
theorem data_field_lost_samples :
    chartDictionary.objectDefinitions .standard = .ok [chartDefinition] ∧
      chart ∈ chartDictionary.structures ∧ chartDictionary.ChainEnds .standard chart true ∧
      chart.fieldsUnnamedByOthers.map (·.name) = ["Samples", "Title"] ∧
      chartDefinition.fields.map (·.name) = ["Title"] :=
  ⟨by decide +kernel, by decide, .root (.root rfl (by decide)), by decide, by decide⟩

/-! ### An array with a length field -/

/-- A path with as many points as its length field says, which stands behind them. -/
def pathStructure : Dictionary.StructuredType :=
  ⟨"Path", some "ua:ExtensionObject",
    [ ⟨"Points", "opc:Double", some "NoOfPoints"⟩, ⟨"NoOfPoints", "opc:Int32", none⟩,
      ⟨"Closed", "opc:Boolean", none⟩ ]⟩

/-- A dictionary with paths and charts. -/
def pathDictionary : Dictionary where
  targetNamespace := "http://opcfoundation.org/UA/"
  enumerations := []
  structures := [pathStructure, chart]

/-- The definition of paths. -/
def pathDefinition : Definition where
  name := "Path"
  kind := .object
  repr := none
  base := some "ExtensionObject"
  fields :=
    [⟨"Points", "points", .sequence (.builtin .double)⟩, ⟨"Closed", "closed", .builtin .boolean⟩]
  members := []

/-- A path keeps its points though their length field goes; a chart loses its samples. -/
theorem data_fields_kept_iff_path :
    ∃ objects, pathDictionary.objectDefinitions .standard = .ok objects ∧
      (∃ a ∈ objects, a.name = "Path" ∧
        a.fields.map (·.name) = pathStructure.fieldsUnnamedByOthers.map (·.name)) ∧
      ∃ a ∈ objects, a.name = "Chart" ∧
        a.fields.map (·.name) ≠ chart.fieldsUnnamedByOthers.map (·.name) := by
  have hobjects : pathDictionary.objectDefinitions .standard =
      .ok [pathDefinition, chartDefinition] := by decide +kernel
  obtain ⟨a, ha, hname, -, -, hkept⟩ := data_fields_kept_iff pathDictionary .standard _ hobjects
    pathStructure (by decide) (.root (.root rfl (by decide)))
  obtain ⟨b, hb, hname', -, -, hkept'⟩ := data_fields_kept_iff pathDictionary .standard _ hobjects
    chart (by decide) (.root (.root rfl (by decide)))
  have hlost : ¬ ∀ f ∈ chart.fieldsUnnamedByOthers, f.lengthField ≠ some f.name := by decide
  exact ⟨_, hobjects, ⟨a, ha, hname, hkept.2 (by decide)⟩, b, hb, hname', mt hkept'.1 hlost⟩

end OpcWire
