import OpcWire.Dictionary.Standard
import OpcWire.Generator.Hierarchy
import OpcWire.Proofs.OpenBodies
import OpcWire.Proofs.Value.PrefixCode
import OpcWire.Proofs.Value.Trail

/-!
# Field paths

`field_paths_exact` checks the path of an error in a structure against two things. One is the
standard dictionary: `Structure.SchemaPath` says that every name on the path is a field declared for
the structure reached so far, and that the way from one structure to the next is the type of this
field or, for an extension object, the type id on the wire. The other is the input: if bytes that
can be read are cut short, the second name on the path is the field that the first byte behind the
cut belongs to.
-/

namespace OpcWire

/-! ### Fields of the dictionary -/

/-- What an array holds or a reference refers to, at the bottom. -/
def WireType.element : WireType → WireType
  | .array t => t.element
  | .nullable t => t.element
  | t => t

/-- The dictionary declares the field for the structure, and not only to hold a length. -/
def Structure.Declares (s : Structure) (f : Dictionary.Field) : Prop :=
  ∃ source ∈ Dictionary.standard.structures, source.name = s.name ∧ f ∈ source.dataFields

/-- Whether a field is declared with the name of the structure that a type leads to. -/
def WireType.isDeclaredBy (t : WireType) (f : Dictionary.Field) : Bool :=
  match t.element with
  | .record name _ => f.typeName == "tns:" ++ name
  | .extensionObject => f.typeName == "ua:ExtensionObject"
  | _ => true

theorem Structure.exists_declaration (s : Structure) {name : String} {t : WireType}
    (h : (name, t) ∈ s.layout.toFields) :
    ∃ f, s.Declares f ∧ f.name = name ∧ t.isDeclaredBy f = true := by
  have hcheck : (Structure.all.all fun s =>
      (Dictionary.standard.structures.find? (·.name == s.name)).any fun source =>
        s.layout.toFields.all fun (name, t) =>
          source.dataFields.any fun f => f.name == name && t.isDeclaredBy f) = true := by
    decide +kernel
  have hs := List.all_eq_true.1 hcheck s s.mem_all
  obtain ⟨source, hsource, hfields⟩ := (Option.any_eq_true _ _).1 hs
  obtain ⟨f, hf, hmatch⟩ := List.any_eq_true.1 (List.all_eq_true.1 hfields _ h)
  obtain ⟨hname, hdeclared⟩ := Bool.and_eq_true_iff.1 hmatch
  have hsourceName : source.name = s.name := by
    simpa using List.find?_some hsource
  exact ⟨f, ⟨source, List.mem_of_find?_eq_some hsource, hsourceName, hf⟩, eq_of_beq hname,
    hdeclared⟩

/-- If a type leads to a structure, it is one of the dictionary. -/
def WireType.IsStandard (t : WireType) : Prop :=
  ∀ name l, t.element = .record name l → ∃ s : Structure, s.wireType = .record name l

namespace WireType

@[simp] theorem isStandard_scalar (s : Scalar) : (scalar s).IsStandard := by
  intro name l h
  cases h

@[simp] theorem isStandard_extensionObject : extensionObject.IsStandard := by
  intro name l h
  cases h

@[simp] theorem isStandard_array {t : WireType} : (array t).IsStandard ↔ t.IsStandard := Iff.rfl

@[simp] theorem isStandard_nullable {t : WireType} : (nullable t).IsStandard ↔ t.IsStandard :=
  Iff.rfl

end WireType

theorem Structure.isStandard_wireType (s : Structure) : s.wireType.IsStandard :=
  fun _ _ h => ⟨s, h⟩

theorem Layout.forall_mem_ofFields {P : String × WireType → Prop}
    {fields : List (String × WireType)} (h : ∀ f ∈ fields, P f) :
    ∀ f ∈ (Layout.ofFields fields).toFields, P f := by
  rwa [toFields_ofFields]

theorem Structure.isStandard_of_mem (s : Structure) : ∀ f ∈ s.layout.toFields, f.2.IsStandard := by
  have hstructureField := Structure.isStandard_wireType .structureField
  have henumField := Structure.isStandard_wireType .enumField
  have hrequestHeader := Structure.isStandard_wireType .requestHeader
  have hresponseHeader := Structure.isStandard_wireType .responseHeader
  have happlication := Structure.isStandard_wireType .applicationDescription
  simp only [wireType, name, layout] at *
  cases s <;> refine Layout.forall_mem_ofFields ?_ <;> simp [*]

/-! ### Paths of the schema -/

/-- Reading the structure `s` from a cursor may go through fields with the given names: the first
one is declared for `s`, and the next ones for the structure that this field leads to. -/
inductive Structure.SchemaPath : Structure → Cursor → List String → Prop
  /-- Into a field, and no further. -/
  | last {s : Structure} {c : Cursor} {f : Dictionary.Field} (hf : s.Declares f) :
      SchemaPath s c [f.name]
  /-- Into a reference to a structure, or an array of such, by the declared type. -/
  | reference {s s' : Structure} {c next : Cursor} {f : Dictionary.Field} {names : List String}
      (hf : s.Declares f) (htype : f.typeName = "tns:" ++ s'.name)
      (hreach : s.wireType.Leads c [(s.name, f.name)] s'.wireType next)
      (h : SchemaPath s' next names) : SchemaPath s c (f.name :: names)
  /-- Into the body of an extension object, by the type id in front of it. -/
  | object {s s' : Structure} {c next : Cursor} {f : Dictionary.Field} {names : List String}
      {typeId : NodeId} {span : List UInt8} (hf : s.Declares f)
      (htype : f.typeName = "ua:ExtensionObject")
      (hreach : s.wireType.Leads c [(s.name, f.name)] .extensionObject next)
      (hbody : next.HasBody typeId span)
      (hs : structureOf Registries.extensionObjects typeId = .ok s')
      (h : SchemaPath s' ⟨span, next.openBodies + 1⟩ names) : SchemaPath s c (f.name :: names)

theorem Layout.Reaches.mem_toFields {l : Layout} {c spot : Cursor} {name : String} {t : WireType}
    (h : l.Reaches c name t spot) : (name, t) ∈ l.toFields := by
  induction h with
  | here => exact List.mem_cons_self
  | later _ _ ih => exact List.mem_cons_of_mem _ ih

/-- A way through fields goes into a structure first, or into the body of an extension object. -/
theorem WireType.Leads.split {t u : WireType} {c spot : Cursor} {path : List (String × String)}
    (h : t.Leads c path u spot) (hpath : path ≠ []) :
    (∃ name l next, t.element = .record name l ∧ t.Leads c [] (.record name l) next ∧
      (WireType.record name l).Leads next path u spot) ∨
    ∃ next typeId span s, t.element = .extensionObject ∧ t.Leads c [] .extensionObject next ∧
      next.HasBody typeId span ∧ structureOf Registries.extensionObjects typeId = .ok s ∧
      s.wireType.Leads ⟨span, next.openBodies + 1⟩ path u spot := by
  induction h with
  | here => exact absurd rfl hpath
  | target _ ih =>
    rcases ih hpath with ⟨name, l, next, helement, hfirst, hrest⟩ |
      ⟨next, typeId, span, s, helement, hfirst, hbody⟩
    · exact .inl ⟨name, l, next, helement, .target hfirst, hrest⟩
    · exact .inr ⟨next, typeId, span, s, helement, .target hfirst, hbody⟩
  | field hfield h => exact .inl ⟨_, _, _, rfl, .here, .field hfield h⟩
  | item hlength hcount hindex hbefore _ ih =>
    rcases ih hpath with ⟨name, l, next, helement, hfirst, hrest⟩ |
      ⟨next, typeId, span, s, helement, hfirst, hbody⟩
    · exact .inl ⟨name, l, next, helement, .item hlength hcount hindex hbefore hfirst, hrest⟩
    · exact .inr ⟨next, typeId, span, s, helement, .item hlength hcount hindex hbefore hfirst,
        hbody⟩
  | body hbody hs hopen h => exact .inr ⟨_, _, _, _, rfl, .here, hbody, hs, h⟩

theorem Structure.schemaPath_of_leads (s : Structure) {owner name : String} {u : WireType}
    {c spot : Cursor} {path : List (String × String)}
    (h : s.wireType.Leads c ((owner, name) :: path) u spot) :
    s.SchemaPath c (name :: path.map Prod.snd) := by
  induction path generalizing s owner name c with
  | nil =>
    cases h with
    | field hfield _ =>
      obtain ⟨f, hf, rfl, -⟩ := s.exists_declaration hfield.mem_toFields
      exact .last hf
  | cons step path ih =>
    cases h with
    | field hfield hinner =>
      obtain ⟨f, hf, rfl, hdeclared⟩ := s.exists_declaration hfield.mem_toFields
      rw [WireType.isDeclaredBy] at hdeclared
      -- the names that are left belong to the structure that the field leads to
      rcases hinner.split (List.cons_ne_nil _ _) with ⟨n, l, next, helement, hfirst, hrest⟩ |
        ⟨next, typeId, span, s', helement, hfirst, hbody, hs', hrest⟩
      · obtain ⟨s', hs'⟩ := s.isStandard_of_mem _ hfield.mem_toFields n l helement
        rw [← hs'] at hfirst hrest
        obtain ⟨rfl, rfl⟩ : s'.name = n ∧ s'.layout = l := by
          injection hs' with hname hlayout
          exact ⟨hname, hlayout⟩
        simp only [helement] at hdeclared
        exact .reference hf (eq_of_beq hdeclared) (.field hfield hfirst) (ih s' hrest)
      · simp only [helement] at hdeclared
        exact .object hf (eq_of_beq hdeclared) (.field hfield hfirst) hbody hs' (ih s' hrest)

theorem Structure.exists_leads_of_error (s : Structure) {c : Cursor} {cause : CodecError}
    {openBodies : Nat} (h : s.wireType.decode c = .error cause openBodies) :
    ∃ name path u spot, ∃ root : CodecError,
      s.wireType.Leads c ((s.name, name) :: path) u spot ∧ root.Holds u spot ∧
        cause = root.inFields ((s.name, name) :: path) := by
  obtain ⟨name, t, next, inner, hfield, hinner, rfl⟩ :=
    s.layout.exists_field_of_error
      (WireType.extensionObject.explainsAt_decode maxBodyDepth (Nat.le_add_left _ _)) s.name rfl
      (Reader.map_eq_error_iff.1 h)
  obtain ⟨path, u, spot, root, hleads, hroot, rfl⟩ := hinner
  exact ⟨name, path, u, spot, root, .field hfield hleads, hroot, rfl⟩

/-! ### The field at an offset -/

/-- Reading the fields of a layout from a cursor, the field `name` uses up the byte with the index
`k`. -/
def Layout.Covers (l : Layout) (c : Cursor) (name : String) (k : Nat) : Prop :=
  ∃ (t : WireType) (v : Value t) (before part after : List UInt8),
    c.rest = before ++ part ++ after ∧ before.length ≤ k ∧ k < before.length + part.length ∧
      l.Reaches c name t ⟨part ++ after, c.openBodies⟩ ∧
      t.decode ⟨part ++ after, c.openBodies⟩ = .ok v ⟨after, c.openBodies⟩

theorem Layout.covers_here {name : String} {t : WireType} {rest : Layout} {part after : List UInt8}
    {d k : Nat} {v : Value t} (hread : t.decode ⟨part ++ after, d⟩ = .ok v ⟨after, d⟩)
    (hk : k < part.length) : (Layout.cons name t rest).Covers ⟨part ++ after, d⟩ name k :=
  ⟨t, v, [], part, after, rfl, Nat.zero_le k, by rwa [List.length_nil, Nat.zero_add], .here, hread⟩

theorem Layout.Covers.later {first name : String} {t : WireType} {rest : Layout}
    {used after : List UInt8} {d k : Nat} {v : Value t}
    (hread : t.decode ⟨used ++ after, d⟩ = .ok v ⟨after, d⟩)
    (h : rest.Covers ⟨after, d⟩ name (k - used.length)) (hk : used.length ≤ k) :
    (Layout.cons first t rest).Covers ⟨used ++ after, d⟩ name k := by
  obtain ⟨u, w, before, part, behind, hafter, hlow, hhigh, hreach, hpart⟩ := h
  refine ⟨u, w, used ++ before, part, behind, ?_, ?_, ?_, .later hread hreach, hpart⟩
  · rw [show after = before ++ part ++ behind from hafter]
    simp only [List.append_assoc]
  · rw [List.length_append]
    omega
  · rw [List.length_append]
    omega

/-- **A cut names its field.** If the fields of a layout can be read, then from any proper front of
the bytes they use up they cannot, and the field that is blamed is the one that uses up the first
missing byte. -/
theorem Layout.exists_field_of_cut (owner : String) :
    (l : Layout) → ∀ {bytes : List UInt8} {d : Nat} {fields : Fields l} {next : Cursor},
      l.decodeWith decodeObject owner ⟨bytes, d⟩ = .ok fields next →
        ∃ used, bytes = used ++ next.rest ∧ ∀ k < used.length, ∃ name inner openBodies,
          l.decodeWith decodeObject owner ⟨used.take k, d⟩ =
              .error (.inField owner name inner) openBodies ∧
            l.Covers ⟨bytes, d⟩ name k
  | .nil => fun h => by
    cases h
    exact ⟨[], rfl, fun k hk => absurd hk (Nat.not_lt_zero k)⟩
  | .cons name t rest => fun h => by
    obtain ⟨v, ⟨behind, d'⟩, hfirst, hbehind⟩ := Reader.bind_eq_ok_iff.1 h
    obtain ⟨fields, mid, hrest, hpure⟩ := Reader.bind_eq_ok_iff.1 hbehind
    cases hpure
    have hread := Reader.inField_eq_ok_iff.1 hfirst
    obtain ⟨used, rfl, hd, hreads, hstarves⟩ := t.prefixCode_decode hread
    obtain rfl : d' = _ := hd
    obtain ⟨more, hmore, hcut⟩ := rest.exists_field_of_cut owner hrest
    refine ⟨used ++ more, by rw [List.append_assoc]; exact congrArg (used ++ ·) hmore, ?_⟩
    intro k hk
    rw [List.length_append] at hk
    rw [List.take_append]
    -- behind the first field the cut is one of the bytes that the others use up
    by_cases hhere : k < used.length
    · obtain ⟨inner, openBodies, hinner, -⟩ := hstarves k hhere
      refine ⟨name, inner, openBodies, ?_, Layout.covers_here hread hhere⟩
      rw [Nat.sub_eq_zero_of_le (Nat.le_of_lt hhere), List.take_zero, List.append_nil]
      exact Reader.bind_eq_error_iff.2 (.inl (Reader.inField_eq_error_iff.2 ⟨inner, hinner, rfl⟩))
    · have hlater := Nat.le_of_not_lt hhere
      obtain ⟨name', inner, openBodies, hinner, hcovers⟩ := hcut (k - used.length) (by omega)
      refine ⟨name', inner, openBodies, ?_, hcovers.later hread hlater⟩
      rw [List.take_of_length_le hlater]
      exact Reader.bind_eq_error_iff.2 (.inr ⟨v, _, Reader.inField_eq_ok_iff.2 (hreads _),
        Reader.bind_eq_error_iff.2 (.inl hinner)⟩)

/-! ### The main theorem -/

/-- **Field paths point at the right field.** The path of an error in a structure starts with the
name of this structure and is one of the schema. If bytes can be read, then from any proper front of
those that are used up they cannot, and the path leads into the field whose part is cut. -/
theorem field_paths_exact (s : Structure) :
    (∀ (bytes : List UInt8) (cause : CodecError),
      s.wireType.codec.decode.run bytes = .error cause →
        ∃ names, cause.fieldPath = s.name :: names ∧ s.SchemaPath ⟨bytes, 0⟩ names) ∧
    ∀ (bytes : List UInt8) (v : Value s.wireType) (rest : List UInt8),
      s.wireType.codec.decode.run bytes = .ok (v, rest) →
        ∃ used, bytes = used ++ rest ∧ ∀ k < used.length, ∃ cause name,
          s.wireType.codec.decode.run (bytes.take k) = .error cause ∧
            cause.fieldPath[1]? = some name ∧ s.layout.Covers ⟨bytes, 0⟩ name k := by
  constructor
  · intro bytes cause h
    obtain ⟨openBodies, hread⟩ := Reader.run_eq_error_iff.1 h
    obtain ⟨name, path, u, spot, root, hleads, hroot, rfl⟩ := s.exists_leads_of_error hread
    refine ⟨name :: path.map Prod.snd, ?_, s.schemaPath_of_leads hleads⟩
    rw [CodecError.inFields_cons, CodecError.fieldPath_inField, CodecError.fields_inFields,
      hroot.fields_eq, List.append_nil]
  · intro bytes v rest h
    obtain ⟨next, hread, rfl⟩ := Reader.run_eq_ok_iff.1 h
    obtain ⟨fields, hfields, -⟩ := Reader.map_eq_ok_iff.1 hread
    obtain ⟨used, hbytes, hcut⟩ := s.layout.exists_field_of_cut s.name hfields
    refine ⟨used, hbytes, fun k hk => ?_⟩
    obtain ⟨name, inner, openBodies, herror, hcovers⟩ := hcut k hk
    refine ⟨.inField s.name name inner, name, ?_, rfl, hcovers⟩
    rw [hbytes, List.take_append_of_le_length (Nat.le_of_lt hk)]
    exact Reader.run_eq_error_iff.2 ⟨openBodies, Reader.map_eq_error_iff.2 herror⟩

/-- Bytes of a fault whose header announces a range of only four bytes. -/
def shortRangeBytes : List UInt8 :=
  List.replicate 17 0 ++ [0xFF, 0xFF, 0xFF, 0xFF, 1, 0, 0x76, 3, 1, 4, 0, 0, 0, 0, 0, 0, 0]

/-- The path of an error goes through the body of an extension object, into the structure registered
for its type id. A range that is cut in the middle lacks the field behind the cut. -/
theorem field_paths_exact_shortRange :
    Structure.serviceFault.SchemaPath ⟨shortRangeBytes, 0⟩
      ["ResponseHeader", "AdditionalHeader", "Low"] ∧
    Structure.range.layout.Covers ⟨List.replicate 16 0, 0⟩ "High" 8 := by
  constructor
  · obtain ⟨names, hpath, hschema⟩ := (field_paths_exact .serviceFault).1 shortRangeBytes
      (.inField "ServiceFault" "ResponseHeader" (.inField "ResponseHeader" "AdditionalHeader"
        (.inField "Range" "Low" (.unexpectedEnd 8 4)))) rfl
    obtain rfl : _ = names := List.tail_eq_of_cons_eq hpath
    exact hschema
  · obtain ⟨used, hused, hcut⟩ := (field_paths_exact .range).2 (List.replicate 16 0)
      (.zero Structure.range.wireType) [] rfl
    rw [List.append_nil] at hused
    obtain rfl := hused
    obtain ⟨cause, name, hcause, hname, hcovers⟩ := hcut 8 (by decide)
    obtain rfl : .inField "Range" "High" (.unexpectedEnd 8 0) = cause := Except.error.inj hcause
    obtain rfl : "High" = name := Option.some.inj hname
    exact hcovers

end OpcWire
