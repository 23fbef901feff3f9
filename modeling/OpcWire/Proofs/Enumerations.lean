import OpcWire.Proofs.Generator.Enumerations
import OpcWire.Proofs.Generator.Resolution
import OpcWire.Proofs.Source.Enumerations

/-!
# Enumerations are written as they are declared

* The enumerated types of a dictionary are accepted exactly when they are faithful, and each of them
  is then defined, in order.
* If names are identifiers, the file that is made of the definitions has the declared values in its
  constants, and in its table and its look-up the declared names with these constants; each of them
  once, in the order of declaration. The integer that is wrapped and the one that is decoded are the
  narrowest that covers the declared width. What is read of the file is literally written there,
  line for line.

Both are in `enumerations_faithful`. Values may be declared in any order, with gaps or twice, as in
`enumerations_faithful_valve`.
-/

namespace OpcWire

namespace Dictionary

variable {d : Dictionary} {e : EnumeratedType} {a : Definition}

namespace EnumeratedType

/-- What the text of an enumerated type is to say, in an integer type. -/
def items (e : EnumeratedType) (integer : String) : List Source.EnumerationItem :=
  .declaration e.name integer ::
    (e.members.map fun m => .constant (Naming.constIdent m.name) (toString m.value)) ++
    .table :: (e.members.map fun m => .row m.name (Naming.constIdent m.name)) ++
    .lookup :: (e.members.map fun m => .arm m.name (Naming.constIdent m.name)) ++
    [.decoding integer]

/-- The items say an enumerated type in the narrowest integer type that covers its width. -/
def IsSaidBy (e : EnumeratedType) (items : List Source.EnumerationItem) : Prop :=
  ∃ w, IsCoveringWidth e.lengthInBits w ∧ items = e.items s!"u{w}"

theorem Defines.isSaidBy (h : e.Defines a) : e.IsSaidBy a.enumerationItems := by
  obtain ⟨r, hr, hcovers⟩ := h.repr
  have hinteger : a.integerType = s!"u{r.width}" := by
    rw [Definition.integerType, hr]
    rfl
  refine ⟨r.width, hcovers, ?_⟩
  rw [Definition.enumerationItems, h.name, h.members, hinteger]
  simp only [List.map_map]
  rfl

end EnumeratedType

/-- Whether the names of enumerated types and their members are identifiers. -/
structure EnumerationsPlain (d : Dictionary) : Prop where
  /-- The names of types are. -/
  types : ∀ e ∈ d.enumerations, Naming.IsIdentifier e.name
  /-- The names of members are. -/
  members : ∀ e ∈ d.enumerations, ∀ m ∈ e.members, Naming.IsIdentifier m.name

theorem EnumerationsPlain.isPlain (hd : d.EnumerationsPlain) (he : e ∈ d.enumerations)
    (h : e.Defines a) : a.IsPlain where
  name := h.name ▸ hd.types e he
  members := by
    rw [h.members]
    intro m hm
    obtain ⟨n, hn, rfl⟩ := List.mem_map.1 hm
    exact hd.members e he n hn
  idents := by
    rw [h.members]
    intro m hm
    obtain ⟨n, -, rfl⟩ := List.mem_map.1 hm
    rfl

end Dictionary

/-- **Enumerations are accepted exactly when they are faithful, and written as they are
declared.** -/
theorem enumerations_faithful (d : Dictionary) :
    ((∃ ds, d.enumerationDefinitions = .ok ds) ↔ d.EnumerationsFaithful) ∧
      ∀ ds, d.enumerationDefinitions = .ok ds →
        List.Forall₂ Dictionary.EnumeratedType.Defines d.enumerations ds ∧
        (d.EnumerationsPlain → ∀ prelude, ∃ items,
          List.Forall₂ Dictionary.EnumeratedType.IsSaidBy d.enumerations items ∧
          Source.enumerationItems (Text.lines (Source.enumerationFile prelude ds)) =
            Source.enumerationItems (Text.lines (Source.render (Source.header (some prelude)))) ++
              items.flatten ∧
          (∀ item ∈ items.flatten, ∃ line ∈ Text.lines (Source.enumerationFile prelude ds),
            Source.unindented line = item.line) ∧
          (Source.OneLine prelude →
            Source.enumerationItems (Text.lines (Source.enumerationFile prelude ds)) =
              items.flatten)) := by
  constructor
  · constructor
    · rintro ⟨ds, hds⟩
      exact (Dictionary.enumerationDefinitions_eq_ok_iff.1 hds).1
    · exact Dictionary.EnumerationsFaithful.exists_definitions
  · intro ds hds
    have hdefines := (Dictionary.enumerationDefinitions_eq_ok_iff.1 hds).2
    refine ⟨hdefines, fun hplain prelude => ?_⟩
    have hdefinitions : ∀ a ∈ ds, a.kind = .enumeration ∧ a.IsPlain := by
      intro a ha
      obtain ⟨e, he, hdefined⟩ := exists_left_of_forall₂ hdefines ha
      exact ⟨hdefined.kind, hplain.isPlain he hdefined⟩
    have hfile := Source.enumerationItems_enumerationFile prelude hdefinitions
    rw [List.flatMap_def] at hfile
    refine ⟨ds.map Definition.enumerationItems, ?_, hfile, fun item hitem => ?_, fun hprelude => ?_⟩
    · exact List.forall₂_map_right_iff.2 (hdefines.imp fun _ _ h => h.isSaidBy)
    · have hread : item ∈ Source.enumerationItems
          (Text.lines (Source.enumerationFile prelude ds)) :=
        hfile ▸ List.mem_append_right _ hitem
      obtain ⟨line, hline, hsays⟩ := List.mem_filterMap.1 hread
      exact ⟨line, hline, Source.EnumerationItem.unindented_eq_line hsays⟩
    · rw [hfile, Source.enumerationItems_header hprelude, List.nil_append]

/-- A valve whose states are neither in the order of their values nor without gaps, and two of which
have the same value. -/
def valve : Dictionary where
  targetNamespace := "urn:valve"
  enumerations :=
    [ ⟨"Valve", 5, [⟨"WideOpen", 200⟩, ⟨"Shut", 0⟩, ⟨"Closed", 0⟩]⟩,
      ⟨"Flow", 33, [⟨"Max", 4294967296⟩]⟩ ]
  structures := []

theorem enumerations_faithful_valve :
    ∃ ds, valve.enumerationDefinitions = .ok ds ∧
      Source.enumerationItems (Text.lines (Source.enumerationFile "crate::prelude" ds)) =
        [ .declaration "Valve" "u8",
          .constant "WIDE_OPEN" "200", .constant "SHUT" "0", .constant "CLOSED" "0",
          .table, .row "WideOpen" "WIDE_OPEN", .row "Shut" "SHUT", .row "Closed" "CLOSED",
          .lookup, .arm "WideOpen" "WIDE_OPEN", .arm "Shut" "SHUT", .arm "Closed" "CLOSED",
          .decoding "u8",
          .declaration "Flow" "u64", .constant "MAX" "4294967296",
          .table, .row "Max" "MAX", .lookup, .arm "Max" "MAX", .decoding "u64" ] := by
  have hnarrow : IsCoveringWidth 5 8 :=
    ((EnumRepr.ofBits?_eq_some_iff (r := .bits8)).1 (by decide)).2
  have hwide : IsCoveringWidth 33 64 :=
    ((EnumRepr.ofBits?_eq_some_iff (r := .bits64)).1 (by decide)).2
  have hfaithful : valve.EnumerationsFaithful := by
    refine ⟨by decide, List.forall_mem_cons.2 ⟨⟨by decide, by decide, fun w hw => ?_,
      by decide +kernel⟩, List.forall_mem_singleton.2 ⟨by decide, by decide, fun w hw => ?_,
        by decide⟩⟩⟩
    · rw [hw.unique hnarrow]
      decide
    · rw [hw.unique hwide]
      decide
  have hplain : valve.EnumerationsPlain := ⟨by decide, by decide⟩
  obtain ⟨ds, hds⟩ := (enumerations_faithful valve).1.2 hfaithful
  obtain ⟨items, hitems, -, -, hfile⟩ :=
    ((enumerations_faithful valve).2 ds hds).2 hplain "crate::prelude"
  refine ⟨ds, hds, (hfile (by decide)).trans ?_⟩
  cases hitems with
  | cons hvalve hrest =>
    cases hrest with
    | cons hflow hnil =>
      cases hnil
      obtain ⟨v, hv, rfl⟩ := hvalve
      obtain ⟨w, hw, rfl⟩ := hflow
      rw [hv.unique hnarrow, hw.unique hwide]
      decide +kernel

end OpcWire
