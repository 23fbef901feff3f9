import Mathlib
import OpcWire.Generator.Enumerations
import OpcWire.Proofs.Generator.Definitions

/-!
# Which enumerations are accepted

An enumerated type is accepted if and only if it is faithful: its width is one that integers cover,
its values are among those of the narrowest integer that does, and its members have constants of
their own (`Dictionary.EnumeratedType.definition_eq_ok_iff`). The enumerated types of a dictionary
are accepted if and only if each of them is faithful and has a name of its own
(`Dictionary.enumerationDefinitions_eq_ok_iff`). What they are defined as has their names, members
and values.
-/

namespace OpcWire

/-! ### Widths -/

/-- Whether `width` is the least of the widths of integers that covers `bits`. -/
def IsCoveringWidth (bits width : Nat) : Prop := IsLeast {w | w ∈ [8, 16, 32, 64] ∧ bits ≤ w} width

theorem IsCoveringWidth.unique {bits v w : Nat} (hv : IsCoveringWidth bits v)
    (hw : IsCoveringWidth bits w) : v = w :=
  IsLeast.unique hv hw

namespace EnumRepr

theorem cast_maxValue (r : EnumRepr) : (r.maxValue : Int) = 2 ^ r.width - 1 := by
  cases r <;> decide

theorem ofBits?_eq_some_iff {bits : Nat} {r : EnumRepr} :
    ofBits? bits = some r ↔ 0 < bits ∧ IsCoveringWidth bits r.width := by
  -- the widths are tried in ascending order, so the first that covers is the least
  simp only [IsCoveringWidth, IsLeast, lowerBounds, ofBits?, all, List.find?]
  cases r <;> simp [width] <;> grind

theorem exists_ofBits? {bits : Nat} (hpos : 0 < bits) (hle : bits ≤ 64) :
    ∃ r, ofBits? bits = some r := by
  have hfound : (all.find? (bits ≤ ·.width)).isSome :=
    List.find?_isSome.2 ⟨bits64, by decide, decide_eq_true hle⟩
  obtain ⟨r, hr⟩ := Option.isSome_iff_exists.1 hfound
  exact ⟨r, (if_neg hpos.ne').trans hr⟩

theorem le_of_ofBits? {bits : Nat} {r : EnumRepr} (h : ofBits? bits = some r) : bits ≤ 64 := by
  have hcovers := (ofBits?_eq_some_iff.1 h).2.1.2
  have hwidest : r.width ≤ 64 := by
    cases r <;> decide
  exact hcovers.trans hwidest

end EnumRepr

namespace Dictionary

/-! ### Members -/

/-- What a member is defined as. -/
def Member.definition (m : Member) : Definition.Member := ⟨Naming.constIdent m.name, m.name, m.value⟩

theorem memberDefinitions_eq_ok_iff {owner : String} {r : EnumRepr} {taken : List String}
    {members : List Member} {defined : List Definition.Member} :
    memberDefinitions owner r taken members = .ok defined ↔
      (∀ m ∈ members, 0 ≤ m.value ∧ m.value ≤ 2 ^ r.width - 1) ∧
        FreshFrom taken (members.map fun m => Naming.constIdent m.name) ∧
        defined = members.map Member.definition := by
  induction members generalizing taken defined with
  | nil =>
    rw [memberDefinitions, Except.ok.injEq, List.map_nil, List.map_nil]
    exact ⟨fun h => ⟨nofun, ⟨.nil, nofun⟩, h.symm⟩, fun h => h.2.2.symm⟩
  | cons m rest ih =>
    rw [List.forall_mem_cons, List.map_cons, List.map_cons, freshFrom_cons, memberDefinitions]
    by_cases hrange : m.value < 0 ∨ (r.maxValue : Int) < m.value
    · rw [if_pos hrange]
      refine iff_of_false nofun fun h => ?_
      rw [r.cast_maxValue] at hrange
      obtain ⟨hlow, hhigh⟩ := h.1.1
      omega
    · rw [if_neg hrange]
      rw [r.cast_maxValue, not_or, not_lt, not_lt] at hrange
      by_cases htaken : Naming.constIdent m.name ∈ taken
      · rw [if_pos (List.contains_iff_mem.2 htaken)]
        exact iff_of_false nofun fun h => h.2.1.1 htaken
      · rw [if_neg (mt List.contains_iff_mem.1 htaken), bind_eq_ok_iff]
        simp only [ih]
        constructor
        · rintro ⟨_, ⟨hvalues, hfresh, rfl⟩, ⟨⟩⟩
          exact ⟨⟨hrange, hvalues⟩, ⟨htaken, hfresh⟩, rfl⟩
        · rintro ⟨⟨-, hvalues⟩, ⟨-, hfresh⟩, rfl⟩
          exact ⟨_, ⟨hvalues, hfresh, rfl⟩, rfl⟩

namespace EnumeratedType

variable {e : EnumeratedType} {a : Definition}

/-! ### Enumerated types -/

/-- What is asked of an enumerated type. -/
structure IsFaithful (e : EnumeratedType) : Prop where
  /-- Values have at least one bit. -/
  positive : 1 ≤ e.lengthInBits
  /-- They have no more than the widest integer. -/
  bounded : e.lengthInBits ≤ 64
  /-- They are among those of the narrowest integer that covers their bits. -/
  values : ∀ w, IsCoveringWidth e.lengthInBits w →
    ∀ m ∈ e.members, 0 ≤ m.value ∧ m.value ≤ 2 ^ w - 1
  /-- Members have constants of their own. -/
  constants : (e.members.map fun m => Naming.constIdent m.name).Nodup

/-- How an enumerated type is defined. -/
structure Defines (e : EnumeratedType) (a : Definition) : Prop where
  /-- It keeps its name. -/
  name : a.name = e.name
  /-- It is an enumeration. -/
  kind : a.kind = .enumeration
  /-- Its integer type is the narrowest that covers the declared width. -/
  repr : ∃ r, a.repr = some r ∧ IsCoveringWidth e.lengthInBits r.width
  /-- It has no base. -/
  base : a.base = none
  /-- It has no fields. -/
  fields : a.fields = []
  /-- Its members are those declared, in their order, with their names and values. -/
  members : a.members = e.members.map Member.definition

/-- **An enumerated type is accepted if and only if it is faithful.** -/
theorem definition_eq_ok_iff : e.definition = .ok a ↔ e.IsFaithful ∧ e.Defines a := by
  rw [EnumeratedType.definition]
  cases hbits : EnumRepr.ofBits? e.lengthInBits with
  | none =>
    refine iff_of_false nofun fun h => ?_
    obtain ⟨r, hr⟩ := EnumRepr.exists_ofBits? h.1.positive h.1.bounded
    cases hbits.symm.trans hr
  | some r =>
    obtain ⟨hpos, hcovers⟩ := EnumRepr.ofBits?_eq_some_iff.1 hbits
    dsimp only
    rw [bind_eq_ok_iff]
    constructor
    · rintro ⟨members, hmembers, ⟨⟩⟩
      obtain ⟨hvalues, hfresh, rfl⟩ := memberDefinitions_eq_ok_iff.1 hmembers
      have hfaithful : e.IsFaithful :=
        { positive := hpos
          bounded := EnumRepr.le_of_ofBits? hbits
          values := fun w hw => hw.unique hcovers ▸ hvalues
          constants := hfresh.1 }
      exact ⟨hfaithful, rfl, rfl, ⟨r, rfl, hcovers⟩, rfl, rfl, rfl⟩
    · rintro ⟨hfaithful, hname, hkind, ⟨r', hrepr, hcovers'⟩, hbase, hfields, hmembers⟩
      obtain rfl : r = r' :=
        Option.some.inj (hbits.symm.trans (EnumRepr.ofBits?_eq_some_iff.2 ⟨hpos, hcovers'⟩))
      have haccepted : memberDefinitions e.name r [] e.members =
          .ok (e.members.map Member.definition) := memberDefinitions_eq_ok_iff.2
        ⟨hfaithful.values r.width hcovers, freshFrom_nil.2 hfaithful.constants, rfl⟩
      refine ⟨_, haccepted, congrArg Except.ok ?_⟩
      cases a
      subst hname hkind hrepr hbase hfields hmembers
      rfl

theorem IsFaithful.exists_definition (h : e.IsFaithful) : ∃ a, e.definition = .ok a := by
  obtain ⟨r, hr⟩ := EnumRepr.exists_ofBits? h.positive h.bounded
  have hcovers := (EnumRepr.ofBits?_eq_some_iff.1 hr).2
  exact ⟨⟨e.name, .enumeration, some r, none, [], e.members.map Member.definition⟩,
    definition_eq_ok_iff.2 ⟨h, rfl, rfl, ⟨r, rfl, hcovers⟩, rfl, rfl, rfl⟩⟩

end EnumeratedType

/-! ### Dictionaries -/

theorem enumerationDefinitionsFrom_eq_ok_iff {taken : List String} {types : List EnumeratedType}
    {ds : List Definition} : enumerationDefinitionsFrom taken types = .ok ds ↔
      FreshFrom taken (types.map (·.name)) ∧
        List.Forall₂ (fun e a => e.definition = .ok a) types ds := by
  induction types generalizing taken ds with
  | nil =>
    rw [enumerationDefinitionsFrom, Except.ok.injEq, List.forall₂_nil_left_iff]
    exact ⟨fun h => ⟨⟨.nil, nofun⟩, h.symm⟩, fun h => h.2.symm⟩
  | cons e rest ih =>
    rw [List.map_cons, freshFrom_cons, enumerationDefinitionsFrom, List.forall₂_cons_left_iff]
    by_cases htaken : e.name ∈ taken
    · rw [if_pos (List.contains_iff_mem.2 htaken)]
      exact iff_of_false nofun fun h => h.1.1 htaken
    · rw [if_neg (mt List.contains_iff_mem.1 htaken)]
      simp only [bind_eq_ok_iff, ih]
      constructor
      · rintro ⟨a, ha, others, ⟨hfresh, hothers⟩, ⟨⟩⟩
        exact ⟨⟨htaken, hfresh⟩, a, others, ha, hothers, rfl⟩
      · rintro ⟨⟨-, hfresh⟩, a, others, ha, hothers, rfl⟩
        exact ⟨a, ha, others, ⟨hfresh, hothers⟩, rfl⟩

/-- What is asked of the enumerated types of a dictionary. -/
structure EnumerationsFaithful (d : Dictionary) : Prop where
  /-- They have names of their own. -/
  distinct : (d.enumerations.map (·.name)).Nodup
  /-- Each of them is faithful. -/
  types : ∀ e ∈ d.enumerations, e.IsFaithful

/-- **Enumerated types are accepted if and only if they are faithful**, and then each of them is
defined. -/
theorem enumerationDefinitions_eq_ok_iff {d : Dictionary} {ds : List Definition} :
    d.enumerationDefinitions = .ok ds ↔
      d.EnumerationsFaithful ∧ List.Forall₂ EnumeratedType.Defines d.enumerations ds := by
  rw [enumerationDefinitions, enumerationDefinitionsFrom_eq_ok_iff, freshFrom_nil]
  simp only [EnumeratedType.definition_eq_ok_iff, List.forall₂_and_left]
  constructor
  · rintro ⟨hdistinct, htypes, hdefines⟩
    exact ⟨⟨hdistinct, htypes⟩, hdefines⟩
  · rintro ⟨⟨hdistinct, htypes⟩, hdefines⟩
    exact ⟨hdistinct, htypes, hdefines⟩

theorem EnumerationsFaithful.exists_definitions {d : Dictionary} (h : d.EnumerationsFaithful) :
    ∃ ds, d.enumerationDefinitions = .ok ds := by
  have htypes : ∀ types : List EnumeratedType, (∀ e ∈ types, e.IsFaithful) →
      ∃ ds, List.Forall₂ (fun e a => e.definition = .ok a) types ds := by
    intro types hall
    induction types with
    | nil => exact ⟨[], .nil⟩
    | cons e rest ih =>
      obtain ⟨he, hrest⟩ := List.forall_mem_cons.1 hall
      obtain ⟨a, ha⟩ := he.exists_definition
      obtain ⟨others, hothers⟩ := ih hrest
      exact ⟨a :: others, .cons ha hothers⟩
  obtain ⟨ds, hds⟩ := htypes d.enumerations h.types
  exact ⟨ds, enumerationDefinitionsFrom_eq_ok_iff.2 ⟨freshFrom_nil.2 h.distinct, hds⟩⟩

end Dictionary

end OpcWire
