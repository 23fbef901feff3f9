import OpcWire.Generator.Run
import OpcWire.Proofs.Generator.Definitions
import OpcWire.Proofs.Registry

/-!
# Checking identifiers is registering in advance

Before code is generated, each structure must have a number of its own in the identifier table
(`IdTable.validate`). When the generated code starts, the structures are registered under these
numbers (`IdTable.registerDefinitions`). The check and the registration go through the structures
side by side (`IdTable.validateFrom_spec`): the owners that the one has noted are the names that the
other has registered. So the check foresees how the registration ends
(`validation_predicts_registration`).
-/

namespace OpcWire

theorem foldlM_eq_error_iff {ε α β : Type} {f : β → α → Except ε β} {l : List α} {b : β} {e : ε} :
    l.foldlM f b = .error e ↔ ∃ earlier a later b', l = earlier ++ a :: later ∧
      earlier.foldlM f b = .ok b' ∧ f b' a = .error e := by
  induction l generalizing b with
  | nil =>
    refine iff_of_false nofun ?_
    rintro ⟨earlier, a, later, b', hl, -⟩
    exact List.append_ne_nil_of_right_ne_nil _ (List.cons_ne_nil _ _) hl.symm
  | cons x rest ih =>
    rw [List.foldlM_cons, bind_eq_error_iff]
    constructor
    · rintro (hx | ⟨b₁, hx, hrest⟩)
      · exact ⟨[], x, rest, b, rfl, rfl, hx⟩
      · obtain ⟨earlier, a, later, b', rfl, hearlier, ha⟩ := ih.1 hrest
        refine ⟨x :: earlier, a, later, b', rfl, ?_, ha⟩
        rw [List.foldlM_cons]
        exact bind_eq_ok_iff.2 ⟨b₁, hx, hearlier⟩
    · rintro ⟨earlier, a, later, b', hl, hearlier, ha⟩
      cases earlier with
      | nil =>
        obtain ⟨rfl, rfl⟩ := List.cons.inj hl
        obtain rfl := Except.ok.inj hearlier
        exact .inl ha
      | cons y earlier =>
        obtain ⟨rfl, rfl⟩ := List.cons.inj hl
        rw [List.foldlM_cons] at hearlier
        obtain ⟨b₁, hx, hearlier⟩ := bind_eq_ok_iff.1 hearlier
        exact .inr ⟨b₁, hx, ih.2 ⟨earlier, a, later, b', rfl, hearlier, ha⟩⟩

namespace IdTable

/-! ### Registering definitions -/

/-- Why a definition is not registered. -/
inductive RegistrationFault
  /-- The table has no entry of this name. -/
  | unlisted (name : String)
  /-- The registry refuses the definition. -/
  | refused (cause : RegistryError)
  deriving DecidableEq, Repr

/-- Look up the number of a definition's encoding, and register the definition under it. -/
def registerDefinition (t : IdTable) (r : TypeRegistry Definition) (d : Definition) :
    Except RegistrationFault (TypeRegistry Definition) :=
  match t.get? (Naming.encodingIdName d.name) with
  | none => .error (.unlisted (Naming.encodingIdName d.name))
  | some id => (r.register id d.name d).mapError .refused

/-- Register definitions one after the other, up to the first that is not registered. -/
def registerDefinitions (t : IdTable) (r : TypeRegistry Definition) (ds : List Definition) :
    Except RegistrationFault (TypeRegistry Definition) :=
  ds.foldlM t.registerDefinition r

/-- Whether the first step that fails, in registering definitions in an empty registry, fails with
`fault`. -/
def FailsFirst (t : IdTable) (kind : String) (ds : List Definition) (fault : RegistrationFault) :
    Prop :=
  ∃ earlier d later r, ds = earlier ++ d :: later ∧
    t.registerDefinitions (.empty kind) earlier = .ok r ∧ t.registerDefinition r d = .error fault

variable {t : IdTable} {r : TypeRegistry Definition} {d : Definition} {ds : List Definition}
  {kind : String} {fault : RegistrationFault}

theorem failsFirst_iff : t.FailsFirst kind ds fault ↔
    t.registerDefinitions (.empty kind) ds = .error fault :=
  foldlM_eq_error_iff.symm

theorem registerDefinition_of_unlisted (h : t.get? (Naming.encodingIdName d.name) = none) :
    t.registerDefinition r d = .error (.unlisted (Naming.encodingIdName d.name)) := by
  rw [registerDefinition, h]

theorem registerDefinition_of_taken {id : UInt32} {first : String}
    (h : t.get? (Naming.encodingIdName d.name) = some id) (htaken : r.name? id = some first) :
    t.registerDefinition r d =
      .error (.refused (.duplicateIdentifier r.kind id first d.name)) := by
  obtain ⟨e, he, rfl⟩ := Option.map_eq_some_iff.1 htaken
  rw [registerDefinition, h]
  dsimp only
  rw [TypeRegistry.register, he]
  rfl

theorem registerDefinition_of_free {id : UInt32}
    (h : t.get? (Naming.encodingIdName d.name) = some id) (hfree : r.name? id = none) :
    ∃ r', t.registerDefinition r d = .ok r' ∧ r'.kind = r.kind ∧
      ∀ id', r'.name? id' = if id = id' then some d.name else r.name? id' := by
  obtain ⟨r', hr', hkind, -, hfind⟩ :=
    TypeRegistry.register_of_find?_eq_none d.name d (Option.map_eq_none_iff.1 hfree)
  refine ⟨r', ?_, hkind, fun id' => ?_⟩
  · rw [registerDefinition, h]
    dsimp only
    rw [hr']
    rfl
  · rw [TypeRegistry.name?, hfind]
    split <;> rfl

/-! ### Side by side -/

/-- **Checking and registering end alike**, when the owners noted are the names registered. -/
theorem validateFrom_spec {owners : List (UInt32 × String)}
    (howners : ∀ id, owners.lookup id = r.name? id) (ds : List Definition) :
    (t.validateFrom owners ds = .ok () ∧ ∃ r', t.registerDefinitions r ds = .ok r') ∨
      (∃ name, t.validateFrom owners ds = .error (.missingIdentifier name) ∧
        t.registerDefinitions r ds = .error (.unlisted name)) ∨
      ∃ id first second,
        t.validateFrom owners ds = .error (.duplicateIdentifier id first second) ∧
        t.registerDefinitions r ds =
          .error (.refused (.duplicateIdentifier r.kind id first second)) := by
  induction ds generalizing owners r with
  | nil => exact .inl ⟨rfl, r, rfl⟩
  | cons d rest ih =>
    rw [validateFrom, registerDefinitions, List.foldlM_cons]
    cases hid : t.get? (Naming.encodingIdName d.name) with
    | none =>
      rw [registerDefinition_of_unlisted hid]
      exact .inr (.inl ⟨_, rfl, rfl⟩)
    | some id =>
      cases hlookup : owners.lookup id with
      | some first =>
        rw [registerDefinition_of_taken hid ((howners id).symm.trans hlookup)]
        simp only [hlookup]
        exact .inr (.inr ⟨id, first, d.name, rfl, rfl⟩)
      | none =>
        obtain ⟨r', hr', hkind, hname⟩ :=
          registerDefinition_of_free hid ((howners id).symm.trans hlookup)
        have howners' (id' : UInt32) :
            ((id, d.name) :: owners).lookup id' = r'.name? id' := by
          rw [hname, ← howners, List.lookup_cons]
          by_cases heq : id' = id
          · rw [if_pos heq.symm, heq, BEq.rfl]
          · rw [if_neg (Ne.symm heq), beq_false_of_ne heq]
        rw [hr', ← hkind]
        simp only [hlookup]
        exact ih howners'

theorem validate_spec (t : IdTable) (kind : String) (ds : List Definition) :
    (t.validate ds = .ok () ∧ ∃ r, t.registerDefinitions (.empty kind) ds = .ok r) ∨
      (∃ name, t.validate ds = .error (.missingIdentifier name) ∧
        t.registerDefinitions (.empty kind) ds = .error (.unlisted name)) ∨
      ∃ id first second, t.validate ds = .error (.duplicateIdentifier id first second) ∧
        t.registerDefinitions (.empty kind) ds =
          .error (.refused (.duplicateIdentifier kind id first second)) :=
  validateFrom_spec (fun _ => rfl) ds

end IdTable

/-- **The check of identifiers foresees the registration exactly.** It succeeds if and only if all
definitions can be registered, one after the other, in an empty registry under the numbers that the
table has for them. It reports two definitions with one number if and only if the first step that
fails is a registration which is refused for this number and these two; and it reports a name that
the table lacks if and only if the first step that fails is looking up this name. -/
theorem validation_predicts_registration (t : IdTable) (kind : String) (ds : List Definition) :
    (t.validate ds = .ok () ↔ ∃ r, t.registerDefinitions (.empty kind) ds = .ok r) ∧
      (∀ id first second, t.validate ds = .error (.duplicateIdentifier id first second) ↔
        t.FailsFirst kind ds (.refused (.duplicateIdentifier kind id first second))) ∧
      ∀ name, t.validate ds = .error (.missingIdentifier name) ↔
        t.FailsFirst kind ds (.unlisted name) := by
  simp only [IdTable.failsFirst_iff]
  rcases IdTable.validate_spec t kind ds with ⟨hok, r, hr⟩ | ⟨name, herror, hr⟩ |
    ⟨id, first, second, herror, hr⟩
  · rw [hok, hr]
    exact ⟨iff_of_true rfl ⟨r, rfl⟩, fun _ _ _ => iff_of_false nofun nofun,
      fun _ => iff_of_false nofun nofun⟩
  · rw [herror, hr]
    refine ⟨iff_of_false nofun nofun, fun _ _ _ => iff_of_false nofun nofun, fun _ => ?_⟩
    simp only [Except.error.injEq, GenerateError.missingIdentifier.injEq,
      IdTable.RegistrationFault.unlisted.injEq]
  · rw [herror, hr]
    refine ⟨iff_of_false nofun nofun, fun _ _ _ => ?_, fun _ => iff_of_false nofun nofun⟩
    simp only [Except.error.injEq, GenerateError.duplicateIdentifier.injEq,
      IdTable.RegistrationFault.refused.injEq, RegistryError.duplicateIdentifier.injEq, true_and]

end OpcWire
