import OpcWire.Generator.Run
import OpcWire.Proofs.Generator.Definitions

/-!
# What a run of the generator has checked

A run succeeds if and only if the definitions can be made, their identifiers are in order, and so
are the constants of the table (`Dictionary.generate_eq_ok_iff`). Identifiers are in order when
every structure has a number in the table and no two have the same one
(`IdTable.validate_eq_ok_iff`), and constants are when no two entries have the same one
(`Source.identifierFile_eq_ok_iff`).
-/

namespace OpcWire

theorem lookup_cons_eq_none_iff {α β : Type} [DecidableEq α] {a k : α} {b : β} {l : List (α × β)} :
    ((k, b) :: l).lookup a = none ↔ k ≠ a ∧ l.lookup a = none := by
  rw [List.lookup_cons]
  by_cases h : a = k
  · simp only [h, BEq.rfl, reduceCtorEq, ne_eq, not_true_eq_false, false_and]
  · simp only [beq_eq_false_iff_ne.2 h, ne_eq, Ne.symm h, not_false_eq_true, true_and]

/-! ### Identifiers of structures -/

namespace IdTable

variable {t : IdTable}

theorem validateFrom_eq_ok_iff {owners : List (UInt32 × String)} {ds : List Definition} :
    t.validateFrom owners ds = .ok () ↔
      (∀ d ∈ ds, ∃ id, t.get? (Naming.encodingIdName d.name) = some id ∧
        owners.lookup id = none) ∧
      ds.Pairwise fun a b =>
        t.get? (Naming.encodingIdName a.name) ≠ t.get? (Naming.encodingIdName b.name) := by
  induction ds generalizing owners with
  | nil => exact iff_of_true rfl ⟨nofun, .nil⟩
  | cons d rest ih =>
    rw [List.forall_mem_cons, List.pairwise_cons, validateFrom]
    cases hid : t.get? (Naming.encodingIdName d.name) with
    | none => exact iff_of_false nofun nofun
    | some id =>
      cases hlookup : owners.lookup id with
      | some first =>
        refine iff_of_false (by simp only [hlookup]; nofun) ?_
        rintro ⟨⟨⟨id', ⟨⟩, hnone⟩, -⟩, -⟩
        rw [hlookup] at hnone
        cases hnone
      | none =>
        simp only [hlookup, ih, lookup_cons_eq_none_iff]
        constructor
        · rintro ⟨hrest, hpairwise⟩
          refine ⟨⟨⟨id, rfl, hlookup⟩, fun a ha => ?_⟩, fun a ha heq => ?_, hpairwise⟩
          · obtain ⟨id', hid', -, hnone⟩ := hrest a ha
            exact ⟨id', hid', hnone⟩
          · obtain ⟨id', hid', hne, -⟩ := hrest a ha
            exact hne (Option.some.inj (heq.trans hid'))
        · rintro ⟨⟨-, hrest⟩, hne, hpairwise⟩
          refine ⟨fun a ha => ?_, hpairwise⟩
          obtain ⟨id', hid', hnone⟩ := hrest a ha
          exact ⟨id', hid', fun heq => hne a ha (heq ▸ hid').symm, hnone⟩

/-- **Identifiers are in order if and only if every structure has a number and no two have the
same one.** -/
theorem validate_eq_ok_iff {ds : List Definition} : t.validate ds = .ok () ↔
    (∀ d ∈ ds, ∃ id, t.get? (Naming.encodingIdName d.name) = some id) ∧
      ds.Pairwise fun a b =>
        t.get? (Naming.encodingIdName a.name) ≠ t.get? (Naming.encodingIdName b.name) := by
  rw [validate, validateFrom_eq_ok_iff]
  simp only [List.lookup_nil, and_true]

end IdTable

/-! ### Constants of the table -/

namespace Source

theorem checkConstants_eq_ok_iff {earlier : List (String × String)} {entries : List IdEntry} :
    checkConstants earlier entries = .ok () ↔
      (∀ e ∈ entries, earlier.lookup (Naming.constIdent e.name) = none) ∧
        (entries.map fun e => Naming.constIdent e.name).Nodup := by
  induction entries generalizing earlier with
  | nil => exact iff_of_true rfl ⟨nofun, .nil⟩
  | cons e rest ih =>
    rw [List.forall_mem_cons, List.map_cons, List.nodup_cons, checkConstants]
    cases hlookup : earlier.lookup (Naming.constIdent e.name) with
    | some first => exact iff_of_false nofun nofun
    | none =>
      simp only [ih, lookup_cons_eq_none_iff, List.mem_map, not_exists, not_and, true_and]
      constructor
      · rintro ⟨hrest, hnodup⟩
        exact ⟨fun a ha => (hrest a ha).2, fun a ha heq => (hrest a ha).1 heq.symm, hnodup⟩
      · rintro ⟨hrest, hne, hnodup⟩
        exact ⟨fun a ha => ⟨fun heq => hne a ha heq.symm, hrest a ha⟩, hnodup⟩

/-- **Constants are in order if and only if no two entries have the same one.** -/
theorem identifierFile_eq_ok_iff {t : IdTable} {text : String} :
    identifierFile t = .ok text ↔ (t.entries.map fun e => Naming.constIdent e.name).Nodup ∧
      text = render (header none ++ [""] ++ t.entries.flatMap identifierLines) := by
  rw [identifierFile, bind_eq_ok_iff]
  constructor
  · rintro ⟨⟨⟩, hcheck, htext⟩
    exact ⟨(checkConstants_eq_ok_iff.1 hcheck).2, (Except.ok.inj htext).symm⟩
  · rintro ⟨hnodup, rfl⟩
    exact ⟨(), checkConstants_eq_ok_iff.2 ⟨fun _ _ => rfl, hnodup⟩, rfl⟩

end Source

/-! ### Runs -/

/-- **A run succeeds if and only if every part of it does.** -/
theorem Dictionary.generate_eq_ok_iff {d : Dictionary} {table : Option IdTable}
    {options : GenerateOptions} {files : GeneratedFiles} :
    d.generate table options = .ok files ↔ ∃ enumerations objects identifiers,
      d.enumerationDefinitions = .ok enumerations ∧
      d.objectDefinitions options.roots = .ok objects ∧
      (∀ t ∈ table, t.validate objects = .ok ()) ∧
      table.mapM Source.identifierFile = .ok identifiers ∧
      files =
        { enumerations := Source.enumerationFile options.prelude enumerations
          objects := Source.objectFile options.prelude objects
          objectRegistration := Source.objectRegistrationFile options.prelude objects
          serviceRegistration := Source.serviceRegistrationFile options.prelude objects
          identifiers } := by
  unfold generate
  constructor
  · intro h
    obtain ⟨enumerations, henumerations, h⟩ := bind_eq_ok_iff.1 h
    obtain ⟨objects, hobjects, h⟩ := bind_eq_ok_iff.1 h
    cases table with
    | none =>
      obtain ⟨identifiers, hidentifiers, h⟩ := bind_eq_ok_iff.1 h
      exact ⟨enumerations, objects, identifiers, henumerations, hobjects, nofun, hidentifiers,
        (Except.ok.inj h).symm⟩
    | some t =>
      obtain ⟨⟨⟩, hvalidate, h⟩ := bind_eq_ok_iff.1 h
      obtain ⟨identifiers, hidentifiers, h⟩ := bind_eq_ok_iff.1 h
      refine ⟨enumerations, objects, identifiers, henumerations, hobjects, ?_, hidentifiers,
        (Except.ok.inj h).symm⟩
      rintro _ ⟨⟩
      exact hvalidate
  · rintro ⟨enumerations, objects, identifiers, henumerations, hobjects, hvalidate, hidentifiers,
      rfl⟩
    refine bind_eq_ok_iff.2 ⟨enumerations, henumerations, bind_eq_ok_iff.2 ⟨objects, hobjects, ?_⟩⟩
    cases table with
    | none => exact bind_eq_ok_iff.2 ⟨identifiers, hidentifiers, rfl⟩
    | some t =>
      exact bind_eq_ok_iff.2 ⟨(), hvalidate t rfl, bind_eq_ok_iff.2 ⟨identifiers, hidentifiers, rfl⟩⟩

/-- A run with a table has checked the table against the definitions, and made every file from one
or the other. -/
theorem Dictionary.files_of_generate {d : Dictionary} {table : IdTable} {options : GenerateOptions}
    {files : GeneratedFiles} {objects : List Definition}
    (h : d.generate (some table) options = .ok files)
    (hobjects : d.objectDefinitions options.roots = .ok objects) :
    table.validate objects = .ok () ∧
      (∃ text, Source.identifierFile table = .ok text ∧ files.identifiers = some text) ∧
      files.objects = Source.objectFile options.prelude objects ∧
      files.objectRegistration = Source.objectRegistrationFile options.prelude objects ∧
      files.serviceRegistration = Source.serviceRegistrationFile options.prelude objects := by
  obtain ⟨enumerations, objects', identifiers, -, hobjects', hvalidate, hidentifiers, hfiles⟩ :=
    generate_eq_ok_iff.1 h
  obtain rfl := Except.ok.inj (hobjects'.symm.trans hobjects)
  obtain ⟨text, htext, hsome⟩ := bind_eq_ok_iff.1 hidentifiers
  obtain rfl := Except.ok.inj hsome
  exact ⟨hvalidate table rfl, ⟨text, htext, by rw [hfiles]⟩, by rw [hfiles], by rw [hfiles],
    by rw [hfiles]⟩

end OpcWire
