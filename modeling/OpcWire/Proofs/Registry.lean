import OpcWire.Message

/-!
# What the registries hold

A type can be registered under a free identifier (`TypeRegistry.register_of_find?_eq_none`), so
structures with different identifiers can all be registered, and the registry then answers with
exactly those (`TypeRegistry.registerAll_spec`). The standard dictionary gives every structure an
identifier of its own (`Structure.encodingId_injective`), so building its registries succeeds, and
what is left of them is two equivalences:

* `structureOf_extensionObjects_eq_ok_iff` : a type id selects a structure exactly if it is the
  number of the structure's encoding in namespace 0;
* `structureOf_services_eq_ok_iff` : for a service message the structure must be one, besides.
-/

namespace OpcWire

/-- Where keys are different, an entry is found by its key exactly if it is there. -/
theorem find?_eq_some_iff_of_nodup {α β : Type} [DecidableEq β] {f : α → β} {l : List α}
    (hnodup : (l.map f).Nodup) {k : β} {a : α} :
    l.find? (f · == k) = some a ↔ a ∈ l ∧ f a = k := by
  induction l with
  | nil => exact iff_of_false nofun fun h => List.not_mem_nil h.1
  | cons x rest ih =>
    obtain ⟨hx, hrest⟩ := List.nodup_cons.1 hnodup
    by_cases hkey : f x = k
    · rw [List.find?_cons_of_pos (by simpa using hkey), Option.some.injEq, List.mem_cons]
      constructor
      · rintro rfl
        exact ⟨.inl rfl, hkey⟩
      · rintro ⟨rfl | ha, hka⟩
        · rfl
        · exact absurd (hkey.trans hka.symm ▸ List.mem_map_of_mem ha) hx
    · rw [List.find?_cons_of_neg (by simpa using hkey), ih hrest, List.mem_cons]
      refine and_congr_left fun hka => (or_iff_right ?_).symm
      rintro rfl
      exact hkey hka

namespace TypeRegistry

variable {α : Type} {r : TypeRegistry α} {id : UInt32}

/-! ### Registering -/

theorem find?_insert {e : Registration α} {l : List (Registration α)}
    (h : l.find? (·.id == e.id) = none) (id : UInt32) :
    (insert e l).find? (·.id == id) = if e.id = id then some e else l.find? (·.id == id) := by
  induction l with
  | nil =>
    by_cases hid : e.id = id <;> simp [insert, hid]
  | cons x rest ih =>
    have hx : x.id ≠ e.id := by
      intro hx
      simp [hx] at h
    rw [List.find?_cons_of_neg (by simpa using hx)] at h
    rw [insert]
    split
    · by_cases hid : e.id = id <;> simp [hid]
    · by_cases hxid : x.id = id
      · have hne : e.id ≠ id := fun he => hx (hxid.trans he.symm)
        simp [hxid, hne]
      · simp [hxid, ih h]

theorem length_insert (e : Registration α) (l : List (Registration α)) :
    (insert e l).length = l.length + 1 := by
  induction l with
  | nil => rfl
  | cons x rest ih =>
    rw [insert]
    split
    · rfl
    · rw [List.length_cons, ih, List.length_cons]

theorem structure?_eq_none_iff : r.structure? id = none ↔ r.find? id = none :=
  Option.map_eq_none_iff

theorem contains_eq_true_iff : r.contains id = true ↔ ∃ s, r.structure? id = some s := by
  rw [contains, structure?]
  cases r.find? id <;> simp

/-- **Registering under an identifier that is free** adds an entry, and changes nothing else. -/
theorem register_of_find?_eq_none (name : String) (s : α) (h : r.find? id = none) :
    ∃ r', r.register id name s = .ok r' ∧ r'.kind = r.kind ∧ r'.size = r.size + 1 ∧
      ∀ id', r'.find? id' = if id = id' then some ⟨id, name, s⟩ else r.find? id' :=
  ⟨⟨r.kind, insert ⟨id, name, s⟩ r.registrations⟩, by rw [register, h], rfl, length_insert _ _,
    fun id' => find?_insert (e := ⟨id, name, s⟩) h id'⟩

theorem register_spec (name : String) (s : α) (h : r.structure? id = none) :
    ∃ r', r.register id name s = .ok r' ∧ r'.kind = r.kind ∧
      ∀ id', r'.structure? id' = if id = id' then some s else r.structure? id' := by
  obtain ⟨r', hr', hkind, -, hfind⟩ :=
    register_of_find?_eq_none name s (structure?_eq_none_iff.1 h)
  refine ⟨r', hr', hkind, fun id' => ?_⟩
  rw [structure?, hfind]
  split <;> rfl

/-- Registering one structure after the other: what is held afterwards is what was held before
and what was registered. -/
theorem foldlM_register {r : TypeRegistry Structure} {structures : List Structure} (hnodup : structures.Nodup)
    (hinj : ∀ s t : Structure, s.encodingId = t.encodingId → s = t)
    (hfree : ∀ s ∈ structures, r.structure? s.encodingId = none) :
    ∃ r', structures.foldlM (fun r s => r.register s.encodingId s.name s) r = .ok r' ∧
      r'.kind = r.kind ∧ ∀ id s, r'.structure? id = some s ↔
        s ∈ structures ∧ s.encodingId = id ∨ r.structure? id = some s := by
  induction structures generalizing r with
  | nil => exact ⟨r, rfl, rfl, by simp⟩
  | cons t rest ih =>
    obtain ⟨hnew, hrest⟩ := List.nodup_cons.1 hnodup
    have ht := hfree t List.mem_cons_self
    obtain ⟨r₁, hregister, hkind, hr₁⟩ := register_spec t.name t ht
    -- the others are still free, their identifiers being different from the one just taken
    obtain ⟨r', hall, hkind', hr'⟩ := ih (r := r₁) hrest fun s hs => by
      have hne : t.encodingId ≠ s.encodingId := by
        intro heq
        exact hnew (hinj t s heq ▸ hs)
      rw [hr₁, if_neg hne]
      exact hfree s (List.mem_cons_of_mem t hs)
    refine ⟨r', ?_, hkind'.trans hkind, fun id s => ?_⟩
    · rw [List.foldlM_cons, hregister]
      exact hall
    · rw [hr', hr₁, List.mem_cons]
      by_cases hid : t.encodingId = id
      · subst hid
        simp only [↓reduceIte, ht, Option.some.injEq, reduceCtorEq, or_false]
        constructor
        · rintro (⟨hs, heq⟩ | rfl)
          · exact ⟨.inr hs, heq⟩
          · exact ⟨.inl rfl, rfl⟩
        · rintro ⟨-, heq⟩
          exact .inr (hinj s t heq).symm
      · rw [if_neg hid]
        constructor
        · rintro (⟨hs, heq⟩ | hold)
          · exact .inl ⟨.inr hs, heq⟩
          · exact .inr hold
        · rintro (⟨rfl | hs, heq⟩ | hold)
          · exact absurd heq hid
          · exact .inl ⟨hs, heq⟩
          · exact .inr hold

end TypeRegistry

/-! ### The standard dictionary -/

theorem Structure.mem_all (s : Structure) : s ∈ all := by
  cases s <;> decide

theorem Structure.find?_all (s : Structure) :
    all.find? (·.encodingId == s.encodingId) = some s := by
  cases s <;> rfl

/-- No two structures share an identifier. -/
theorem Structure.encodingId_injective (s t : Structure) (h : s.encodingId = t.encodingId) :
    s = t := by
  have hs := find?_all s
  rw [h, find?_all] at hs
  exact (Option.some.inj hs).symm

/-- **Registering structures**, each once. -/
theorem TypeRegistry.registerAll_spec (kind : String) {structures : List Structure}
    (hnodup : structures.Nodup) : ∃ r, (empty kind).registerAll structures = .ok r ∧
      r.kind = kind ∧ ∀ id s, r.structure? id = some s ↔ s ∈ structures ∧ s.encodingId = id := by
  obtain ⟨r, hr, hkind, hmem⟩ := foldlM_register (r := empty kind) hnodup
    Structure.encodingId_injective fun _ _ => rfl
  refine ⟨r, hr, hkind, fun id s => (hmem id s).trans ?_⟩
  exact or_iff_left nofun

/-- **The registries can be built**, and hold all structures and all service messages. -/
theorem Registries.build_spec : ∃ r, build = .ok r ∧ r.services.kind = "service" ∧
    (∀ id s, r.extensionObjects.structure? id = some s ↔ s.encodingId = id) ∧
      ∀ id s, r.services.structure? id = some s ↔ s.isService = true ∧ s.encodingId = id := by
  have hnodup : Structure.all.Nodup := by decide
  obtain ⟨objects, hobjects, -, hfind⟩ :=
    TypeRegistry.registerAll_spec "extension object" hnodup
  obtain ⟨services, hservices, hkind, hfind'⟩ :=
    TypeRegistry.registerAll_spec "service" (hnodup.filter (·.isService))
  refine ⟨⟨objects, services⟩, ?_, hkind, fun id s => ?_, fun id s => ?_⟩
  · rw [build, hobjects, hservices]
    rfl
  · rw [hfind]
    exact and_iff_right s.mem_all
  · rw [hfind', List.mem_filter]
    simp only [s.mem_all, true_and]

/-! ### Selecting a structure -/

theorem NodeId.standardNumber?_eq_some_iff {n : NodeId} {id : UInt32} :
    n.standardNumber? = some id ↔ n = .numeric 0 id := by
  obtain ⟨namespaceIndex, identifier⟩ := n
  cases identifier <;> simp [standardNumber?, numeric, and_comm]

theorem structureOf_eq_ok_iff {registry : Registries → TypeRegistry Structure} {typeId : NodeId}
    {s : Structure} {r : Registries} (hr : Registries.build = .ok r) :
    structureOf registry typeId = .ok s ↔
      ∃ id, typeId = .numeric 0 id ∧ (registry r).structure? id = some s := by
  rw [structureOf, hr]
  cases hid : typeId.standardNumber? with
  | none =>
    refine ⟨nofun, fun ⟨id, htypeId, _⟩ => ?_⟩
    rw [NodeId.standardNumber?_eq_some_iff.2 htypeId] at hid
    cases hid
  | some id =>
    obtain rfl := NodeId.standardNumber?_eq_some_iff.1 hid
    constructor
    · intro h
      refine ⟨id, rfl, ?_⟩
      cases hs : (registry r).structure? id with
      | none => simp only [hs] at h; cases h
      | some t => simp only [hs] at h; cases h; rfl
    · rintro ⟨id', htypeId, hs⟩
      obtain rfl : id = id' := by
        rw [NodeId.standardNumber?_eq_some_iff.2 htypeId] at hid
        exact (Option.some.inj hid).symm
      simp only [hs]
      rfl

theorem structureOf_extensionObjects_eq_ok_iff {typeId : NodeId} {s : Structure} :
    structureOf Registries.extensionObjects typeId = .ok s ↔
      typeId = .numeric 0 s.encodingId := by
  obtain ⟨r, hr, -, hobjects, -⟩ := Registries.build_spec
  rw [structureOf_eq_ok_iff hr]
  constructor
  · rintro ⟨id, rfl, hs⟩
    rw [(hobjects id s).1 hs]
  · rintro rfl
    exact ⟨_, rfl, (hobjects _ s).2 rfl⟩

theorem structureOf_services_eq_ok_iff {typeId : NodeId} {s : Structure} :
    structureOf Registries.services typeId = .ok s ↔
      s.isService = true ∧ typeId = .numeric 0 s.encodingId := by
  obtain ⟨r, hr, -, -, hservices⟩ := Registries.build_spec
  rw [structureOf_eq_ok_iff hr]
  constructor
  · rintro ⟨id, rfl, hs⟩
    obtain ⟨hservice, rfl⟩ := (hservices id s).1 hs
    exact ⟨hservice, rfl⟩
  · rintro ⟨hservice, rfl⟩
    exact ⟨_, rfl, (hservices _ s).2 ⟨hservice, rfl⟩⟩

/-- **Service messages are written, other bodies refused.** -/
theorem encodeMessage_eq (b : Body) : encodeMessage b =
    if b.structureType.isService then
      NodeId.codec.encode (.numeric 0 b.encodingId) ++ b.encode
    else .fail (.unregisteredType "service" b.encodingId) := by
  obtain ⟨r, hr, hkind, -, hservices⟩ := Registries.build_spec
  have hcontains : r.services.contains b.encodingId = b.structureType.isService := by
    rw [Bool.eq_iff_iff, TypeRegistry.contains_eq_true_iff]
    constructor
    · rintro ⟨s, hs⟩
      obtain ⟨hservice, hid⟩ := (hservices _ s).1 hs
      rwa [← Structure.encodingId_injective s b.structureType hid]
    · intro hservice
      exact ⟨b.structureType, (hservices _ _).2 ⟨hservice, rfl⟩⟩
  rw [encodeMessage, hr]
  simp only [hcontains, hkind]

end OpcWire
