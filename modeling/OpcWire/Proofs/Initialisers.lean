import OpcWire.Generator.Initialiser
import OpcWire.Proofs.IdTable.Index
import OpcWire.Proofs.Registry
import OpcWire.Proofs.Source.Identifiers
import OpcWire.Proofs.Source.Unbroken

/-!
# Generated initialisers cannot fail

When a dictionary is generated with an identifier table, the generated functions that register its
types do so without failing, whatever the table holds besides (`initialisers_cannot_fail`). What a
run has checked is about names of the table, and three files refer to constants made from these
names: they agree since no two names of a table have the same constant in a run that succeeds.

Running calls is the induction: each call needs its type, its constant and a number that is free
(`GeneratedFiles.call_eq_ok`), and takes the number from no other call
(`GeneratedFiles.runCalls_spec`).
-/

namespace OpcWire

/-! ### Running calls -/

namespace GeneratedFiles

variable {files : GeneratedFiles}

/-- Whether a call has what it needs: a type that is the body of an extension object, and a constant
that is defined once. -/
def Provides (files : GeneratedFiles) (c : Source.Call) (id : UInt32) : Prop :=
  c.typeName ∈ files.encodingConstants.map Prod.fst ∧ files.number? c.constant = some id

/-- What a registry holds under a number after calls have been made on an empty one. -/
def Registers (files : GeneratedFiles) (calls : List Source.Call) (r : TypeRegistry String) : Prop :=
  ∀ id e, r.find? id = some e ↔
    ∃ c ∈ calls, files.number? c.constant = some id ∧ e = ⟨id, c.name, c.typeName⟩

theorem call_eq_ok {c : Source.Call} {id : UInt32} (hc : files.Provides c id)
    {r : TypeRegistry String} (hfree : r.find? id = none) :
    ∃ r', files.call c r = .ok r' ∧ r'.kind = r.kind ∧ r'.size = r.size + 1 ∧
      ∀ id', r'.find? id' = if id = id' then some ⟨id, c.name, c.typeName⟩ else r.find? id' := by
  obtain ⟨r', hr', hspec⟩ := TypeRegistry.register_of_find?_eq_none c.name c.typeName hfree
  refine ⟨r', ?_, hspec⟩
  rw [call, if_pos hc.1, hc.2]
  dsimp only
  rw [hr']
  rfl

/-- **Calls with different numbers can all be made**, and the registry then holds what it held
before and what was registered. -/
theorem runCalls_spec {calls : List Source.Call}
    (hprovides : ∀ c ∈ calls, ∃ id, files.Provides c id)
    (hdistinct : calls.Pairwise fun c c' => files.number? c.constant ≠ files.number? c'.constant)
    {r : TypeRegistry String}
    (hfree : ∀ c ∈ calls, ∀ id, files.number? c.constant = some id → r.find? id = none) :
    ∃ r', calls.foldlM (fun r c => files.call c r) r = .ok r' ∧ r'.kind = r.kind ∧
      r'.size = r.size + calls.length ∧ ∀ id e, r'.find? id = some e ↔
        (∃ c ∈ calls, files.number? c.constant = some id ∧ e = ⟨id, c.name, c.typeName⟩) ∨
          r.find? id = some e := by
  induction calls generalizing r with
  | nil => exact ⟨r, rfl, rfl, rfl, by simp⟩
  | cons c rest ih =>
    obtain ⟨⟨id, hc⟩, hrest⟩ := List.forall_mem_cons.1 hprovides
    obtain ⟨hne, hpairwise⟩ := List.pairwise_cons.1 hdistinct
    have hnone := hfree c List.mem_cons_self id hc.2
    obtain ⟨r₁, hcall, hkind, hsize, hr₁⟩ := call_eq_ok hc hnone
    -- the numbers of the other calls are still free, being different from the one just taken
    obtain ⟨r', hrun, hkind', hsize', hr'⟩ := ih hrest hpairwise (r := r₁) fun c' hc' id' hid' => by
      have hid : id ≠ id' := fun heq => hne c' hc' (hc.2.trans (heq ▸ hid'.symm))
      rw [hr₁, if_neg hid]
      exact hfree c' (List.mem_cons_of_mem c hc') id' hid'
    refine ⟨r', ?_, hkind'.trans hkind, ?_, fun id' e => ?_⟩
    · rw [List.foldlM_cons, hcall]
      exact hrun
    · rw [hsize', hsize, List.length_cons]
      omega
    · rw [hr', hr₁]
      simp only [List.mem_cons, exists_eq_or_imp]
      by_cases hid : id = id'
      · subst hid
        rw [if_pos rfl, hnone]
        constructor
        · rintro (h | h)
          · exact .inl (.inr h)
          · exact .inl (.inl ⟨hc.2, (Option.some.inj h).symm⟩)
        · rintro ((⟨-, rfl⟩ | h) | h)
          · exact .inr rfl
          · exact .inl h
          · cases h
      · rw [if_neg hid]
        constructor
        · rintro (h | h)
          · exact .inl (.inr h)
          · exact .inr h
        · rintro ((⟨hid', -⟩ | h) | h)
          · exact absurd (Option.some.inj (hc.2.symm.trans hid')) hid
          · exact .inl h
          · exact .inr h

/-- **An initialiser that makes calls with different numbers cannot fail** on an empty registry. -/
theorem runInitialiser_spec {function text : String} {calls : List Source.Call}
    (hcalls : Source.calls? function text = some calls)
    (hprovides : ∀ c ∈ calls, ∃ id, files.Provides c id)
    (hdistinct : calls.Pairwise fun c c' => files.number? c.constant ≠ files.number? c'.constant)
    (kind : String) :
    ∃ r, files.runInitialiser function text (.empty kind) = .ok r ∧ r.kind = kind ∧
      r.size = calls.length ∧ files.Registers calls r := by
  obtain ⟨r, hrun, hkind, hsize, hr⟩ :=
    runCalls_spec hprovides hdistinct (r := .empty kind) fun _ _ _ _ => rfl
  refine ⟨r, ?_, hkind, hsize.trans (Nat.zero_add _), fun id e => (hr id e).trans ?_⟩
  · rw [runInitialiser, hcalls]
    exact hrun
  · exact or_iff_left nofun

theorem constants_of_get? {t : IdTable} (hindexed : t.IsIndexed) (ht : t.Lacks '\n') {text : String}
    (htext : Source.identifierFile t = .ok text) (hfiles : files.identifiers = some text)
    {a : Definition} {id : UInt32} (hid : t.get? (Naming.encodingIdName a.name) = some id) :
    files.constants.filter (·.name == a.encodingConstant) = [⟨a.encodingConstant, id⟩] ∧
      files.number? a.encodingConstant = some id := by
  obtain ⟨e, he, hname, rfl⟩ := hindexed.get?_eq_some_iff.1 hid
  have hfilter : files.constants.filter (·.name == a.encodingConstant) =
      [⟨a.encodingConstant, e.id⟩] := by
    have hsingleton := Source.filter_constants_eq_singleton ht htext he
    rw [hname] at hsingleton
    rw [constants, hfiles]
    exact hsingleton.trans (by rw [IdEntry.constant, hname]; rfl)
  exact ⟨hfilter, by rw [number?, hfilter]⟩

theorem pairwise_number?_ne {t : IdTable} {objects : List Definition}
    (hdistinct : objects.Pairwise fun a b =>
      t.get? (Naming.encodingIdName a.name) ≠ t.get? (Naming.encodingIdName b.name))
    (hnumber : ∀ a ∈ objects,
      files.number? a.encodingConstant = t.get? (Naming.encodingIdName a.name)) :
    (objects.map Definition.registrationCall).Pairwise fun c c' =>
      files.number? c.constant ≠ files.number? c'.constant := by
  refine List.pairwise_map.2 (hdistinct.imp_of_mem fun {a b} ha hb hne heq => hne ?_)
  calc t.get? (Naming.encodingIdName a.name)
      = files.number? a.encodingConstant := (hnumber a ha).symm
    _ = files.number? b.encodingConstant := heq
    _ = t.get? (Naming.encodingIdName b.name) := hnumber b hb

end GeneratedFiles

/-! ### Service messages -/

/-- Whether a name is that of a service message. -/
def NamesService (name : String) : Prop :=
  (∃ stem, name = stem ++ "Request") ∨ (∃ stem, name = stem ++ "Response") ∨ name = "ServiceFault"

theorem Definition.isService_eq_true_iff (a : Definition) :
    a.isService = true ↔ NamesService a.name := by
  have hsuffix (ending : String) :
      ending.toList.isSuffixOf a.name.toList = true ↔ ∃ stem, a.name = stem ++ ending := by
    rw [List.isSuffixOf_iff_suffix]
    constructor
    · rintro ⟨stem, hstem⟩
      refine ⟨String.ofList stem, String.toList_inj.1 ?_⟩
      rw [String.toList_append, String.toList_ofList, hstem]
    · rintro ⟨stem, hstem⟩
      rw [hstem, String.toList_append]
      exact List.suffix_append _ _
  rw [isService, Structure.isServiceName, Bool.or_eq_true, Bool.or_eq_true, hsuffix, hsuffix,
    beq_iff_eq, or_assoc]
  rfl

theorem Definition.registrationCall_mem_services_iff {objects : List Definition} {c : Source.Call}
    (hc : c ∈ objects.map registrationCall) :
    c ∈ (objects.filter (·.isService)).map registrationCall ↔ NamesService c.typeName := by
  obtain ⟨a, ha, rfl⟩ := List.mem_map.1 hc
  constructor
  · intro hmem
    obtain ⟨b, hb, heq⟩ := List.mem_map.1 hmem
    have hsame : b.name = a.name := congrArg Source.Call.typeName heq
    have hservice := b.isService_eq_true_iff.1 (List.mem_filter.1 hb).2
    rwa [hsame] at hservice
  · intro hservice
    exact List.mem_map_of_mem (List.mem_filter.2 ⟨ha, a.isService_eq_true_iff.2 hservice⟩)

/-! ### What a run provides -/

section Run

variable {d : Dictionary} {table : IdTable} {options : GenerateOptions} {files : GeneratedFiles}
  {objects : List Definition}

theorem GeneratedFiles.constants_of_generate {csv : String} (htable : IdTable.parse csv = .ok table)
    (h : d.generate (some table) options = .ok files)
    (hobjects : d.objectDefinitions options.roots = .ok objects) {a : Definition}
    (ha : a ∈ objects) :
    ∃ id, table.get? (Naming.encodingIdName a.name) = some id ∧
      files.constants.filter (·.name == a.encodingConstant) = [⟨a.encodingConstant, id⟩] ∧
      files.number? a.encodingConstant = some id := by
  obtain ⟨hvalidate, ⟨text, htext, hfile⟩, -⟩ := Dictionary.files_of_generate h hobjects
  obtain ⟨id, hid⟩ := (IdTable.validate_eq_ok_iff.1 hvalidate).1 a ha
  exact ⟨id, hid, constants_of_get? (IdTable.isIndexed_of_parse htable)
    (IdTable.lacks_of_parse htable) htext hfile hid⟩

theorem GeneratedFiles.encodingConstants_of_generate (hd : d.HasIdentifiers)
    (h : d.generate (some table) options = .ok files)
    (hobjects : d.objectDefinitions options.roots = .ok objects) :
    (∀ a ∈ objects, (a.name, a.encodingConstant) ∈ files.encodingConstants) ∧
      (Source.OneLine options.prelude → d.IsUnbroken →
        files.encodingConstants = objects.map fun a => (a.name, a.encodingConstant)) := by
  obtain ⟨-, -, hfile, -⟩ := Dictionary.files_of_generate h hobjects
  have hresolves := Dictionary.resolves_of_objectDefinitions hobjects
  rw [encodingConstants, hfile]
  constructor
  · intro a ha
    obtain ⟨s, hs, -, hdefines⟩ := hresolves.exists_source ha
    exact Source.mem_encodingConstants_objectFile _ ha hdefines.kind
      (hdefines.name ▸ hd.structures s hs)
  · intro hprelude hunbroken
    refine Source.encodingConstants_objectFile hprelude.1 fun a ha => ?_
    obtain ⟨s, hs, -, hdefines⟩ := hresolves.exists_source ha
    exact ⟨hdefines.kind, hdefines.name ▸ hd.structures s hs,
      hdefines.isUnbroken hd hunbroken hs⟩

theorem GeneratedFiles.calls?_of_generate (hd : d.HasIdentifiers)
    (h : d.generate (some table) options = .ok files)
    (hobjects : d.objectDefinitions options.roots = .ok objects) :
    Source.calls? "register_extension_objects" files.objectRegistration =
        some (objects.map Definition.registrationCall) ∧
      Source.calls? "register_services" files.serviceRegistration =
        some ((objects.filter (·.isService)).map Definition.registrationCall) := by
  obtain ⟨-, -, -, hobjectFile, hserviceFile⟩ := Dictionary.files_of_generate h hobjects
  have hname (a : Definition) (ha : a ∈ objects) : Naming.IsIdentifier a.name := by
    obtain ⟨s, hs, -, hdefines⟩ :=
      (Dictionary.resolves_of_objectDefinitions hobjects).exists_source ha
    exact hdefines.name ▸ hd.structures s hs
  rw [hobjectFile, hserviceFile]
  exact ⟨Source.calls?_registrationFile (by decide) _ _ hname,
    Source.calls?_registrationFile (by decide) _ _ fun a ha => hname a (List.mem_filter.1 ha).1⟩

end Run

/-! ### Initialisers -/

/-- **Generated initialisers cannot fail.** The functions that register types make one call for
each definition, in order, or for each definition of a service message. The constant of a call is
defined by one line, with the number that the table has for the encoding of the type, and it is the
constant that the type itself gives; no two calls have the same number. Running either function on
an empty registry succeeds, and the registry then holds one entry for each call: the type, under
its number. -/
theorem initialisers_cannot_fail (d : Dictionary) (csv : String) (table : IdTable)
    (options : GenerateOptions) (files : GeneratedFiles) (hd : d.HasIdentifiers)
    (htable : IdTable.parse csv = .ok table) (h : d.generate (some table) options = .ok files) :
    ∃ objects calls services, d.objectDefinitions options.roots = .ok objects ∧
      Source.calls? "register_extension_objects" files.objectRegistration = some calls ∧
      Source.calls? "register_services" files.serviceRegistration = some services ∧
      calls = objects.map (fun a => ⟨a.name, a.encodingConstant, a.name⟩) ∧
      services.Sublist calls ∧ (∀ c ∈ calls, c ∈ services ↔ NamesService c.typeName) ∧
      (∀ c ∈ calls, ∃ id, table.get? (c.typeName ++ "_Encoding_DefaultBinary") = some id ∧
        files.constants.filter (·.name == c.constant) = [⟨c.constant, id⟩] ∧
        (c.typeName, c.constant) ∈ files.encodingConstants) ∧
      (Source.OneLine options.prelude → d.IsUnbroken →
        files.encodingConstants = calls.map fun c => (c.typeName, c.constant)) ∧
      (calls.Pairwise fun c c' => files.number? c.constant ≠ files.number? c'.constant) ∧
      (∀ kind, ∃ r,
        files.runInitialiser "register_extension_objects" files.objectRegistration (.empty kind) =
          .ok r ∧ r.size = calls.length ∧ files.Registers calls r) ∧
      ∀ kind, ∃ r,
        files.runInitialiser "register_services" files.serviceRegistration (.empty kind) = .ok r ∧
          r.size = services.length ∧ files.Registers services r := by
  obtain ⟨-, objects, -, -, hobjects, -⟩ := Dictionary.generate_eq_ok_iff.1 h
  obtain ⟨hvalidate, -⟩ := Dictionary.files_of_generate h hobjects
  obtain ⟨hbody, hbodies⟩ := GeneratedFiles.encodingConstants_of_generate hd h hobjects
  obtain ⟨hcalls, hservices⟩ := GeneratedFiles.calls?_of_generate hd h hobjects
  have hconstant (a : Definition) (ha : a ∈ objects) :=
    GeneratedFiles.constants_of_generate htable h hobjects ha
  have hprovides (c : Source.Call) (hc : c ∈ objects.map Definition.registrationCall) :
      ∃ id, files.Provides c id := by
    obtain ⟨a, ha, rfl⟩ := List.mem_map.1 hc
    obtain ⟨id, -, -, hid⟩ := hconstant a ha
    exact ⟨id, List.mem_map.2 ⟨_, hbody a ha, rfl⟩, hid⟩
  have hpairwise : (objects.map Definition.registrationCall).Pairwise fun c c' =>
      files.number? c.constant ≠ files.number? c'.constant := by
    refine GeneratedFiles.pairwise_number?_ne (IdTable.validate_eq_ok_iff.1 hvalidate).2
      fun a ha => ?_
    obtain ⟨id, hid, -, hnumber⟩ := hconstant a ha
    exact hnumber.trans hid.symm
  have hsublist : ((objects.filter (·.isService)).map Definition.registrationCall).Sublist
      (objects.map Definition.registrationCall) := List.filter_sublist.map _
  refine ⟨objects, _, _, hobjects, hcalls, hservices, rfl, hsublist,
    fun c hc => Definition.registrationCall_mem_services_iff hc, ?_, ?_, hpairwise, ?_, ?_⟩
  · intro c hc
    obtain ⟨a, ha, rfl⟩ := List.mem_map.1 hc
    obtain ⟨id, hid, hfilter, -⟩ := hconstant a ha
    exact ⟨id, hid, hfilter, hbody a ha⟩
  · intro hprelude hunbroken
    rw [hbodies hprelude hunbroken, List.map_map]
    rfl
  · intro kind
    obtain ⟨r, hr, -, hspec⟩ := GeneratedFiles.runInitialiser_spec hcalls hprovides hpairwise kind
    exact ⟨r, hr, hspec⟩
  · intro kind
    obtain ⟨r, hr, -, hspec⟩ := GeneratedFiles.runInitialiser_spec hservices
      (fun c hc => hprovides c (hsublist.subset hc)) (hpairwise.sublist hsublist) kind
    exact ⟨r, hr, hspec⟩

/-- A dictionary with a request. -/
def lampDictionary : Dictionary where
  targetNamespace := "http://opcfoundation.org/UA/"
  enumerations := []
  structures :=
    [ ⟨"Lamp", some "ua:ExtensionObject", [⟨"Brightness", "opc:Double", none⟩]⟩,
      ⟨"SwitchRequest", some "ua:ExtensionObject", [⟨"Lamps", "tns:Lamp", none⟩]⟩ ]

/-- Its definitions. -/
def lampDefinitions : List Definition :=
  [ ⟨"Lamp", .object, none, some "ExtensionObject",
      [⟨"Brightness", "brightness", .builtin .double⟩], []⟩,
    ⟨"SwitchRequest", .object, none, some "ExtensionObject",
      [⟨"Lamps", "lamps", .reference "Lamp"⟩], []⟩ ]

/-- A table for the dictionary, as text. -/
def lampCsv : String :=
  "# encodings\nSwitchRequest_Encoding_DefaultBinary,9,Object\nLamp_Encoding_DefaultBinary,7,Object"

/-- The table. -/
def lampTable : IdTable where
  entries :=
    [ ⟨"SwitchRequest_Encoding_DefaultBinary", 9, "Object"⟩,
      ⟨"Lamp_Encoding_DefaultBinary", 7, "Object"⟩ ]

/-- Both initialisers of lamps succeed. -/
theorem initialisers_cannot_fail_lamps :
    ∃ files r r', lampDictionary.generate (some lampTable) .standard = .ok files ∧
      files.runInitialiser "register_extension_objects" files.objectRegistration
        (.empty "extension object") = .ok r ∧ r.size = 2 ∧
      files.runInitialiser "register_services" files.serviceRegistration (.empty "service") =
        .ok r' := by
  have hnames : lampDictionary.HasIdentifiers := ⟨by decide, by decide⟩
  have htable : IdTable.parse lampCsv = .ok lampTable := by decide +kernel
  have hobjects : lampDictionary.objectDefinitions GenerateOptions.standard.roots =
      .ok lampDefinitions := by decide +kernel
  have hvalidate : lampTable.validate lampDefinitions = .ok () := by decide +kernel
  have hconstants : (lampTable.entries.map fun e => Naming.constIdent e.name) =
      ["SWITCH_REQUEST_ENCODING_DEFAULT_BINARY", "LAMP_ENCODING_DEFAULT_BINARY"] := by
    decide +kernel
  have hnodup : (lampTable.entries.map fun e => Naming.constIdent e.name).Nodup := by
    rw [hconstants]
    decide
  have hidentifiers : Source.identifierFile lampTable = .ok _ :=
    Source.identifierFile_eq_ok_iff.2 ⟨hnodup, rfl⟩
  have hfiles : lampDictionary.generate (some lampTable) .standard = .ok _ :=
    Dictionary.generate_eq_ok_iff.2 ⟨[], lampDefinitions, _, rfl, hobjects,
      fun t ht => Option.some.inj ht ▸ hvalidate, bind_eq_ok_iff.2 ⟨_, hidentifiers, rfl⟩, rfl⟩
  obtain ⟨objects, calls, services, hobjects', -, -, rfl, -, -, -, -, -, hrun, hrun'⟩ :=
    initialisers_cannot_fail lampDictionary lampCsv lampTable .standard _ hnames htable hfiles
  obtain rfl := Except.ok.inj (hobjects.symm.trans hobjects')
  obtain ⟨r, hr, hsize, -⟩ := hrun "extension object"
  obtain ⟨r', hr', -⟩ := hrun' "service"
  exact ⟨_, r, r', hfiles, hr, hsize, hr'⟩

end OpcWire
