import OpcWire.Dictionary.Standard
import OpcWire.Proofs.Generator.Interpreter
import OpcWire.Proofs.Generator.Resolution

/-!
# The structures of the standard dictionary

The layouts of the structures are written down one by one, and nothing in them refers to the
dictionary. `GeneratedTypes.describes` compares a layout with the definitions, name by name and
type by type, and finds that those of the standard dictionary describe every structure
(`standard_describesAll`). From there on everything holds for all definitions alike, so that
writing and reading a structure is what its definition says (`dictionary_interpreted`).
-/

namespace OpcWire

/-! ### Comparing definitions with layouts -/

mutual

/-- Whether a form stands for a wire type. -/
def GeneratedTypes.describes (g : GeneratedTypes) : Form → WireType → Bool
  | form, .scalar s => form == s.form
  | .object, .extensionObject => true
  | .record owner fields, .record name l => owner == name && g.describesFields fields l
  | .array item, .array t => (g.form? item).any fun form => g.describes form t
  | .nullable target, .nullable t => (g.namedForm? target).any fun form => g.describes form t
  | _, _ => false

/-- Whether fields stand for a layout. -/
def GeneratedTypes.describesFields (g : GeneratedTypes) :
    List Definition.Field → Layout → Bool
  | [], .nil => true
  | f :: fields, .cons name t rest =>
    f.name == name && (g.form? f.type).any (fun form => g.describes form t) &&
      g.describesFields fields rest
  | _, _ => false

end

mutual

theorem GeneratedTypes.describes_of_eq_true {g : GeneratedTypes} :
    {t : WireType} → {form : Form} → g.describes form t = true → g.Describes form t
  | .scalar _, _, h => .scalar (eq_of_beq h)
  | .extensionObject, .object, _ => .object
  | .record _ _, .record _ _, h => by
    obtain ⟨hname, hfields⟩ := Bool.and_eq_true_iff.1 h
    obtain rfl := eq_of_beq hname
    exact .record (describesFields_of_eq_true hfields)
  | .array _, .array _, h => by
    obtain ⟨form, hform, hitem⟩ := (Option.any_eq_true _ _).1 h
    exact .array hform (describes_of_eq_true hitem)
  | .nullable _, .nullable _, h => by
    obtain ⟨form, hform, htarget⟩ := (Option.any_eq_true _ _).1 h
    exact .nullable hform (describes_of_eq_true htarget)

theorem GeneratedTypes.describesFields_of_eq_true {g : GeneratedTypes} :
    {l : Layout} → {fields : List Definition.Field} → g.describesFields fields l = true →
      g.DescribesFields fields l
  | .nil, [], _ => .nil
  | .cons _ _ _, _ :: _, h => by
    obtain ⟨hfirst, hrest⟩ := Bool.and_eq_true_iff.1 h
    obtain ⟨hname, htype⟩ := Bool.and_eq_true_iff.1 hfirst
    obtain ⟨form, hform, hfield⟩ := (Option.any_eq_true _ _).1 htype
    obtain rfl := eq_of_beq hname
    exact .cons hform (describes_of_eq_true hfield) (describesFields_of_eq_true hrest)

end

/-- Whether the definitions are those of all structures, and describe each of them. -/
def GeneratedTypes.describesAll (g : GeneratedTypes) : Bool :=
  g.objects.map (·.name) == Structure.all.map (·.name) && Structure.all.all fun s =>
    (g.namedForm? s.name).any (g.describes · s.wireType) && decide (s.wireType.depth ≤ g.levels)

theorem GeneratedTypes.describesAll_of_eq_true {g : GeneratedTypes} (h : g.describesAll = true) :
    g.objects.map (·.name) = Structure.all.map (·.name) ∧ g.DescribesAll := by
  obtain ⟨hnames, hall⟩ := Bool.and_eq_true_iff.1 h
  refine ⟨eq_of_beq hnames, fun s => ?_⟩
  have hs := List.all_eq_true.1 hall s (by cases s <;> decide)
  obtain ⟨hdescribes, hdepth⟩ := Bool.and_eq_true_iff.1 hs
  obtain ⟨form, hform, hdescribes⟩ := (Option.any_eq_true _ _).1 hdescribes
  exact ⟨⟨form, hform, describes_of_eq_true hdescribes⟩, of_decide_eq_true hdepth⟩

/-! ### The standard dictionary -/

/-- The definitions of a dictionary with its enumerated types. -/
def Dictionary.generatedTypes (d : Dictionary) (objects : List Definition) : GeneratedTypes :=
  ⟨d.enumerations, objects⟩

/-- **The standard dictionary describes all structures**, and defines no others. -/
theorem standard_describesAll : ∃ objects,
    Dictionary.standard.objectDefinitions .standard = .ok objects ∧
      objects.map (·.name) = Structure.all.map (·.name) ∧
        (Dictionary.standard.generatedTypes objects).DescribesAll := by
  have hcheck : (Dictionary.standard.objectDefinitions .standard).toOption.any
      (fun objects => (Dictionary.standard.generatedTypes objects).describesAll) = true := by
    -- the definitions are computed once, and compared with all layouts in the same computation
    decide +kernel
  obtain ⟨objects, hobjects, hall⟩ := (Option.any_eq_true _ _).1 hcheck
  have hok : Dictionary.standard.objectDefinitions .standard = .ok objects := by
    cases hresult : Dictionary.standard.objectDefinitions .standard with
    | error e => simp [hresult, Except.toOption] at hobjects
    | ok objects' => simpa [hresult, Except.toOption] using hobjects
  exact ⟨objects, hok, GeneratedTypes.describesAll_of_eq_true hall⟩

theorem GeneratedTypes.exists_definition {g : GeneratedTypes} (hall : g.DescribesAll)
    (s : Structure) : ∃ a ∈ g.objects, a.name = s.name ∧
      g.namedForm? s.name = some (.record s.name a.fields) := by
  obtain ⟨⟨form, hform, h⟩, -⟩ := hall s
  cases h with
  | record h =>
    rcases namedForm?_eq_some hform with ⟨a, hobject, heq⟩ | ⟨-, ⟨_, _, -, -, heq⟩ |
      ⟨-, _, -, ⟨_, -, heq⟩ | ⟨-, heq⟩⟩⟩
    · obtain ⟨hname, rfl⟩ := Form.record.inj heq
      exact ⟨a, List.mem_of_find?_eq_some hobject, hname.symm, hform⟩
    all_goals cases heq

/-- **The dictionary is the wire format.** The members of the standard dictionary are the
structures. Each has the fields of its declaration, in this order and without those that only hold
lengths, under the types that were found for them; and following these types writes every value of
the structure as it is written, and reads all bytes with the result, or the error in the same
field, with which the structure is read. -/
theorem dictionary_interpreted : ∃ objects,
    Dictionary.standard.objectDefinitions .standard = .ok objects ∧
      objects.map (·.name) = Structure.all.map (·.name) ∧
      ∀ s : Structure, ∃ source ∈ Dictionary.standard.structures, ∃ a ∈ objects,
        a.name = s.name ∧ Dictionary.standard.Defines .standard source a ∧
        (Dictionary.standard.generatedTypes objects).namedForm? s.name =
          some (.record s.name a.fields) ∧
        (∀ v : Value s.wireType,
          (Dictionary.standard.generatedTypes objects).encode? s v.datum = some v.encode) ∧
        (∀ v w : Value s.wireType, v.datum = w.datum ↔ v = w) ∧
        ∃ r, (Dictionary.standard.generatedTypes objects).decoder? s = some r ∧
          ∀ c, r c = match s.wireType.decode c with
            | .ok v next => .ok v.datum next
            | .error cause openBodies => .error cause openBodies := by
  obtain ⟨objects, hobjects, hnames, hall⟩ := standard_describesAll
  have hresolves := Dictionary.resolves_of_objectDefinitions hobjects
  refine ⟨objects, hobjects, hnames, fun s => ?_⟩
  obtain ⟨a, ha, hname, hform⟩ := GeneratedTypes.exists_definition hall s
  obtain ⟨source, hsource, -, hdefines⟩ := hresolves.exists_source ha
  refine ⟨source, hsource, a, ha, hname, hdefines, hform, fun v => ?_, fun v w => ?_, ?_⟩
  · exact GeneratedTypes.encode?_eq hall s v
  · exact ⟨v.datum_inj w, congrArg Value.datum⟩
  · refine ⟨_, GeneratedTypes.decoder?_eq hall s, fun c => ?_⟩
    rw [Reader.map_apply]
    cases s.wireType.decode c <;> rfl

end OpcWire
