import OpcWire.Proofs.Naming
import OpcWire.Proofs.Source.Reading
import OpcWire.Source.File

/-!
# What generated initialisers do

Whatever module it uses, a file that registers definitions is read as one call for each of them, in
order (`Source.calls?_registrationFile`).
-/

namespace OpcWire

/-- The call that registers a definition. -/
def Definition.registrationCall (d : Definition) : Source.Call :=
  ⟨d.name, d.encodingConstant, d.name⟩

namespace Source

theorem read?_registrationCall {d : Definition} (h : Naming.IsIdentifier d.name) :
    Call.read? d.registrationCall.statement = some d.registrationCall :=
  Call.read?_eq_some_iff.2 ⟨rfl, h.not_mem (by decide), h.not_mem_encodingConstant (by decide)⟩

theorem oneLine_of_isIdentifier {name : String} (h : Naming.IsIdentifier name) : OneLine name :=
  ⟨h.not_mem (by decide), h.not_mem (by decide)⟩

theorem oneLine_constIdent {name : String} (h : OneLine name) :
    OneLine (Naming.constIdent name) :=
  ⟨Naming.not_mem_constIdent (by decide) (by decide) (.inl h.1),
    Naming.not_mem_constIdent (by decide) (by decide) (.inl h.2)⟩

theorem oneLine_encodingConstant {d : Definition} (h : OneLine d.name) :
    OneLine d.encodingConstant :=
  oneLine_constIdent (oneLine_append.2 ⟨h, by decide⟩)

theorem oneLine_registrationLine {d : Definition} (h : Naming.IsIdentifier d.name) :
    OneLine (registrationLine d) := by
  have hname := oneLine_of_isIdentifier h
  have hconstant := oneLine_encodingConstant hname
  unfold registrationLine quote
  simp only [oneLine_append, hname, hconstant, and_true]
  decide

/-- **An initialiser registers its definitions**, one after the other, and does nothing else. -/
theorem calls?_registrationFile {function : String} (hfunction : OneLine function)
    (prelude description : String) {ds : List Definition}
    (hnames : ∀ d ∈ ds, Naming.IsIdentifier d.name) :
    calls? function (registrationFile prelude function description ds) =
      some (ds.map Definition.registrationCall) := by
  have hhead : (initialiserHead function).toList.head? = some 'p' := by
    simp only [initialiserHead, String.append_assoc, String.toList_append]
    rfl
  have hlines : OneLines (block (initialiserHead function)
      (ds.map registrationLine ++ ["Ok(())"])) := by
    refine oneLines_block ?_ (oneLines_append.2 ⟨?_, ?_⟩)
    · exact oneLine_append.2 ⟨oneLine_append.2 ⟨by decide, hfunction⟩, by decide⟩
    · intro line hline
      obtain ⟨d, hd, rfl⟩ := List.mem_map.1 hline
      exact oneLine_registrationLine (hnames d hd)
    · exact oneLines_cons.2 ⟨by decide, oneLines_nil⟩
  have hstatements : statements? (initialiserHead function ++ " \x7b")
      (Text.lines (registrationFile prelude function description ds)) =
        some (ds.map registrationLine ++ ["Ok(())"]) := by
    rw [registrationFile, lines_render_append]
    refine statements?_append ?_
    rw [← initialiserHead, hlines.lines_render]
    refine statements?_block (fun hempty => ?_) (hhead ▸ by decide) _
    rw [hempty] at hhead
    cases hhead
  have hbody : ds.map registrationLine = (ds.map Definition.registrationCall).map Call.statement := by
    rw [List.map_map]
    rfl
  rw [calls?, hstatements, Option.bind_some, hbody]
  refine callsOfStatements?_map fun c hc => ?_
  obtain ⟨d, hd, rfl⟩ := List.mem_map.1 hc
  exact read?_registrationCall (hnames d hd)

end Source

end OpcWire
