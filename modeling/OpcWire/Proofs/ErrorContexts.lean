import OpcWire.Proofs.Value.Trail

/-!
# Errors in fields of fields

An error that arises in no field can be put into one, and what that gives into another, over and
over (`CodecError.wrap`). Whoever has the result can tell what was done: the steps from the outside
in are read off it (`CodecError.steps`), and what is left is the error that it began with. So the
root cause, the path of fields and the wording are those of the context, at any depth, and there is
only one way to come by an error (`error_contexts_compose`).
-/

namespace OpcWire

namespace CodecError

/-- Whether an error is none that was put into a field. -/
def IsRoot (e : CodecError) : Prop := ∀ owner field cause, e ≠ inField owner field cause

/-- The error in a field, this in another field, and so on, through a context of structures and
fields, innermost first. -/
def wrap (root : CodecError) (context : List (String × String)) : CodecError :=
  context.foldl (fun cause (owner, field) => inField owner field cause) root

/-- The structures and fields around an error, outermost first. -/
def steps : CodecError → List (String × String)
  | inField owner field cause => (owner, field) :: cause.steps
  | _ => []

/-- What the wording of an error says of one step of its context. -/
def label (step : String × String) : String := step.1 ++ "." ++ step.2 ++ ": "

variable {root root' : CodecError} {context context' path : List (String × String)}

/-! ### Roots -/

theorem IsRoot.spec (h : root.IsRoot) : root.rootCause = root ∧ root.fields = [] ∧ root.steps = [] := by
  cases root with
  | inField owner field cause => exact absurd rfl (h owner field cause)
  | _ => exact ⟨rfl, rfl, rfl⟩

/-! ### Fields around an error -/

theorem wrap_eq_inFields (root : CodecError) (context : List (String × String)) :
    root.wrap context = root.inFields context.reverse :=
  List.foldr_reverse.symm

theorem steps_inFields (path : List (String × String)) (root : CodecError) :
    (root.inFields path).steps = path ++ root.steps := by
  induction path with
  | nil => rfl
  | cons step path ih => exact congrArg (step :: ·) ih

theorem message_inFields (path : List (String × String)) (root : CodecError) :
    (root.inFields path).message = String.join (path.map label) ++ root.message := by
  induction path with
  | nil =>
    rw [List.map_nil, String.join_nil, String.empty_append]
    rfl
  | cons step path ih =>
    rw [List.map_cons, String.join_cons, String.append_assoc, ← ih]
    rfl

theorem fieldPath_inFields (h : root.IsRoot) (step : String × String) (path : List (String × String)) :
    (root.inFields (step :: path)).fieldPath = step.1 :: (step :: path).map Prod.snd := by
  obtain ⟨-, hfields, -⟩ := h.spec
  rw [inFields_cons, fieldPath_inField, fields_inFields, hfields, List.append_nil, List.map_cons]

theorem wrap_inj (h : root.IsRoot) (h' : root'.IsRoot) :
    root.wrap context = root'.wrap context' ↔ context = context' ∧ root = root' := by
  obtain ⟨hcause, -, hsteps⟩ := h.spec
  obtain ⟨hcause', -, hsteps'⟩ := h'.spec
  constructor
  · intro heq
    rw [wrap_eq_inFields, wrap_eq_inFields] at heq
    have hcontext := congrArg steps heq
    rw [steps_inFields, steps_inFields, hsteps, hsteps', List.append_nil, List.append_nil,
      List.reverse_inj] at hcontext
    have hroot := congrArg rootCause heq
    rw [rootCause_inFields, rootCause_inFields, hcause, hcause'] at hroot
    exact ⟨hcontext, hroot⟩
  · rintro ⟨rfl, rfl⟩
    rfl

end CodecError

open CodecError in
/-- **Contexts compose.** Where an error that arose in no field is put into the fields of a context,
innermost first, it is the root cause of what comes out. The path of that is the outermost structure
and then the fields from the outside in, and its wording names structure and field of each step in
the same order, in front of the wording of the root cause. Another error, or the same in another
context, comes out as another one. -/
theorem error_contexts_compose (root : CodecError) (hroot : root.IsRoot)
    (context : List (String × String)) (hne : context ≠ []) :
    (root.wrap context).rootCause = root ∧
      (root.wrap context).fieldPath =
        (context.getLast hne).1 :: context.reverse.map Prod.snd ∧
      (root.wrap context).message = String.join (context.reverse.map label) ++ root.message ∧
      ∀ root' context', root'.IsRoot →
        (root.wrap context = root'.wrap context' ↔ context = context' ∧ root = root') := by
  refine ⟨?_, ?_, ?_, fun root' context' hroot' => wrap_inj hroot hroot'⟩
  · rw [wrap_eq_inFields, rootCause_inFields, hroot.spec.1]
  · -- the last step of the context is the first of the path
    have hreverse : context.reverse = context.getLast hne :: context.dropLast.reverse := by
      rw [← List.reverse_concat, List.dropLast_concat_getLast]
    rw [wrap_eq_inFields, hreverse, fieldPath_inFields hroot]
  · rw [wrap_eq_inFields, message_inFields]

/-- Three steps around a missing byte. Without the innermost one it would be another error. -/
theorem error_contexts_compose_nested :
    let missing : CodecError := .unexpectedEnd 1 0
    let context := [("LocalizedText", "Locale"), ("Argument", "Description"), ("Method", "Arguments")]
    (missing.wrap context).fieldPath = ["Method", "Arguments", "Description", "Locale"] ∧
      (missing.wrap context).message = "Method.Arguments: Argument.Description: LocalizedText.Locale: " ++
        missing.message ∧
      missing.wrap context ≠ missing.wrap context.tail := by
  intro missing context
  obtain ⟨-, hpath, hmessage, hinj⟩ := error_contexts_compose missing nofun context (List.cons_ne_nil _ _)
  have hne : context ≠ context.tail := by decide
  exact ⟨hpath, hmessage, fun heq => hne ((hinj missing context.tail nofun).1 heq).1⟩

end OpcWire
