import OpcWire.Wire.Reader

/-!
# Changing what a reader returns

A change to the values that a reader returns can be made before or after anything else that is
done with the reader, and errors are not touched by it.
-/

namespace OpcWire

namespace Reader

variable {α β : Type}

theorem inField_map (f : α → β) (r : Reader α) (typeName field : String) :
    (f <$> r).inField typeName field = f <$> r.inField typeName field := by
  funext c
  simp only [inField, map_apply]
  cases r c <;> rfl

theorem delimited_map (f : α → β) (r : Reader α) (span : List UInt8) :
    delimited span (f <$> r) = f <$> delimited span r := by
  funext c
  simp only [delimited, map_apply]
  cases r { c with rest := span } with
  | error => rfl
  | ok a next =>
    cases h : next.rest.isEmpty <;> simp only [h, if_true, Bool.false_eq_true, if_false]

theorem opening_map (f : α → β) (r : Reader α) : opening (f <$> r) = f <$> opening r := by
  funext c
  simp only [opening_apply, map_apply]
  split
  · rfl
  · cases r { c with openBodies := c.openBodies + 1 } <;> rfl

theorem replicate_map (f : α → β) (r : Reader α) (count : Nat) :
    replicate (f <$> r) count = List.map f <$> replicate r count := by
  induction count with
  | zero => rfl
  | succ n ih =>
    rw [replicate_succ, replicate_succ, ih]
    simp only [map_eq_pure_bind, bind_assoc, pure_bind, List.map_cons]

theorem array_map (f : α → β) (r : Reader α) :
    array (f <$> r) = Option.map (List.map f) <$> array r := by
  simp only [array, replicate_map, map_bind]
  congr 1
  funext prefixed
  cases prefixed with
  | none => rfl
  | some count =>
    dsimp only
    split
    · rfl
    · simp only [map_eq_pure_bind, bind_assoc, pure_bind, Option.map_some]

end Reader

end OpcWire
