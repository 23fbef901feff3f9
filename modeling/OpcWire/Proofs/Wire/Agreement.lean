import OpcWire.Proofs.Wire.Balanced

/-!
# Readers that agree at a number of open bodies

Two readers may give the same results as long as enough bodies are open around them, and differ
where fewer are. `r.AgreeAt d r'` says that they give the same with `d` bodies open. As balanced
readers hand on the number that they were given, agreement passes through sequences; only
`AgreeAt.opening` asks for it at another number, and for none if no further body may be opened.
-/

namespace OpcWire

namespace Reader

variable {α β : Type} {r r' : Reader α} {f f' : α → Reader β} {d : Nat}

/-- Both readers give the same results, and leave the same behind, with `d` bodies open. -/
def AgreeAt (d : Nat) (r r' : Reader α) : Prop := ∀ bytes : List UInt8, r ⟨bytes, d⟩ = r' ⟨bytes, d⟩

theorem AgreeAt.refl (r : Reader α) : AgreeAt d r r := fun _ => rfl

/-- What follows starts with `d` bodies open again. -/
theorem AgreeAt.bind (hr : AgreeAt d r r') (hbalanced : r'.Balanced)
    (hf : ∀ a, AgreeAt d (f a) (f' a)) : AgreeAt d (r >>= f) (r' >>= f') := by
  intro bytes
  have hkept : (r' ⟨bytes, d⟩).openBodies = d := hbalanced _
  rw [bind_apply, bind_apply, hr bytes]
  cases hread : r' ⟨bytes, d⟩ with
  | error cause openBodies => rfl
  | ok a next =>
    rw [hread] at hkept
    obtain ⟨rest, openBodies⟩ := next
    obtain rfl : openBodies = d := hkept
    exact hf a rest

theorem AgreeAt.map {g : α → β} (hr : AgreeAt d r r') : AgreeAt d (g <$> r) (g <$> r') := by
  intro bytes
  rw [map_apply, map_apply, hr bytes]

theorem AgreeAt.inField {typeName field : String} (hr : AgreeAt d r r') :
    AgreeAt d (r.inField typeName field) (r'.inField typeName field) := by
  intro bytes
  rw [Reader.inField, Reader.inField, hr bytes]

theorem AgreeAt.replicate {item item' : Reader α} (h : AgreeAt d item item')
    (hbalanced : item'.Balanced) (count : Nat) :
    AgreeAt d (replicate item count) (replicate item' count) := by
  induction count with
  | zero => exact .refl _
  | succ count ih =>
    rw [replicate_succ, replicate_succ]
    refine h.bind hbalanced fun a => ?_
    exact ih.bind (hbalanced.replicate count) fun rest => .refl _

theorem AgreeAt.array {item item' : Reader α} (h : AgreeAt d item item')
    (hbalanced : item'.Balanced) : AgreeAt d (array item) (array item') := by
  refine (AgreeAt.refl length).bind indifferent_length.balanced fun count => ?_
  cases count with
  | none => exact .refl _
  | some count =>
    by_cases hlimit : maxArrayLength < count
    · simp only [if_pos hlimit]
      exact .refl _
    · simp only [if_neg hlimit]
      exact (h.replicate hbalanced count).bind (hbalanced.replicate count) fun items => .refl _

theorem AgreeAt.delimited {span : List UInt8} (hr : AgreeAt d r r') :
    AgreeAt d (delimited span r) (delimited span r') := by
  intro bytes
  have hspan : r ⟨span, d⟩ = r' ⟨span, d⟩ := hr span
  simp only [Reader.delimited, hspan]

/-- **A body is read alike by readers that agree inside it**, if there is room for it. -/
theorem AgreeAt.opening (hr : d < maxBodyDepth → AgreeAt (d + 1) r r') :
    AgreeAt d (opening r) (opening r') := by
  intro bytes
  by_cases hlimit : maxBodyDepth < d + 1
  · simp only [opening_apply, if_pos hlimit]
  · have hinside : r ⟨bytes, d + 1⟩ = r' ⟨bytes, d + 1⟩ := hr (by omega) bytes
    simp only [opening_apply, hinside]

end Reader

end OpcWire
