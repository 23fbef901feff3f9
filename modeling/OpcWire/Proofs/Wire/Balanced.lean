import OpcWire.Wire.Reader

/-!
# Readers and the number of open bodies

A reader is *balanced* if it ends with as many bodies open as it started with, whether it succeeds
or fails. Most readers are more than that: they do not even look at the number, so that they do the
same whatever it is. These are *indifferent*, and no body can be opened in them without being
noticed, because that would be refused where `maxBodyDepth` are open.

A sequence of balanced readers is balanced at whichever of its parts it stops. Opening is not, and
closing is not; but one behind the other they are (`Balanced.opening`).
-/

namespace OpcWire

/-- The same result with another number of open bodies. -/
def ReadResult.withOpenBodies {α : Type} (d : Nat) : ReadResult α → ReadResult α
  | ok a next => ok a { next with openBodies := d }
  | error cause _ => error cause d

namespace Reader

variable {α β : Type} {r : Reader α} {f : α → Reader β}

/-- As many bodies are open at the end as at the start, on success and on failure. -/
def Balanced (r : Reader α) : Prop := ∀ c : Cursor, (r c).openBodies = c.openBodies

/-- The number of open bodies is handed on, and has no influence on anything else. -/
def Indifferent (r : Reader α) : Prop :=
  ∀ (bytes : List UInt8) (d : Nat), r ⟨bytes, d⟩ = (r ⟨bytes, 0⟩).withOpenBodies d

/-! ### Readers that do not look at the number -/

theorem Indifferent.balanced (hr : r.Indifferent) : r.Balanced := by
  intro c
  have hread : r c = (r ⟨c.rest, 0⟩).withOpenBodies c.openBodies := hr c.rest c.openBodies
  rw [hread]
  cases r ⟨c.rest, 0⟩ <;> rfl

theorem indifferent_pure {a : α} : (pure a : Reader α).Indifferent := fun _ _ => rfl

theorem indifferent_fail {cause : CodecError} : (fail cause : Reader α).Indifferent :=
  fun _ _ => rfl

theorem Indifferent.bind (hr : r.Indifferent) (hf : ∀ a, (f a).Indifferent) :
    (r >>= f).Indifferent := by
  intro bytes d
  rw [bind_apply, bind_apply, hr bytes d]
  cases r ⟨bytes, 0⟩ with
  | error cause openBodies => rfl
  | ok a next =>
    -- the second part forgets the number that it was given as well
    have hthere : f a ⟨next.rest, d⟩ = _ := hf a next.rest d
    have hhere : f a next = _ := hf a next.rest next.openBodies
    change f a ⟨next.rest, d⟩ = (f a next).withOpenBodies d
    rw [hthere, hhere]
    cases f a ⟨next.rest, 0⟩ <;> rfl

theorem Indifferent.map {g : α → β} (hr : r.Indifferent) : (g <$> r).Indifferent := by
  rw [← bind_pure_comp]
  exact hr.bind fun _ => indifferent_pure

theorem Indifferent.ite {p : Prop} [Decidable p] {s : Reader α} (hr : r.Indifferent)
    (hs : s.Indifferent) : (if p then r else s).Indifferent := by
  by_cases hp : p
  · rwa [if_pos hp]
  · rwa [if_neg hp]

theorem indifferent_take {count : Nat} : (take count).Indifferent := by
  intro bytes d
  rw [take_apply, take_apply]
  by_cases h : count ≤ bytes.length
  · rw [if_pos h, if_pos h]
    rfl
  · rw [if_neg h, if_neg h]
    rfl

theorem indifferent_word {width : Nat} : (word width).Indifferent := indifferent_take.map

theorem indifferent_byte : byte.Indifferent := indifferent_word.map

theorem indifferent_uint16 : uint16.Indifferent := indifferent_word.map

theorem indifferent_length : length.Indifferent := by
  refine Indifferent.bind indifferent_word.map.map fun prefixed => ?_
  exact indifferent_pure.ite (indifferent_fail.ite indifferent_pure)

/-! ### Sequences -/

theorem balanced_pure {a : α} : (pure a : Reader α).Balanced := fun _ => rfl

theorem balanced_fail {cause : CodecError} : (fail cause : Reader α).Balanced := fun _ => rfl

/-- The second part starts with as many bodies open as the first one did, if it is reached. -/
theorem Balanced.bind (hr : r.Balanced) (hf : ∀ a, (f a).Balanced) : (r >>= f).Balanced := by
  intro c
  have hfirst : (r c).openBodies = c.openBodies := hr c
  rw [bind_apply]
  cases hrc : r c with
  | error cause openBodies =>
    rw [hrc] at hfirst
    exact hfirst
  | ok a next =>
    rw [hrc] at hfirst
    have hsecond : (f a next).openBodies = next.openBodies := hf a next
    exact hsecond.trans hfirst

theorem Balanced.map {g : α → β} (hr : r.Balanced) : (g <$> r).Balanced := by
  rw [← bind_pure_comp]
  exact hr.bind fun _ => balanced_pure

theorem Balanced.ite {p : Prop} [Decidable p] {s : Reader α} (hr : r.Balanced)
    (hs : s.Balanced) : (if p then r else s).Balanced := by
  by_cases hp : p
  · rwa [if_pos hp]
  · rwa [if_neg hp]

theorem Balanced.inField {typeName field : String} (hr : r.Balanced) :
    (r.inField typeName field).Balanced := by
  intro c
  have h : (r c).openBodies = c.openBodies := hr c
  rw [Reader.inField]
  cases hrc : r c <;> rw [hrc] at h <;> exact h

/-! ### Elements, delimited values and bodies -/

theorem Balanced.replicate {item : Reader α} (h : item.Balanced) (count : Nat) :
    (replicate item count).Balanced := by
  induction count with
  | zero => exact balanced_pure
  | succ count ih =>
    rw [replicate_succ]
    exact h.bind fun _ => ih.bind fun _ => balanced_pure

theorem Balanced.array {item : Reader α} (h : item.Balanced) : (array item).Balanced := by
  refine indifferent_length.balanced.bind fun count => ?_
  cases count with
  | none => exact balanced_pure
  | some count => exact balanced_fail.ite ((h.replicate count).bind fun _ => balanced_pure)

theorem openBodies_delimited (span : List UInt8) (r : Reader α) (c : Cursor) :
    (delimited span r c).openBodies = (r { c with rest := span }).openBodies := by
  rw [delimited]
  cases r { c with rest := span } with
  | error cause openBodies => rfl
  | ok a next =>
    by_cases hempty : next.rest.isEmpty
    · simp only [hempty, ↓reduceIte]
      rfl
    · simp only [hempty, Bool.false_eq_true, ↓reduceIte]
      rfl

theorem Balanced.delimited {span : List UInt8} (hr : r.Balanced) : (delimited span r).Balanced :=
  fun c => (openBodies_delimited span r c).trans (hr _)

theorem openBodies_closing (r : Reader α) (c : Cursor) :
    (closing r c).openBodies = (r c).openBodies - 1 := by
  rw [closing]
  cases r c <;> rfl

/-- **A body is entered if there is room for it**, and otherwise refused without a trace. -/
theorem enter_cases (c : Cursor) :
    (c.openBodies < maxBodyDepth ∧ enter c = .ok () { c with openBodies := c.openBodies + 1 }) ∨
      (maxBodyDepth ≤ c.openBodies ∧
        enter c = .error (.nestingTooDeep maxBodyDepth) c.openBodies) := by
  by_cases hroom : c.openBodies < maxBodyDepth
  · exact .inl ⟨hroom, if_neg (Nat.not_lt.2 hroom)⟩
  · exact .inr ⟨Nat.not_lt.1 hroom, if_pos (Nat.lt_succ_of_le (Nat.not_lt.1 hroom))⟩

/-- **A body that is opened is closed again**, and one that is refused was not opened. -/
theorem Balanced.opening (hr : r.Balanced) : (opening r).Balanced := by
  intro c
  rw [Reader.opening, bind_apply]
  obtain ⟨-, henter⟩ | ⟨-, henter⟩ := enter_cases c
  · have hinside : (r { c with openBodies := c.openBodies + 1 }).openBodies = c.openBodies + 1 :=
      hr _
    simp only [henter, openBodies_closing, hinside, Nat.add_sub_cancel]
  · simp only [henter]
    rfl

end Reader

end OpcWire
