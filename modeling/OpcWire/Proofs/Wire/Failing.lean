import OpcWire.Wire.Reader

/-!
# Where a reader fails

A reader that is made of others fails where one of them does. The lemmas named `_eq_error_iff` say
for each combinator which part it was, and that all parts before it succeeded.

`r.Raises E` says that every error of `r` satisfies `E`, wherever it arises. Its rules follow the
combinators too, and the two primitives raise errors that are true: bytes are missing only where
fewer are left than are needed (`raises_take`), and a length is invalid only if it is below that of
the null marker (`raises_length`).
-/

namespace OpcWire

namespace Reader

variable {α β : Type} {r : Reader α} {f : α → Reader β} {c next : Cursor} {cause : CodecError}
  {openBodies : Nat}

/-! ### The part that fails -/

theorem bind_eq_error_iff : (r >>= f) c = .error cause openBodies ↔
    r c = .error cause openBodies ∨
      ∃ a mid, r c = .ok a mid ∧ f a mid = .error cause openBodies := by
  rw [bind_apply]
  cases r c <;> simp [and_assoc]

theorem bind_eq_ok_iff {b : β} :
    (r >>= f) c = .ok b next ↔ ∃ a mid, r c = .ok a mid ∧ f a mid = .ok b next := by
  rw [bind_apply]
  cases r c <;> simp [and_assoc]

theorem map_eq_error_iff {g : α → β} :
    (g <$> r) c = .error cause openBodies ↔ r c = .error cause openBodies := by
  rw [map_apply]
  cases r c <;> simp

theorem map_eq_ok_iff {g : α → β} {b : β} :
    (g <$> r) c = .ok b next ↔ ∃ a, r c = .ok a next ∧ g a = b := by
  rw [map_apply]
  cases r c with
  | error => simp
  | ok a mid =>
    constructor
    · intro h
      cases h
      exact ⟨a, rfl, rfl⟩
    · rintro ⟨_, h, rfl⟩
      cases h
      rfl

theorem inField_eq_error_iff {typeName field : String} :
    r.inField typeName field c = .error cause openBodies ↔
      ∃ inner, r c = .error inner openBodies ∧ cause = .inField typeName field inner := by
  rw [inField]
  cases r c with
  | ok => simp
  | error inner openBodies' =>
    constructor
    · intro h
      cases h
      exact ⟨inner, rfl, rfl⟩
    · rintro ⟨_, h, rfl⟩
      cases h
      rfl

theorem inField_eq_ok_iff {typeName field : String} {a : α} :
    r.inField typeName field c = .ok a next ↔ r c = .ok a next := by
  rw [inField]
  cases r c <;> simp

theorem run_eq_error_iff {bytes : List UInt8} :
    r.run bytes = .error cause ↔ ∃ openBodies, r ⟨bytes, 0⟩ = .error cause openBodies := by
  rw [run, Cursor.start]
  cases r ⟨bytes, 0⟩ <;> simp [ReadResult.toExcept]

/-- One of the elements fails, and all before it are read. -/
theorem exists_of_replicate_eq_error {count : Nat}
    (h : replicate r count c = .error cause openBodies) :
    ∃ index < count, ∃ before mid, replicate r index c = .ok before mid ∧
      r mid = .error cause openBodies := by
  induction count generalizing c with
  | zero => cases h
  | succ count ih =>
    rw [replicate_succ] at h
    rcases bind_eq_error_iff.1 h with hfirst | ⟨a, mid, hfirst, hrest⟩
    · exact ⟨0, Nat.succ_pos _, [], c, rfl, hfirst⟩
    · rcases bind_eq_error_iff.1 hrest with hrest | ⟨_, _, -, hpure⟩
      · obtain ⟨index, hlt, before, mid', hbefore, hitem⟩ := ih hrest
        refine ⟨index + 1, Nat.succ_lt_succ hlt, a :: before, mid', ?_, hitem⟩
        rw [replicate_succ]
        exact bind_eq_ok_iff.2 ⟨a, mid, hfirst, bind_eq_ok_iff.2 ⟨before, mid', hbefore, rfl⟩⟩
      · cases hpure

/-- A value in a span fails, or bytes are left over behind it. -/
theorem delimited_eq_error {span : List UInt8}
    (h : delimited span r c = .error cause openBodies) :
    r ⟨span, c.openBodies⟩ = .error cause openBodies ∨
      ∃ count, 1 ≤ count ∧ cause = .trailingBytes count := by
  simp only [delimited] at h
  cases hr : r ⟨span, c.openBodies⟩ with
  | error inner openBodies' =>
    simp only [hr] at h
    exact .inl h
  | ok a next =>
    simp only [hr] at h
    split at h
    · cases h
    · rename_i hrest
      cases h
      exact .inr ⟨_, List.length_pos_iff.2 fun hnil => hrest (List.isEmpty_iff.2 hnil), rfl⟩

/-- As many bodies as may be are open already, or the read inside fails. -/
theorem opening_eq_error (h : opening r c = .error cause openBodies) :
    maxBodyDepth ≤ c.openBodies ∧ cause = .nestingTooDeep maxBodyDepth ∨
      c.openBodies < maxBodyDepth ∧
        ∃ openBodies', r ⟨c.rest, c.openBodies + 1⟩ = .error cause openBodies' := by
  rw [opening_apply] at h
  split at h
  · rename_i hfull
    cases h
    exact .inl ⟨Nat.le_of_lt_succ hfull, rfl⟩
  · rename_i hfree
    refine .inr ⟨Nat.not_le.1 fun hle => hfree (Nat.lt_succ_of_le hle), ?_⟩
    cases hr : r ⟨c.rest, c.openBodies + 1⟩ with
    | error inner openBodies' =>
      simp only [hr] at h
      cases h
      exact ⟨openBodies', rfl⟩
    | ok a next =>
      simp only [hr] at h
      cases h

/-! ### Parts that succeed -/

theorem take_eq_ok {count : Nat} {span : List UInt8} (h : take count c = .ok span next) :
    span.length = count ∧ c.rest = span ++ next.rest ∧ next.openBodies = c.openBodies := by
  rw [take_apply] at h
  split at h
  · rename_i hle
    cases h
    exact ⟨List.length_take_of_le hle, (List.take_append_drop count c.rest).symm, rfl⟩
  · cases h

theorem byte_eq_ok {b : UInt8} (h : byte c = .ok b next) :
    c = ⟨b :: next.rest, next.openBodies⟩ := by
  obtain ⟨n, hword, rfl⟩ := map_eq_ok_iff.1 h
  obtain ⟨span, hspan, rfl⟩ := map_eq_ok_iff.1 hword
  obtain ⟨hlength, hrest, hopen⟩ := take_eq_ok hspan
  obtain ⟨b, rfl⟩ := List.length_eq_one_iff.1 hlength
  have hb : UInt8.ofNat (LittleEndian.ofBytes [b]) = b := by
    rw [LittleEndian.ofBytes, LittleEndian.ofBytes, Nat.mul_zero, Nat.add_zero, UInt8.ofNat_toNat]
  obtain ⟨rest, d⟩ := c
  rw [hb, hopen]
  exact congrArg (Cursor.mk · d) hrest

/-! ### Errors of a kind -/

/-- Every error of `r` satisfies `E`. -/
def Raises (r : Reader α) (E : CodecError → Prop) : Prop :=
  ∀ ⦃c cause openBodies⦄, r c = .error cause openBodies → E cause

variable {E : CodecError → Prop}

theorem raises_pure {a : α} : (pure a : Reader α).Raises E := by
  intro c cause openBodies h
  cases h

theorem raises_fail (h : E cause) : (fail cause : Reader α).Raises E := by
  intro c _ openBodies hfail
  cases hfail
  exact h

theorem Raises.bind (hr : r.Raises E) (hf : ∀ a, (f a).Raises E) : (r >>= f).Raises E := by
  intro c cause openBodies h
  rcases bind_eq_error_iff.1 h with hfirst | ⟨a, mid, -, hrest⟩
  · exact hr hfirst
  · exact hf a hrest

theorem Raises.map {g : α → β} (hr : r.Raises E) : (g <$> r).Raises E :=
  fun _ _ _ h => hr (map_eq_error_iff.1 h)

theorem Raises.ite {p : Prop} [Decidable p] {s : Reader α} (hr : p → r.Raises E)
    (hs : ¬ p → s.Raises E) : (if p then r else s).Raises E := by
  by_cases hp : p
  · rw [if_pos hp]
    exact hr hp
  · rw [if_neg hp]
    exact hs hp

theorem Raises.imp {E' : CodecError → Prop} (hr : r.Raises E) (h : ∀ e, E e → E' e) :
    r.Raises E' :=
  fun _ _ _ hread => h _ (hr hread)

/-- An end that comes too early leaves fewer bytes than are needed. -/
inductive IsShort : CodecError → Prop
  | mk {needed remaining : Nat} (h : remaining < needed) : IsShort (.unexpectedEnd needed remaining)

theorem raises_take {count : Nat} : (take count).Raises IsShort := by
  intro c cause openBodies h
  rw [take_apply] at h
  split at h
  · cases h
  · rename_i hshort
    cases h
    exact .mk (Nat.lt_of_not_le hshort)

theorem raises_word {width : Nat} : (word width).Raises IsShort := raises_take.map

theorem raises_byte : byte.Raises IsShort := raises_word.map

theorem raises_length : length.Raises fun e =>
    IsShort e ∨ ∃ prefixed < nullLength, e = .invalidLength prefixed := by
  refine Raises.bind (raises_word.map.map.imp fun _ h => .inl h) fun prefixed => ?_
  refine Raises.ite (fun _ => raises_pure) fun _ => Raises.ite (fun hlow => ?_) fun _ => raises_pure
  exact raises_fail (.inr ⟨_, hlow, rfl⟩)

end Reader

end OpcWire
