import OpcWire.Proofs.Wire.Reading

/-!
# Prefix codes

A reader is a *prefix code* if it uses up a definite front part of its input: what follows that
part has no influence on the result, and an input that ends inside it fails for want of bytes and
for no other reason. `Reader.take` is a prefix code, and all combinators of readers keep the
property (`PrefixCode.bind`, `PrefixCode.delimited`, `PrefixCode.opening`, ...), so that it holds
of a reader by its structure alone.

The order of checks matters in two places. A delimited value takes its whole span before anything
in it is looked at, and a reader that fails on its own account (`fail`) is a prefix code only
because it never succeeds.
-/

namespace OpcWire

/-- The error reports that bytes are missing. -/
def CodecError.IsShortage (e : CodecError) : Prop :=
  ∃ needed remaining, e.rootCause = .unexpectedEnd needed remaining ∧ remaining < needed

namespace Reader

variable {α β : Type} {r : Reader α} {f : α → Reader β} {d : Nat} {as bs bytes : List UInt8}
  {a : α}

/-- `r` runs out of input wherever `bytes` are cut. -/
def Starves (r : Reader α) (d : Nat) (bytes : List UInt8) : Prop :=
  ∀ k < bytes.length, ∃ cause openBodies,
    r ⟨bytes.take k, d⟩ = .error cause openBodies ∧ cause.IsShortage

/-- Whatever `r` reads, it reads from a front part of its input, independent of the rest and
not recognised before it is complete. -/
def PrefixCode (r : Reader α) : Prop :=
  ∀ ⦃bytes : List UInt8⦄ ⦃d : Nat⦄ ⦃a : α⦄ ⦃next : Cursor⦄, r ⟨bytes, d⟩ = .ok a next →
    ∃ used, bytes = used ++ next.rest ∧ next.openBodies = d ∧ r.Reads d used a ∧ r.Starves d used

/-! ### Sequences -/

theorem prefixCode_pure : (pure a : Reader α).PrefixCode := by
  intro bytes d b next h
  cases h
  exact ⟨[], rfl, rfl, reads_pure, fun k hk => absurd hk (Nat.not_lt_zero k)⟩

theorem prefixCode_fail {cause : CodecError} : (fail cause : Reader α).PrefixCode := by
  intro bytes d a next h
  cases h

/-- A cut falls into the first part or, behind it, into the second. -/
theorem Starves.append (hr : r.Starves d as) (hra : r.Reads d as a) (hf : (f a).Starves d bs) :
    (r >>= f).Starves d (as ++ bs) := by
  intro k hk
  rw [List.length_append] at hk
  rw [List.take_append]
  -- behind the first part, `f` is the one to run out of bytes
  by_cases hcut : k < as.length
  · obtain ⟨cause, openBodies, h, hshort⟩ := hr k hcut
    refine ⟨cause, openBodies, ?_, hshort⟩
    rw [Nat.sub_eq_zero_of_le (by omega), List.take_zero, List.append_nil, bind_apply, h]
  · obtain ⟨cause, openBodies, h, hshort⟩ := hf (k - as.length) (by omega)
    refine ⟨cause, openBodies, ?_, hshort⟩
    rw [List.take_of_length_le (by omega), bind_apply, hra]
    exact h

theorem PrefixCode.bind (hr : r.PrefixCode) (hf : ∀ a, (f a).PrefixCode) :
    (r >>= f).PrefixCode := by
  intro bytes d b next h
  rw [bind_apply] at h
  cases hra : r ⟨bytes, d⟩ with
  | error => rw [hra] at h; cases h
  | ok a mid =>
    rw [hra] at h
    obtain ⟨as, rfl, hd, hreads, hstarves⟩ := hr hra
    obtain ⟨rest, openBodies⟩ := mid
    obtain rfl : openBodies = d := hd
    obtain ⟨bs, hrest, hd', hreads', hstarves'⟩ := hf a h
    refine ⟨as ++ bs, ?_, hd', hreads.bind hreads', hstarves.append hreads hstarves'⟩
    rw [List.append_assoc, ← hrest]

theorem PrefixCode.map {g : α → β} (hr : r.PrefixCode) : (g <$> r).PrefixCode := by
  rw [← bind_pure_comp]
  exact hr.bind fun _ => prefixCode_pure

theorem PrefixCode.ite {p : Prop} [Decidable p] {s : Reader α} (hr : r.PrefixCode)
    (hs : s.PrefixCode) : (if p then r else s).PrefixCode := by
  by_cases hp : p
  · rwa [if_pos hp]
  · rwa [if_neg hp]

theorem PrefixCode.inField {typeName field : String} (hr : r.PrefixCode) :
    (r.inField typeName field).PrefixCode := by
  intro bytes d a next h
  rw [Reader.inField] at h
  cases hra : r ⟨bytes, d⟩ with
  | error => rw [hra] at h; cases h
  | ok b mid =>
    rw [hra] at h
    cases h
    obtain ⟨used, hbytes, hd, hreads, hstarves⟩ := hr hra
    refine ⟨used, hbytes, hd, hreads.inField, fun k hk => ?_⟩
    obtain ⟨cause, openBodies, hk', hshort⟩ := hstarves k hk
    exact ⟨.inField typeName field cause, openBodies, by rw [Reader.inField, hk'], hshort⟩

/-! ### Bytes, words and lengths -/

/-- All bytes are taken at once, so that a cut anywhere leaves fewer than are needed. -/
theorem prefixCode_take {count : Nat} : (take count).PrefixCode := by
  intro bytes d a next h
  rw [take_apply] at h
  split at h
  · rename_i hle
    cases h
    have hlen : (bytes.take count).length = count := List.length_take_of_le hle
    refine ⟨bytes.take count, (List.take_append_drop count bytes).symm, rfl, ?_, ?_⟩
    · have := reads_take (bytes.take count) (d := d)
      rwa [hlen] at this
    · intro k hk
      rw [hlen] at hk
      have hcut : ((bytes.take count).take k).length = k := List.length_take_of_le (by omega)
      refine ⟨.unexpectedEnd count k, d, ?_, count, k, rfl, hk⟩
      simp only [take_apply, hcut]
      rw [if_neg (by omega)]
  · cases h

theorem prefixCode_word {width : Nat} : (word width).PrefixCode := prefixCode_take.map

theorem prefixCode_byte : byte.PrefixCode := prefixCode_word.map

theorem prefixCode_uint16 : uint16.PrefixCode := prefixCode_word.map

theorem prefixCode_uint32 : uint32.PrefixCode := prefixCode_word.map

theorem prefixCode_length : length.PrefixCode := by
  refine prefixCode_uint32.map.bind fun prefixed => ?_
  exact prefixCode_pure.ite (prefixCode_fail.ite prefixCode_pure)

/-! ### Arrays, delimited values and bodies -/

theorem PrefixCode.replicate {item : Reader α} (h : item.PrefixCode) (count : Nat) :
    (replicate item count).PrefixCode := by
  induction count with
  | zero => exact prefixCode_pure
  | succ count ih =>
    rw [replicate_succ]
    exact h.bind fun _ => ih.bind fun _ => prefixCode_pure

theorem PrefixCode.array {item : Reader α} (h : item.PrefixCode) : (array item).PrefixCode := by
  refine prefixCode_length.bind fun count => ?_
  cases count with
  | none => exact prefixCode_pure
  | some count => exact prefixCode_fail.ite ((h.replicate count).bind fun _ => prefixCode_pure)

/-- The span is in hand already: no byte is taken from the input. -/
theorem PrefixCode.delimited {span : List UInt8} (h : r.PrefixCode) :
    (delimited span r).PrefixCode := by
  intro bytes d a next hread
  simp only [Reader.delimited] at hread
  cases hr : r ⟨span, d⟩ with
  | error => rw [hr] at hread; cases hread
  | ok b inner =>
    simp only [hr] at hread
    split at hread
    · rename_i hempty
      cases hread
      obtain ⟨used, hspan, hd, hreads, -⟩ := h hr
      refine ⟨[], rfl, hd, fun rest => ?_, fun k hk => absurd hk (Nat.not_lt_zero k)⟩
      simp only [Reader.delimited, hr, hempty, ↓reduceIte, hd, List.nil_append]
    · cases hread

theorem PrefixCode.opening (h : r.PrefixCode) : (opening r).PrefixCode := by
  intro bytes d a next hread
  rw [opening_apply] at hread
  split at hread
  · cases hread
  · rename_i hd
    cases hr : r ⟨bytes, d + 1⟩ with
    | error => rw [hr] at hread; cases hread
    | ok b inner =>
      rw [hr] at hread
      cases hread
      obtain ⟨used, hbytes, hopen, hreads, hstarves⟩ := h hr
      refine ⟨used, hbytes, by simp [hopen], fun rest => ?_, fun k hk => ?_⟩
      · simp only [opening_apply, hreads rest, hd, ↓reduceIte, Nat.add_sub_cancel]
      · -- the body is closed again on the way out; the cause stays
        obtain ⟨cause, openBodies, hcut, hshort⟩ := hstarves k hk
        refine ⟨cause, openBodies - 1, ?_, hshort⟩
        simp only [opening_apply, hcut, hd, ↓reduceIte]

/-! ### Any input -/

/-- What is read from bytes alone is read from them whatever follows. -/
theorem PrefixCode.reads_of_run (hr : r.PrefixCode) (h : r.run bytes = .ok (a, [])) :
    r.Reads 0 bytes a := by
  obtain ⟨next, hread, hrest⟩ := run_eq_ok_iff.1 h
  obtain ⟨used, hbytes, -, hreads, -⟩ := hr hread
  rw [hrest, List.append_nil] at hbytes
  rwa [hbytes]

/-- **A prefix code on any input**, in terms of the reader alone. -/
theorem PrefixCode.delimits (hr : r.PrefixCode) {next : Cursor} (h : r ⟨bytes, d⟩ = .ok a next) :
    ∃ used, bytes = used ++ next.rest ∧ (∀ after, r ⟨used ++ after, d⟩ = .ok a ⟨after, d⟩) ∧
      ∀ k < used.length, ∃ cause openBodies needed remaining,
        r ⟨used.take k, d⟩ = .error cause openBodies ∧
          cause.rootCause = .unexpectedEnd needed remaining ∧ remaining < needed := by
  obtain ⟨used, hbytes, -, hreads, hstarves⟩ := hr h
  refine ⟨used, hbytes, hreads, fun k hk => ?_⟩
  obtain ⟨cause, openBodies, hcut, needed, remaining, hroot, hlt⟩ := hstarves k hk
  exact ⟨cause, openBodies, needed, remaining, hcut, hroot, hlt⟩

end Reader

end OpcWire
