import OpcWire.Proofs.Wire.Written
import OpcWire.Wire.Reader

/-!
# What a successful read establishes

`r.Ensures d P` says that whenever `r` succeeds with `d` bodies open, it leaves `d` bodies open
and `P a k` holds of the value `a` it returns and the number `k` of bytes it took. The rules
follow the combinators of readers; `Ensures.bind` adds the counts up.

With `P a k` saying that `a` is written in at most `k` bytes (`Encoding.Fits`), this is the
calculus by which no value is written in more bytes than it was read from. The count of
`Ensures.delimited` is that of the span, so that a body which shrinks keeps a valid length prefix.
-/

namespace OpcWire

namespace Reader

variable {α β : Type} {r : Reader α} {f : α → Reader β} {d : Nat} {P : α → Nat → Prop}
  {Q : β → Nat → Prop}

/-- `P` holds of what `r` returns and of the number of bytes that it took for it. -/
def Ensures (r : Reader α) (d : Nat) (P : α → Nat → Prop) : Prop :=
  ∀ ⦃bytes : List UInt8⦄ ⦃a : α⦄ ⦃next : Cursor⦄, r ⟨bytes, d⟩ = .ok a next →
    next.openBodies = d ∧ ∃ k, k + next.rest.length = bytes.length ∧ P a k

/-! ### Sequences -/

theorem ensures_pure {a : α} (h : P a 0) : (pure a : Reader α).Ensures d P := by
  intro bytes b next hread
  cases hread
  exact ⟨rfl, 0, Nat.zero_add _, h⟩

theorem ensures_fail {cause : CodecError} : (fail cause : Reader α).Ensures d P := by
  intro bytes a next hread
  cases hread

theorem Ensures.imp {P' : α → Nat → Prop} (hr : r.Ensures d P) (h : ∀ a k, P a k → P' a k) :
    r.Ensures d P' := by
  intro bytes a next hread
  obtain ⟨hd, k, hk, hP⟩ := hr hread
  exact ⟨hd, k, hk, h a k hP⟩

theorem Ensures.bind (hr : r.Ensures d P)
    (hf : ∀ a j, P a j → (f a).Ensures d fun b k => Q b (j + k)) : (r >>= f).Ensures d Q := by
  intro bytes b next hread
  rw [bind_apply] at hread
  cases hra : r ⟨bytes, d⟩ with
  | error => rw [hra] at hread; cases hread
  | ok a mid =>
    rw [hra] at hread
    obtain ⟨rest, openBodies⟩ := mid
    obtain ⟨hd, j, hj, hP⟩ := hr hra
    obtain rfl : openBodies = d := hd
    obtain ⟨hd', k, hk, hQ⟩ := hf a j hP hread
    exact ⟨hd', j + k, by simp only at hj; omega, hQ⟩

theorem Ensures.map {g : α → β} (hr : r.Ensures d P) (h : ∀ a k, P a k → Q (g a) k) :
    (g <$> r).Ensures d Q := by
  rw [← bind_pure_comp]
  exact hr.bind fun a k hP => ensures_pure (h a k hP)

theorem Ensures.inField {typeName field : String} (hr : r.Ensures d P) :
    (r.inField typeName field).Ensures d P := by
  intro bytes a next hread
  rw [Reader.inField] at hread
  cases hra : r ⟨bytes, d⟩ with
  | error => rw [hra] at hread; cases hread
  | ok b mid =>
    rw [hra] at hread
    cases hread
    exact hr hra

theorem Ensures.ite {p : Prop} [Decidable p] {s : Reader α} (hr : p → r.Ensures d P)
    (hs : ¬ p → s.Ensures d P) : (if p then r else s).Ensures d P := by
  by_cases hp : p
  · rw [if_pos hp]
    exact hr hp
  · rw [if_neg hp]
    exact hs hp

/-! ### Bytes, words and lengths -/

theorem ensures_take {count : Nat} :
    (take count).Ensures d fun span k => span.length = count ∧ k = count := by
  intro bytes span next hread
  rw [take_apply] at hread
  split at hread
  · rename_i hle
    cases hread
    refine ⟨rfl, count, ?_, List.length_take_of_le hle, rfl⟩
    simp only [List.length_drop] at hle ⊢
    omega
  · cases hread

theorem ensures_word {width : Nat} :
    (word width).Ensures d fun n k => n < 256 ^ width ∧ k = width := by
  refine ensures_take.map fun span k ⟨hlen, hk⟩ => ⟨?_, hk⟩
  have := LittleEndian.ofBytes_lt span
  rwa [hlen] at this

theorem ensures_byte : byte.Ensures d fun _ k => k = 1 :=
  ensures_word.map fun _ _ h => h.2

theorem ensures_uint16 : uint16.Ensures d fun _ k => k = 2 :=
  ensures_word.map fun _ _ h => h.2

theorem ensures_uint32 : uint32.Ensures d fun _ k => k = 4 :=
  ensures_word.map fun _ _ h => h.2

theorem ensures_length :
    length.Ensures d fun count k => (Encoding.length count).Fits k ∧ k = 4 ∧
      ∀ n, count = some n → n ≤ Encoding.maxLength := by
  refine (ensures_uint32.map fun _ _ h => h).bind (P := fun _ k => k = 4) fun prefixed j hj => ?_
  subst hj
  refine Ensures.ite (fun _ => ?_) fun hnull => Ensures.ite (fun _ => ensures_fail) fun _ => ?_
  · exact ensures_pure ⟨Encoding.fits_length_none, rfl, fun n hn => nomatch hn⟩
  · have hlt := Int32.toInt_lt prefixed
    have hle : prefixed.toInt.toNat ≤ Encoding.maxLength := by
      simp only [Encoding.maxLength]
      omega
    refine ensures_pure ⟨Encoding.fits_length_some hle, rfl, fun n hn => ?_⟩
    cases hn
    exact hle

/-! ### Arrays -/

theorem Ensures.replicate {item : Reader α} {write : α → Encoding} {q : α → Prop}
    (h : item.Ensures d fun a k => (write a).Fits k ∧ q a) (count : Nat) :
    (replicate item count).Ensures d fun as k =>
      as.length = count ∧ (Encoding.concat (as.map write)).Fits k ∧ ∀ a ∈ as, q a := by
  induction count with
  | zero => exact ensures_pure ⟨rfl, Encoding.fits_empty, fun a ha => nomatch ha⟩
  | succ count ih =>
    rw [replicate_succ]
    refine h.bind fun a j ⟨hfits, ha⟩ => ih.bind fun as k ⟨hlen, hfits', has⟩ => ?_
    refine ensures_pure ⟨by simp [hlen], ?_, ?_⟩
    · rw [List.map_cons, Encoding.concat_cons]
      exact hfits.append hfits'
    · rintro b (_ | ⟨_, hb⟩)
      · exact ha
      · exact has b hb

theorem Ensures.array {item : Reader α} {write : α → Encoding} {q : α → Prop}
    (h : item.Ensures d fun a k => (write a).Fits k ∧ q a) :
    (array item).Ensures d fun items k => (Encoding.array (items.map (·.map write))).Fits k ∧
      ∀ as, items = some as → as.length ≤ maxArrayLength ∧ ∀ a ∈ as, q a := by
  refine ensures_length.bind fun count j ⟨hlength, _, hmax⟩ => ?_
  cases count with
  | none => exact ensures_pure ⟨hlength, fun as has => nomatch has⟩
  | some count =>
    refine Ensures.ite (fun _ => ensures_fail) fun hlimit => ?_
    refine (h.replicate count).bind fun as k ⟨hlen, hfits, has⟩ => ensures_pure ⟨?_, ?_⟩
    · rw [← hlen] at hlength
      simpa [Encoding.array] using hlength.append hfits
    · rintro _ ⟨⟩
      exact ⟨by omega, has⟩

/-! ### Delimited values and bodies -/

theorem Ensures.delimited {span : List UInt8} (h : r.Ensures d P) :
    (delimited span r).Ensures d fun a k => k = 0 ∧ P a span.length := by
  intro bytes a next hread
  simp only [Reader.delimited] at hread
  cases hr : r ⟨span, d⟩ with
  | error => rw [hr] at hread; cases hread
  | ok b inner =>
    simp only [hr] at hread
    split at hread
    · rename_i hempty
      cases hread
      obtain ⟨hd, k, hk, hP⟩ := h hr
      -- the span is used up, so its whole length is what the value took
      rw [List.isEmpty_iff.1 hempty, List.length_nil, Nat.add_zero] at hk
      exact ⟨hd, 0, Nat.zero_add _, rfl, hk ▸ hP⟩
    · cases hread

theorem Ensures.opening (h : d < maxBodyDepth → r.Ensures (d + 1) P) :
    (opening r).Ensures d fun a k => d < maxBodyDepth ∧ P a k := by
  intro bytes a next hread
  rw [opening_apply] at hread
  split at hread
  · cases hread
  · rename_i hd
    cases hr : r ⟨bytes, d + 1⟩ with
    | error => rw [hr] at hread; cases hread
    | ok b inner =>
      rw [hr] at hread
      cases hread
      obtain ⟨hopen, k, hk, hP⟩ := h (Nat.not_lt.1 hd) hr
      exact ⟨by simp [hopen], k, hk, Nat.not_lt.1 hd, hP⟩

/-! ### Whole inputs -/

theorem Ensures.run_eq_ok {bytes rest : List UInt8} {a : α} (hr : r.Ensures 0 P)
    (h : r.run bytes = .ok (a, rest)) : ∃ k, k + rest.length = bytes.length ∧ P a k := by
  obtain ⟨next, hread, rfl⟩ := run_eq_ok_iff.1 h
  exact (hr hread).2

end Reader

end OpcWire
