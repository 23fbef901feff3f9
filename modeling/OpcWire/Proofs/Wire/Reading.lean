import OpcWire.Proofs.Wire.Written
import OpcWire.Wire.Reader

/-!
# Reading what was written

Three ways in which a reader may treat bytes that lie in front of it, whatever follows them:

* `r.Reads d bytes a` : it takes exactly these bytes and returns `a`;
* `r.Refuses d bytes` : it stops because a limit is exceeded;
* `r.ReadsIf p d bytes a` : the first if `p` holds and the second if not.

`d` is the number of bodies that are open around the bytes. `ReadsIf.bind` composes the last of
them along the parts of a value: a value is read if all its parts are within the limits, and
refused as soon as one of them is not.
-/

namespace OpcWire

/-- The error reports that an array is too long or that something nests too deep. -/
def CodecError.IsLimit (e : CodecError) : Prop :=
  (∃ n, maxArrayLength < n ∧ e.rootCause = .lengthLimit n maxArrayLength) ∨
    e.rootCause = .nestingTooDeep 100

namespace Reader

variable {α β : Type} {r : Reader α} {f : α → Reader β} {d : Nat} {as bs bytes : List UInt8}
  {a : α} {b : β} {p q : Prop}

/-- `r` takes exactly `bytes` off its input and returns `a`, whatever follows. -/
def Reads (r : Reader α) (d : Nat) (bytes : List UInt8) (a : α) : Prop :=
  ∀ rest, r ⟨bytes ++ rest, d⟩ = .ok a ⟨rest, d⟩

/-- `r` stops at a limit on input that starts with `bytes`, whatever follows. -/
def Refuses (r : Reader α) (d : Nat) (bytes : List UInt8) : Prop :=
  ∀ rest, ∃ cause openBodies, r ⟨bytes ++ rest, d⟩ = .error cause openBodies ∧ cause.IsLimit

/-- `r` reads `bytes` as `a` if `p` holds, and stops at a limit if not. -/
structure ReadsIf (r : Reader α) (p : Prop) (d : Nat) (bytes : List UInt8) (a : α) : Prop where
  reads : p → r.Reads d bytes a
  refuses : ¬ p → r.Refuses d bytes

/-! ### Sequences -/

theorem reads_pure : (pure a : Reader α).Reads d [] a := fun _ => rfl

theorem Reads.bind (hr : r.Reads d as a) (hf : (f a).Reads d bs b) :
    (r >>= f).Reads d (as ++ bs) b := by
  intro rest
  rw [bind_apply, List.append_assoc, hr]
  exact hf rest

/-- What follows a read may take no more bytes. -/
theorem Reads.bind_nil (hr : r.Reads d bytes a) (hf : (f a).Reads d [] b) :
    (r >>= f).Reads d bytes b := by
  have h := hr.bind hf
  rwa [List.append_nil] at h

theorem Reads.map {g : α → β} (hr : r.Reads d bytes a) : (g <$> r).Reads d bytes (g a) := by
  intro rest
  rw [map_apply, hr]

theorem Reads.inField {typeName field : String} (hr : r.Reads d bytes a) :
    (r.inField typeName field).Reads d bytes a := by
  intro rest
  rw [Reader.inField, hr]

theorem Refuses.bind (hr : r.Refuses d as) : (r >>= f).Refuses d (as ++ bs) := by
  intro rest
  obtain ⟨cause, openBodies, h, hlimit⟩ := hr (bs ++ rest)
  exact ⟨cause, openBodies, by rw [bind_apply, List.append_assoc, h], hlimit⟩

theorem Reads.bind_refuses (hr : r.Reads d as a) (hf : (f a).Refuses d bs) :
    (r >>= f).Refuses d (as ++ bs) := by
  intro rest
  rw [bind_apply, List.append_assoc, hr]
  exact hf rest

theorem Refuses.map {g : α → β} (hr : r.Refuses d bytes) : (g <$> r).Refuses d bytes := by
  intro rest
  obtain ⟨cause, openBodies, h, hlimit⟩ := hr rest
  exact ⟨cause, openBodies, by rw [map_apply, h], hlimit⟩

theorem Refuses.inField {typeName field : String} (hr : r.Refuses d bytes) :
    (r.inField typeName field).Refuses d bytes := by
  intro rest
  obtain ⟨cause, openBodies, h, hlimit⟩ := hr rest
  exact ⟨.inField typeName field cause, openBodies, by rw [Reader.inField, h], hlimit⟩

theorem Reads.readsIf (h : r.Reads d bytes a) (hp : p) : r.ReadsIf p d bytes a :=
  ⟨fun _ => h, fun hn => absurd hp hn⟩

theorem Refuses.readsIf (h : r.Refuses d bytes) (hp : ¬ p) : r.ReadsIf p d bytes a :=
  ⟨fun h' => absurd h' hp, fun _ => h⟩

theorem ReadsIf.congr (h : r.ReadsIf p d bytes a) (hpq : p ↔ q) : r.ReadsIf q d bytes a :=
  ⟨fun hq => h.reads (hpq.2 hq), fun hq => h.refuses (mt hpq.1 hq)⟩

/-- **A sequence is read exactly when its parts are.** -/
theorem ReadsIf.bind (hr : r.ReadsIf p d as a) (hf : (f a).ReadsIf q d bs b) :
    (r >>= f).ReadsIf (p ∧ q) d (as ++ bs) b := by
  refine ⟨fun ⟨hp, hq⟩ => (hr.reads hp).bind (hf.reads hq), fun hpq => ?_⟩
  -- the first part that is out of bounds ends the reading, wherever it stands
  by_cases hp : p
  · exact (hr.reads hp).bind_refuses (hf.refuses fun hq => hpq ⟨hp, hq⟩)
  · exact (hr.refuses hp).bind

theorem Reads.bind_readsIf (hr : r.Reads d as a) (hf : (f a).ReadsIf p d bs b) :
    (r >>= f).ReadsIf p d (as ++ bs) b :=
  ⟨fun hp => hr.bind (hf.reads hp), fun hp => hr.bind_refuses (hf.refuses hp)⟩

theorem ReadsIf.map {g : α → β} (hr : r.ReadsIf p d bytes a) :
    (g <$> r).ReadsIf p d bytes (g a) :=
  ⟨fun hp => (hr.reads hp).map, fun hp => (hr.refuses hp).map⟩

theorem ReadsIf.inField {typeName field : String} (hr : r.ReadsIf p d bytes a) :
    (r.inField typeName field).ReadsIf p d bytes a :=
  ⟨fun hp => (hr.reads hp).inField, fun hp => (hr.refuses hp).inField⟩

/-! ### Bytes, words and lengths -/

theorem reads_take (bytes : List UInt8) : (take bytes.length).Reads d bytes bytes := by
  intro rest
  rw [take_apply, if_pos (by simp)]
  simp

theorem reads_word (width : Nat) {n : Nat} (h : n < 256 ^ width) :
    (word width).Reads d (LittleEndian.toBytes width n) n := by
  have ht := reads_take (LittleEndian.toBytes width n) (d := d)
  rw [LittleEndian.length_toBytes] at ht
  have hm := ht.map (g := LittleEndian.ofBytes)
  rwa [LittleEndian.ofBytes_toBytes, Nat.mod_eq_of_lt h] at hm

theorem reads_byte {x : UInt8} : byte.Reads d [x] x := by
  have h := (reads_word 1 (d := d) x.toNat_lt).map (g := UInt8.ofNat)
  rwa [UInt8.ofNat_toNat, LittleEndian.toBytes, LittleEndian.toBytes, UInt8.ofNat_toNat] at h

theorem reads_int32 {n : Nat} (h : n < 2 ^ 32) :
    int32.Reads d (LittleEndian.toBytes 4 n) (Int32.ofNat n) :=
  (reads_word 4 h).map.map

theorem reads_length_none : length.Reads d (LittleEndian.toBytes 4 0xFFFFFFFF) none := by
  refine (reads_int32 (by decide)).bind_nil ?_
  rw [if_pos (by decide)]
  exact reads_pure

theorem reads_length_some {n : Nat} (h : n ≤ Encoding.maxLength) :
    length.Reads d (LittleEndian.toBytes 4 n) (some n) := by
  have hn : n < 2 ^ 31 := by
    simp only [Encoding.maxLength] at h
    omega
  have hint : (Int32.ofNat n).toInt = n := Int32.toInt_ofNat_of_lt hn
  refine (reads_int32 (by omega)).bind_nil ?_
  rw [hint, nullLength, if_neg (by omega), if_neg (by omega), Int.toNat_natCast]
  exact reads_pure

/-! ### Delimited values and bodies -/

/-- A value that fills its span is read from it, and the input behind the span is kept. -/
theorem ReadsIf.delimited (h : r.ReadsIf p d bytes a) :
    (delimited bytes r).ReadsIf p d [] a := by
  constructor
  · intro hp rest
    have hr := h.reads hp []
    rw [List.append_nil] at hr
    simp only [Reader.delimited, hr]
    rfl
  · intro hp rest
    obtain ⟨cause, openBodies, hr, hlimit⟩ := h.refuses hp []
    rw [List.append_nil] at hr
    exact ⟨cause, openBodies, by simp only [Reader.delimited, hr], hlimit⟩

theorem ReadsIf.opening (h : d < maxBodyDepth → r.ReadsIf p (d + 1) bytes a) :
    (opening r).ReadsIf (d < maxBodyDepth ∧ p) d bytes a := by
  constructor
  · rintro ⟨hd, hp⟩ rest
    have hr := (h hd).reads hp rest
    simp only [opening_apply, hr]
    rw [if_neg (Nat.not_lt.2 hd), Nat.add_sub_cancel]
  · intro hdp rest
    -- the count of open bodies is looked at before anything inside is
    by_cases hd : d < maxBodyDepth
    · obtain ⟨cause, openBodies, hr, hlimit⟩ := (h hd).refuses (fun hp => hdp ⟨hd, hp⟩) rest
      refine ⟨cause, openBodies - 1, ?_, hlimit⟩
      simp only [opening_apply, hr]
      rw [if_neg (Nat.not_lt.2 hd)]
    · refine ⟨.nestingTooDeep maxBodyDepth, d, ?_, .inr rfl⟩
      rw [opening_apply, if_pos (Nat.lt_succ_of_le (Nat.not_lt.1 hd))]

/-! ### Arrays -/

theorem reads_array_none {item : Reader α} :
    (array item).Reads d (LittleEndian.toBytes 4 0xFFFFFFFF) none :=
  reads_length_none.bind_nil reads_pure

theorem ReadsIf.array {item : Reader α} {values : List α} {prefixed : List UInt8}
    (hlength : Encoding.length (some values.length) = .ofBytes prefixed)
    (h : (replicate item values.length).ReadsIf p d bytes values) :
    (array item).ReadsIf (values.length ≤ maxArrayLength ∧ p) d (prefixed ++ bytes)
      (some values) := by
  obtain ⟨hle, rfl⟩ := Encoding.length_some_eq_ofBytes_iff.1 hlength
  refine (reads_length_some hle).bind_readsIf ?_
  -- the announced length is refused before any element is read
  by_cases hlimit : maxArrayLength < values.length
  · simp only [hlimit, ↓reduceIte]
    refine Refuses.readsIf (fun rest => ?_) (fun hp => by omega)
    exact ⟨_, _, rfl, .inl ⟨_, hlimit, rfl⟩⟩
  · simp only [hlimit, ↓reduceIte]
    exact h.map.congr ⟨fun hp => ⟨by omega, hp⟩, fun hp => hp.2⟩

/-! ### Whole inputs -/

/-- A reader that reads bytes under a condition succeeds on them exactly under that condition. -/
theorem ReadsIf.run_iff (h : r.ReadsIf p 0 bytes a) :
    ((∃ b rest, r.run bytes = .ok (b, rest)) ↔ p) ∧
      (¬ p → ∃ cause, r.run bytes = .error cause ∧ cause.IsLimit) := by
  have hrefused : ¬ p → ∃ cause, r.run bytes = .error cause ∧ cause.IsLimit := by
    intro hp
    obtain ⟨cause, openBodies, hr, hlimit⟩ := h.refuses hp []
    rw [List.append_nil] at hr
    exact ⟨cause, congrArg ReadResult.toExcept hr, hlimit⟩
  refine ⟨⟨fun ⟨b, rest, hok⟩ => ?_, fun hp => ?_⟩, hrefused⟩
  · refine Classical.byContradiction fun hp => ?_
    obtain ⟨cause, herror, -⟩ := hrefused hp
    rw [hok] at herror
    cases herror
  · have hr := h.reads hp []
    rw [List.append_nil] at hr
    exact ⟨a, [], congrArg ReadResult.toExcept hr⟩

end Reader

end OpcWire
