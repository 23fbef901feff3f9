import OpcWire.Proofs.Wire.Reading

/-!
# Where encodings coincide

`e.CoincideOnlyIf e' p` compares what two writers leave behind, without a reader: if the bytes of
`e` and those of `e'`, with anything behind either of them, make up the same input, then `p` holds
and both end at the same place in it. With `p` saying that two values are the same, this is unique
readability, and it holds of values of any size and depth, those included that no reader accepts.

* `CoincideOnlyIf.append` puts two parts one after the other: the second parts are only compared
  where the first ones have told the same;
* `CoincideOnlyIf.delimited` and `coincide_length` are about what stands behind a length prefix;
* `coincide_of_reads` is the way from a reader to its writer, for parts that some reader accepts
  without limits.
-/

namespace OpcWire

namespace Encoding

variable {a a' b b' e e' : Encoding} {p q : Prop}

/-- The bytes of `e` and of `e'` start the same input only if `p` holds, and then they are the
same part of it. -/
def CoincideOnlyIf (e e' : Encoding) (p : Prop) : Prop :=
  ∀ ⦃as bs r s : List UInt8⦄, e = .ofBytes as → e' = .ofBytes bs → as ++ r = bs ++ s → p ∧ r = s

/-! ### Sequences -/

theorem CoincideOnlyIf.imp (h : e.CoincideOnlyIf e' p) (hpq : p → q) : e.CoincideOnlyIf e' q := by
  intro as bs r s has hbs hinput
  obtain ⟨hp, hrest⟩ := h has hbs hinput
  exact ⟨hpq hp, hrest⟩

theorem CoincideOnlyIf.symm (h : e.CoincideOnlyIf e' p) : e'.CoincideOnlyIf e p := by
  intro bs as s r hbs has hinput
  obtain ⟨hp, hrest⟩ := h has hbs hinput.symm
  exact ⟨hp, hrest.symm⟩

theorem coincide_empty : empty.CoincideOnlyIf empty True := by
  intro as bs r s has hbs hinput
  obtain rfl : [] = as := ofBytes_inj.1 has
  obtain rfl : [] = bs := ofBytes_inj.1 hbs
  exact ⟨trivial, hinput⟩

/-- **Two parts on each side.** Behind first parts that tell the same, the second parts start at
the same place. -/
theorem CoincideOnlyIf.append (ha : a.CoincideOnlyIf a' p) (hb : p → b.CoincideOnlyIf b' q) :
    (a ++ b).CoincideOnlyIf (a' ++ b') (p ∧ q) := by
  intro as bs r s has hbs hinput
  obtain ⟨front, back, hfront, hback, rfl⟩ := append_eq_ofBytes_iff.1 has
  obtain ⟨front', back', hfront', hback', rfl⟩ := append_eq_ofBytes_iff.1 hbs
  rw [List.append_assoc, List.append_assoc] at hinput
  obtain ⟨hp, hbehind⟩ := ha hfront hfront' hinput
  obtain ⟨hq, hrest⟩ := hb hp hback hback' hbehind
  exact ⟨⟨hp, hq⟩, hrest⟩

theorem CoincideOnlyIf.inField {typeName field : String} (h : e.CoincideOnlyIf e' p) :
    (e.inField typeName field).CoincideOnlyIf (e'.inField typeName field) p := by
  intro as bs r s has hbs hinput
  have he := inField_eq_ofBytes_iff.1 has
  have he' := inField_eq_ofBytes_iff.1 hbs
  exact h he he' hinput

/-! ### What a reader takes apart -/

/-- Encodings that one reader reads back coincide only if it reads the same from both. -/
theorem coincide_of_reads {α : Type} {r : Reader α} {x y : α} {d : Nat}
    (hx : ∀ bytes, e = .ofBytes bytes → r.Reads d bytes x)
    (hy : ∀ bytes, e' = .ofBytes bytes → r.Reads d bytes y) : e.CoincideOnlyIf e' (x = y) := by
  intro as bs u v has hbs hinput
  have hread : r ⟨as ++ u, d⟩ = .ok x ⟨u, d⟩ := hx as has u
  have hread' : r ⟨bs ++ v, d⟩ = .ok y ⟨v, d⟩ := hy bs hbs v
  rw [hinput, hread'] at hread
  injection hread with hvalue hnext
  injection hnext with hrest
  exact ⟨hvalue.symm, hrest.symm⟩

theorem coincide_byte {x y : UInt8} : (byte x).CoincideOnlyIf (byte y) (x = y) := by
  have hreads (z : UInt8) (bytes : List UInt8) (h : byte z = .ofBytes bytes) :
      Reader.byte.Reads 0 bytes z := by
    obtain rfl : [z] = bytes := ofBytes_inj.1 h
    exact Reader.reads_byte
  exact coincide_of_reads (hreads x) (hreads y)

/-- Length prefixes differ for different lengths, and the null marker is none of them. -/
theorem coincide_length {m n : Option Nat} : (length m).CoincideOnlyIf (length n) (m = n) := by
  have hreads (count : Option Nat) (bytes : List UInt8) (h : length count = .ofBytes bytes) :
      Reader.length.Reads 0 bytes count := by
    cases count with
    | none =>
      obtain rfl := ofBytes_inj.1 (length_none.symm.trans h)
      exact Reader.reads_length_none
    | some count =>
      obtain ⟨hle, rfl⟩ := length_some_eq_ofBytes_iff.1 h
      exact Reader.reads_length_some hle
  exact coincide_of_reads (hreads m) (hreads n)

/-! ### Behind a length prefix -/

/-- The prefix gives nothing away that its content does not. -/
theorem CoincideOnlyIf.delimited (h : e.CoincideOnlyIf e' p) :
    (delimited e).CoincideOnlyIf (delimited e') p := by
  intro as bs r s has hbs hinput
  obtain ⟨body, hbody, -, rfl⟩ := delimited_eq_ofBytes_iff.1 has
  obtain ⟨body', hbody', -, rfl⟩ := delimited_eq_ofBytes_iff.1 hbs
  rw [List.append_assoc, List.append_assoc] at hinput
  -- both prefixes have four bytes, so that the contents start at the same place
  have hprefix : (LittleEndian.toBytes 4 body.length).length =
      (LittleEndian.toBytes 4 body'.length).length := by
    simp only [LittleEndian.length_toBytes]
  obtain ⟨-, hcontent⟩ := List.append_inj hinput hprefix
  exact h hbody hbody' hcontent

end Encoding

end OpcWire
