import OpcWire.Proofs.Wire.Postcondition
import OpcWire.Proofs.Wire.PrefixCode
import OpcWire.Wire.Codec

/-!
# Lawful codecs

`c.Lawful fits` collects what the two halves of a codec owe each other, where `fits a` says that
`a` is within the limits of the reader:

* what is written is read back if it fits and refused if it does not;
* the reader is a prefix code;
* what is read fits, and is written in no more bytes than it was read from.

`lawful_ofWord` covers everything held as one word, `Lawful.iso` a codec that differs from another
by the form of its values only.
-/

namespace OpcWire

namespace Codec

variable {α β : Type} {c : Codec α} {fits : α → Prop}

/-- Reading and writing agree on all values that fit. -/
structure Lawful (c : Codec α) (fits : α → Prop) : Prop where
  /-- What is written is read back, or refused if it does not fit. -/
  readsIf : ∀ ⦃a : α⦄ ⦃bytes : List UInt8⦄ ⦃d : Nat⦄, c.encode a = .ofBytes bytes →
    c.decode.ReadsIf (fits a) d bytes a
  /-- Reading depends on the bytes of the value only, and on all of them. -/
  prefixCode : c.decode.PrefixCode
  /-- What is read fits and is written in no more bytes. -/
  rewrites : ∀ d, c.decode.Ensures d fun a k => (c.encode a).Fits k ∧ fits a

namespace Lawful

theorem congr {fits' : α → Prop} (h : c.Lawful fits) (hfits : ∀ a, fits a ↔ fits' a) :
    c.Lawful fits' where
  readsIf _ _ _ hwritten := (h.readsIf hwritten).congr (hfits _)
  prefixCode := h.prefixCode
  rewrites d := (h.rewrites d).imp fun a _ ⟨hle, ha⟩ => ⟨hle, (hfits a).1 ha⟩

theorem reads (h : c.Lawful fun _ => True) {a : α} {bytes : List UInt8} {d : Nat}
    (hwritten : c.encode a = .ofBytes bytes) : c.decode.Reads d bytes a :=
  (h.readsIf hwritten).reads trivial

theorem fitsOnly (h : c.Lawful fits) (d : Nat) :
    c.decode.Ensures d fun a k => (c.encode a).Fits k :=
  (h.rewrites d).imp fun _ _ hle => hle.1

theorem of_reads
    (hreads : ∀ ⦃a bytes d⦄, c.encode a = .ofBytes bytes → c.decode.Reads d bytes a)
    (hcode : c.decode.PrefixCode)
    (hrewrites : ∀ d, c.decode.Ensures d fun a k => (c.encode a).Fits k) :
    c.Lawful fun _ => True where
  readsIf _ _ _ hwritten := (hreads hwritten).readsIf trivial
  prefixCode := hcode
  rewrites d := (hrewrites d).imp fun _ _ hle => ⟨hle, trivial⟩

/-- Another form of the same values. -/
theorem iso {c' : Codec β} (h : c.Lawful fits) (f : β → α) (g : α → β)
    (hencode : ∀ b, c'.encode b = c.encode (f b)) (hdecode : c'.decode = g <$> c.decode)
    (hfg : ∀ a, f (g a) = a) (hgf : ∀ b, g (f b) = b) : c'.Lawful fun b => fits (f b) where
  readsIf b bytes d hwritten := by
    rw [hencode] at hwritten
    have := (h.readsIf hwritten (d := d)).map (g := g)
    rwa [hgf, ← hdecode] at this
  prefixCode := by
    rw [hdecode]
    exact h.prefixCode.map
  rewrites d := by
    rw [hdecode]
    refine (h.rewrites d).map fun a k hk => ?_
    rwa [hencode, hfg]

end Lawful

theorem lawful_ofWord [BEq α] {width : Nat} {toNat : α → Nat} {ofNat : Nat → α}
    (hlt : ∀ a, toNat a < 256 ^ width) (hofNat : ∀ a, ofNat (toNat a) = a) :
    (ofWord width toNat ofNat).Lawful fun _ => True := by
  refine .of_reads (fun a bytes d hwritten => ?_) Reader.prefixCode_word.map fun d => ?_
  · obtain rfl : LittleEndian.toBytes width (toNat a) = bytes := Encoding.ofBytes_inj.1 hwritten
    have := (Reader.reads_word width (d := d) (hlt a)).map (g := ofNat)
    rwa [hofNat] at this
  · exact Reader.ensures_word.map fun n k hk => hk.2 ▸ Encoding.fits_word

end Codec

end OpcWire
