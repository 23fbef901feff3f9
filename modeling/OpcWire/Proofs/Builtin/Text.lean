import OpcWire.Builtin.ByteString
import OpcWire.Builtin.Text
import OpcWire.Proofs.Builtin.Number
import OpcWire.Proofs.Text.Utf8

/-!
# Codecs of texts and byte strings

Strings, byte strings, XML fragments, qualified names and localized texts are read back as they
were written. The converse is looser: an empty string may be announced with length zero or by a
mask, and is written again in the shorter way.
-/

namespace OpcWire

namespace Codec

theorem reads_string {s : String} {bytes : List UInt8} {d : Nat}
    (h : string.encode s = .ofBytes bytes) : string.decode.Reads d bytes s := by
  change encodeString s = _ at h
  change decodeString.Reads d bytes s
  rw [encodeString] at h
  split at h
  · rename_i hempty
    obtain rfl : s = "" := String.isEmpty_iff.1 hempty
    obtain rfl := Encoding.ofBytes_inj.1 (Encoding.length_none.symm.trans h)
    exact Reader.reads_length_none.bind_nil Reader.reads_pure
  · obtain ⟨front, content, hfront, hcontent, rfl⟩ := Encoding.append_eq_ofBytes_iff.1 h
    obtain ⟨hle, rfl⟩ := Encoding.length_some_eq_ofBytes_iff.1 hfront
    obtain rfl := Encoding.ofBytes_inj.1 hcontent
    refine (Reader.reads_length_some hle).bind ((Reader.reads_take (Utf8.encode s)).bind_nil ?_)
    rw [Utf8.decode_encode]
    exact Reader.reads_pure

theorem prefixCode_string : string.decode.PrefixCode := by
  refine Reader.prefixCode_length.bind fun count => ?_
  cases count with
  | none => exact Reader.prefixCode_pure
  | some count =>
    refine Reader.prefixCode_take.bind fun span => ?_
    split
    · exact Reader.prefixCode_pure
    · exact Reader.prefixCode_fail

/-- A string that is read has the bytes it was read from, or none. -/
theorem ensures_string (d : Nat) :
    string.decode.Ensures d fun s k => (string.encode s).Fits k := by
  refine Reader.ensures_length.bind fun count j ⟨hlength, hj, hmax⟩ => ?_
  subst hj
  cases count with
  | none => exact Reader.ensures_pure Encoding.fits_length_none
  | some count =>
    refine Reader.ensures_take.bind fun span k ⟨hlen, hk⟩ => ?_
    split
    · rename_i s hdecode
      refine Reader.ensures_pure ?_
      change (encodeString s).Fits (4 + (k + 0))
      rw [encodeString]
      split
      · exact Encoding.fits_length_none.mono (by omega)
      · rw [Utf8.byteCount, Utf8.encode_of_decode hdecode]
        refine (Encoding.fits_length_some ?_).append (Encoding.fits_ofBytes.mono (by omega))
        rw [hlen]
        exact hmax count rfl
    · exact Reader.ensures_fail

theorem lawful_string : string.Lawful fun _ => True :=
  .of_reads (fun _ _ _ h => reads_string h) prefixCode_string ensures_string

end Codec

theorem XmlElement.lawful_codec : XmlElement.codec.Lawful fun _ => True :=
  Codec.lawful_string.iso XmlElement.text XmlElement.mk (fun _ => rfl) rfl (fun _ => rfl)
    fun _ => rfl

namespace ByteString

theorem reads_codec {s : ByteString} {bytes : List UInt8} {d : Nat}
    (h : codec.encode s = .ofBytes bytes) : codec.decode.Reads d bytes s := by
  change s.encode = _ at h
  obtain ⟨content⟩ := s
  cases content with
  | none =>
    obtain rfl := Encoding.ofBytes_inj.1 (Encoding.length_none.symm.trans h)
    exact Reader.reads_length_none.bind_nil Reader.reads_pure
  | some content =>
    obtain ⟨front, written, hfront, hwritten, rfl⟩ := Encoding.append_eq_ofBytes_iff.1 h
    obtain ⟨hle, rfl⟩ := Encoding.length_some_eq_ofBytes_iff.1 hfront
    obtain rfl := Encoding.ofBytes_inj.1 hwritten
    exact (Reader.reads_length_some hle).bind (Reader.reads_take content).map

theorem prefixCode_codec : codec.decode.PrefixCode := by
  refine Reader.prefixCode_length.bind fun count => ?_
  cases count with
  | none => exact Reader.prefixCode_pure
  | some count => exact Reader.prefixCode_take.bind fun _ => Reader.prefixCode_pure

theorem ensures_codec (d : Nat) :
    codec.decode.Ensures d fun s k => (codec.encode s).Fits k := by
  refine Reader.ensures_length.bind fun count j ⟨hlength, hj, hmax⟩ => ?_
  subst hj
  cases count with
  | none => exact Reader.ensures_pure Encoding.fits_length_none
  | some count =>
    refine Reader.ensures_take.bind fun span k ⟨hlen, hk⟩ => Reader.ensures_pure ?_
    refine (Encoding.fits_length_some ?_).append (Encoding.fits_ofBytes.mono (by omega))
    rw [hlen]
    exact hmax count rfl

theorem lawful_codec : codec.Lawful fun _ => True :=
  .of_reads (fun _ _ _ h => reads_codec h) prefixCode_codec ensures_codec

end ByteString

theorem QualifiedName.lawful_codec : QualifiedName.codec.Lawful fun _ => True := by
  refine .of_reads (fun q bytes d h => ?_) ?_ fun d => ?_
  · obtain ⟨front, name, hfront, hname, rfl⟩ := Encoding.append_eq_ofBytes_iff.1 h
    refine (Codec.lawful_uint16.reads hfront).bind ?_
    exact (Codec.lawful_string.reads hname).map
  · exact Codec.lawful_uint16.prefixCode.bind fun _ =>
      Codec.lawful_string.prefixCode.bind fun _ => Reader.prefixCode_pure
  · refine (Codec.lawful_uint16.fitsOnly d).bind fun index j hindex => ?_
    exact (Codec.lawful_string.fitsOnly d).bind fun name k hname =>
      Reader.ensures_pure (hindex.append hname)

/-! ### Localized texts -/

namespace LocalizedText

/-- What is written for a member: nothing if it is empty. -/
def encodeMember (s : String) : Encoding := if s.isEmpty then .empty else Codec.string.encode s

theorem mask_and_localeBit {t : LocalizedText} :
    t.mask &&& localeBit = 0 ↔ t.locale.isEmpty = true := by
  rw [mask]
  cases t.locale.isEmpty <;> cases t.text.isEmpty <;> decide

theorem mask_and_textBit {t : LocalizedText} :
    t.mask &&& textBit = 0 ↔ t.text.isEmpty = true := by
  rw [mask]
  cases t.locale.isEmpty <;> cases t.text.isEmpty <;> decide

/-- A member is read back if the mask announces it exactly when it is not empty. -/
theorem reads_member {mask bit : UInt8} {s : String} {bytes : List UInt8} {d : Nat}
    (hmask : mask &&& bit = 0 ↔ s.isEmpty = true) (h : encodeMember s = .ofBytes bytes) :
    (decodeMember mask bit).Reads d bytes s := by
  rw [encodeMember] at h
  rw [decodeMember]
  split at h
  · rename_i hempty
    obtain rfl : [] = bytes := Encoding.ofBytes_inj.1 h
    rw [if_pos (hmask.2 hempty), String.isEmpty_iff.1 hempty]
    exact Reader.reads_pure
  · rename_i hempty
    rw [if_neg (mt hmask.1 hempty)]
    exact Codec.reads_string h

theorem prefixCode_member {mask bit : UInt8} : (decodeMember mask bit).PrefixCode :=
  Reader.prefixCode_pure.ite Codec.prefixCode_string

/-- A member that is announced but empty is left out when it is written again. -/
theorem ensures_member {mask bit : UInt8} (d : Nat) :
    (decodeMember mask bit).Ensures d fun s k => (encodeMember s).Fits k := by
  refine Reader.Ensures.ite (fun _ => Reader.ensures_pure Encoding.fits_empty) fun _ => ?_
  refine (Codec.ensures_string d).imp fun s k hs => ?_
  rw [encodeMember]
  split
  · exact Encoding.fits_empty.mono (Nat.zero_le k)
  · exact hs

theorem lawful_codec : codec.Lawful fun _ => True := by
  refine .of_reads (fun t bytes d h => ?_) ?_ fun d => ?_
  · obtain ⟨front, text, hfront, htext, rfl⟩ := Encoding.append_eq_ofBytes_iff.1 h
    obtain ⟨leading, locale, hleading, hlocale, rfl⟩ := Encoding.append_eq_ofBytes_iff.1 hfront
    obtain rfl := Encoding.ofBytes_inj.1 hleading
    rw [List.append_assoc]
    refine Reader.reads_byte.bind ((reads_member mask_and_localeBit hlocale).bind ?_)
    exact (reads_member mask_and_textBit htext).map
  · exact Reader.prefixCode_byte.bind fun _ => prefixCode_member.bind fun _ =>
      prefixCode_member.bind fun _ => Reader.prefixCode_pure
  · refine Reader.ensures_byte.bind fun mask i hi => ?_
    refine (ensures_member d).bind fun locale j hlocale => ?_
    refine (ensures_member d).bind fun text k htext => Reader.ensures_pure ?_
    subst hi
    exact ((Encoding.fits_byte.append hlocale).append htext).mono (by omega)

end LocalizedText

end OpcWire
