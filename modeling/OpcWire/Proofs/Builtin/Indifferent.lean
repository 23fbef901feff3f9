import OpcWire.Proofs.Builtin.DiagnosticInfo
import OpcWire.Proofs.Builtin.NodeId
import OpcWire.Proofs.Wire.Balanced
import OpcWire.Scalar

/-!
# Scalar readers do not look at open bodies

No scalar has a body in it, and the readers of scalars do the same whatever number of bodies is open
around them (`Scalar.indifferent_decode`). This adds to what prefix codes say of reads that succeed.
-/

namespace OpcWire

open Reader (indifferent_pure indifferent_fail)

/-! ### Texts and byte strings -/

theorem Codec.indifferent_string : string.decode.Indifferent := by
  refine Reader.indifferent_length.bind fun count => ?_
  cases count with
  | none => exact indifferent_pure
  | some count =>
    refine Reader.indifferent_take.bind fun span => ?_
    split
    · exact indifferent_pure
    · exact indifferent_fail

theorem ByteString.indifferent_decode : codec.decode.Indifferent := by
  refine Reader.indifferent_length.bind fun count => ?_
  cases count with
  | none => exact indifferent_pure
  | some count => exact Reader.indifferent_take.bind fun _ => indifferent_pure

theorem QualifiedName.indifferent_decode : codec.decode.Indifferent := by
  refine Reader.indifferent_word.map.bind fun index => ?_
  exact Codec.indifferent_string.bind fun name => indifferent_pure

theorem LocalizedText.indifferent_decode : codec.decode.Indifferent := by
  refine Reader.indifferent_byte.bind fun mask => ?_
  have hmember (bit : UInt8) : (decodeMember mask bit).Indifferent :=
    indifferent_pure.ite Codec.indifferent_string
  exact (hmember localeBit).bind fun locale => (hmember textBit).bind fun text => indifferent_pure

/-! ### Node identifiers -/

theorem NodeId.indifferent_indexed {α : Type} {c : Codec α} (hc : c.decode.Indifferent)
    (f : α → Identifier) : (decodeIndexed c f).Indifferent :=
  Reader.indifferent_uint16.bind fun _ => hc.bind fun _ => indifferent_pure

theorem NodeId.indifferent_body (form : Form) : (decodeBody form).Indifferent := by
  cases form with
  | twoByte => exact Reader.indifferent_byte.bind fun _ => indifferent_pure
  | fourByte =>
    refine Reader.indifferent_byte.bind fun index => ?_
    exact Reader.indifferent_uint16.bind fun id => indifferent_pure
  | numeric =>
    exact indifferent_indexed (c := Codec.uint32) Reader.indifferent_word.map Identifier.numeric
  | string => exact indifferent_indexed Codec.indifferent_string Identifier.string
  | guid => exact indifferent_indexed (c := Guid.codec) Reader.indifferent_take.map Identifier.guid
  | byteString => exact indifferent_indexed ByteString.indifferent_decode Identifier.byteString

theorem NodeId.indifferent_flagged : decodeFlagged.Indifferent := by
  refine Reader.indifferent_byte.bind fun leading => ?_
  split
  · exact indifferent_fail
  · exact (indifferent_body _).bind fun id => indifferent_pure

theorem NodeId.indifferent_decode : codec.decode.Indifferent :=
  indifferent_flagged.bind fun _ => indifferent_pure.ite indifferent_fail

theorem ExpandedNodeId.indifferent_decode : codec.decode.Indifferent := by
  have hdecode : codec.decode = _ := decode_eq
  rw [hdecode]
  refine NodeId.indifferent_flagged.bind fun ⟨id, leading⟩ => ?_
  have huri : (decodeUri leading).Indifferent := indifferent_pure.ite Codec.indifferent_string.map
  have hserver : (decodeServer leading).Indifferent :=
    indifferent_pure.ite Reader.indifferent_word.map
  exact huri.bind fun uri => hserver.bind fun server => indifferent_pure

/-! ### Diagnostics -/

theorem DiagnosticInfo.Details.indifferent_decode (mask : UInt8) :
    (Details.decode mask).Indifferent := by
  have hmember {α : Type} {c : Codec α} (hc : c.decode.Indifferent) (bit : UInt8) :
      (decodeMember c mask bit).Indifferent := indifferent_pure.ite hc.map
  have hindex (bit : UInt8) : (decodeMember Codec.int32 mask bit).Indifferent :=
    hmember Reader.indifferent_word.map bit
  refine (hindex symbolicIdBit).bind fun symbolicId => ?_
  refine (hindex namespaceUriBit).bind fun namespaceUri => ?_
  refine (hindex localeBit).bind fun locale => ?_
  refine (hindex localizedTextBit).bind fun localizedText => ?_
  refine (hmember Codec.indifferent_string additionalInfoBit).bind fun additionalInfo => ?_
  refine Reader.Indifferent.bind ?_ fun innerStatusCode => indifferent_pure
  exact hmember (c := StatusCode.codec) Reader.indifferent_word.map innerStatusCodeBit

/-- However many levels may still be followed, none of them is a body. -/
theorem DiagnosticInfo.indifferent_within (allowed : Nat) : (decodeWithin allowed).Indifferent := by
  induction allowed with
  | zero =>
    rw [decodeWithin_eq]
    refine Reader.indifferent_byte.bind fun mask => ?_
    refine (Details.indifferent_decode mask).bind fun x => ?_
    exact indifferent_fail.ite indifferent_pure
  | succ allowed ih =>
    rw [decodeWithin_eq]
    refine Reader.indifferent_byte.bind fun mask => ?_
    refine (Details.indifferent_decode mask).bind fun x => ?_
    exact ih.map.ite indifferent_pure

/-! ### All scalars -/

/-- **Readers of scalars do not look at the number of open bodies.** -/
theorem Scalar.indifferent_decode (s : Scalar) : s.codec.decode.Indifferent := by
  cases s with
  | string => exact Codec.indifferent_string
  | dateTime => exact Reader.indifferent_word.map.map
  | guid => exact Reader.indifferent_take.map
  | byteString => exact ByteString.indifferent_decode
  | xmlElement => exact Codec.indifferent_string.map
  | nodeId => exact NodeId.indifferent_decode
  | expandedNodeId => exact ExpandedNodeId.indifferent_decode
  | qualifiedName => exact QualifiedName.indifferent_decode
  | localizedText => exact LocalizedText.indifferent_decode
  | diagnosticInfo => exact DiagnosticInfo.indifferent_within DiagnosticInfo.maxDepth
  -- all others are held as one word
  | _ => exact Reader.indifferent_word.map

end OpcWire
