import OpcWire.Proofs.Builtin.DiagnosticInfo
import OpcWire.Proofs.Builtin.NodeId
import OpcWire.Proofs.Wire.Failing
import OpcWire.Scalar

/-!
# What goes wrong in scalar values

`s.IsFault e` says that the error `e` is one that a value of the scalar type `s` may have, and that
what it tells is true: a form of identifiers that is not known is beyond the known ones, a flag is
refused only where no flag may be, and so on. The readers of scalars raise no other errors
(`Scalar.raises_decode`).
-/

namespace OpcWire

open Reader (raises_pure raises_fail)

/-- What may be wrong with a value of a scalar type. -/
inductive Scalar.IsFault (s : Scalar) : CodecError → Prop
  /-- It needs more bytes than are left. -/
  | unexpectedEnd {needed remaining : Nat} (h : remaining < needed) :
      s.IsFault (.unexpectedEnd needed remaining)
  /-- A length in it is below the null marker. -/
  | invalidLength {length : Int} (h : length < nullLength) : s.IsFault (.invalidLength length)
  /-- A string in it is not UTF-8. -/
  | invalidUtf8 {bytes : List UInt8} {fault : Utf8.Fault} (h : Utf8.decode bytes = .error fault) :
      s.IsFault (.invalidUtf8 bytes fault)
  /-- It is an identifier of no known form. -/
  | unknownForm {leading : UInt8} (hs : s = .nodeId ∨ s = .expandedNodeId)
      (h : 5 < leading &&& NodeId.formMask) : s.IsFault (.unsupportedNodeIdForm leading)
  /-- It is a plain identifier with a flag. -/
  | flag {leading : UInt8} (hs : s = .nodeId) (h : leading &&& ~~~NodeId.formMask ≠ 0) :
      s.IsFault (.unsupportedNodeIdForm leading)
  /-- It is diagnostics with too many levels. -/
  | nesting (hs : s = .diagnosticInfo) : s.IsFault (.nestingTooDeep DiagnosticInfo.maxDepth)

section

variable {s : Scalar}

theorem Reader.IsShort.isFault {e : CodecError} (h : IsShort e) : s.IsFault e := by
  cases h with
  | mk h => exact .unexpectedEnd h

theorem Reader.raises_take_fault {count : Nat} : (take count).Raises s.IsFault :=
  raises_take.imp fun _ => IsShort.isFault

theorem Reader.raises_word_fault {width : Nat} : (word width).Raises s.IsFault :=
  raises_word.imp fun _ => IsShort.isFault

theorem Reader.raises_byte_fault : byte.Raises s.IsFault := raises_byte.imp fun _ => IsShort.isFault

theorem Reader.raises_length_fault : length.Raises s.IsFault := by
  refine raises_length.imp ?_
  rintro e (h | ⟨prefixed, h, rfl⟩)
  · exact h.isFault
  · exact .invalidLength h

/-! ### Texts and byte strings -/

theorem Codec.raises_string : string.decode.Raises s.IsFault := by
  refine Reader.raises_length_fault.bind fun count => ?_
  cases count with
  | none => exact raises_pure
  | some count =>
    refine Reader.raises_take_fault.bind fun span => ?_
    cases h : Utf8.decode span with
    | ok text => exact raises_pure
    | error fault => exact raises_fail (.invalidUtf8 h)

theorem ByteString.raises_decode : codec.decode.Raises s.IsFault := by
  refine Reader.raises_length_fault.bind fun count => ?_
  cases count with
  | none => exact raises_pure
  | some count => exact Reader.raises_take_fault.bind fun _ => raises_pure

theorem QualifiedName.raises_decode : codec.decode.Raises s.IsFault := by
  refine Reader.raises_word_fault.map.bind fun index => ?_
  exact Codec.raises_string.bind fun name => raises_pure

theorem LocalizedText.raises_decode : codec.decode.Raises s.IsFault := by
  refine Reader.raises_byte_fault.bind fun mask => ?_
  have hmember (bit : UInt8) : (decodeMember mask bit).Raises s.IsFault :=
    Reader.Raises.ite (fun _ => raises_pure) fun _ => Codec.raises_string
  exact (hmember localeBit).bind fun locale => (hmember textBit).bind fun text => raises_pure

/-! ### Node identifiers -/

namespace NodeId

theorem raises_indexed {α : Type} {c : Codec α} (hc : c.decode.Raises s.IsFault)
    (f : α → Identifier) : (decodeIndexed c f).Raises s.IsFault :=
  Reader.raises_word_fault.map.bind fun _ => hc.bind fun _ => raises_pure

theorem raises_body (form : Form) : (decodeBody form).Raises s.IsFault := by
  cases form with
  | twoByte => exact Reader.raises_byte_fault.bind fun _ => raises_pure
  | fourByte =>
    refine Reader.raises_byte_fault.bind fun index => ?_
    exact Reader.raises_word_fault.map.bind fun id => raises_pure
  | numeric =>
    exact raises_indexed (c := Codec.uint32) Reader.raises_word_fault.map Identifier.numeric
  | string => exact raises_indexed Codec.raises_string Identifier.string
  | guid => exact raises_indexed (c := Guid.codec) Reader.raises_take_fault.map Identifier.guid
  | byteString => exact raises_indexed ByteString.raises_decode Identifier.byteString

theorem Form.five_lt_of_ofByte?_eq_none {bits : UInt8} (h : ofByte? bits = none) : 5 < bits := by
  have hnone := List.find?_eq_none.1 h
  refine Nat.lt_of_not_le fun hle => ?_
  have hbits : bits = 0 ∨ bits = 1 ∨ bits = 2 ∨ bits = 3 ∨ bits = 4 ∨ bits = 5 := by
    simp only [← UInt8.toNat_inj]
    have hle' : bits.toNat ≤ 5 := hle
    simp only [UInt8.reduceToNat]
    omega
  rcases hbits with rfl | rfl | rfl | rfl | rfl | rfl <;> simp [toByte] at hnone

theorem raises_flagged (hs : s = .nodeId ∨ s = .expandedNodeId) :
    decodeFlagged.Raises s.IsFault := by
  refine Reader.raises_byte_fault.bind fun leading => ?_
  cases h : Form.ofByte? (leading &&& formMask) with
  | none => exact raises_fail (.unknownForm hs (Form.five_lt_of_ofByte?_eq_none h))
  | some form => exact (raises_body form).bind fun id => raises_pure

theorem raises_decode : codec.decode.Raises Scalar.nodeId.IsFault :=
  (raises_flagged (.inl rfl)).bind fun _ =>
    Reader.Raises.ite (fun _ => raises_pure) fun hflag => raises_fail (.flag rfl hflag)

end NodeId

theorem ExpandedNodeId.raises_decode : codec.decode.Raises Scalar.expandedNodeId.IsFault := by
  have hdecode : codec.decode = _ := decode_eq
  rw [hdecode]
  refine (NodeId.raises_flagged (.inr rfl)).bind fun ⟨id, leading⟩ => ?_
  have huri : (decodeUri leading).Raises Scalar.expandedNodeId.IsFault :=
    Reader.Raises.ite (fun _ => raises_pure) fun _ => Codec.raises_string.map
  have hserver : (decodeServer leading).Raises Scalar.expandedNodeId.IsFault :=
    Reader.Raises.ite (fun _ => raises_pure) fun _ => Reader.raises_word_fault.map
  exact huri.bind fun uri => hserver.bind fun server => raises_pure

/-! ### Diagnostics -/

theorem DiagnosticInfo.Details.raises_decode (mask : UInt8) :
    (Details.decode mask).Raises s.IsFault := by
  have hmember {α : Type} {c : Codec α} (hc : c.decode.Raises s.IsFault) (bit : UInt8) :
      (decodeMember c mask bit).Raises s.IsFault :=
    Reader.Raises.ite (fun _ => raises_pure) fun _ => hc.map
  have hindex (bit : UInt8) : (decodeMember Codec.int32 mask bit).Raises s.IsFault :=
    hmember Reader.raises_word_fault.map bit
  refine (hindex symbolicIdBit).bind fun symbolicId => ?_
  refine (hindex namespaceUriBit).bind fun namespaceUri => ?_
  refine (hindex localeBit).bind fun locale => ?_
  refine (hindex localizedTextBit).bind fun localizedText => ?_
  refine (hmember Codec.raises_string additionalInfoBit).bind fun additionalInfo => ?_
  refine Reader.Raises.bind ?_ fun innerStatusCode => raises_pure
  exact hmember (c := StatusCode.codec) Reader.raises_word_fault.map innerStatusCodeBit

theorem DiagnosticInfo.raises_within (allowed : Nat) :
    (decodeWithin allowed).Raises Scalar.diagnosticInfo.IsFault := by
  induction allowed with
  | zero =>
    rw [decodeWithin_eq]
    refine Reader.raises_byte_fault.bind fun mask => (Details.raises_decode mask).bind fun x => ?_
    exact Reader.Raises.ite (fun _ => raises_fail (.nesting rfl)) fun _ => raises_pure
  | succ allowed ih =>
    rw [decodeWithin_eq]
    refine Reader.raises_byte_fault.bind fun mask => (Details.raises_decode mask).bind fun x => ?_
    exact Reader.Raises.ite (fun _ => ih.map) fun _ => raises_pure

end

/-! ### All scalars -/

/-- **Readers of scalars tell the truth** about what is wrong. -/
theorem Scalar.raises_decode (s : Scalar) : s.codec.decode.Raises s.IsFault := by
  cases s with
  | string => exact Codec.raises_string
  | dateTime => exact Reader.raises_word_fault.map.map
  | guid => exact Reader.raises_take_fault.map
  | byteString => exact ByteString.raises_decode
  | xmlElement => exact Codec.raises_string.map
  | nodeId => exact NodeId.raises_decode
  | expandedNodeId => exact ExpandedNodeId.raises_decode
  | qualifiedName => exact QualifiedName.raises_decode
  | localizedText => exact LocalizedText.raises_decode
  | diagnosticInfo => exact DiagnosticInfo.raises_within DiagnosticInfo.maxDepth
  -- all others are held as one word
  | _ => exact Reader.raises_word_fault.map

end OpcWire
