import OpcWire.Proofs.Value.Reading

/-!
# The lengths that are written for a value

Writing has one limit: a length has to fit in a signed prefix of 32 bits. `Value.lengths` lists the
lengths that are written for a value, in the order of writing: the bytes of strings and byte
strings, the elements of arrays, and the bytes of the bodies of extension objects. What is not
written has no part in it: the type id of an object with a body, in whose place stands the
identifier of the body, and an absent reference, for which a zero value is written.

`e.IsLimitedBy lengths` says that the encoding fails exactly if one of the lengths is too large for
a prefix, and then because of the first of them. `Value.isLimitedBy` is this for all values.
-/

namespace OpcWire

/-! ### Encodings and lengths -/

namespace Encoding

variable {a b e : Encoding} {as bs lengths : List Nat} {n : Nat}

/-- The first length that is too large for a prefix. -/
def firstOverflow? (lengths : List Nat) : Option Nat := lengths.find? (maxLength < ·)

/-- Writing fails because of the first length that is too large, and only then. -/
def IsLimitedBy (e : Encoding) (lengths : List Nat) : Prop :=
  e.failure.map CodecError.rootCause = (firstOverflow? lengths).map CodecError.lengthOverflow

theorem firstOverflow?_append :
    firstOverflow? (as ++ bs) = (firstOverflow? as).or (firstOverflow? bs) :=
  List.find?_append

theorem firstOverflow?_singleton :
    firstOverflow? [n] = if maxLength < n then some n else none := by
  rw [firstOverflow?, List.find?_singleton]
  simp only [decide_eq_true_eq]

theorem isLimitedBy_ofBytes {bytes : List UInt8} : (ofBytes bytes).IsLimitedBy [] := rfl

theorem isLimitedBy_length : (length (some n)).IsLimitedBy [n] := by
  rw [IsLimitedBy, firstOverflow?_singleton, length]
  by_cases h : n ≤ maxLength
  · rw [if_pos h, if_neg (Nat.not_lt.2 h)]
    rfl
  · rw [if_neg h, if_pos (Nat.lt_of_not_le h)]
    rfl

theorem IsLimitedBy.of_le (h : e.IsLimitedBy []) (hn : n ≤ maxLength) : e.IsLimitedBy [n] := by
  rw [IsLimitedBy, firstOverflow?_singleton, if_neg (Nat.not_lt.2 hn)]
  exact h

/-- What is written later can fail only if nothing has failed before. -/
theorem IsLimitedBy.append (ha : a.IsLimitedBy as) (hb : b.IsLimitedBy bs) :
    (a ++ b).IsLimitedBy (as ++ bs) := by
  obtain ⟨written, failure⟩ := a
  rw [IsLimitedBy, firstOverflow?_append]
  cases failure with
  | none =>
    have hnone : firstOverflow? as = none := Option.map_eq_none_iff.1 ha.symm
    rw [hnone, Option.none_or]
    exact hb
  | some cause =>
    -- the failure stays, and so does the length that it is blamed on
    obtain ⟨n, hn, hcause⟩ := Option.map_eq_some_iff.1 ha.symm
    rw [hn, Option.some_or]
    exact congrArg some hcause.symm

/-- Bytes that are known beforehand have no part in it. -/
theorem IsLimitedBy.behind {bytes : List UInt8} (h : e.IsLimitedBy lengths) :
    (ofBytes bytes ++ e).IsLimitedBy lengths :=
  isLimitedBy_ofBytes.append h

theorem IsLimitedBy.inField {typeName field : String} (h : e.IsLimitedBy lengths) :
    (e.inField typeName field).IsLimitedBy lengths := by
  obtain ⟨written, failure⟩ := e
  cases failure <;> exact h

/-- The length of a delimited value counts when all of it has been written. -/
theorem IsLimitedBy.delimited (h : e.IsLimitedBy lengths) :
    (delimited e).IsLimitedBy (lengths ++ [e.bytes.length]) := by
  obtain ⟨written, failure⟩ := e
  cases failure with
  | none =>
    have hnone : firstOverflow? lengths = none := Option.map_eq_none_iff.1 h.symm
    have hprefixed : (length (some written.length) ++ ofBytes written).IsLimitedBy
        [written.length] := isLimitedBy_length.append isLimitedBy_ofBytes
    rw [IsLimitedBy, firstOverflow?_append, hnone, Option.none_or]
    exact hprefixed
  | some cause =>
    obtain ⟨n, hn, hcause⟩ := Option.map_eq_some_iff.1 h.symm
    rw [IsLimitedBy, firstOverflow?_append, hn, Option.some_or]
    exact congrArg some hcause.symm

/-- Writing fails exactly if one of the lengths does not fit. -/
theorem IsLimitedBy.exists_error_iff (h : e.IsLimitedBy lengths) :
    (∃ cause, e.toExcept = .error cause) ↔ ∃ n ∈ lengths, maxLength < n := by
  have hsome : (∃ n ∈ lengths, maxLength < n) ↔ (firstOverflow? lengths).isSome = true := by
    simp [firstOverflow?, List.find?_isSome]
  obtain ⟨written, failure⟩ := e
  rw [hsome, ← Option.isSome_map (f := CodecError.lengthOverflow), ← h]
  cases failure <;> simp [toExcept]

/-- The failure tells the first length that does not fit. -/
theorem IsLimitedBy.of_error (h : e.IsLimitedBy lengths) {cause : CodecError}
    (herror : e.toExcept = .error cause) :
    ∃ n, firstOverflow? lengths = some n ∧ cause.rootCause = .lengthOverflow n := by
  obtain ⟨written, failure⟩ := e
  cases failure with
  | none => cases herror
  | some cause' =>
    cases herror
    obtain ⟨n, hn, hcause⟩ := Option.map_eq_some_iff.1 h.symm
    exact ⟨n, hn, hcause.symm⟩

end Encoding

open Encoding (isLimitedBy_ofBytes isLimitedBy_length)

/-! ### Scalars -/

/-- The length of a byte string, unless it is null. -/
def ByteString.lengths (b : ByteString) : List Nat := (b.content.map List.length).toList

/-- The length of an identifier that is a string or a byte string. -/
def NodeId.lengths (n : NodeId) : List Nat :=
  match n.identifier with
  | .string id => [Utf8.byteCount id]
  | .byteString id => id.lengths
  | _ => []

/-- The lengths of the strings in diagnostics, the outermost level first. -/
def DiagnosticInfo.lengths : DiagnosticInfo → List Nat
  | plain d => (d.additionalInfo.map Utf8.byteCount).toList
  | around d inner => (d.additionalInfo.map Utf8.byteCount).toList ++ inner.lengths

/-- The lengths of the strings and byte strings in a scalar value. -/
def Scalar.lengths : (s : Scalar) → s.Carrier → List Nat
  | string, x => [Utf8.byteCount x]
  | byteString, x => x.lengths
  | xmlElement, x => [Utf8.byteCount x.text]
  | nodeId, x => x.lengths
  | expandedNodeId, x => x.nodeId.lengths ++ (x.namespaceUri.map Utf8.byteCount).toList
  | qualifiedName, x => [Utf8.byteCount x.name]
  | localizedText, x => [Utf8.byteCount x.locale, Utf8.byteCount x.text]
  | diagnosticInfo, x => x.lengths
  | _, _ => []

theorem Codec.isLimitedBy_string (s : String) :
    (string.encode s).IsLimitedBy [Utf8.byteCount s] := by
  have hencode : string.encode s = encodeString s := rfl
  rw [hencode, encodeString]
  by_cases h : s.isEmpty
  · rw [if_pos h]
    obtain rfl : s = "" := String.isEmpty_iff.1 h
    exact Encoding.IsLimitedBy.of_le isLimitedBy_ofBytes (Nat.zero_le _)
  · rw [if_neg h]
    exact isLimitedBy_length.append isLimitedBy_ofBytes

/-- The string does not have to be written if it is empty. -/
theorem Codec.isLimitedBy_ite (s : String) :
    (if s.isEmpty then .empty else string.encode s : Encoding).IsLimitedBy [Utf8.byteCount s] := by
  by_cases h : s.isEmpty
  · rw [if_pos h]
    obtain rfl : s = "" := String.isEmpty_iff.1 h
    exact Encoding.IsLimitedBy.of_le isLimitedBy_ofBytes (Nat.zero_le _)
  · rw [if_neg h]
    exact isLimitedBy_string s

theorem ByteString.isLimitedBy (b : ByteString) : (codec.encode b).IsLimitedBy b.lengths := by
  obtain ⟨content⟩ := b
  cases content with
  | none => exact isLimitedBy_ofBytes
  | some bytes => exact isLimitedBy_length.append isLimitedBy_ofBytes

theorem NodeId.isLimitedBy_body (n : NodeId) : n.encodeBody.IsLimitedBy n.lengths := by
  obtain ⟨namespaceIndex, identifier⟩ := n
  cases identifier with
  | numeric id =>
    simp only [encodeBody, lengths]
    split <;> exact isLimitedBy_ofBytes
  | string id => exact (Codec.isLimitedBy_string id).behind
  | guid id => exact isLimitedBy_ofBytes
  | byteString id => exact id.isLimitedBy.behind

theorem NodeId.isLimitedBy_flagged (n : NodeId) (flags : UInt8) :
    (n.encodeFlagged flags).IsLimitedBy n.lengths :=
  n.isLimitedBy_body.behind

theorem ExpandedNodeId.isLimitedBy (x : ExpandedNodeId) :
    (codec.encode x).IsLimitedBy (Scalar.expandedNodeId.lengths x) := by
  obtain ⟨nodeId, namespaceUri, serverIndex⟩ := x
  have hserver : (if serverIndex = 0 then .empty else Codec.uint32.encode serverIndex :
      Encoding).IsLimitedBy [] := by
    split <;> exact isLimitedBy_ofBytes
  rw [← List.append_nil (Scalar.lengths _ _)]
  refine Encoding.IsLimitedBy.append (Encoding.IsLimitedBy.append ?_ ?_) hserver
  · exact nodeId.isLimitedBy_flagged _
  · cases namespaceUri with
    | none => exact isLimitedBy_ofBytes
    | some uri => exact Codec.isLimitedBy_string uri

namespace DiagnosticInfo

theorem isLimitedBy_members (d : Details) :
    d.encode.IsLimitedBy (d.additionalInfo.map Utf8.byteCount).toList := by
  have hindex (member : Option Int32) : (encodeMember Codec.int32 member).IsLimitedBy [] := by
    cases member <;> exact isLimitedBy_ofBytes
  have hstatus : (encodeMember StatusCode.codec d.innerStatusCode).IsLimitedBy [] := by
    cases d.innerStatusCode <;> exact isLimitedBy_ofBytes
  have hinfo : (encodeMember Codec.string d.additionalInfo).IsLimitedBy
      (d.additionalInfo.map Utf8.byteCount).toList := by
    cases d.additionalInfo with
    | none => exact isLimitedBy_ofBytes
    | some text => exact Codec.isLimitedBy_string text
  have hindices := (((hindex d.symbolicId).append (hindex d.namespaceUri)).append
    (hindex d.locale)).append (hindex d.localizedText)
  have hall := (hindices.append hinfo).append hstatus
  rwa [List.append_nil] at hall

theorem isLimitedBy (x : DiagnosticInfo) : x.encode.IsLimitedBy x.lengths := by
  induction x with
  | plain d => exact (isLimitedBy_members d).behind
  | around d inner ih =>
    refine Encoding.IsLimitedBy.append ?_ ih
    exact (isLimitedBy_members d).behind

end DiagnosticInfo

/-- **Writing a scalar value** fails only because of its lengths. -/
theorem Scalar.isLimitedBy (s : Scalar) (v : s.Carrier) :
    (s.codec.encode v).IsLimitedBy (s.lengths v) := by
  cases s with
  | string => exact Codec.isLimitedBy_string v
  | byteString => exact ByteString.isLimitedBy v
  | xmlElement => exact Codec.isLimitedBy_string v.text
  | nodeId => exact NodeId.isLimitedBy_flagged v 0
  | expandedNodeId => exact ExpandedNodeId.isLimitedBy v
  | qualifiedName => exact (Codec.isLimitedBy_string v.name).behind
  | localizedText =>
    exact (Codec.isLimitedBy_ite v.locale).behind.append (Codec.isLimitedBy_ite v.text)
  | diagnosticInfo => exact DiagnosticInfo.isLimitedBy v
  | _ => exact isLimitedBy_ofBytes

/-! ### All values -/

mutual

/-- The lengths that are written for a value, in the order of writing. -/
def Value.lengths : {t : WireType} → Value t → List Nat
  | _, .scalar (s := s) v => s.lengths v
  | _, .bodiless typeId => typeId.lengths
  | _, .holding _ _ body => body.lengths ++ [body.encode.bytes.length]
  | _, .record fields => fields.lengths
  | _, .nullArray => []
  | _, .array items => items.toList.length :: items.lengths
  | _, .absent => []
  | _, .present v => v.lengths

/-- The lengths that are written for the fields of a structure. -/
def Fields.lengths : {l : Layout} → Fields l → List Nat
  | _, .nil => []
  | _, .cons v rest => v.lengths ++ rest.lengths

/-- The lengths that are written for the elements of an array, their number aside. -/
def Items.lengths : {t : WireType} → Items t → List Nat
  | _, .nil => []
  | _, .cons v rest => v.lengths ++ rest.lengths

end

mutual

/-- Zero values can always be written. -/
theorem WireType.isLimitedBy_zero : (t : WireType) → t.zeroEncoding.IsLimitedBy []
  | .scalar s => by cases s <;> rfl
  | .extensionObject => isLimitedBy_ofBytes
  | .record owner l => l.isLimitedBy_zero owner
  | .array _ => isLimitedBy_ofBytes
  | .nullable t => t.isLimitedBy_zero

theorem Layout.isLimitedBy_zero (owner : String) :
    (l : Layout) → (l.zeroEncoding owner).IsLimitedBy []
  | .nil => isLimitedBy_ofBytes
  | .cons _ t rest => t.isLimitedBy_zero.inField.append (rest.isLimitedBy_zero owner)

end

mutual

/-- **Writing a value** fails exactly if one of its lengths is too large, because of the first. -/
theorem Value.isLimitedBy : {t : WireType} → (v : Value t) → v.encode.IsLimitedBy v.lengths
  | _, .scalar (s := s) v => s.isLimitedBy v
  | _, .bodiless typeId => by
    have hmask : (Encoding.byte noBody).IsLimitedBy [] := isLimitedBy_ofBytes
    have hall := (typeId.isLimitedBy_flagged 0).append hmask
    rwa [List.append_nil] at hall
  | _, .holding _ s body => by
    have hheader : (NodeId.codec.encode (.numeric 0 s.encodingId) ++
        .byte binaryBody).IsLimitedBy [] :=
      (NodeId.isLimitedBy_flagged _ 0).append isLimitedBy_ofBytes
    exact hheader.append body.isLimitedBy.delimited
  | _, .record (n := n) fields => fields.isLimitedBy n
  | _, .nullArray => isLimitedBy_ofBytes
  | _, .array items => by
    have hcount : items.encodings.length = items.toList.length := items.length_encodings
    rw [Value.encode, Encoding.array, hcount]
    exact isLimitedBy_length.append items.isLimitedBy
  | _, .absent (t := t) => t.isLimitedBy_zero
  | _, .present v => v.isLimitedBy

theorem Fields.isLimitedBy (owner : String) : {l : Layout} → (fields : Fields l) →
    (fields.encode owner).IsLimitedBy fields.lengths
  | _, .nil => isLimitedBy_ofBytes
  | _, .cons v rest => v.isLimitedBy.inField.append (rest.isLimitedBy owner)

theorem Items.isLimitedBy : {t : WireType} → (items : Items t) →
    (Encoding.concat items.encodings).IsLimitedBy items.lengths
  | _, .nil => isLimitedBy_ofBytes
  | _, .cons v rest => v.isLimitedBy.append rest.isLimitedBy

end

end OpcWire
