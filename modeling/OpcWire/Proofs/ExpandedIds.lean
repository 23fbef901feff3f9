import OpcWire.Proofs.Builtin.Failing
import OpcWire.Proofs.Dispatch

/-!
# Plain and expanded node identifiers

Both kinds of identifiers are read alike up to the end of the identifier. Behind it the leading byte
is looked at again: in a plain identifier it must not carry a flag, in an expanded one the flags say
what follows. So the two readers can differ only on bytes that start with a flag
(`ExpandedNodeId.decode_of_no_flag`), and there the plain one fails, be it for the flag or before it
comes to look at it (`NodeId.exists_error_of_flag`).
-/

namespace OpcWire

namespace NodeId

variable {c next : Cursor} {n : NodeId} {leading : UInt8}

/-- The bits of the leading byte that announce members of an expanded identifier. -/
def flagMask : UInt8 := 0xC0

theorem and_flagMask_eq_zero_iff : leading &&& flagMask = 0 ↔
    leading &&& namespaceUriFlag = 0 ∧ leading &&& serverIndexFlag = 0 := by
  have hmask : flagMask = namespaceUriFlag ||| serverIndexFlag := rfl
  rw [hmask, UInt8.and_comm, or_and, UInt8.or_eq_zero_iff, UInt8.and_comm leading,
    UInt8.and_comm leading]

theorem head?_of_decodeFlagged (h : decodeFlagged c = .ok (n, leading) next) :
    c.rest.head? = some leading := by
  obtain ⟨first, mid, hfirst, hrest⟩ := Reader.bind_eq_ok_iff.1 h
  obtain rfl := Reader.byte_eq_ok hfirst
  cases hform : Form.ofByte? (first &&& formMask) with
  | none =>
    rw [hform] at hrest
    cases hrest
  | some form =>
    rw [hform] at hrest
    obtain ⟨id, last, -, hpure⟩ := Reader.bind_eq_ok_iff.1 hrest
    cases hpure
    rfl

theorem decode_of_decodeFlagged (h : decodeFlagged c = .ok (n, leading) next) :
    decode c = if leading &&& flagMask = 0 then .ok n next
      else .error (.unsupportedNodeIdForm leading) next.openBodies := by
  have hmask : ~~~formMask = flagMask := rfl
  rw [decode, Reader.bind_apply, h, hmask]
  by_cases hflag : leading &&& flagMask = 0
  · simp only [if_pos hflag]
    rfl
  · simp only [if_neg hflag]
    rfl

/-- No plain identifier starts with a flag. -/
theorem exists_error_of_flag (hhead : c.rest.head? = some leading)
    (hflag : leading &&& flagMask ≠ 0) :
    ∃ cause openBodies, decode c = .error cause openBodies := by
  cases h : decodeFlagged c with
  | error cause openBodies => exact ⟨cause, openBodies, Reader.bind_eq_error_iff.2 (.inl h)⟩
  | ok x next =>
    obtain ⟨n, first⟩ := x
    obtain rfl : first = leading := Option.some.inj ((head?_of_decodeFlagged h).symm.trans hhead)
    exact ⟨_, _, (decode_of_decodeFlagged h).trans (if_neg hflag)⟩

theorem run_of_flag {bytes : List UInt8} (hhead : bytes.head? = some leading)
    (hflag : leading &&& flagMask ≠ 0) : ∃ cause, codec.decode.run bytes = .error cause := by
  obtain ⟨cause, openBodies, hread⟩ := exists_error_of_flag (c := .start bytes) hhead hflag
  exact ⟨cause, Reader.run_eq_error_iff.2 ⟨openBodies, hread⟩⟩

theorem and_flagMask_of_run {bytes : List UInt8} {x : NodeId × List UInt8}
    (h : codec.decode.run bytes = .ok x) (hhead : bytes.head? = some leading) :
    leading &&& flagMask = 0 := by
  refine Decidable.byContradiction fun hflag => ?_
  obtain ⟨cause, hcause⟩ := run_of_flag hhead hflag
  rw [h] at hcause
  cases hcause

end NodeId

namespace ExpandedNodeId

open NodeId (decodeFlagged flagMask)

variable {c next : Cursor} {n : NodeId} {leading : UInt8}

theorem encode_ofNodeId (n : NodeId) : (ofNodeId n).encode = n.encodeFlagged 0 := by
  have hflags : (ofNodeId n).flags = 0 := by simp [flags, ofNodeId]
  rw [encode_eq, hflags]
  exact (Encoding.append_empty _).trans (Encoding.append_empty _)

/-- Behind a leading byte without flags, an expanded identifier is at its end. -/
theorem decode_of_decodeFlagged (h : decodeFlagged c = .ok (n, leading) next)
    (hflag : leading &&& flagMask = 0) : decode c = .ok (ofNodeId n) next := by
  obtain ⟨huri, hserver⟩ := NodeId.and_flagMask_eq_zero_iff.1 hflag
  rw [decode_eq, Reader.bind_apply, h]
  simp only [decodeUri, decodeServer, if_pos huri, if_pos hserver]
  rfl

/-- **Without a flag** at the start, both readers go the same way. -/
theorem decode_of_no_flag (hflag : ∀ leading, c.rest.head? = some leading →
    leading &&& flagMask = 0) : decode c = (ofNodeId <$> NodeId.decode) c := by
  rw [Reader.map_apply]
  cases h : decodeFlagged c with
  | error cause openBodies =>
    -- neither comes to look at the flags
    have hplain : NodeId.decode c = .error cause openBodies := Reader.bind_eq_error_iff.2 (.inl h)
    have hexpanded : decode c = .error cause openBodies := Reader.bind_eq_error_iff.2 (.inl h)
    rw [hplain, hexpanded]
  | ok x next =>
    obtain ⟨n, leading⟩ := x
    have hnone := hflag leading (NodeId.head?_of_decodeFlagged h)
    rw [decode_of_decodeFlagged h hnone, NodeId.decode_of_decodeFlagged h, if_pos hnone]

theorem run_of_no_flag {bytes : List UInt8}
    (hflag : ∀ leading, bytes.head? = some leading → leading &&& flagMask = 0) :
    codec.decode.run bytes =
      (NodeId.codec.decode.run bytes).map fun (n, rest) => (ofNodeId n, rest) := by
  refine Eq.trans ?_ (Reader.run_map ofNodeId NodeId.codec.decode bytes)
  exact congrArg ReadResult.toExcept (decode_of_no_flag (c := .start bytes) hflag)

theorem flags_ne_zero {x : ExpandedNodeId} (form : NodeId.Form)
    (h : x.namespaceUri.isSome ∨ x.serverIndex ≠ 0) :
    (form.toByte ||| x.flags) &&& flagMask ≠ 0 := by
  rw [ne_eq, NodeId.and_flagMask_eq_zero_iff, leading_and_namespaceUriFlag,
    leading_and_serverIndexFlag]
  rintro ⟨huri, hserver⟩
  rcases h with h | h
  · exact absurd huri (by rw [h]; decide)
  · exact h hserver

/-- A plain identifier is read from the bytes of an expanded one, and then refused. -/
theorem plain_of_encode {x : ExpandedNodeId} {bytes : List UInt8}
    (hmembers : x.namespaceUri.isSome ∨ x.serverIndex ≠ 0) (h : x.encode = .ofBytes bytes)
    (rest : List UInt8) (d : Nat) :
    ∃ leading, bytes.head? = some leading ∧ leading &&& flagMask ≠ 0 ∧
      NodeId.decode ⟨bytes ++ rest, d⟩ = .error (.unsupportedNodeIdForm leading) d := by
  rw [encode_eq] at h
  obtain ⟨front, server, hfront, -, rfl⟩ := Encoding.append_eq_ofBytes_iff.1 h
  obtain ⟨id, uri, hid, -, rfl⟩ := Encoding.append_eq_ofBytes_iff.1 hfront
  have hflag := flags_ne_zero x.nodeId.form hmembers
  have hread := NodeId.reads_flagged (d := d) flags_and_formMask hid
  rw [List.append_assoc]
  refine ⟨x.nodeId.form.toByte ||| x.flags, ?_, hflag, ?_⟩
  · exact NodeId.head?_of_decodeFlagged (hread _)
  · rw [List.append_assoc, NodeId.decode_of_decodeFlagged (hread _), if_neg hflag]

end ExpandedNodeId

open NodeId (flagMask)

/-- **Plain and expanded identifiers agree as far as both apply.** A plain identifier is written
like the expanded one without a URI on the local server. What a plain reader accepts, the expanded
reader takes for just that. On bytes that do not start with a flag both give the same, errors
included. On bytes that do, the plain reader fails; if they start with an expanded identifier that
is not plain, it fails for the leading byte. -/
theorem plain_and_expanded_agree :
    (∀ n : NodeId, ExpandedNodeId.codec.encode (.ofNodeId n) = NodeId.codec.encode n) ∧
    (∀ (bytes rest : List UInt8) (n : NodeId), NodeId.codec.decode.run bytes = .ok (n, rest) →
      ExpandedNodeId.codec.decode.run bytes = .ok (⟨n, none, 0⟩, rest)) ∧
    (∀ bytes : List UInt8, (∀ first, bytes.head? = some first → first &&& 0xC0 = 0) →
      ExpandedNodeId.codec.decode.run bytes =
        (NodeId.codec.decode.run bytes).map fun (n, rest) => (⟨n, none, 0⟩, rest)) ∧
    (∀ (first : UInt8) (bytes : List UInt8), first &&& 0xC0 ≠ 0 →
      ∃ cause, NodeId.codec.decode.run (first :: bytes) = .error cause) ∧
    ∀ (x : ExpandedNodeId) (bytes rest : List UInt8),
      x.namespaceUri.isSome ∨ x.serverIndex ≠ 0 →
        ExpandedNodeId.codec.encodeToBytes x = .ok bytes →
          ∃ leading, bytes.head? = some leading ∧ leading &&& 0xC0 ≠ 0 ∧
            NodeId.codec.decode.run (bytes ++ rest) = .error (.unsupportedNodeIdForm leading) := by
  refine ⟨ExpandedNodeId.encode_ofNodeId, ?_, ?_, ?_, ?_⟩
  · intro bytes rest n hn
    refine (ExpandedNodeId.run_of_no_flag fun first => NodeId.and_flagMask_of_run hn).trans ?_
    rw [hn]
    rfl
  · intro bytes hnone
    exact ExpandedNodeId.run_of_no_flag hnone
  · intro first bytes hflag
    exact NodeId.run_of_flag rfl hflag
  · intro x bytes rest hmembers hwritten
    have hencode : x.encode = .ofBytes bytes := Encoding.toExcept_eq_ok_iff.1 hwritten
    obtain ⟨leading, hhead, hflag, hread⟩ :=
      ExpandedNodeId.plain_of_encode hmembers hencode rest 0
    exact ⟨leading, hhead, hflag, Reader.run_eq_error_iff.2 ⟨0, hread⟩⟩

/-- The number 5 in a namespace that is also given by its URI, on server 7. -/
def remoteId : ExpandedNodeId := ⟨.numeric 2 5, some "u", 7⟩

/-- Bytes of this identifier: both flags are set, and the URI and the server follow. -/
def remoteIdBytes : List UInt8 := [0xC1, 2, 5, 0, 1, 0, 0, 0, 117, 7, 0, 0, 0]

/-- The number alone is read alike by both readers, and so is an unknown form refused. A plain
reader refuses the identifier above for its leading byte, and bytes that end behind a flag. -/
theorem plain_and_expanded_agree_remote :
    ExpandedNodeId.codec.decode.run [1, 2, 5, 0, 9] = .ok (⟨.numeric 2 5, none, 0⟩, [9]) ∧
      ExpandedNodeId.codec.decode.run [0x3F] = .error (.unsupportedNodeIdForm 0x3F) ∧
      ExpandedNodeId.codec.encodeToBytes remoteId = .ok remoteIdBytes ∧
      NodeId.codec.decode.run (remoteIdBytes ++ [9]) = .error (.unsupportedNodeIdForm 0xC1) ∧
      ∃ cause, NodeId.codec.decode.run [0x80] = .error cause := by
  obtain ⟨-, haccepted, hsame, hflag, hrefused⟩ := plain_and_expanded_agree
  have hencode : remoteId.encode = .ofBytes remoteIdBytes := by
    decide +kernel
  have hwritten : ExpandedNodeId.codec.encodeToBytes remoteId = .ok remoteIdBytes :=
    Encoding.toExcept_eq_ok_iff.2 hencode
  refine ⟨haccepted _ _ _ rfl, hsame [0x3F] ?_, hwritten, ?_, hflag 0x80 [] (by decide)⟩
  · rintro first ⟨⟩
    decide
  · obtain ⟨leading, hhead, -, hread⟩ := hrefused remoteId _ [9] (.inl rfl) hwritten
    obtain rfl : 0xC1 = leading := Option.some.inj hhead
    exact hread

end OpcWire
