import OpcWire.Proofs.Value.Reading
import OpcWire.Proofs.Value.Rewriting

/-!
# Writing and reading are inverse to each other

On values in normal form that keep the limits, writing and reading are inverse to each other.
What this comes to from either side:

* `round_trip` : a value is read back in normal form, whatever follows its bytes, and so is the
  body of a message;
* `encode_after_decode` : what was read from any bytes, written in the shortest way or not, is
  written in no more bytes than that, and these are read as the same value again.
-/

namespace OpcWire

variable {bytes : List UInt8}

/-! ### From values to bytes and back -/

theorem WireType.decode_of_encode {t : WireType} {v : Value t}
    (hwritten : t.codec.encodeToBytes v = .ok bytes) (hlimits : v.extent.Within maxBodyDepth)
    (rest : List UInt8) : t.codec.decode.run (bytes ++ rest) = .ok (v.normal, rest) := by
  have hencode : v.encode = .ofBytes bytes := Encoding.toExcept_eq_ok_iff.1 hwritten
  have hread := (readsIf_decode (d := 0) hencode).reads hlimits rest
  exact congrArg ReadResult.toExcept hread

theorem decodeMessage_of_encodeMessage {b : Body}
    (hwritten : (encodeMessage b).toExcept = .ok bytes)
    (hlimits : b.value.extent.inBody.Within maxBodyDepth) (rest : List UInt8) :
    decodeMessage.run (bytes ++ rest) = .ok (⟨b.structureType, b.value.normal⟩, rest) := by
  have hencode := Encoding.toExcept_eq_ok_iff.1 hwritten
  have hread := (readsIf_decodeMessage (d := 0) hencode).reads hlimits rest
  exact congrArg ReadResult.toExcept hread

/-- **Round trip.** A value within the limits is read back in normal form, and nothing that
follows its bytes is touched. So is a message, whose body is one level inside. -/
theorem round_trip (bytes rest : List UInt8) :
    (∀ (t : WireType) (v : Value t), t.codec.encodeToBytes v = .ok bytes →
      v.extent.Within maxBodyDepth →
        t.codec.decode.run (bytes ++ rest) = .ok (v.normal, rest)) ∧
    ∀ b : Body, (encodeMessage b).toExcept = .ok bytes →
      b.value.extent.inBody.Within maxBodyDepth →
        decodeMessage.run (bytes ++ rest) = .ok (⟨b.structureType, b.value.normal⟩, rest) := by
  constructor
  · intro t v hwritten hlimits
    exact t.decode_of_encode hwritten hlimits rest
  · intro b hwritten hlimits
    exact decodeMessage_of_encodeMessage hwritten hlimits rest

/-- An extension object under a type id of another namespace, with two absent references in its
body. -/
def foreignObject : Value .extensionObject :=
  .holding (.numeric 3 7) .enumValueType (.record
    (.cons (.scalar (s := .int64) 5) (.cons .absent (.cons .absent .nil))))

/-- Bytes of the object, with the number of its body's encoding in front and empty texts. -/
def foreignObjectBytes : List UInt8 :=
  [0x01, 0x00, 0x3B, 0x20, 0x01, 10, 0, 0, 0, 5, 0, 0, 0, 0, 0, 0, 0, 0, 0]

/-- Bytes of a fault message without header. -/
def headlessFaultBytes : List UInt8 :=
  [1, 0, 0x8D, 1] ++ List.replicate 17 0 ++ [0xFF, 0xFF, 0xFF, 0xFF, 0, 0, 0]

/-- The object comes back under the number of its body's encoding and with empty texts, the fault
message with a header of zero values. -/
theorem round_trip_absent :
    let text := Value.present (.scalar (s := .localizedText) ⟨"", ""⟩)
    WireType.extensionObject.codec.encodeToBytes foreignObject = .ok foreignObjectBytes ∧
      WireType.extensionObject.codec.decode.run (foreignObjectBytes ++ [0xFF]) = .ok
        (.holding (.numeric 0 8251) .enumValueType (.record
          (.cons (.scalar (s := .int64) 5) (.cons text (.cons text .nil)))), [0xFF]) ∧
      decodeMessage.run (headlessFaultBytes ++ [0xFF]) = .ok
        (⟨.serviceFault, .record
          (.cons (.present (WireType.filledZero _)) .nil)⟩, [0xFF]) := by
  have hobject := (round_trip foreignObjectBytes [0xFF]).1 .extensionObject foreignObject rfl
    (by decide)
  have hfault := (round_trip headlessFaultBytes [0xFF]).2 (.zero .serviceFault) rfl (by decide)
  exact ⟨rfl, hobject, hfault⟩

/-! ### From bytes to values and back -/

/-- A reader that returns only values which it reads back unchanged: what it returned can be
written in no more bytes, and is returned for these again. -/
theorem Reader.write_of_read {α : Type} {r : Reader α} {write : α → Encoding}
    (within : α → Prop) (normal : α → α) {d : Nat} {a : α} {next : Cursor}
    (hensures : r.Ensures d fun a k => (write a).Fits k ∧ within a ∧ normal a = a)
    (hreads : ∀ ⦃written⦄, write a = .ofBytes written →
      r.ReadsIf (within a) d written (normal a))
    (h : r ⟨bytes, d⟩ = .ok a next) :
    ∃ written, (write a).toExcept = .ok written ∧
      written.length + next.rest.length ≤ bytes.length ∧ r ⟨written, d⟩ = .ok a ⟨[], d⟩ := by
  obtain ⟨-, k, hk, ⟨written, hwritten, hle⟩, hwithin, hnormal⟩ := hensures h
  have hread := (hreads hwritten).reads hwithin []
  rw [List.append_nil, hnormal] at hread
  exact ⟨written, Encoding.toExcept_eq_ok_iff.2 hwritten, by omega, hread⟩

theorem WireType.encode_of_decode {t : WireType} {v : Value t} {d : Nat} {next : Cursor}
    (h : t.codec.decode ⟨bytes, d⟩ = .ok v next) :
    ∃ written, t.codec.encodeToBytes v = .ok written ∧
      written.length + next.rest.length ≤ bytes.length ∧
        t.codec.decode ⟨written, d⟩ = .ok v ⟨[], d⟩ := by
  refine Reader.write_of_read (fun v : Value t => v.extent.Within (maxBodyDepth - d))
    Value.normal ?_ (fun _ hwritten => readsIf_decode hwritten) h
  exact t.ensures_decode.imp fun v k hv => ⟨hv.fits, hv.within, hv.normal⟩

theorem encodeMessage_of_decodeMessage {b : Body} {d : Nat} {next : Cursor}
    (h : decodeMessage ⟨bytes, d⟩ = .ok b next) :
    ∃ written, (encodeMessage b).toExcept = .ok written ∧
      written.length + next.rest.length ≤ bytes.length ∧
        decodeMessage ⟨written, d⟩ = .ok b ⟨[], d⟩ := by
  refine Reader.write_of_read (fun b : Body => b.value.extent.inBody.Within (maxBodyDepth - d))
    (fun b => ⟨b.structureType, b.value.normal⟩) ?_
    (fun _ hwritten => readsIf_decodeMessage hwritten) h
  refine ensures_decodeMessage.imp fun b k hb => ⟨hb.fits, hb.within, ?_⟩
  exact congrArg (Body.mk b.structureType) hb.normal

theorem NodeId.encodeBody_of_decodeBody {form : NodeId.Form} {n : NodeId} {d : Nat}
    {next : Cursor} (h : NodeId.decodeBody form ⟨bytes, d⟩ = .ok n next) :
    ∃ written, n.encodeBody.toExcept = .ok written ∧
      written.length + next.rest.length ≤ bytes.length := by
  obtain ⟨-, k, hk, written, hencode, hle⟩ := NodeId.ensures_body form h
  exact ⟨written, Encoding.toExcept_eq_ok_iff.2 hencode, by omega⟩

/-- **Writing what was read.** Whatever was read, and from whatever bytes, it can be written, in
no more bytes than it was read from, and is read from these bytes unchanged. For a message the
type id in front is that of its body. An identifier takes no form longer than the one it was read
from, its leading byte aside. -/
theorem encode_after_decode (bytes : List UInt8) (d : Nat) :
    (∀ (t : WireType) (v : Value t) (next : Cursor), t.codec.decode ⟨bytes, d⟩ = .ok v next →
      ∃ written, t.codec.encodeToBytes v = .ok written ∧
        written.length + next.rest.length ≤ bytes.length ∧
          t.codec.decode ⟨written, d⟩ = .ok v ⟨[], d⟩) ∧
    (∀ (b : Body) (next : Cursor), decodeMessage ⟨bytes, d⟩ = .ok b next →
      (∃ mid, NodeId.codec.decode ⟨bytes, d⟩ = .ok (.numeric 0 b.encodingId) mid) ∧
        ∃ written, (encodeMessage b).toExcept = .ok written ∧
          written.length + next.rest.length ≤ bytes.length ∧
            decodeMessage ⟨written, d⟩ = .ok b ⟨[], d⟩) ∧
    ∀ (form : NodeId.Form) (namespaceIndex : UInt16) (id : UInt32) (next : Cursor),
      NodeId.decodeBody form ⟨bytes, d⟩ = .ok (.numeric namespaceIndex id) next →
        ∃ written, (NodeId.numeric namespaceIndex id).encodeBody.toExcept = .ok written ∧
          written.length + next.rest.length ≤ bytes.length := by
  refine ⟨fun t v next h => t.encode_of_decode h, fun b next h => ?_, fun form _ _ next h => ?_⟩
  · exact ⟨typeId_of_decodeMessage h, encodeMessage_of_decodeMessage h⟩
  · exact NodeId.encodeBody_of_decodeBody h

/-- Bytes of an array of one identifier, in a form too long for its number and with the index of
the local server. -/
def oversizedIds : List UInt8 := [1, 0, 0, 0, 0x42, 0, 0, 5, 0, 0, 0, 0, 0, 0, 0]

/-- Bytes of a fault message with its type id in a form too long for it and an unknown bit in the
mask of its diagnostics. -/
def oversizedFault : List UInt8 :=
  [2, 0, 0, 0x8D, 1, 0, 0] ++ List.replicate 16 0 ++ [0x80, 0xFF, 0xFF, 0xFF, 0xFF, 0, 0, 0]

theorem encode_after_decode_oversized :
    (∃ written, (WireType.array (.scalar .expandedNodeId)).codec.encodeToBytes
        (.array (.cons (.scalar (s := .expandedNodeId) ⟨.numeric 0 5, none, 0⟩) .nil)) =
          .ok written ∧ written.length ≤ oversizedIds.length) ∧
      (∃ written, (encodeMessage ⟨.serviceFault, .zero _⟩).toExcept = .ok written ∧
        written.length ≤ oversizedFault.length) ∧
      ∃ written, (NodeId.numeric 0 5).encodeBody.toExcept = .ok written ∧
        written.length ≤ 3 := by
  obtain ⟨ids, hids, hshorter, -⟩ := (encode_after_decode oversizedIds 0).1
    (.array (.scalar .expandedNodeId))
    (.array (.cons (.scalar (s := .expandedNodeId) ⟨.numeric 0 5, none, 0⟩) .nil)) ⟨[], 0⟩ rfl
  obtain ⟨-, fault, hfault, hshorter', -⟩ := (encode_after_decode oversizedFault 0).2.1
    ⟨.serviceFault, Structure.serviceFault.wireType.filledZero⟩ ⟨[], 0⟩ rfl
  refine ⟨⟨ids, hids, hshorter⟩, ⟨fault, hfault, hshorter'⟩, ?_⟩
  exact (encode_after_decode [0, 5, 0] 0).2.2 .fourByte 0 5 ⟨[], 0⟩ rfl

end OpcWire
