import OpcWire.Builtin.AttributeId
import OpcWire.Builtin.DateTime
import OpcWire.Builtin.Guid
import OpcWire.Builtin.StatusCode
import OpcWire.Proofs.Wire.Lawful

/-!
# Codecs of fixed size

Numbers, truth values, status codes, attribute identifiers, timestamps and globally unique
identifiers have one form each, except that any non-zero byte is read as true. None of them has a
limit.
-/

namespace OpcWire

namespace Codec

theorem lawful_boolean : boolean.Lawful fun _ => True :=
  lawful_ofWord (fun b => by cases b <;> decide) fun b => by cases b <;> rfl

theorem lawful_uint8 : uint8.Lawful fun _ => True :=
  lawful_ofWord UInt8.toNat_lt fun _ => UInt8.ofNat_toNat

theorem lawful_uint16 : uint16.Lawful fun _ => True :=
  lawful_ofWord UInt16.toNat_lt fun _ => UInt16.ofNat_toNat

theorem lawful_uint32 : uint32.Lawful fun _ => True :=
  lawful_ofWord UInt32.toNat_lt fun _ => UInt32.ofNat_toNat

theorem lawful_uint64 : uint64.Lawful fun _ => True :=
  lawful_ofWord UInt64.toNat_lt fun _ => UInt64.ofNat_toNat

theorem lawful_int8 : int8.Lawful fun _ => True :=
  lawful_ofWord (fun n => n.toUInt8.toNat_lt) fun n => by rw [UInt8.ofNat_toNat]; rfl

theorem lawful_int16 : int16.Lawful fun _ => True :=
  lawful_ofWord (fun n => n.toUInt16.toNat_lt) fun n => by rw [UInt16.ofNat_toNat]; rfl

theorem lawful_int32 : int32.Lawful fun _ => True :=
  lawful_ofWord (fun n => n.toUInt32.toNat_lt) fun n => by rw [UInt32.ofNat_toNat]; rfl

theorem lawful_int64 : int64.Lawful fun _ => True :=
  lawful_ofWord (fun n => n.toUInt64.toNat_lt) fun n => by rw [UInt64.ofNat_toNat]; rfl

end Codec

/-- Every bit pattern survives, those of numbers that differ from themselves included. -/
theorem Binary32.lawful_codec : Binary32.codec.Lawful fun _ => True :=
  have h : (Codec.ofWord 4 (·.bits.toNat) fun n => Binary32.mk (UInt32.ofNat n)).Lawful
      fun _ => True :=
    Codec.lawful_ofWord (fun x => x.bits.toNat_lt) fun x => by rw [UInt32.ofNat_toNat]
  ⟨h.readsIf, h.prefixCode, h.rewrites⟩

theorem Binary64.lawful_codec : Binary64.codec.Lawful fun _ => True :=
  have h : (Codec.ofWord 8 (·.bits.toNat) fun n => Binary64.mk (UInt64.ofNat n)).Lawful
      fun _ => True :=
    Codec.lawful_ofWord (fun x => x.bits.toNat_lt) fun x => by rw [UInt64.ofNat_toNat]
  ⟨h.readsIf, h.prefixCode, h.rewrites⟩

theorem StatusCode.lawful_codec : StatusCode.codec.Lawful fun _ => True :=
  Codec.lawful_ofWord (fun s => s.value.toNat_lt) fun s => by rw [UInt32.ofNat_toNat]

theorem AttributeId.lawful_codec : AttributeId.codec.Lawful fun _ => True :=
  Codec.lawful_ofWord (fun a => a.value.toNat_lt) fun a => by rw [UInt32.ofNat_toNat]

theorem DateTime.lawful_codec : DateTime.codec.Lawful fun _ => True :=
  Codec.lawful_int64.iso DateTime.ticks DateTime.mk (fun _ => rfl) rfl (fun _ => rfl) fun _ => rfl

/-! ### Globally unique identifiers -/

namespace Guid

@[simp] theorem length_toBytes (g : Guid) : g.toBytes.length = 16 := by
  simp [toBytes]

theorem ofBytes_toBytes (g : Guid) : ofBytes g.toBytes = g := by
  obtain ⟨data1, data2, data3, data4⟩ := g
  have h1 := data1.toNat_lt
  have h2 := data2.toNat_lt
  have h3 := data3.toNat_lt
  have h4 := data4.toNat_lt
  have hw (width n : Nat) (h : n < 256 ^ width) :
      LittleEndian.ofBytes (LittleEndian.toBytes width n) = n := by
    rw [LittleEndian.ofBytes_toBytes, Nat.mod_eq_of_lt h]
  simp [ofBytes, toBytes, List.drop_append, List.drop_of_length_le, hw 4 _ h1, hw 2 _ h2,
    hw 2 _ h3, hw 8 _ h4]

theorem lawful_codec : codec.Lawful fun _ => True := by
  refine .of_reads (fun g bytes d hwritten => ?_) Reader.prefixCode_take.map fun d => ?_
  · obtain rfl : g.toBytes = bytes := Encoding.ofBytes_inj.1 hwritten
    have := (Reader.reads_take g.toBytes (d := d)).map (g := ofBytes)
    rwa [length_toBytes, ofBytes_toBytes] at this
  · refine Reader.ensures_take.map fun span k hk => ⟨_, rfl, ?_⟩
    exact Nat.le_of_eq (by rw [length_toBytes, hk.2])

end Guid

end OpcWire
