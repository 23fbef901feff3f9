import OpcWire.Proofs.Limits
import OpcWire.Proofs.Value.Coinciding

/-!
# Encodings identify values

What is written for a value, with anything behind it, tells the normal form of the value and where
it ends. This needs no limit on the value: arrays with more elements than a reader accepts,
diagnostics and bodies that nest deeper than it follows are told apart like all others. The other
way round, values with the same normal form are written alike, so that no more can be told.

Null and empty arrays and byte strings have different normal forms, as have any two node
identifiers. A value and the one in which an absent reference is filled in have the same.
-/

namespace OpcWire

/-- Values whose bytes are there, with anything behind them, are told apart by their bytes exactly
as far as their normal forms differ. -/
theorem WireType.append_eq_append_iff {t : WireType} {v w : Value t} {as bs r s : List UInt8}
    (hv : t.codec.encodeToBytes v = .ok as) (hw : t.codec.encodeToBytes w = .ok bs) :
    as ++ r = bs ++ s ↔ v.normal = w.normal ∧ r = s := by
  have has : v.encode = .ofBytes as := Encoding.toExcept_eq_ok_iff.1 hv
  have hbs : w.encode = .ofBytes bs := Encoding.toExcept_eq_ok_iff.1 hw
  constructor
  · intro hinput
    exact v.coincideOnlyIf w has hbs hinput
  · rintro ⟨hnormal, rfl⟩
    have hsame : v.encode = w.encode := by
      rw [← v.encode_normal, hnormal, w.encode_normal]
    obtain rfl : as = bs := Encoding.ofBytes_inj.1 (has.symm.trans (hsame.trans hbs))
    rfl

theorem WireType.encodeToBytes_ne {t : WireType} {v w : Value t} {bytes : List UInt8}
    (hv : t.codec.encodeToBytes v = .ok bytes) (hne : v.normal ≠ w.normal) :
    t.codec.encodeToBytes w ≠ .ok bytes := by
  intro hw
  have hsame := (append_eq_append_iff (r := []) (s := []) hv hw).1 rfl
  exact hne hsame.1

/-- **Encodings identify values.** Two values whose encodings start the same input have the same
normal form, and only these. In particular the null array differs from the empty one, the null
byte string from the empty one, and each node identifier from all others, while filling in an
absent reference changes nothing. -/
theorem encoding_identifies :
    (∀ (t : WireType) (v w : Value t) (as bs r s : List UInt8),
      t.codec.encodeToBytes v = .ok as → t.codec.encodeToBytes w = .ok bs →
        (as ++ r = bs ++ s ↔ v.normal = w.normal ∧ r = s)) ∧
    (∀ t : WireType, (WireType.array t).codec.encodeToBytes .nullArray ≠
      (WireType.array t).codec.encodeToBytes (.array .nil)) ∧
    (ByteString.codec.encodeToBytes .null ≠ ByteString.codec.encodeToBytes (.ofBytes [])) ∧
    (∀ (m n : NodeId) (bytes : List UInt8), m ≠ n → NodeId.codec.encodeToBytes m = .ok bytes →
      NodeId.codec.encodeToBytes n ≠ .ok bytes) ∧
    ∀ (t : WireType) (v w : Value t), v.Fills w →
      t.codec.encodeToBytes w = t.codec.encodeToBytes v := by
  refine ⟨?_, ?_, ?_, ?_, ?_⟩
  · intro t v w as bs r s hv hw
    exact WireType.append_eq_append_iff hv hw
  · intro t hsame
    have hnull : (WireType.array t).codec.encodeToBytes .nullArray =
        .ok (LittleEndian.toBytes 4 0xFFFFFFFF) := rfl
    exact WireType.encodeToBytes_ne (w := .array .nil) hnull nofun (hsame.symm.trans hnull)
  · intro hsame
    have hnull : (WireType.scalar .byteString).codec.encodeToBytes
        (.scalar (s := .byteString) .null) = .ok (LittleEndian.toBytes 4 0xFFFFFFFF) := rfl
    exact WireType.encodeToBytes_ne (w := .scalar (s := .byteString) (.ofBytes [])) hnull nofun
      (hsame.symm.trans hnull)
  · intro m n bytes hne hm
    have hnormal : (Value.scalar (s := .nodeId) m).normal ≠
        (Value.scalar (s := .nodeId) n).normal := by
      intro hsame
      injection hsame with _ hid
      exact hne hid
    exact WireType.encodeToBytes_ne (v := .scalar (s := .nodeId) m)
      (w := .scalar (s := .nodeId) n) hm hnormal
  · intro t v w hfills
    exact congrArg Encoding.toExcept hfills.encode_eq

/-- Diagnostics with 101 and with 102 levels, which no reader accepts, do not start the same
input. An object under a foreign type id and one under that of its body do, and a fault message
with an absent header is written like one with a header of zero values. -/
theorem encoding_identifies_beyondLimits :
    (List.replicate 101 0x40 ++ [0] ++ [0x40] : List UInt8) ≠
        List.replicate 102 0x40 ++ [0] ++ [] ∧
      foreignObject.normal = (Value.object .enumValueType (.record
        (.cons (.scalar (s := .int64) 5) (.cons .absent (.cons .absent .nil))))).normal ∧
      NodeId.codec.encodeToBytes (.numeric 1 5) ≠ .ok [0, 5] ∧
      Structure.serviceFault.wireType.codec.encodeToBytes
          (.record (.cons (.present (.zero _)) .nil)) =
        Structure.serviceFault.wireType.codec.encodeToBytes (.record (.cons .absent .nil)) := by
  obtain ⟨hidentify, -, -, hids, hfills⟩ := encoding_identifies
  have hwritten (n : Nat) : (WireType.scalar .diagnosticInfo).codec.encodeToBytes
      (.scalar (s := .diagnosticInfo) (nestedDiagnostics n)) =
        .ok (List.replicate n 0x40 ++ [0]) :=
    Encoding.toExcept_eq_ok_iff.2 (encode_nestedDiagnostics n)
  refine ⟨?_, ?_, ?_, ?_⟩
  · intro hinput
    have h := (hidentify _ _ _ _ _ _ _ (hwritten 101) (hwritten 102)).1 hinput
    injection h.2
  · have h := hidentify .extensionObject foreignObject (.object .enumValueType (.record
      (.cons (.scalar (s := .int64) 5) (.cons .absent (.cons .absent .nil)))))
      foreignObjectBytes foreignObjectBytes [] [] rfl rfl
    exact (h.1 rfl).1
  · exact hids (.numeric 0 5) (.numeric 1 5) [0, 5] (by decide) rfl
  · exact hfills _ _ _ (.record (.head .absent))

end OpcWire
