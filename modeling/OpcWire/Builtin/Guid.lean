import OpcWire.Wire.Codec

/-!
# Globally unique identifiers

The first three groups travel little-endian and the last eight bytes in the order in which they
are written.
-/

namespace OpcWire

/-- A globally unique identifier of sixteen bytes. -/
structure Guid where
  /-- The first group. -/
  data1 : UInt32
  /-- The second group. -/
  data2 : UInt16
  /-- The third group. -/
  data3 : UInt16
  /-- The last eight bytes as one number, first byte most significant. -/
  data4 : UInt64
  deriving DecidableEq, Repr, Ord

namespace Guid

/-- The sixteen bytes of an identifier on the wire. -/
def toBytes (g : Guid) : List UInt8 :=
  LittleEndian.toBytes 4 g.data1.toNat ++ LittleEndian.toBytes 2 g.data2.toNat ++
    LittleEndian.toBytes 2 g.data3.toNat ++ (LittleEndian.toBytes 8 g.data4.toNat).reverse

/-- The identifier made of sixteen bytes. -/
def ofBytes (bytes : List UInt8) : Guid where
  data1 := .ofNat (LittleEndian.ofBytes (bytes.take 4))
  data2 := .ofNat (LittleEndian.ofBytes ((bytes.drop 4).take 2))
  data3 := .ofNat (LittleEndian.ofBytes ((bytes.drop 6).take 2))
  data4 := .ofNat (LittleEndian.ofBytes (bytes.drop 8).reverse)

/-- The text of an identifier: upper-case groups of 8, 4, 4, 4 and 12 digits. -/
def render (g : Guid) : String :=
  "-".intercalate
    [Hex.fixed .upper 8 g.data1.toNat, Hex.fixed .upper 4 g.data2.toNat,
      Hex.fixed .upper 4 g.data3.toNat, Hex.fixed .upper 4 (g.data4.toNat >>> 48),
      Hex.fixed .upper 12 g.data4.toNat]

/-- Globally unique identifiers. -/
def codec : Codec Guid where
  encode g := .ofBytes g.toBytes
  decode := ofBytes <$> Reader.take 16
  zero := ⟨0, 0, 0, 0⟩
  same := (· == ·)

end Guid

end OpcWire
