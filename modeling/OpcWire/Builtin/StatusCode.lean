import OpcWire.Builtin.Number

/-!
# Status codes

The result of an operation as a 32-bit word, whose two top bits carry the severity.
-/

namespace OpcWire

/-- The result of an operation. -/
structure StatusCode where
  /-- The code. -/
  value : UInt32
  deriving DecidableEq, Repr

namespace StatusCode

/-- The bits that carry the severity. -/
def severityMask : UInt32 := 0xC0000000

/-- Severity of results of uncertain quality. -/
def uncertainSeverity : UInt32 := 0x40000000

/-- The bit that is set in every failure. -/
def badBit : UInt32 := 0x80000000

/-- Whether the operation succeeded. -/
def isGood (s : StatusCode) : Bool := s.value &&& severityMask == 0

/-- Whether the result is of uncertain quality. -/
def isUncertain (s : StatusCode) : Bool := s.value &&& severityMask == uncertainSeverity

/-- Whether the operation failed. -/
def isBad (s : StatusCode) : Bool := s.value &&& badBit != 0

/-- The text of a code: eight upper-case hexadecimal digits. -/
def render (s : StatusCode) : String := "0x" ++ Hex.fixed .upper 8 s.value.toNat

/-- Codes that have a symbolic name. -/
def named : List (String × StatusCode) :=
  [ ("Good", ⟨0⟩),
    ("BadUnexpectedError", ⟨0x80010000⟩),
    ("BadInternalError", ⟨0x80020000⟩),
    ("BadDecodingError", ⟨0x80070000⟩),
    ("BadEncodingError", ⟨0x80060000⟩),
    ("BadTimeout", ⟨0x800A0000⟩),
    ("BadServiceUnsupported", ⟨0x800B0000⟩),
    ("BadNothingToDo", ⟨0x800F0000⟩),
    ("BadTooManyOperations", ⟨0x80100000⟩),
    ("BadNodeIdUnknown", ⟨0x80340000⟩),
    ("BadAttributeIdInvalid", ⟨0x80350000⟩) ]

/-- Status codes travel as 32-bit words. -/
def codec : Codec StatusCode := Codec.ofWord 4 (·.value.toNat) (fun n => ⟨UInt32.ofNat n⟩)

end StatusCode

end OpcWire
