import OpcWire.Wire.Codec

/-!
# Conformance cases

A `ConformanceCase` pairs a value with the bytes that it has to be written as. It passes when the
value is written as exactly these bytes, and reading them uses them up and gives a value that
counts as equal to the given one.
-/

namespace OpcWire

/-- A value and the bytes that it has to be written as. -/
structure ConformanceCase (α : Type) where
  /-- Name of the case in messages. -/
  name : String
  /-- The value. -/
  value : α
  /-- The bytes. -/
  bytes : List UInt8

/-- How a case fails. -/
inductive NonConformance
  /-- The value cannot be written. -/
  | encode (cause : CodecError)
  /-- The value is written as other bytes. -/
  | bytesMismatch (expected actual : List UInt8)
  /-- The bytes cannot be read. -/
  | decode (cause : CodecError)
  /-- Reading leaves bytes over. -/
  | trailingBytes (remaining : Nat)
  /-- Reading gives another value. -/
  | valueMismatch
  deriving DecidableEq, Repr

/-- The wording of a failure of the case called `name`. -/
def NonConformance.message (name : String) : NonConformance → String
  | encode cause => s!"{name}: encode failed: " ++ cause.message
  | bytesMismatch expected actual =>
    s!"{name}: encoded bytes differ\n  expected: " ++ Hex.spaced expected ++
      "\n  actual:   " ++ Hex.spaced actual
  | decode cause => s!"{name}: decode failed: " ++ cause.message
  | trailingBytes remaining => s!"{name}: {remaining} bytes left after decoding"
  | valueMismatch => s!"{name}: decoded value differs"

namespace ConformanceCase

variable {α : Type}

/-- Check both directions of a case. -/
def check (codec : Codec α) (c : ConformanceCase α) : Except NonConformance Unit :=
  match codec.encodeToBytes c.value with
  | .error cause => .error (.encode cause)
  | .ok written =>
    if written ≠ c.bytes then .error (.bytesMismatch c.bytes written)
    else match codec.decode.run c.bytes with
      | .error cause => .error (.decode cause)
      | .ok (value, rest) =>
        if ¬ rest.isEmpty then .error (.trailingBytes rest.length)
        else if codec.same value c.value then .ok ()
        else .error .valueMismatch

/-- Check cases in order up to the first that fails, and report that one's name and failure. -/
def checkAll (codec : Codec α) :
    List (ConformanceCase α) → Except (String × NonConformance) Unit
  | [] => .ok ()
  | c :: rest =>
    match c.check codec with
    | .ok () => checkAll codec rest
    | .error failure => .error (c.name, failure)

/-- The message of a failed run. -/
def report (name : String) (failure : NonConformance) : String :=
  "codec conformance failure: " ++ failure.message name

end ConformanceCase

end OpcWire
