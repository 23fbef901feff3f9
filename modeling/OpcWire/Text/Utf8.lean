/-!
# UTF-8

Strings travel as their UTF-8 bytes, and a byte sequence that is not UTF-8 is refused with the
place and the size of its first fault.

* `Utf8.encode` gives the bytes of a string, one character after the other;
* `Utf8.Lead` classifies the first byte of a character: how many bytes follow and which values
  the second may take;
* `Utf8.decode` reads a whole sequence one byte at a time, with the unfinished character as its
  only memory;
* `Utf8.Fault` is what goes wrong: a sequence that no further byte can mend, with the number of
  bytes that are certainly wrong, or one that the end of the input cuts short.
-/

namespace OpcWire

namespace Utf8

/-- The UTF-8 bytes of a string. -/
def encode (s : String) : List UInt8 :=
  s.toList.flatMap String.utf8EncodeChar

/-- Number of UTF-8 bytes of a string. -/
def byteCount (s : String) : Nat := (encode s).length

/-- Why bytes are not UTF-8, and at which byte the faulty character starts. -/
inductive Fault
  /-- The first `length` bytes of the character can begin no character. -/
  | malformed (index length : Nat)
  /-- The input ends inside a character that is well formed so far. -/
  | truncated (index : Nat)
  deriving DecidableEq, Repr

namespace Fault

/-- The wording of a fault. -/
def message : Fault → String
  | malformed index length => s!"invalid utf-8 sequence of {length} bytes from index {index}"
  | truncated index => s!"incomplete utf-8 byte sequence from index {index}"

end Fault

/-- What the first byte of a character announces. -/
inductive Lead
  /-- The byte is a character of its own. -/
  | ascii
  /-- `later` more bytes belong to the character, and the first of them lies between `low` and
  `high`. The bounds keep out overlong forms, surrogates and values past the last code point. -/
  | multi (later : Nat) (low high : UInt8)
  /-- No character starts with this byte. -/
  | none
  deriving DecidableEq, Repr

/-- Classify the first byte of a character. -/
def Lead.ofByte (b : UInt8) : Lead :=
  if b < 0x80 then .ascii
  else if b < 0xC2 then .none
  else if b < 0xE0 then .multi 1 0x80 0xBF
  else if b = 0xE0 then .multi 2 0xA0 0xBF
  else if b = 0xED then .multi 2 0x80 0x9F
  else if b < 0xF0 then .multi 2 0x80 0xBF
  else if b = 0xF0 then .multi 3 0x90 0xBF
  else if b < 0xF4 then .multi 3 0x80 0xBF
  else if b = 0xF4 then .multi 3 0x80 0x8F
  else .none

/-- Payload bits that the first byte of a character with `later` more bytes contributes. -/
def Lead.payload (b : UInt8) (later : Nat) : Nat :=
  b.toNat % (1 <<< (6 - later))

/-- A character that has begun but not ended. -/
structure Pending where
  /-- Index of its first byte. -/
  start : Nat
  /-- Number of its bytes read so far. -/
  seen : Nat
  /-- Payload bits read so far. -/
  value : Nat
  /-- Number of bytes that follow the next one. -/
  later : Nat
  /-- Least value of the next byte. -/
  low : UInt8
  /-- Greatest value of the next byte. -/
  high : UInt8
  deriving DecidableEq, Repr

/-- Read bytes from index `index` on. `done` holds the characters read so far, last first, and
`pending` the one that the next byte continues. -/
def scan (index : Nat) (done : List Char) :
    (pending : Option Pending) → List UInt8 → Except Fault (List Char)
  | none, [] => .ok done.reverse
  | some p, [] => .error (.truncated p.start)
  | none, b :: bytes =>
    match Lead.ofByte b with
    | .ascii => scan (index + 1) (Char.ofNat b.toNat :: done) none bytes
    | .multi later low high =>
      scan (index + 1) done (some ⟨index, 1, Lead.payload b later, later - 1, low, high⟩) bytes
    | .none => .error (.malformed index 1)
  | some p, b :: bytes =>
    if p.low ≤ b ∧ b ≤ p.high then
      let value := p.value * 64 + b.toNat % 64
      match p.later with
      | 0 => scan (index + 1) (Char.ofNat value :: done) none bytes
      | later + 1 =>
        scan (index + 1) done (some ⟨p.start, p.seen + 1, value, later, 0x80, 0xBF⟩) bytes
    else .error (.malformed p.start p.seen)

/-- The string whose UTF-8 bytes are given, or the first fault. -/
def decode (bytes : List UInt8) : Except Fault String :=
  (scan 0 [] none bytes).map String.ofList

end Utf8

end OpcWire
