/-!
# Hexadecimal text

`Hex.fixed` writes a number with a fixed number of digits, in either case; the byte listings
`Hex.run` (no separators) and `Hex.spaced` (one blank between bytes) are made of it.
-/

namespace OpcWire

namespace Hex

/-- Which letters stand for the digits from ten to fifteen. -/
inductive LetterCase
  | lower
  | upper
  deriving DecidableEq, Repr

/-- The character of one digit; `d` is taken modulo sixteen. -/
def digit (letters : LetterCase) (d : Nat) : Char :=
  let d := d % 16
  if d < 10 then Char.ofNat (48 + d)
  else match letters with
    | .lower => Char.ofNat (87 + d)
    | .upper => Char.ofNat (55 + d)

/-- The last `width` hexadecimal digits of `n`, most significant first. -/
def digits (letters : LetterCase) : (width : Nat) → (n : Nat) → List Char
  | 0, _ => []
  | width + 1, n => digit letters (n >>> (4 * width)) :: digits letters width n

/-- `n` written with exactly `width` digits. -/
def fixed (letters : LetterCase) (width n : Nat) : String :=
  String.ofList (digits letters width n)

/-- The two lower-case digits of a byte. -/
def byte (b : UInt8) : String := fixed .lower 2 b.toNat

/-- Bytes as lower-case digits without separators. -/
def run (bytes : List UInt8) : String :=
  String.ofList (bytes.flatMap fun b => digits .lower 2 b.toNat)

/-- Bytes as pairs of lower-case digits with a blank between neighbours. -/
def spaced (bytes : List UInt8) : String :=
  " ".intercalate (bytes.map byte)

/-- The value of a hexadecimal digit of either case. -/
def digitValue? (c : Char) : Option Nat :=
  if '0' ≤ c ∧ c ≤ '9' then some (c.toNat - 48)
  else if 'a' ≤ c ∧ c ≤ 'f' then some (c.toNat - 87)
  else if 'A' ≤ c ∧ c ≤ 'F' then some (c.toNat - 55)
  else none

/-- The bytes that pairs of digits stand for; `none` for an odd digit or a foreign character. -/
def bytes? (text : String) : Option (List UInt8) :=
  go [] text.toList
where
  /-- `done` holds the bytes read so far, last first. -/
  go (done : List UInt8) : List Char → Option (List UInt8)
    | [] => some done.reverse
    | [_] => none
    | a :: b :: rest =>
      match digitValue? a, digitValue? b with
      | some x, some y => go (UInt8.ofNat (16 * x + y) :: done) rest
      | _, _ => none

end Hex

end OpcWire
