/-!
# Decimal text

Numbers padded with zeros to a given width, and the reading of unsigned 32-bit numbers with the
cause of a refusal.
-/

namespace OpcWire

namespace Decimal

/-- The value of a decimal digit. -/
def digitValue? (c : Char) : Option Nat :=
  if '0' ≤ c ∧ c ≤ '9' then some (c.toNat - 48) else none

/-- `text` with zeros in front until it has at least `width` characters. -/
def padZeros (width : Nat) (text : String) : String :=
  String.ofList (List.replicate (width - text.length) '0') ++ text

/-- `n` in at least `width` digits. -/
def padded (width n : Nat) : String := padZeros width (toString n)

/-- Why a text is not an unsigned number. -/
inductive Refusal
  /-- There is no text. -/
  | empty
  /-- A character, or a sign on its own, is no digit. -/
  | invalidDigit
  /-- The number is larger than the type holds. -/
  | tooLarge
  deriving DecidableEq, Repr

/-- The wording of a refusal. -/
def Refusal.message : Refusal → String
  | empty => "cannot parse integer from empty string"
  | invalidDigit => "invalid digit found in string"
  | tooLarge => "number too large to fit in target type"

/-- Read digits onto `value`, giving up at the first character that is no digit or that makes the
number reach `bound`. -/
def readDigits (bound : Nat) (value : Nat) : List Char → Except Refusal Nat
  | [] => .ok value
  | c :: rest =>
    match digitValue? c with
    | none => .error .invalidDigit
    | some d =>
      if value * 10 + d < bound then readDigits bound (value * 10 + d) rest
      else .error .tooLarge

/-- Read an unsigned 32-bit number: one optional plus sign and at least one digit. -/
def uint32 (text : String) : Except Refusal UInt32 :=
  match text.toList with
  | [] => .error .empty
  | ['+'] => .error .invalidDigit
  | '+' :: digits => UInt32.ofNat <$> readDigits UInt32.size 0 digits
  | digits => UInt32.ofNat <$> readDigits UInt32.size 0 digits

/-- Whether a text stands for a number: at least one digit, and perhaps a plus sign in front. -/
def Denotes (text : String) (n : UInt32) : Prop :=
  ∃ digits, digits ≠ [] ∧ (∀ c ∈ digits, c.isDigit = true) ∧
    Nat.ofDigitChars 10 digits 0 = n.toNat ∧ (text.toList = digits ∨ text.toList = '+' :: digits)

end Decimal

end OpcWire
