import OpcWire.Text.Hex
import OpcWire.Text.Utf8

/-!
# What can go wrong on the wire

`CodecError` lists the causes for which a value cannot be read or written, and
`CodecError.inField` wraps a cause with the structure and field in which it arose.
`CodecError.message` is the only place with wording. The innermost cause of a wrapped error is
`CodecError.rootCause`, and the fields passed on the way to it are `CodecError.fieldPath`.

`RegistryError` is the one cause for which a type cannot be registered.
-/

namespace OpcWire

/-- Why a type is not registered. -/
inductive RegistryError
  /-- The identifier belongs to `existing` already, so `new` cannot have it. -/
  | duplicateIdentifier (registry : String) (id : UInt32) (existing new : String)
  deriving DecidableEq, Repr

/-- The wording of a registry error. -/
def RegistryError.message : RegistryError → String
  | duplicateIdentifier registry id existing new =>
    s!"{registry} identifier {id} registered for both '" ++ existing ++ "' and '" ++ new ++ "'"

/-- Why a value cannot be read from bytes or written to them. -/
inductive CodecError
  /-- A value needs `needed` more bytes where only `remaining` are left. -/
  | unexpectedEnd (needed remaining : Nat)
  /-- A length prefix is negative and is not the null marker, or is the null marker where a
  length is required. -/
  | invalidLength (length : Int)
  /-- An array announces more elements than a reader accepts. -/
  | lengthLimit (length limit : Nat)
  /-- A length is too large for a 32-bit prefix. -/
  | lengthOverflow (length : Nat)
  /-- The bytes of a string are not UTF-8. -/
  | invalidUtf8 (bytes : List UInt8) (fault : Utf8.Fault)
  /-- The leading byte of a node id selects no known form, or carries a flag where none may be. -/
  | unsupportedNodeIdForm (leading : UInt8)
  /-- An extension object announces a body that is not binary. -/
  | unsupportedBodyMask (mask : UInt8)
  /-- A type id, given by its text, is not numeric in namespace 0. -/
  | nonNumericTypeId (typeId : String)
  /-- No type belongs to the identifier. -/
  | unregisteredType (registry : String) (id : UInt32)
  /-- Diagnostics or bodies nest deeper than `limit`. -/
  | nestingTooDeep (limit : Nat)
  /-- A delimited value ends `count` bytes before its delimiter. -/
  | trailingBytes (count : Nat)
  /-- The registries cannot be built. -/
  | registry (cause : RegistryError)
  /-- `cause` arose in the field `field` of the structure `typeName`. -/
  | inField (typeName field : String) (cause : CodecError)
  deriving DecidableEq, Repr

namespace CodecError

/-- The wording of an error: the fields from the outermost to the innermost, then the cause. -/
def message : CodecError → String
  | unexpectedEnd needed remaining =>
    s!"unexpected end of buffer: needed {needed} bytes, {remaining} remaining"
  | invalidLength length => s!"invalid length prefix {length}"
  | lengthLimit length limit => s!"declared length {length} exceeds limit of {limit}"
  | lengthOverflow length => s!"length {length} does not fit in a 32-bit length prefix"
  | invalidUtf8 _ fault => "invalid UTF-8 in string: " ++ fault.message
  | unsupportedNodeIdForm leading => "unsupported node id encoding byte 0x" ++ Hex.byte leading
  | unsupportedBodyMask mask => "unsupported extension object encoding mask 0x" ++ Hex.byte mask
  | nonNumericTypeId typeId =>
    s!"extension object type id {typeId} is not a numeric id in namespace 0"
  | unregisteredType kind id => s!"no {kind} type registered for identifier {id}"
  | nestingTooDeep limit => s!"nesting exceeds {limit} levels"
  | trailingBytes count => s!"{count} trailing bytes after decoded value"
  | registry cause => cause.message
  | inField typeName field cause => typeName ++ "." ++ field ++ ": " ++ cause.message

/-- The innermost error, with all fields stripped. -/
def rootCause : CodecError → CodecError
  | inField _ _ cause => cause.rootCause
  | cause => cause

/-- The fields passed on the way to the root cause, outermost first. -/
def fields : CodecError → List String
  | inField _ field cause => field :: cause.fields
  | _ => []

/-- The outermost structure followed by the fields; empty for an error outside any field. -/
def fieldPath (e : CodecError) : List String :=
  match e with
  | inField typeName _ _ => typeName :: e.fields
  | _ => []

@[simp] theorem fieldPath_inField (t f : String) (e : CodecError) :
    (inField t f e).fieldPath = t :: f :: e.fields := rfl

end CodecError

end OpcWire
