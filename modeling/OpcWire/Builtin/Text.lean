import OpcWire.Builtin.Number

/-!
# Text

A string travels behind the number of its UTF-8 bytes. The empty string is written as the null
string, and both are read as the empty string. `QualifiedName`, `LocalizedText` and `XmlElement`
are made of strings.
-/

namespace OpcWire

namespace Codec

/-- What is written for a string. -/
def encodeString (s : String) : Encoding :=
  if s.isEmpty then .length none
  else .length (some (Utf8.byteCount s)) ++ .ofBytes (Utf8.encode s)

/-- How a string is read. -/
def decodeString : Reader String := do
  match ← Reader.length with
  | none => return ""
  | some count =>
    let bytes ← Reader.take count
    match Utf8.decode bytes with
    | .ok s => return s
    | .error fault => .fail (.invalidUtf8 bytes fault)

/-- Strings. -/
def string : Codec String where
  encode := encodeString
  decode := decodeString
  zero := ""
  same := (· == ·)

end Codec

/-- A fragment of XML, not inspected further. -/
structure XmlElement where
  /-- The text of the fragment. -/
  text : String
  deriving DecidableEq, Repr

/-- XML fragments travel as strings. -/
def XmlElement.codec : Codec XmlElement where
  encode x := Codec.string.encode x.text
  decode := XmlElement.mk <$> Codec.string.decode
  zero := ⟨""⟩
  same := (· == ·)

/-- A name qualified by the index of a namespace. -/
structure QualifiedName where
  /-- Index of the namespace. -/
  namespaceIndex : UInt16
  /-- The name within it. -/
  name : String
  deriving DecidableEq, Repr

namespace QualifiedName

/-- The text of a qualified name: the index and a colon unless it is zero, then the name. -/
def render (q : QualifiedName) : String :=
  (if q.namespaceIndex = 0 then "" else toString q.namespaceIndex ++ ":") ++ q.name

/-- Qualified names. -/
def codec : Codec QualifiedName where
  encode q := Codec.uint16.encode q.namespaceIndex ++ Codec.string.encode q.name
  decode := do
    let namespaceIndex ← Codec.uint16.decode
    let name ← Codec.string.decode
    return { namespaceIndex, name }
  zero := ⟨0, ""⟩
  same := (· == ·)

end QualifiedName

/-- Text for people, with the locale it is written in. -/
structure LocalizedText where
  /-- The locale; empty when not stated. -/
  locale : String
  /-- The text. -/
  text : String
  deriving DecidableEq, Repr

namespace LocalizedText

/-- Mask bit of a locale. -/
def localeBit : UInt8 := 0x01

/-- Mask bit of a text. -/
def textBit : UInt8 := 0x02

/-- Text without a locale. -/
def ofText (text : String) : LocalizedText := ⟨"", text⟩

/-- The text alone. -/
def render (t : LocalizedText) : String := t.text

/-- The mask says which of the two members is not empty. -/
def mask (t : LocalizedText) : UInt8 :=
  (if t.locale.isEmpty then 0 else localeBit) ||| (if t.text.isEmpty then 0 else textBit)

/-- What is written for a text: the mask, then the members that are not empty. -/
def encode (t : LocalizedText) : Encoding :=
  .byte t.mask ++
    (if t.locale.isEmpty then .empty else Codec.string.encode t.locale) ++
    (if t.text.isEmpty then .empty else Codec.string.encode t.text)

/-- Read the member announced by `bit` of `mask`; it is empty otherwise. -/
def decodeMember (mask bit : UInt8) : Reader String :=
  if mask &&& bit = 0 then return "" else Codec.string.decode

/-- How a text is read; unknown mask bits have no effect. -/
def decode : Reader LocalizedText := do
  let mask ← Reader.byte
  let locale ← decodeMember mask localeBit
  let text ← decodeMember mask textBit
  return { locale, text }

/-- Localized texts. -/
def codec : Codec LocalizedText where
  encode := encode
  decode := decode
  zero := ⟨"", ""⟩
  same := (· == ·)

end LocalizedText

end OpcWire
