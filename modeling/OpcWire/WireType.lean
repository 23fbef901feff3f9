import OpcWire.Scalar

/-!
# Wire types

Every type that has a wire form is a `WireType`: a scalar, an extension object, a record of named
fields, an array or a nullable reference. The fields of a record are a `Layout`, held inside the
type, so that functions on values can follow the type.
-/

namespace OpcWire

mutual

/-- A type with a wire form. -/
inductive WireType
  /-- A built-in type or an enumeration. -/
  | scalar (s : Scalar)
  /-- A container for any structure of the dictionary. -/
  | extensionObject
  /-- A structure with its fields. -/
  | record (name : String) (fields : Layout)
  /-- An array, which may be null. -/
  | array (item : WireType)
  /-- A reference, which may be absent. -/
  | nullable (target : WireType)

/-- Named fields in the order in which they are written. -/
inductive Layout
  /-- No field. -/
  | nil
  /-- A field before others. -/
  | cons (name : String) (type : WireType) (rest : Layout)

end

/-- The layout with given names and types. -/
def Layout.ofFields : List (String × WireType) → Layout
  | [] => .nil
  | (name, type) :: rest => .cons name type (ofFields rest)

/-- Names and types of the fields. -/
def Layout.toFields : Layout → List (String × WireType)
  | .nil => []
  | .cons name type rest => (name, type) :: rest.toFields

theorem Layout.toFields_ofFields (fields : List (String × WireType)) :
    (Layout.ofFields fields).toFields = fields := by
  induction fields with
  | nil => rfl
  | cons f rest ih => simp [ofFields, toFields, ih]

end OpcWire
