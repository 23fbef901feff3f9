import OpcWire.Structure

/-!
# Values

`Value t` holds the values of the wire type `t`, `Fields l` those of the fields of a layout, and
`Items t` the elements of an array. An extension object either has no body, or holds a value of
one of the structures of the dictionary together with the type id it came with.

`Value.zero t` is the value that stands for an absent reference to `t`.
-/

namespace OpcWire

mutual

/-- A value of a wire type. -/
inductive Value : WireType → Type
  /-- A value of a built-in type or an enumeration. -/
  | scalar {s : Scalar} (v : s.Carrier) : Value (.scalar s)
  /-- An extension object without a body. -/
  | bodiless (typeId : NodeId) : Value .extensionObject
  /-- An extension object with a body. -/
  | holding (typeId : NodeId) (s : Structure) (body : Value s.wireType) : Value .extensionObject
  /-- A structure. -/
  | record {n : String} {l : Layout} (fields : Fields l) : Value (.record n l)
  /-- The null array. -/
  | nullArray {t : WireType} : Value (.array t)
  /-- An array that is not null. -/
  | array {t : WireType} (items : Items t) : Value (.array t)
  /-- The absent reference. -/
  | absent {t : WireType} : Value (.nullable t)
  /-- A reference to a value. -/
  | present {t : WireType} (v : Value t) : Value (.nullable t)

/-- A value for each field of a layout. -/
inductive Fields : Layout → Type
  /-- No field. -/
  | nil : Fields .nil
  /-- The value of a field before those of others. -/
  | cons {n : String} {t : WireType} {l : Layout} (v : Value t) (rest : Fields l) :
      Fields (.cons n t l)

/-- The elements of an array. -/
inductive Items : WireType → Type
  /-- No element. -/
  | nil {t : WireType} : Items t
  /-- An element before others. -/
  | cons {t : WireType} (v : Value t) (rest : Items t) : Items t

end

namespace Items

variable {t : WireType}

/-- The elements as a list. -/
def toList : Items t → List (Value t)
  | nil => []
  | cons v rest => v :: rest.toList

/-- The elements of a list. -/
def ofList (values : List (Value t)) : Items t := values.foldr cons nil

@[simp] theorem ofList_cons (v : Value t) (values : List (Value t)) :
    ofList (v :: values) = cons v (ofList values) := rfl

@[simp] theorem toList_ofList (values : List (Value t)) : (ofList values).toList = values := by
  induction values with
  | nil => rfl
  | cons v rest ih => simp [toList, ih]

theorem ofList_toList : (items : Items t) → ofList items.toList = items
  | nil => rfl
  | cons v rest => by simp [toList, ofList_toList rest]

end Items

namespace Value

/-- The target of a reference, if it is not absent. -/
def target? {t : WireType} : Value (.nullable t) → Option (Value t)
  | absent => none
  | present v => some v

/-- The elements of an array, if it is not null. -/
def items? {t : WireType} : Value (.array t) → Option (List (Value t))
  | nullArray => none
  | array items => some items.toList

/-- The array with the given elements, or the null array. -/
def ofItems? {t : WireType} : Option (List (Value t)) → Value (.array t)
  | none => nullArray
  | some values => array (.ofList values)

/-- The extension object without body and with the null type id. -/
def nullObject : Value .extensionObject := bodiless NodeId.null

/-- The extension object that holds `body` under the number of its own encoding. -/
def object (s : Structure) (body : Value s.wireType) : Value .extensionObject :=
  holding (.numeric 0 s.encodingId) s body

end Value

mutual

/-- The value that stands for an absent reference: zero, empty, null or absent throughout. -/
def Value.zero : (t : WireType) → Value t
  | .scalar s => .scalar s.codec.zero
  | .extensionObject => .nullObject
  | .record _ l => .record (Fields.zero l)
  | .array _ => .nullArray
  | .nullable _ => .absent

/-- Zero values for all fields of a layout. -/
def Fields.zero : (l : Layout) → Fields l
  | .nil => .nil
  | .cons _ t rest => .cons (Value.zero t) (Fields.zero rest)

end

instance (t : WireType) : Inhabited (Value t) := ⟨.zero t⟩

instance (l : Layout) : Inhabited (Fields l) := ⟨.zero l⟩

end OpcWire
