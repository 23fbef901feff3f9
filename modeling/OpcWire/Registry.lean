import OpcWire.Structure
import OpcWire.Wire.Error

/-!
# Registries

A `TypeRegistry` says which type belongs to an identifier, the types being those of any dictionary.
An identifier is given away once: registering it again is refused, and the registry stays as it was.
The two registries of the standard dictionary are `Registries.extensionObjects`, with every
structure, and `Registries.services`, with the service messages.
-/

namespace OpcWire

/-- One entry of a registry. -/
structure Registration (α : Type) where
  /-- The identifier. -/
  id : UInt32
  /-- The name under which the type was registered. -/
  name : String
  /-- The type that belongs to the identifier. -/
  structureType : α
  deriving DecidableEq, Repr

/-- Types by identifier. -/
structure TypeRegistry (α : Type) where
  /-- What the registry holds, for use in messages. -/
  kind : String
  /-- The entries in ascending order of identifiers. -/
  registrations : List (Registration α)
  deriving DecidableEq, Repr

namespace TypeRegistry

variable {α : Type}

/-- A registry without entries. -/
def empty (kind : String) : TypeRegistry α := ⟨kind, []⟩

variable (r : TypeRegistry α)

/-- The entry of an identifier. -/
def find? (id : UInt32) : Option (Registration α) := r.registrations.find? (·.id == id)

/-- The type that belongs to an identifier. -/
def structure? (id : UInt32) : Option α := (r.find? id).map (·.structureType)

/-- The name under which an identifier was registered. -/
def name? (id : UInt32) : Option String := (r.find? id).map (·.name)

/-- Whether an identifier is in use. -/
def contains (id : UInt32) : Bool := (r.find? id).isSome

/-- Number of identifiers in use. -/
def size : Nat := r.registrations.length

/-- Whether no identifier is in use. -/
def isEmpty : Bool := r.registrations.isEmpty

/-- Identifiers and names in ascending order of identifiers. -/
def toList : List (UInt32 × String) := r.registrations.map fun e => (e.id, e.name)

/-- Put an entry in front of the first one with a larger identifier. -/
def insert (e : Registration α) : List (Registration α) → List (Registration α)
  | [] => [e]
  | x :: rest => if e.id < x.id then e :: x :: rest else x :: insert e rest

/-- Register a type under an identifier that is not in use. -/
def register (id : UInt32) (name : String) (structureType : α) :
    Except RegistryError (TypeRegistry α) :=
  match r.find? id with
  | some existing => .error (.duplicateIdentifier r.kind id existing.name name)
  | none => .ok { r with registrations := insert ⟨id, name, structureType⟩ r.registrations }

/-- Register structures under the numbers of their encodings, one after the other. -/
def registerAll (r : TypeRegistry Structure) (structures : List Structure) :
    Except RegistryError (TypeRegistry Structure) :=
  structures.foldlM (fun r s => r.register s.encodingId s.name s) r

end TypeRegistry

/-- The registries of the standard dictionary. -/
structure Registries where
  /-- Every structure. -/
  extensionObjects : TypeRegistry Structure
  /-- The service messages. -/
  services : TypeRegistry Structure
  deriving DecidableEq, Repr

namespace Registries

/-- Register the structures of the standard dictionary. -/
def build : Except RegistryError Registries := do
  let extensionObjects ← (TypeRegistry.empty "extension object").registerAll Structure.all
  let services ← (TypeRegistry.empty "service").registerAll (Structure.all.filter (·.isService))
  return { extensionObjects, services }

end Registries

end OpcWire
