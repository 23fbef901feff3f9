import OpcWire.Builtin.Number

/-!
# Attribute identifiers

Which attribute of a node is meant, as a 32-bit word.
-/

namespace OpcWire

/-- An attribute of a node. -/
structure AttributeId where
  /-- The number of the attribute. -/
  value : UInt32
  deriving DecidableEq, Repr, Ord

namespace AttributeId

/-- Names of the attributes, in the order of their numbers from zero on. -/
def names : List String :=
  [ "Invalid", "NodeId", "NodeClass", "BrowseName", "DisplayName", "Description", "WriteMask",
    "UserWriteMask", "IsAbstract", "Symmetric", "InverseName", "ContainsNoLoops",
    "EventNotifier", "Value", "DataType", "ValueRank", "ArrayDimensions", "AccessLevel",
    "UserAccessLevel", "MinimumSamplingInterval", "Historizing", "Executable", "UserExecutable",
    "DataTypeDefinition", "RolePermissions", "UserRolePermissions", "AccessRestrictions",
    "AccessLevelEx" ]

/-- Attributes that have a symbolic name. -/
def named : List (String × AttributeId) :=
  names.zipIdx.map fun (name, index) => (name, ⟨UInt32.ofNat index⟩)

/-- Attribute identifiers travel as 32-bit words. -/
def codec : Codec AttributeId := Codec.ofWord 4 (·.value.toNat) (fun n => ⟨UInt32.ofNat n⟩)

end AttributeId

end OpcWire
