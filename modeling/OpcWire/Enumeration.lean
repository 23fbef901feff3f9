/-!
# Enumerations

The enumerations of the standard dictionary. Values travel as 32-bit words, and a value that is
no member of its enumeration is kept as it is.
-/

namespace OpcWire

/-- An enumeration of the standard dictionary. -/
inductive Enumeration
  | nodeClass
  | messageSecurityMode
  | applicationType
  | browseDirection
  | structureType
  | namingRuleType
  | serverState
  deriving DecidableEq, Repr

/-- A name that is no member of an enumeration. -/
structure UnknownMember where
  /-- Name of the enumeration. -/
  enumeration : String
  /-- The name that was looked up. -/
  name : String
  deriving DecidableEq, Repr

/-- The wording of a failed look-up. -/
def UnknownMember.message (e : UnknownMember) : String :=
  "'" ++ e.name ++ "' is not a member of enum " ++ e.enumeration

namespace Enumeration

/-- All enumerations, in the order of the dictionary. -/
def all : List Enumeration :=
  [ .nodeClass, .messageSecurityMode, .applicationType, .browseDirection, .structureType,
    .namingRuleType, .serverState ]

/-- Name of an enumeration in the dictionary. -/
def name : Enumeration → String
  | nodeClass => "NodeClass"
  | messageSecurityMode => "MessageSecurityMode"
  | applicationType => "ApplicationType"
  | browseDirection => "BrowseDirection"
  | structureType => "StructureType"
  | namingRuleType => "NamingRuleType"
  | serverState => "ServerState"

/-- Names and values of the members, in the order of declaration. -/
def members : Enumeration → List (String × UInt32)
  | nodeClass =>
    [ ("Unspecified", 0), ("Object", 1), ("Variable", 2), ("Method", 4), ("ObjectType", 8),
      ("VariableType", 16), ("ReferenceType", 32), ("DataType", 64), ("View", 128) ]
  | messageSecurityMode =>
    [ ("Invalid", 0), ("None", 1), ("Sign", 2), ("SignAndEncrypt", 3) ]
  | applicationType =>
    [ ("Server", 0), ("Client", 1), ("ClientAndServer", 2), ("DiscoveryServer", 3) ]
  | browseDirection =>
    [ ("Forward", 0), ("Inverse", 1), ("Both", 2), ("Invalid", 3) ]
  | structureType =>
    [ ("Structure", 0), ("StructureWithOptionalFields", 1), ("Union", 2) ]
  | namingRuleType =>
    [ ("Mandatory", 1), ("Optional", 2), ("Constraint", 3) ]
  | serverState =>
    [ ("Running", 0), ("Failed", 1), ("NoConfiguration", 2), ("Suspended", 3), ("Shutdown", 4),
      ("Test", 5), ("CommunicationFault", 6), ("Unknown", 7) ]

/-- The value of the member called `name`. -/
def valueOf (e : Enumeration) (name : String) : Except UnknownMember UInt32 :=
  match e.members.find? (·.1 == name) with
  | some (_, value) => .ok value
  | none => .error ⟨e.name, name⟩

/-- The name of the first member with the given value. -/
def nameOf? (e : Enumeration) (value : UInt32) : Option String :=
  (e.members.find? (·.2 == value)).map (·.1)

end Enumeration

end OpcWire
