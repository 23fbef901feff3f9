import OpcWire.WireType

/-!
# Structures

The structures of the standard dictionary that may travel in an extension object. Each has a
name, the number of its binary encoding, and a layout: its fields in the order in which they
are written. References to other structures and to structured built-in types may be absent.
-/

namespace OpcWire

/-- A structure of the standard dictionary. -/
inductive Structure
  | enumValueType
  | enumField
  | structureField
  | structureDefinition
  | enumDefinition
  | argument
  | requestHeader
  | responseHeader
  | serviceFault
  | applicationDescription
  | findServersRequest
  | findServersResponse
  | signatureData
  | channelSecurityToken
  | redundantServerDataType
  | cancelRequest
  | cancelResponse
  | referenceDescription
  | browseDescription
  | readValueId
  | range
  | euInformation
  deriving DecidableEq, Repr

namespace Structure

/-- All structures, in the order of the dictionary. -/
def all : List Structure :=
  [ .enumValueType, .enumField, .structureField, .structureDefinition, .enumDefinition,
    .argument, .requestHeader, .responseHeader, .serviceFault, .applicationDescription,
    .findServersRequest, .findServersResponse, .signatureData, .channelSecurityToken,
    .redundantServerDataType, .cancelRequest, .cancelResponse, .referenceDescription,
    .browseDescription, .readValueId, .range, .euInformation ]

/-- Name of a structure in the dictionary. -/
def name : Structure → String
  | enumValueType => "EnumValueType"
  | enumField => "EnumField"
  | structureField => "StructureField"
  | structureDefinition => "StructureDefinition"
  | enumDefinition => "EnumDefinition"
  | argument => "Argument"
  | requestHeader => "RequestHeader"
  | responseHeader => "ResponseHeader"
  | serviceFault => "ServiceFault"
  | applicationDescription => "ApplicationDescription"
  | findServersRequest => "FindServersRequest"
  | findServersResponse => "FindServersResponse"
  | signatureData => "SignatureData"
  | channelSecurityToken => "ChannelSecurityToken"
  | redundantServerDataType => "RedundantServerDataType"
  | cancelRequest => "CancelRequest"
  | cancelResponse => "CancelResponse"
  | referenceDescription => "ReferenceDescription"
  | browseDescription => "BrowseDescription"
  | readValueId => "ReadValueId"
  | range => "Range"
  | euInformation => "EUInformation"

/-- Number of the binary encoding of a structure, in namespace 0. -/
def encodingId : Structure → UInt32
  | enumValueType => 8251
  | enumField => 14845
  | structureField => 14844
  | structureDefinition => 122
  | enumDefinition => 123
  | argument => 298
  | requestHeader => 391
  | responseHeader => 394
  | serviceFault => 397
  | applicationDescription => 310
  | findServersRequest => 422
  | findServersResponse => 425
  | signatureData => 458
  | channelSecurityToken => 443
  | redundantServerDataType => 855
  | cancelRequest => 479
  | cancelResponse => 482
  | referenceDescription => 520
  | browseDescription => 516
  | readValueId => 628
  | range => 886
  | euInformation => 889

/-! ### Layouts -/

def enumValueTypeLayout : Layout :=
  .ofFields
    [ ("Value", .scalar .int64),
      ("DisplayName", .nullable (.scalar .localizedText)),
      ("Description", .nullable (.scalar .localizedText)) ]

def enumFieldLayout : Layout :=
  .ofFields
    [ ("Value", .scalar .int64),
      ("DisplayName", .nullable (.scalar .localizedText)),
      ("Description", .nullable (.scalar .localizedText)),
      ("Name", .scalar .string) ]

def structureFieldLayout : Layout :=
  .ofFields
    [ ("Name", .scalar .string),
      ("Description", .nullable (.scalar .localizedText)),
      ("DataType", .nullable (.scalar .nodeId)),
      ("ValueRank", .scalar .int32),
      ("ArrayDimensions", .array (.scalar .uint32)),
      ("MaxStringLength", .scalar .uint32),
      ("IsOptional", .scalar .boolean) ]

def structureDefinitionLayout : Layout :=
  .ofFields
    [ ("DefaultEncodingId", .nullable (.scalar .nodeId)),
      ("BaseDataType", .nullable (.scalar .nodeId)),
      ("StructureType", .scalar (.enumeration .structureType)),
      ("Fields", .array (.nullable (.record "StructureField" structureFieldLayout))) ]

def enumDefinitionLayout : Layout :=
  .ofFields
    [ ("Fields", .array (.nullable (.record "EnumField" enumFieldLayout))) ]

def argumentLayout : Layout :=
  .ofFields
    [ ("Name", .scalar .string),
      ("DataType", .nullable (.scalar .nodeId)),
      ("ValueRank", .scalar .int32),
      ("ArrayDimensions", .array (.scalar .uint32)),
      ("Description", .nullable (.scalar .localizedText)) ]

def requestHeaderLayout : Layout :=
  .ofFields
    [ ("AuthenticationToken", .nullable (.scalar .nodeId)),
      ("Timestamp", .scalar .dateTime),
      ("RequestHandle", .scalar .uint32),
      ("ReturnDiagnostics", .scalar .uint32),
      ("AuditEntryId", .scalar .string),
      ("TimeoutHint", .scalar .uint32),
      ("AdditionalHeader", .nullable .extensionObject) ]

def responseHeaderLayout : Layout :=
  .ofFields
    [ ("Timestamp", .scalar .dateTime),
      ("RequestHandle", .scalar .uint32),
      ("ServiceResult", .scalar .statusCode),
      ("ServiceDiagnostics", .nullable (.scalar .diagnosticInfo)),
      ("StringTable", .array (.scalar .string)),
      ("AdditionalHeader", .nullable .extensionObject) ]

def serviceFaultLayout : Layout :=
  .ofFields
    [ ("ResponseHeader", .nullable (.record "ResponseHeader" responseHeaderLayout)) ]

def applicationDescriptionLayout : Layout :=
  .ofFields
    [ ("ApplicationUri", .scalar .string),
      ("ProductUri", .scalar .string),
      ("ApplicationName", .nullable (.scalar .localizedText)),
      ("ApplicationType", .scalar (.enumeration .applicationType)),
      ("GatewayServerUri", .scalar .string),
      ("DiscoveryProfileUri", .scalar .string),
      ("DiscoveryUrls", .array (.scalar .string)) ]

def findServersRequestLayout : Layout :=
  .ofFields
    [ ("RequestHeader", .nullable (.record "RequestHeader" requestHeaderLayout)),
      ("EndpointUrl", .scalar .string),
      ("LocaleIds", .array (.scalar .string)),
      ("ServerUris", .array (.scalar .string)) ]

def findServersResponseLayout : Layout :=
  .ofFields
    [ ("ResponseHeader", .nullable (.record "ResponseHeader" responseHeaderLayout)),
      ("Servers",
        .array (.nullable (.record "ApplicationDescription" applicationDescriptionLayout))) ]

def signatureDataLayout : Layout :=
  .ofFields
    [ ("Algorithm", .scalar .string),
      ("Signature", .scalar .byteString) ]

def channelSecurityTokenLayout : Layout :=
  .ofFields
    [ ("ChannelId", .scalar .uint32),
      ("TokenId", .scalar .uint32),
      ("CreatedAt", .scalar .dateTime),
      ("RevisedLifetime", .scalar .uint32) ]

def redundantServerDataTypeLayout : Layout :=
  .ofFields
    [ ("ServerId", .scalar .string),
      ("ServiceLevel", .scalar .byte),
      ("ServerState", .scalar (.enumeration .serverState)) ]

def cancelRequestLayout : Layout :=
  .ofFields
    [ ("RequestHeader", .nullable (.record "RequestHeader" requestHeaderLayout)),
      ("RequestHandle", .scalar .uint32) ]

def cancelResponseLayout : Layout :=
  .ofFields
    [ ("ResponseHeader", .nullable (.record "ResponseHeader" responseHeaderLayout)),
      ("CancelCount", .scalar .uint32) ]

def referenceDescriptionLayout : Layout :=
  .ofFields
    [ ("ReferenceTypeId", .nullable (.scalar .nodeId)),
      ("IsForward", .scalar .boolean),
      ("NodeId", .nullable (.scalar .expandedNodeId)),
      ("BrowseName", .nullable (.scalar .qualifiedName)),
      ("DisplayName", .nullable (.scalar .localizedText)),
      ("NodeClass", .scalar (.enumeration .nodeClass)),
      ("TypeDefinition", .nullable (.scalar .expandedNodeId)) ]

def browseDescriptionLayout : Layout :=
  .ofFields
    [ ("NodeId", .nullable (.scalar .nodeId)),
      ("BrowseDirection", .scalar (.enumeration .browseDirection)),
      ("ReferenceTypeId", .nullable (.scalar .nodeId)),
      ("IncludeSubtypes", .scalar .boolean),
      ("NodeClassMask", .scalar .uint32),
      ("ResultMask", .scalar .uint32) ]

def readValueIdLayout : Layout :=
  .ofFields
    [ ("NodeId", .nullable (.scalar .nodeId)),
      ("AttributeId", .scalar .attributeId),
      ("IndexRange", .scalar .string),
      ("DataEncoding", .nullable (.scalar .qualifiedName)) ]

def rangeLayout : Layout :=
  .ofFields
    [ ("Low", .scalar .double),
      ("High", .scalar .double) ]

def euInformationLayout : Layout :=
  .ofFields
    [ ("NamespaceUri", .scalar .string),
      ("UnitId", .scalar .int32),
      ("DisplayName", .nullable (.scalar .localizedText)),
      ("Description", .nullable (.scalar .localizedText)) ]

/-- The fields of a structure. -/
def layout : Structure → Layout
  | enumValueType => enumValueTypeLayout
  | enumField => enumFieldLayout
  | structureField => structureFieldLayout
  | structureDefinition => structureDefinitionLayout
  | enumDefinition => enumDefinitionLayout
  | argument => argumentLayout
  | requestHeader => requestHeaderLayout
  | responseHeader => responseHeaderLayout
  | serviceFault => serviceFaultLayout
  | applicationDescription => applicationDescriptionLayout
  | findServersRequest => findServersRequestLayout
  | findServersResponse => findServersResponseLayout
  | signatureData => signatureDataLayout
  | channelSecurityToken => channelSecurityTokenLayout
  | redundantServerDataType => redundantServerDataTypeLayout
  | cancelRequest => cancelRequestLayout
  | cancelResponse => cancelResponseLayout
  | referenceDescription => referenceDescriptionLayout
  | browseDescription => browseDescriptionLayout
  | readValueId => readValueIdLayout
  | range => rangeLayout
  | euInformation => euInformationLayout

/-- The wire type of a structure. -/
def wireType (s : Structure) : WireType := .record s.name s.layout

/-- The structure called `name`. -/
def ofName? (name : String) : Option Structure := all.find? (·.name == name)

/-- Whether a name is that of a service message: a request, a response or the fault that may
take a response's place. -/
def isServiceName (name : String) : Bool :=
  "Request".toList.isSuffixOf name.toList || "Response".toList.isSuffixOf name.toList ||
    name == "ServiceFault"

/-- Whether a structure is a service message. -/
def isService (s : Structure) : Bool := isServiceName s.name

end Structure

end OpcWire
