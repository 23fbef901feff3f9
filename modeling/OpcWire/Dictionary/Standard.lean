import OpcWire.Dictionary.Document
import OpcWire.Json.Printer

/-!
# The standard dictionary

The types of the standard namespace that `OpcWire.Enumeration` and `OpcWire.Structure` list, in
the form in which the generator takes them, and the text of their document.
-/

namespace OpcWire

namespace Dictionary

/-- A field that is no array. -/
def Field.single (name typeName : String) : Field := ⟨name, typeName, none⟩

/-- The two fields of an array: its length, and its elements. -/
def Field.counted (lengthName name typeName : String) : List Field :=
  [⟨lengthName, "opc:Int32", none⟩, ⟨name, typeName, some lengthName⟩]

/-- An enumerated type of 32 bits. -/
def standardEnumeration (name : String) (members : List (String × Int)) : EnumeratedType :=
  ⟨name, 32, members.map fun (name, value) => ⟨name, value⟩⟩

/-- The enumerated types of the standard dictionary. -/
def standardEnumerations : List EnumeratedType :=
  [ standardEnumeration "NodeClass"
        [ ("Unspecified", 0), ("Object", 1), ("Variable", 2), ("Method", 4), ("ObjectType", 8),
          ("VariableType", 16), ("ReferenceType", 32), ("DataType", 64), ("View", 128) ],
    standardEnumeration "MessageSecurityMode"
        [ ("Invalid", 0), ("None", 1), ("Sign", 2), ("SignAndEncrypt", 3) ],
    standardEnumeration "ApplicationType"
        [ ("Server", 0), ("Client", 1), ("ClientAndServer", 2), ("DiscoveryServer", 3) ],
    standardEnumeration "BrowseDirection"
        [ ("Forward", 0), ("Inverse", 1), ("Both", 2), ("Invalid", 3) ],
    standardEnumeration "StructureType"
        [ ("Structure", 0), ("StructureWithOptionalFields", 1), ("Union", 2) ],
    standardEnumeration "NamingRuleType"
        [ ("Mandatory", 1), ("Optional", 2), ("Constraint", 3) ],
    standardEnumeration "ServerState"
        [ ("Running", 0), ("Failed", 1), ("NoConfiguration", 2), ("Suspended", 3),
          ("Shutdown", 4), ("Test", 5), ("CommunicationFault", 6), ("Unknown", 7) ] ]

/-- The structured types of the standard dictionary. -/
def standardStructures : List StructuredType :=
  [ ⟨"EnumValueType", some "ua:ExtensionObject",
          [ .single "Value" "opc:Int64", .single "DisplayName" "ua:LocalizedText",
            .single "Description" "ua:LocalizedText" ]⟩,
    ⟨"EnumField", some "tns:EnumValueType",
          [ .single "Value" "opc:Int64", .single "DisplayName" "ua:LocalizedText",
            .single "Description" "ua:LocalizedText", .single "Name" "opc:String" ]⟩,
    ⟨"StructureField", some "ua:ExtensionObject",
          [ .single "Name" "opc:String", .single "Description" "ua:LocalizedText",
            .single "DataType" "ua:NodeId", .single "ValueRank" "opc:Int32" ] ++
          Field.counted "NoOfArrayDimensions" "ArrayDimensions" "opc:UInt32" ++
          [ .single "MaxStringLength" "opc:UInt32", .single "IsOptional" "opc:Boolean" ]⟩,
    ⟨"StructureDefinition", some "tns:DataTypeDefinition",
          [ .single "DefaultEncodingId" "ua:NodeId", .single "BaseDataType" "ua:NodeId",
            .single "StructureType" "tns:StructureType" ] ++
          Field.counted "NoOfFields" "Fields" "tns:StructureField"⟩,
    ⟨"EnumDefinition", some "tns:DataTypeDefinition",
          Field.counted "NoOfFields" "Fields" "tns:EnumField"⟩,
    ⟨"Argument", some "ua:ExtensionObject",
          [ .single "Name" "opc:String", .single "DataType" "ua:NodeId",
            .single "ValueRank" "opc:Int32" ] ++
          Field.counted "NoOfArrayDimensions" "ArrayDimensions" "opc:UInt32" ++
          [ .single "Description" "ua:LocalizedText" ]⟩,
    ⟨"RequestHeader", some "ua:ExtensionObject",
          [ .single "AuthenticationToken" "ua:NodeId", .single "Timestamp" "opc:DateTime",
            .single "RequestHandle" "opc:UInt32", .single "ReturnDiagnostics" "opc:UInt32",
            .single "AuditEntryId" "opc:String", .single "TimeoutHint" "opc:UInt32",
            .single "AdditionalHeader" "ua:ExtensionObject" ]⟩,
    ⟨"ResponseHeader", some "ua:ExtensionObject",
          [ .single "Timestamp" "opc:DateTime", .single "RequestHandle" "opc:UInt32",
            .single "ServiceResult" "ua:StatusCode",
            .single "ServiceDiagnostics" "ua:DiagnosticInfo" ] ++
          Field.counted "NoOfStringTable" "StringTable" "opc:String" ++
          [ .single "AdditionalHeader" "ua:ExtensionObject" ]⟩,
    ⟨"ServiceFault", some "ua:ExtensionObject",
          [ .single "ResponseHeader" "tns:ResponseHeader" ]⟩,
    ⟨"ApplicationDescription", some "ua:ExtensionObject",
          [ .single "ApplicationUri" "opc:String", .single "ProductUri" "opc:String",
            .single "ApplicationName" "ua:LocalizedText",
            .single "ApplicationType" "tns:ApplicationType",
            .single "GatewayServerUri" "opc:String", .single "DiscoveryProfileUri" "opc:String" ] ++
          Field.counted "NoOfDiscoveryUrls" "DiscoveryUrls" "opc:String"⟩,
    ⟨"FindServersRequest", some "ua:ExtensionObject",
          [ .single "RequestHeader" "tns:RequestHeader", .single "EndpointUrl" "opc:String" ] ++
          Field.counted "NoOfLocaleIds" "LocaleIds" "opc:String" ++
          Field.counted "NoOfServerUris" "ServerUris" "opc:String"⟩,
    ⟨"FindServersResponse", some "ua:ExtensionObject",
          [ .single "ResponseHeader" "tns:ResponseHeader" ] ++
          Field.counted "NoOfServers" "Servers" "tns:ApplicationDescription"⟩,
    ⟨"SignatureData", some "ua:ExtensionObject",
          [ .single "Algorithm" "opc:String", .single "Signature" "opc:ByteString" ]⟩,
    ⟨"ChannelSecurityToken", some "ua:ExtensionObject",
          [ .single "ChannelId" "opc:UInt32", .single "TokenId" "opc:UInt32",
            .single "CreatedAt" "opc:DateTime", .single "RevisedLifetime" "opc:UInt32" ]⟩,
    ⟨"RedundantServerDataType", some "ua:ExtensionObject",
          [ .single "ServerId" "opc:String", .single "ServiceLevel" "opc:Byte",
            .single "ServerState" "tns:ServerState" ]⟩,
    ⟨"CancelRequest", some "ua:ExtensionObject",
          [ .single "RequestHeader" "tns:RequestHeader", .single "RequestHandle" "opc:UInt32" ]⟩,
    ⟨"CancelResponse", some "ua:ExtensionObject",
          [ .single "ResponseHeader" "tns:ResponseHeader", .single "CancelCount" "opc:UInt32" ]⟩,
    ⟨"ReferenceDescription", some "ua:ExtensionObject",
          [ .single "ReferenceTypeId" "ua:NodeId", .single "IsForward" "opc:Boolean",
            .single "NodeId" "ua:ExpandedNodeId", .single "BrowseName" "ua:QualifiedName",
            .single "DisplayName" "ua:LocalizedText", .single "NodeClass" "tns:NodeClass",
            .single "TypeDefinition" "ua:ExpandedNodeId" ]⟩,
    ⟨"BrowseDescription", some "ua:ExtensionObject",
          [ .single "NodeId" "ua:NodeId", .single "BrowseDirection" "tns:BrowseDirection",
            .single "ReferenceTypeId" "ua:NodeId", .single "IncludeSubtypes" "opc:Boolean",
            .single "NodeClassMask" "opc:UInt32", .single "ResultMask" "opc:UInt32" ]⟩,
    ⟨"ReadValueId", some "ua:ExtensionObject",
          [ .single "NodeId" "ua:NodeId", .single "AttributeId" "opc:UInt32",
            .single "IndexRange" "opc:String", .single "DataEncoding" "ua:QualifiedName" ]⟩,
    ⟨"Range", some "ua:ExtensionObject",
          [ .single "Low" "opc:Double", .single "High" "opc:Double" ]⟩,
    ⟨"EUInformation", some "ua:ExtensionObject",
          [ .single "NamespaceUri" "opc:String", .single "UnitId" "opc:Int32",
            .single "DisplayName" "ua:LocalizedText",
            .single "Description" "ua:LocalizedText" ]⟩ ]

/-- The standard dictionary. -/
def standard : Dictionary where
  targetNamespace := "http://opcfoundation.org/UA/"
  enumerations := standardEnumerations
  structures := standardStructures

/-- The text of the standard dictionary. -/
def standardText : String := standard.toJson.pretty

end Dictionary

end OpcWire
