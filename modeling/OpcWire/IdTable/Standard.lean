import OpcWire.IdTable.Basic

/-!
# The standard identifier table

The identifiers of the standard namespace that the standard dictionary needs.
-/

namespace OpcWire

namespace IdTable

/-- The standard identifier table. -/
def standard : IdTable where
  entries :=
    [ ⟨"RootFolder", 84, "Object"⟩,
      ⟨"ObjectsFolder", 85, "Object"⟩,
      ⟨"StructureDefinition", 99, "DataType"⟩,
      ⟨"EnumDefinition", 100, "DataType"⟩,
      ⟨"StructureField", 101, "DataType"⟩,
      ⟨"EnumField", 102, "DataType"⟩,
      ⟨"StructureDefinition_Encoding_DefaultBinary", 122, "Object"⟩,
      ⟨"EnumDefinition_Encoding_DefaultBinary", 123, "Object"⟩,
      ⟨"NodeClass", 257, "DataType"⟩,
      ⟨"Argument", 296, "DataType"⟩,
      ⟨"Argument_Encoding_DefaultBinary", 298, "Object"⟩,
      ⟨"MessageSecurityMode", 302, "DataType"⟩,
      ⟨"ApplicationType", 307, "DataType"⟩,
      ⟨"ApplicationDescription", 308, "DataType"⟩,
      ⟨"ApplicationDescription_Encoding_DefaultBinary", 310, "Object"⟩,
      ⟨"RequestHeader", 389, "DataType"⟩,
      ⟨"RequestHeader_Encoding_DefaultBinary", 391, "Object"⟩,
      ⟨"ResponseHeader", 392, "DataType"⟩,
      ⟨"ResponseHeader_Encoding_DefaultBinary", 394, "Object"⟩,
      ⟨"ServiceFault", 395, "DataType"⟩,
      ⟨"ServiceFault_Encoding_DefaultBinary", 397, "Object"⟩,
      ⟨"FindServersRequest", 420, "DataType"⟩,
      ⟨"FindServersRequest_Encoding_DefaultBinary", 422, "Object"⟩,
      ⟨"FindServersResponse", 423, "DataType"⟩,
      ⟨"FindServersResponse_Encoding_DefaultBinary", 425, "Object"⟩,
      ⟨"ChannelSecurityToken", 441, "DataType"⟩,
      ⟨"ChannelSecurityToken_Encoding_DefaultBinary", 443, "Object"⟩,
      ⟨"SignatureData", 456, "DataType"⟩,
      ⟨"SignatureData_Encoding_DefaultBinary", 458, "Object"⟩,
      ⟨"CancelRequest", 477, "DataType"⟩,
      ⟨"CancelRequest_Encoding_DefaultBinary", 479, "Object"⟩,
      ⟨"CancelResponse", 480, "DataType"⟩,
      ⟨"CancelResponse_Encoding_DefaultBinary", 482, "Object"⟩,
      ⟨"BrowseDirection", 510, "DataType"⟩,
      ⟨"BrowseDescription", 514, "DataType"⟩,
      ⟨"BrowseDescription_Encoding_DefaultBinary", 516, "Object"⟩,
      ⟨"ReferenceDescription", 518, "DataType"⟩,
      ⟨"ReferenceDescription_Encoding_DefaultBinary", 520, "Object"⟩,
      ⟨"ReadValueId", 626, "DataType"⟩,
      ⟨"ReadValueId_Encoding_DefaultBinary", 628, "Object"⟩,
      ⟨"ServerState", 852, "DataType"⟩,
      ⟨"RedundantServerDataType", 853, "DataType"⟩,
      ⟨"RedundantServerDataType_Encoding_DefaultBinary", 855, "Object"⟩,
      ⟨"Range", 884, "DataType"⟩,
      ⟨"Range_Encoding_DefaultBinary", 886, "Object"⟩,
      ⟨"EUInformation", 887, "DataType"⟩,
      ⟨"EUInformation_Encoding_DefaultBinary", 889, "Object"⟩,
      ⟨"Server", 2253, "Object"⟩,
      ⟨"EnumValueType", 7594, "DataType"⟩,
      ⟨"EnumValueType_Encoding_DefaultBinary", 8251, "Object"⟩,
      ⟨"StructureType", 98, "DataType"⟩,
      ⟨"NamingRuleType", 120, "DataType"⟩,
      ⟨"StructureField_Encoding_DefaultBinary", 14844, "Object"⟩,
      ⟨"EnumField_Encoding_DefaultBinary", 14845, "Object"⟩ ]

/-- The text of the standard identifier table: two comments, and a line for each entry. -/
def standardText : String :=
  String.join <|
    (["# Numeric identifiers of namespace 0 used by the bundled dictionary.",
      "# Name,Id,Kind"] ++ standard.entries.map IdEntry.line).map
      (· ++ "\n")

end IdTable

end OpcWire
