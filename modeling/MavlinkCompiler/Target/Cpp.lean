import MavlinkCompiler.Model.Basic
import MavlinkCompiler.Target.Artifact
import MavlinkCompiler.Target.Comment
import MavlinkCompiler.Text.LetterCase

/-!
# C++ sources

Three files: a header with the enumerations and the message ids, a header with the payload of every
message, and the out-of-line metadata that the serialization runtime reads.

Messages are declared scope by scope. A scope other than the global one has a class `Extension`,
which owns the map from the scope's message ids to checksum bytes and lengths; the map of the global
scope belongs to the runtime's own class. The runtime is not part of the generated files, and is
left out.

* `idEnums`, `crcMaps`: which messages each id enumeration and each map holds.
* `artifacts`: the three files.
-/

namespace MavlinkCompiler.Cpp

/-! ## Types and names -/

/-- The runtime's name of a scalar type: `scalar_name`. -/
def scalarName : Scalar → String
  | .char => "Char"
  | .uint8 => "Uint8"
  | .int8 => "Int8"
  | .uint16 => "Uint16"
  | .int16 => "Int16"
  | .uint32 => "Uint32"
  | .int32 => "Int32"
  | .uint64 => "Uint64"
  | .int64 => "Int64"
  | .float => "Float"
  | .double => "Double"
  | .version => "Uint8_version"

/-- The type of a payload member: `member_type`. -/
def memberType (type : FieldType) : String :=
  match type.count with
  | some count =>
    "Value_array<" ++ scalarName type.scalar ++ ", " ++ toString count.val ++ ">"
  | none => scalarName type.scalar

/-- The map type from message ids to checksum bytes and lengths: `CRC_MAP_TYPE`. -/
def crcMapType : String :=
  "std::map<MESSAGE_ID_TYPE, Extra_byte_length_info>"

/-- A scope in front of a name: `prefix`. -/
def qualifier (scope : Option String) : String :=
  match scope with
  | some scope => scope ++ "::"
  | none => ""

/-- The constant that is a message's id: `id_constant`. -/
def idConstant (qualified : QualifiedName) : String :=
  qualifier qualified.scope ++ "MESSAGE_ID::" ++ qualified.name

/-- The part of a message's name that its types share. -/
def typeSuffix (qualified : QualifiedName) : String :=
  Text.lower qualified.name

/-! ## Scopes -/

/-- Lines inside a scope, between `open_namespace` and `close_namespace`. -/
def inScope (scope : Option String) (lines : List String) : List String :=
  match scope with
  | some scope =>
    ("namespace " ++ scope ++ " \x7b") :: lines ++ ["\x7d /* namespace " ++ scope ++ " */"]
  | none => lines

/-- Lines inside the namespaces of the library, between `open_root` and `close_root`. -/
def inLibrary (lines : List String) : List String :=
  ["namespace ugcs \x7b", "namespace vsm \x7b", "namespace mavlink \x7b", ""] ++ lines ++
    ["\x7d /* namespace mavlink */", "\x7d /* namespace vsm */", "\x7d /* namespace ugcs */"]

/-- The comment for an optional description. -/
def described (indent : Nat) (description : Option String) : List String :=
  match description with
  | some text => blockComment indent text
  | none => []

/-! ## Enumerations and ids -/

/-- An entry of an enumeration. -/
def entryLines (entry : Entry × Int64) : List String :=
  blockComment 1 (entryText entry.1.description entry.1.params) ++
    ["    " ++ entry.1.name ++ " = " ++ toString entry.2.toInt ++ ","]

/-- An enumeration: `render_enum`. -/
def enumLines (scoping : Scoping) (enumeration : Enumeration) : List String :=
  let qualified := enumeration.qualified scoping
  inScope qualified.scope
    (described 0 enumeration.description ++
      ["enum " ++ qualified.name ++ " \x7b"] ++ enumeration.valuedEntries.flatMap entryLines ++
      ["\x7d;"]) ++ [""]

/-- The enumerations of message ids, one for each scope: the second loop of `render_enums`. -/
def idEnums (model : Model) : List (Option String × List Message) :=
  model.scopeGroups

/-- The id of a message. -/
def idLines (message : Message) : List String :=
  described 1 message.description ++
    ["    " ++ message.name ++ " = " ++ toString message.id.toNat ++ ","]

/-- An enumeration of message ids. -/
def idEnumLines (idEnum : Option String × List Message) : List String :=
  inScope idEnum.1
    (["enum MESSAGE_ID: MESSAGE_ID_TYPE \x7b"] ++ idEnum.2.flatMap idLines ++ ["\x7d;"]) ++ [""]

/-- The header of enumerations and ids: `render_enums`. -/
def enumsHeader (model : Model) : List String :=
  blockComment 0 (banner ++ "\n\nEnumerations definitions for MAVLink protocol.") ++
    inLibrary
      (model.enums.flatMap (enumLines model.scoping) ++
        blockComment 0 "Mavlink message identifier." ++
        (idEnums model).flatMap idEnumLines)

/-! ## Payloads -/

/-- The extension class of a scope: `render_extension_class`. -/
def extensionLines (scope : String) : List String := [
  "namespace " ++ scope ++ " \x7b",
  "    class Extension: public mavlink::Extension \x7b",
  "    public:",
  "        static const Extension &",
  "        Get()",
  "        \x7b",
  "            return instance;",
  "        \x7d",
  "",
  "        virtual std::string",
  "        Get_name() const override",
  "        \x7b",
  "            return \"" ++ scope ++ "\";",
  "        \x7d",
  "",
  "        virtual const " ++ crcMapType ++ " *",
  "        Get_crc_extra_byte_map() const override",
  "        \x7b",
  "            return &crc_extra_bytes_length_map;",
  "        \x7d",
  "",
  "    private:",
  "        static const Extension instance;",
  "        static const " ++ crcMapType ++ " crc_extra_bytes_length_map;",
  "    \x7d;",
  "\x7d /* namespace " ++ scope ++ " */",
  ""]

/-- A payload member: `render_member`. -/
def memberLines (field : Field) : List String :=
  described 1 field.description ++ ["    " ++ memberType field.type ++ " " ++ field.name ++ ";"]

/-- The members of the extension segment. -/
def extensionMemberLines (payload : Payload) : List String :=
  if payload.hasExtension then
    blockComment 1 "Extension fields, present in MAVLink 2 payloads only." ++
      payload.extension.flatMap memberLines
  else
    []

/-- The payload structure of a message: the first part of `render_message`. -/
def structLines (suffix : String) (payload : Payload) : List String :=
  ["namespace internal \x7b",
    "struct Pld_struct_" ++ suffix ++ " \x7b"] ++
  blockComment 1 "Reset all fields to UgCS default values" ++
  ["    void",
    "    Reset();"] ++
  payload.base.flatMap memberLines ++
  extensionMemberLines payload ++
  ["\x7d __PACKED;",
    "",
    "extern mavlink::internal::Field_descriptor pld_desc_" ++ suffix ++ "[];",
    "",
    "extern const char pld_name_" ++ suffix ++ "[];",
    "",
    "\x7d /* namespace internal */",
    ""]

/-- The payload type of a message. -/
def payloadTypeLines (qualified : QualifiedName) (suffix : String) (crcExtra : UInt8) :
    List String :=
  blockComment 0 ("@see internal::Pld_struct_" ++ suffix) ++
  ["typedef Payload<internal::Pld_struct_" ++ suffix ++ ", internal::pld_desc_" ++ suffix ++ ",",
    "                internal::pld_name_" ++ suffix ++ ",",
    "                " ++ idConstant qualified ++ ",",
    "                " ++ toString crcExtra.toNat ++ ">",
    "    Pld_" ++ suffix ++ ";"]

/-- The extension class as a further parameter of the type map. -/
def extensionParameter (scope : Option String) : String :=
  match scope with
  | some scope => ", " ++ scope ++ "::Extension"
  | none => ""

/-- The map from a message id to its payload type. -/
def typeMapperLines (qualified : QualifiedName) (suffix : String) : List String := [
  "",
  "template<>",
  "struct Payload_type_mapper<" ++ idConstant qualified ++ extensionParameter qualified.scope ++
    "> \x7b",
  "    typedef " ++ qualifier qualified.scope ++ "Pld_" ++ suffix ++ " type;",
  "\x7d;",
  "",
  ""]

/-- The declarations of a message: `render_message`. -/
def messageLines (scoping : Scoping) (message : Message) : List String :=
  let qualified := message.qualified scoping
  let suffix := typeSuffix qualified
  described 0 message.description ++
  inScope qualified.scope
    (structLines suffix message.payload ++
      payloadTypeLines qualified suffix message.crcExtra) ++
  typeMapperLines qualified suffix

/-- The header of payloads: `render_messages_header`. -/
def messagesHeader (model : Model) : List String :=
  blockComment 0 (banner ++ "\n\nMessages definitions for MAVLink protocol.") ++
    inLibrary
      ((model.scopeGroups.filterMap (·.1)).flatMap extensionLines ++
        model.messages.flatMap (messageLines model.scoping))

/-! ## Metadata -/

/-- The maps from message ids to checksum bytes and lengths: the global one, then one for each
scope, as `render_messages_impl` goes through them. -/
def crcMaps (model : Model) : List (Option String × List Message) :=
  let globals := model.scopeGroups.filter fun group => group.1.isNone
  (none, globals.flatMap (·.2)) :: model.scopeGroups.filter fun group => group.1.isSome

/-- A message's pair in a map: `render_crc_entry`. -/
def crcEntryLines (scoping : Scoping) (message : Message) : List String := [
  "\x7b" ++ idConstant (message.qualified scoping) ++ ",",
  "    \x7b" ++ toString message.crcExtra.toNat ++ ", " ++ toString message.baseSize ++ ", " ++
    toString message.extendedSize ++ "\x7d\x7d,"]

/-- The lines that open a map. -/
def crcMapHead (scope : Option String) : List String :=
  match scope with
  | none => ["const " ++ crcMapType ++ " mavlink::Extension::crc_extra_bytes_length_map = \x7b"]
  | some scope =>
    let helper := "Extension_" ++ scope ++ "_type_helper"
    ["using " ++ helper ++ " = ::ugcs::vsm::mavlink::" ++ scope ++ "::Extension;",
      "const " ++ helper ++ " " ++ helper ++ "::instance;",
      "const " ++ crcMapType ++ " " ++ helper ++ "::crc_extra_bytes_length_map = \x7b"]

/-- A map. -/
def crcMapLines (scoping : Scoping) (crcMap : Option String × List Message) : List String :=
  crcMapHead crcMap.1 ++ crcMap.2.flatMap (crcEntryLines scoping) ++ ["\x7d;", ""]

/-- The descriptor of a field. -/
def descriptorLine (field : Field) : String :=
  "\x7b\"" ++ field.name ++ "\", " ++ field.type.scalar.token ++ ", " ++
    toString field.type.elements ++ "\x7d,"

/-- The metadata of a message: `render_message_impl`. -/
def metadataLines (scoping : Scoping) (message : Message) : List String :=
  let qualified := message.qualified scoping
  let suffix := typeSuffix qualified
  let home := "mavlink::" ++ qualifier qualified.scope ++ "internal::"
  ["mavlink::internal::Field_descriptor " ++ home ++ "pld_desc_" ++ suffix ++ "[] = \x7b"] ++
  message.fields.map descriptorLine ++
  ["\x7bnullptr, NONE, 0\x7d",
    "\x7d;",
    "",
    "const char " ++ home ++ "pld_name_" ++ suffix ++ "[] = \"" ++ qualified.name ++ "\";",
    "",
    "void",
    home ++ "Pld_struct_" ++ suffix ++ "::Reset()",
    "\x7b"] ++
  message.fields.map (fun field => "    " ++ field.name ++ ".Reset();") ++
  ["\x7d",
    ""]

/-- The implementation file: `render_messages_impl`. -/
def implementation (model : Model) : List String :=
  blockComment 0 (banner ++ "\n\nMessages definitions for MAVLink protocol.") ++
  ["",
    "#include <ugcs/vsm/mavlink.h>",
    "",
    "using namespace ugcs::vsm;",
    "using namespace ugcs::vsm::mavlink;",
    ""] ++
  blockComment 0 "Map values are \x7bcrc_extra, base_length, extended_length\x7d." ++
  (crcMaps model).flatMap (crcMapLines model.scoping) ++
  model.messages.flatMap (metadataLines model.scoping)

/-- The generated files: `emit`. -/
def artifacts (model : Model) : List Artifact := [
  ⟨"include/ugcs/vsm/auto_mavlink_enums.h", unlines (enumsHeader model)⟩,
  ⟨"include/ugcs/vsm/auto_mavlink_messages.h", unlines (messagesHeader model)⟩,
  ⟨"auto_mavlink_messages.cpp", unlines (implementation model)⟩]

end MavlinkCompiler.Cpp
