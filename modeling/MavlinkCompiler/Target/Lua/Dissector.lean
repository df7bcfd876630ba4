import MavlinkCompiler.Model.Basic
import MavlinkCompiler.Target.Artifact
import MavlinkCompiler.Target.Comment
import MavlinkCompiler.Target.Lua.Frame

/-!
# The Lua dissector

A dissector for a packet analyzer. Every scalar of a payload, every element of an array and every
text is an *item*: it has a field declaration by which the analyzer shows it, and a range of payload
bytes that is read for it. Declarations and ranges are lists of their own; items with the same key
belong together.

What the analyzer does with the file is left out: `Proto`, `ProtoField` and `DissectorTable` are
names in a text.

* `Item`, `items`: the items of a field.
* `declarations`: the field declarations of a message.
* `ranges`: the byte ranges of a message, laid end to end in wire order.
* `artifacts`: the dissector.
-/

namespace MavlinkCompiler.Lua

/-! ## Items -/

/-- The analyzer's type for the items of a field: `proto_field_type`. -/
def itemType (type : FieldType) : String :=
  if type.isString then
    "string"
  else
    match type.scalar with
    | .char | .uint8 | .version => "uint8"
    | .int8 => "int8"
    | .uint16 => "uint16"
    | .int16 => "int16"
    | .uint32 => "uint32"
    | .int32 => "int32"
    | .uint64 => "uint64"
    | .int64 => "int64"
    | .float => "float"
    | .double => "double"

/-- What is shown of a field at once, `FieldItem`: a scalar, an element of an array, or a text. -/
structure Item where
  /-- What an element adds to the key of its field. -/
  keySuffix : String
  /-- What an element adds to the label of its field. -/
  labelSuffix : String
  /-- Bytes on the wire. -/
  size : Nat
  deriving DecidableEq, Repr

/-- The items of a field: `field_items`. -/
def items (type : FieldType) : List Item :=
  if type.isString || !type.isArray then
    [⟨"", "", type.wireSize⟩]
  else
    (List.range type.elements).map fun i =>
      ⟨"_" ++ toString i, "[" ++ toString i ++ "]", type.scalar.size⟩

/-! ## Keys -/

/-- A qualified name as an identifier: `message_ident`. -/
def identifier (qualified : QualifiedName) : String :=
  qualified.joined "_"

/-- The table of an enumeration's values. -/
def tableName (qualified : QualifiedName) : String :=
  "enum_" ++ identifier qualified

/-- The key of an item of a message's field. -/
def itemKey (message : QualifiedName) (field : Field) (item : Item) : String :=
  identifier message ++ "_" ++ field.name ++ item.keySuffix

/-- The table of the values of a field, `value_table`: whole numbers of at most four bytes whose
enumeration is known. -/
def valueTable? (model : Model) (message : Message) (field : Field) : Option String :=
  if field.type.scalar.isInteger && field.type.scalar.size ≤ 4 then do
    let key ← model.associations.lookup? (message.qualified model.scoping).text field.name
    let enumeration ← model.enum? key
    pure (tableName (enumeration.qualified model.scoping))
  else
    none

/-! ## Declarations -/

/-- The declaration of an item. -/
structure Declaration where
  key : String
  type : String
  label : String
  /-- The table of the item's values. -/
  table : Option String
  deriving DecidableEq, Repr

/-- The declaration of an item as a line. -/
def Declaration.line (declaration : Declaration) : String :=
  "f." ++ declaration.key ++ " = ProtoField." ++ declaration.type ++ "(\"mavlink_proto." ++
    declaration.key ++ "\", \"" ++ declaration.label ++ " (" ++ declaration.type ++ ")\"" ++
    (match declaration.table with
      | some table => ", base.DEC, " ++ table
      | none => "") ++ ")"

/-- The declarations of a field's items. -/
def fieldDeclarations (model : Model) (message : Message) (field : Field) : List Declaration :=
  (items field.type).map fun item => {
    key := itemKey (message.qualified model.scoping) field item
    type := itemType field.type
    label := field.name ++ item.labelSuffix
    table := valueTable? model message field }

/-- The declarations of a message's items. -/
def declarations (model : Model) (message : Message) : List Declaration :=
  message.fields.flatMap (fieldDeclarations model message)

/-- The declarations of a message as lines: `render_field_declarations`. -/
def declarationLines (model : Model) (message : Message) : List String :=
  (match message.description with
    | some text => markedComment "--" 0 text
    | none => []) ++
  (declarations model message).map Declaration.line ++ [""]

/-! ## Ranges -/

/-- The payload bytes of an item. -/
structure Range where
  key : String
  offset : Nat
  size : Nat
  deriving DecidableEq, Repr

/-- The reading of an item as a line. -/
def Range.line (range : Range) : String :=
  "    tree:add_le(f." ++ range.key ++ ", payload(" ++ toString range.offset ++ ", " ++
    toString range.size ++ "))"

/-- The ranges of keyed sizes, laid end to end from an offset, which is `at` in
`render_payload_dissector`. -/
def layRanges (offset : Nat) : List (String × Nat) → List Range
  | [] => []
  | (key, size) :: rest => ⟨key, offset, size⟩ :: layRanges (offset + size) rest

/-- The key and size of every item of some fields of a message. -/
def keyedSizes (message : QualifiedName) (fields : List Field) : List (String × Nat) :=
  fields.flatMap fun field => (items field.type).map fun item =>
    (itemKey message field item, item.size)

/-- The ranges of a message's items. -/
def ranges (scoping : Scoping) (message : Message) : List Range :=
  layRanges 0 (keyedSizes (message.qualified scoping) message.fields)

/-- The lines that read a payload; none if there are no bytes to read. -/
def readingLines (scoping : Scoping) (message : Message) : List String :=
  if 0 < message.extendedSize then
    ("    local payload = payload_tvb(buffer, offset, len, " ++ toString message.extendedSize ++
        ")") ::
      (ranges scoping message).map Range.line
  else
    []

/-- The payload dissector of a message: `render_payload_dissector`. -/
def dissectorLines (scoping : Scoping) (message : Message) : List String :=
  ["-- dissect payload of message type " ++ (message.qualified scoping).text,
    "payload_dissectors[" ++ toString message.id.toNat ++
      "] = function(buffer, tree, offset, len)",
    "    check_payload_length(tree, len, " ++ toString message.baseSize ++ ", " ++
      toString message.extendedSize ++ ")"] ++
  readingLines scoping message ++
  ["end", ""]

/-! ## Tables -/

/-- The table of message names: the first part of `render_tables`. -/
def nameTableLines (model : Model) : List String :=
  ["", "messageName = \x7b"] ++
  model.messages.map (fun message =>
    "[" ++ toString message.id.toNat ++ "] = '" ++
      (message.qualified model.scoping).text ++ "',") ++
  ["\x7d", ""]

/-- The table of an enumeration's values: one round of `render_tables`. -/
def enumTableLines (scoping : Scoping) (enumeration : Enumeration) : List String :=
  [tableName (enumeration.qualified scoping) ++ " = \x7b"] ++
  enumeration.valuedEntries.map (fun (entry, value) =>
    "[" ++ toString value.toInt ++ "] = '" ++ entry.name ++ "',") ++
  ["\x7d", ""]

/-! ## The file -/

/-- What the file is, for its reader. -/
def introduction : String :=
  banner ++ "\n\nWireshark dissector for the MAVLink protocol.\n\n" ++
    "Usage: copy this file into the Wireshark plugins directory."

/-- The lines that bind the dissector to ports. -/
def portLines : List String :=
  ["", "local udp_encap = DissectorTable.get(\"udp.port\")"] ++
  udpPorts.map (fun port => "udp_encap:add(" ++ toString port ++ ", mavlink_proto)") ++
  ["local tcp_encap = DissectorTable.get(\"tcp.port\")"] ++
  tcpPorts.map (fun port => "tcp_encap:add(" ++ toString port ++ ", mavlink_proto)")

/-- The dissector: `render_dissector`. -/
def fileLines (model : Model) : List String :=
  markedComment "--" 0 introduction ++
  protocolLines ++
  nameTableLines model ++
  model.enums.flatMap (enumTableLines model.scoping) ++
  headerLines ++
  [""] ++
  model.messages.flatMap (declarationLines model) ++
  ["local payload_dissectors = \x7b\x7d", ""] ++
  model.messages.flatMap (dissectorLines model.scoping) ++
  dispatcherLines ++
  portLines

/-- The generated file: `emit`. -/
def artifacts (model : Model) : List Artifact :=
  [⟨"auto_mavlink_dissector.lua", unlines (fileLines model)⟩]

end MavlinkCompiler.Lua
