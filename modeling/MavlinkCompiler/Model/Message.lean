import MavlinkCompiler.Model.Name
import MavlinkCompiler.Schema.Document
import MavlinkCompiler.Schema.Error
import MavlinkCompiler.Wire.Payload

/-!
# Messages

A message of the model has its fields in wire order and knows its sizes and its checksum byte. The
byte is computed from the names as written, so that replacing a reserved name does not change it.

A message holds no `MessageLayout`, and its payload stands for `fields` with `extensions_start`.

* `Message.ofDefinition`: the message of a definition.
* `Message.baseSize`, `Message.extendedSize`, `Message.crcExtra`: its layout.
-/

namespace MavlinkCompiler

open Schema (FieldDefinition MessageDefinition)

/-- A message. -/
structure Message where
  /-- The name in generated code. -/
  name : String
  /-- The name as the definition writes it. -/
  wireName : String
  id : UInt32
  /-- The scope of the message's group. -/
  scope : Option String
  /-- The position of the group. -/
  group : Nat
  description : Option String
  /-- The fields in wire order. -/
  payload : Payload
  deriving DecidableEq

/-- The field of a definition: one round of `from_def`. -/
def Field.ofDefinition (definition : FieldDefinition) : Except Schema.Error Field := do
  let type ← (FieldType.parse definition.type).mapError Schema.Error.fieldType
  pure {
    name := safeName definition.name
    wireName := definition.name
    type
    description := definition.description
    enumName := definition.enumName
    units := definition.units }

namespace Message

/-- The message of a definition in a group: `from_def`. -/
def ofDefinition (definition : MessageDefinition) (scope : Option String) (group : Nat) :
    Except Schema.Error Message := do
  let fields ← definition.fields.mapM Field.ofDefinition
  pure {
    name := safeName definition.name
    wireName := definition.name
    id := definition.id
    scope
    group
    description := definition.description
    payload := (Payload.declared fields definition.boundary).packed }

/-- The name by which the message is found: `qualified_name`. -/
def qualified (scoping : Scoping) (message : Message) : QualifiedName :=
  scoping.qualify message.scope message.name

/-- The fields in wire order. -/
def fields (message : Message) : List Field :=
  message.payload.fields

/-- Bytes of the base segment: `base_size`. -/
def baseSize (message : Message) : Nat :=
  message.payload.baseSize

/-- Bytes of the whole payload: `extended_size`. -/
def extendedSize (message : Message) : Nat :=
  message.payload.extendedSize

/-- The byte that stands for the message's base layout in a frame's checksum: `crc_extra`. -/
def crcExtra (message : Message) : UInt8 :=
  MavlinkCompiler.crcExtra message.wireName message.payload.base

end Message

end MavlinkCompiler
