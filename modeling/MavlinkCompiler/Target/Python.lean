import MavlinkCompiler.Model.Basic
import MavlinkCompiler.Target.Artifact
import MavlinkCompiler.Target.Comment
import MavlinkCompiler.Text.LetterCase

/-!
# The Python module

One module with a class for each enumeration, a class of message ids, and a class for each message
that describes its fields. Scope and name are joined by an underscore to make an identifier.

* `identifier`, `className`: how a message is called.
* `artifacts`: the module.
-/

namespace MavlinkCompiler.Python

/-- The comment for a text: `comment`. -/
def comment (indent : Nat) (text : String) : List String :=
  markedComment "#" indent text

/-- The comment for an optional description. -/
def described (indent : Nat) (description : Option String) : List String :=
  match description with
  | some text => comment indent text
  | none => []

/-- A qualified name as an identifier: `message_ident`. -/
def identifier (qualified : QualifiedName) : String :=
  qualified.joined "_"

/-- The class of the message with an identifier, `class_name`: in lower case, the first letter
raised. -/
def className (identifier : String) : String :=
  Text.capitalize identifier

/-! ## Enumerations and ids -/

/-- A class body, which must not be empty. -/
def body (lines : List String) : List String :=
  if lines.isEmpty then ["    pass"] else lines

/-- An entry of an enumeration. -/
def entryLines (entry : Entry × Int64) : List String :=
  comment 1 (entryText entry.1.description entry.1.params) ++
    ["    " ++ entry.1.name ++ " = " ++ toString entry.2.toInt]

/-- The class of an enumeration. -/
def enumLines (scoping : Scoping) (enumeration : Enumeration) : List String :=
  described 0 enumeration.description ++
  ["class " ++ identifier (enumeration.qualified scoping) ++ ":"] ++
  body (enumeration.valuedEntries.flatMap entryLines) ++
  ["", ""]

/-- The id of a message. -/
def idLines (scoping : Scoping) (message : Message) : List String :=
  described 1 message.description ++
    ["    " ++ identifier (message.qualified scoping) ++ " = " ++ toString message.id.toNat]

/-- The enumerations and the ids: `render_enums`. -/
def enumsLines (model : Model) : List String :=
  comment 0 "Common enumerations" ++
  ["", ""] ++
  model.enums.flatMap (enumLines model.scoping) ++
  comment 0 "Mavlink message identifier." ++
  ["class MESSAGE_ID:"] ++
  body (model.messages.flatMap (idLines model.scoping)) ++
  ["", "", "enumList = ["] ++
  model.enums.map (fun enumeration =>
    "    " ++ identifier (enumeration.qualified model.scoping) ++ ",") ++
  ["    MESSAGE_ID,", "]", ""]

/-! ## Messages -/

/-- The classes that describe fields: `render_field_types`. -/
def fieldTypeLines : List String :=
  ["",
    "class MsgFieldType:",
    "    def __init__(self, id, numElements):",
    "        self.id = id",
    "        self.numElements = numElements",
    "",
    "    # ID values for MAVLink types"] ++
  Scalar.all.map (fun scalar => "    " ++ scalar.token ++ " = " ++ toString scalar.index) ++
  ["",
    "class MsgFieldDesc:",
    "    def __init__(self, name, type):",
    "        self.name = name",
    "        self.type = type",
    "",
    "class Msg:",
    ""]

/-- The description of a field. -/
def fieldLines (field : Field) : List String :=
  described 2 field.description ++
    ["        fd_" ++ field.name ++ " = MsgFieldDesc('" ++ field.name ++
      "', MsgFieldType(MsgFieldType." ++ field.type.scalar.token ++ ", " ++
      toString field.type.elements ++ "))"]

/-- The class of a message: `render_message`. -/
def messageLines (scoping : Scoping) (message : Message) : List String :=
  let qualified := message.qualified scoping
  described 1 message.description ++
  ["    class " ++ className (identifier qualified) ++ ":",
    "        name = '" ++ qualified.text ++ "'",
    "        id = MESSAGE_ID." ++ identifier qualified,
    "        crcExtraByte = " ++ toString message.crcExtra.toNat,
    "        baseSize = " ++ toString message.baseSize,
    "        extendedSize = " ++ toString message.extendedSize,
    "        extensionsStart = " ++ toString message.payload.extensionStart] ++
  message.fields.flatMap fieldLines ++
  ["        fieldDescs = [" ++
      ", ".intercalate (message.fields.map fun field => "fd_" ++ field.name) ++ "]",
    ""]

/-- The module: `render_module`. -/
def moduleLines (model : Model) : List String :=
  comment 0 (banner ++ "\n\nDefinitions for MAVLink protocol.") ++
  [""] ++
  enumsLines model ++
  fieldTypeLines ++
  model.messages.flatMap (messageLines model.scoping) ++
  ["    list = ["] ++
  model.messages.map (fun message =>
    "        " ++ className (identifier (message.qualified model.scoping)) ++ ",") ++
  ["        ]"]

/-- The generated file: `emit`. -/
def artifacts (model : Model) : List Artifact :=
  [⟨"auto_mavlink.py", unlines (moduleLines model)⟩]

end MavlinkCompiler.Python
