import MavlinkCompiler.Log
import MavlinkCompiler.Schema.Description
import MavlinkCompiler.Schema.Document
import MavlinkCompiler.Schema.EntryValue
import MavlinkCompiler.Schema.Error

/-!
# Reading definition documents

The vocabulary of definition files, read from an element tree. Each element looks at the children it
knows and passes over the others; at the top, passing over an element is reported. Text is taken
from directly inside an element. Attributes that no element is asked for are not
looked at.

* `Document.ofElement`: the document of a root element.
* `Document.parse`: the document of a text.
-/

namespace MavlinkCompiler.Schema

open Xml (Element)

/-- Why a root element could not be read, `BuildError`: the format, or the type of a field. -/
inductive Fault where
  | defect (defect : Defect)
  | fieldType (error : TypeError)
  deriving DecidableEq, Repr

/-- The error for a fault in a file. -/
def Fault.error (origin : String) : Fault → Error
  | .defect found => .malformed origin found
  | .fieldType found => .fieldType found

/-! ## Attributes and numbers -/

/-- An attribute that has to be there: `required`. -/
def required (element : Element) (key : String) : Except Fault String :=
  match element.attribute? key with
  | some value => .ok value
  | none => .error (.defect (.missingAttribute element.name key))

/-- A 32-bit number, blanks around it allowed: `parse_u32`. -/
def number (quantity : Quantity) (text : String) : Except Fault UInt32 :=
  match Text.unsigned? 10 UInt32.size (Text.trim text.toList) with
  | some n => .ok (UInt32.ofNat n)
  | none => .error (.defect (.invalidNumber quantity text))

/-! ## Enumerations -/

/-- The value attribute of an entry, as `build_entry` reads it. -/
def entryValue (element : Element) (name : String) : Except Fault (Option Int64) :=
  match element.attribute? "value" with
  | none => .ok none
  | some text =>
    match entryValue? text with
    | some value => .ok (some value)
    | none => .error (.defect (.invalidValue name text))

/-- A parameter of the entry `name`, as `build_entry` reads it. -/
def readParam (name : String) (element : Element) : Except Fault (UInt32 × String) := do
  let text ← required element "index"
  let index ← number .paramIndex text
  if index == 0 then
    throw (.defect (.zeroParamIndex name))
  pure (index, (describe? element.text).getD "")

/-- Takes one child of an entry into account: one round of `build_entry`. -/
def EntryDefinition.read (entry : EntryDefinition) (child : Element) :
    Except Fault EntryDefinition :=
  if child.name = "description" then
    .ok { entry with description := describe? child.text }
  else if child.name = "param" then do
    let param ← readParam entry.name child
    pure { entry with params := entry.params ++ [param] }
  else
    .ok entry

/-- An entry: `build_entry`. -/
def readEntry (element : Element) : Except Fault EntryDefinition := do
  let name ← required element "name"
  let value ← entryValue element name
  element.elements.foldlM EntryDefinition.read ⟨name, value, none, []⟩

/-- Takes one child of an enumeration into account: one round of `build_enum`. -/
def EnumDefinition.read (enumeration : EnumDefinition) (child : Element) :
    Except Fault EnumDefinition :=
  if child.name = "description" then
    .ok { enumeration with description := describe? child.text }
  else if child.name = "entry" then do
    let entry ← readEntry child
    pure { enumeration with entries := enumeration.entries ++ [entry] }
  else
    .ok enumeration

/-- An enumeration: `build_enum`. -/
def readEnum (element : Element) : Except Fault EnumDefinition := do
  let name ← required element "name"
  element.elements.foldlM EnumDefinition.read ⟨name, none, []⟩

/-! ## Messages -/

/-- A field: `build_field`. Its type has to be readable, and is kept as written. -/
def readField (element : Element) : Except Fault FieldDefinition := do
  let name ← required element "name"
  let type ← required element "type"
  let _ ← (FieldType.parse type).mapError Fault.fieldType
  pure ⟨name, type, describe? element.text, element.attribute? "enum", element.attribute? "units"⟩

/-- Takes one child of a message into account: one round of `build_message`. Only the first mark of
an extension counts. -/
def MessageDefinition.read (message : MessageDefinition) (child : Element) :
    Except Fault MessageDefinition :=
  if child.name = "description" then
    .ok { message with description := describe? child.text }
  else if child.name = "extensions" then
    .ok { message with extensionsAt := message.extensionsAt.or (some message.fields.length) }
  else if child.name = "field" then do
    let field ← readField child
    pure { message with fields := message.fields ++ [field] }
  else
    .ok message

/-- A message: `build_message`. -/
def readMessage (element : Element) : Except Fault MessageDefinition := do
  let name ← required element "name"
  let text ← required element "id"
  let id ← number .messageId text
  element.elements.foldlM MessageDefinition.read ⟨name, id, none, [], none⟩

/-! ## Documents -/

/-- The children of an element that have a name. -/
def childrenNamed (element : Element) (name : String) : List Element :=
  element.elements.filter fun child => child.name = name

/-- Takes one child of the root into account: one round of `build_document`. -/
def Document.read (document : Document) (child : Element) : Logged Fault Document :=
  if child.name = "include" then
    pure { document with includes := document.includes ++ [Text.trimmed child.text] }
  else if child.name = "version" then do
    let version ← .lift (number .version (Text.trimmed child.text))
    pure { document with version := some version }
  else if child.name = "dialect" then do
    let dialect ← .lift (number .dialect (Text.trimmed child.text))
    pure { document with dialect := some dialect }
  else if child.name = "enums" then do
    let enums ← .lift ((childrenNamed child "enum").mapM readEnum)
    pure { document with enums := document.enums ++ enums }
  else if child.name = "messages" then do
    let messages ← .lift ((childrenNamed child "message").mapM readMessage)
    pure { document with messages := document.messages ++ messages }
  else do
    Logged.emit (.ignoredElement child.name)
    pure document

/-- The document of a root element: `build_document`. -/
def Document.ofElement (root : Element) : Logged Fault Document :=
  if root.name = "mavlink" then
    root.elements.foldlM Document.read Document.empty
  else
    .lift (.error (.defect (.wrongRoot root.name)))

/-- The document of a text, `parse`; `origin` names the text in errors. -/
def Document.parse (origin text : String) : Logged Error Document :=
  match Element.parse text with
  | .ok root => (Document.ofElement root).mapError (Fault.error origin)
  | .error error => .lift (.error (.malformed origin (.markup error)))

end MavlinkCompiler.Schema
