/-!
# Definition documents

What one definition file declares, before it is joined with others. Names and types are kept as the
file writes them. Includes are noted and not followed, so there is no reading of further files.

* `Document` and the definitions in it.
* `MessageDefinition.boundary`: the number of fields before the extension.
-/

namespace MavlinkCompiler.Schema

/-- One entry of an enumeration: `EntryDef`. -/
structure EntryDefinition where
  name : String
  value : Option Int64
  description : Option String
  /-- Descriptions of a command's parameters by index, in the order of declaration. -/
  params : List (UInt32 × String)
  deriving DecidableEq

/-- An enumeration: `EnumDef`. -/
structure EnumDefinition where
  name : String
  description : Option String
  entries : List EntryDefinition
  deriving DecidableEq

/-- A field of a message: `FieldDef`. -/
structure FieldDefinition where
  name : String
  /-- The type as written. -/
  type : String
  description : Option String
  /-- The enumeration that the field's values belong to. -/
  enumName : Option String
  units : Option String
  deriving DecidableEq

/-- A message: `MessageDef`. -/
structure MessageDefinition where
  name : String
  id : UInt32
  description : Option String
  fields : List FieldDefinition
  /-- The position of the first extension field, if the message marks one. -/
  extensionsAt : Option Nat
  deriving DecidableEq

/-- The number of fields before the extension: `extensions_boundary`. -/
def MessageDefinition.boundary (message : MessageDefinition) : Nat :=
  match message.extensionsAt with
  | some start => min start message.fields.length
  | none => message.fields.length

/-- A definition file: `SchemaDocument`. -/
structure Document where
  /-- Names of included files, which are not followed. -/
  includes : List String
  version : Option UInt32
  dialect : Option UInt32
  enums : List EnumDefinition
  messages : List MessageDefinition
  deriving DecidableEq

/-- A file that declares nothing. -/
def Document.empty : Document :=
  ⟨[], none, none, [], []⟩

end MavlinkCompiler.Schema
