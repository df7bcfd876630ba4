import MavlinkCompiler.Model.Catalog

/-!
# Fields and their enumerations

A field's values may be those of an enumeration. The field can name it: the name is looked up in the
scope of the field's message, then among the global enumerations. Older definition files name none,
so some fields are known by their names, in any message or in one message.

* `Associations.lookup?`: the enumeration of a field.
* `Catalog.associations`: the associations of all fields, with a report for each name that is not
  found.
-/

namespace MavlinkCompiler

/-- The enumerations, by written name, of fields: for a field of a given message, or of any message
when the message is the empty text. A later pair for the same field replaces an earlier one. This
is `EnumAssociations`. -/
structure Associations where
  /-- Pairs of a message and a field with their enumeration, latest first. -/
  pairs : List ((String × String) × String)
  deriving DecidableEq

namespace Associations

/-- The enumeration of a field of a message, `lookup`: one for that message, or else one for any. -/
def lookup? (associations : Associations) (message field : String) : Option String :=
  (associations.pairs.lookup (message, field)).or (associations.pairs.lookup ("", field))

/-- Associates a field with an enumeration. -/
def insert (associations : Associations) (message field enumeration : String) : Associations :=
  ⟨((message, field), enumeration) :: associations.pairs⟩

end Associations

/-- Fields of definition files that do not name enumerations, `LEGACY_ASSOCIATIONS`: a message, or
none for any message, a field and its enumeration. -/
def knownAssociations : List (String × String × String) := [
  ("", "autopilot", "MAV_AUTOPILOT"),
  ("", "base_mode", "MAV_MODE"),
  ("", "system_status", "MAV_STATE"),
  ("MISSION_ACK", "type", "MAV_MISSION_RESULT"),
  ("HEARTBEAT", "type", "MAV_TYPE"),
  ("", "param_type", "MAV_PARAM_TYPE"),
  ("", "command", "MAV_CMD"),
  ("", "frame", "MAV_FRAME"),
  ("", "result", "MAV_RESULT"),
  ("", "mode", "MAV_MODE"),
  ("", "nav_mode", "MAV_NAV_MODE"),
  ("", "mount_mode", "MAV_MOUNT_MODE"),
  ("", "severity", "MAV_SEVERITY")]

namespace Catalog

/-- Whether an enumeration has this written name. -/
def hasEnum (catalog : Catalog) (key : String) : Bool :=
  (catalog.enumsByName.find? key).isSome

/-- The written name of the enumeration that a field of a message names: `resolved` in `build`. -/
def fieldEnum? (catalog : Catalog) (message : Message) (name : String) : Option String :=
  [(catalog.scoping.qualify message.scope name).text, name].find? catalog.hasEnum

/-- The associations of known fields whose enumerations are declared: the first loop of `build`. -/
def knownFieldAssociations (catalog : Catalog) : Associations :=
  (knownAssociations.filter fun known => catalog.hasEnum known.2.2).foldl
    (fun associations known => associations.insert known.1 known.2.1 known.2.2) ⟨[]⟩

/-- Associates a field of a message with the enumeration it names: one round of the second loop. -/
def associateField (catalog : Catalog) (message : Message) (field : Field)
    (associations : Associations) : Associations × List Event :=
  match field.enumName with
  | none => (associations, [])
  | some name =>
    let key := catalog.messageKey message
    match catalog.fieldEnum? message name with
    | some enumeration => (associations.insert key field.name enumeration, [])
    | none => (associations, [.droppedAssociation key field.name name])

/-- Every field with its message, in order. -/
def messageFields (catalog : Catalog) : List (Message × Field) :=
  catalog.messages.flatMap fun message => message.fields.map fun field => (message, field)

/-- The associations of all fields, and the reports of names that are not found: `build`. -/
def associations (catalog : Catalog) : Associations × List Event :=
  catalog.messageFields.foldl
    (fun (associations, events) (message, field) =>
      let (associations, dropped) := catalog.associateField message field associations
      (associations, events ++ dropped))
    (catalog.knownFieldAssociations, [])

end Catalog

end MavlinkCompiler
