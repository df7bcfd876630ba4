import MavlinkCompiler.Log
import MavlinkCompiler.Model.Enumeration
import MavlinkCompiler.Model.Message

/-!
# The catalog

Documents are added to a catalog one after another. Groups, enumerations and messages are kept in
the order of their first appearance and found by their keys: the source of a group, the qualified
name of an enumeration or a message, the id of a message.

Adding a document stops at the first definition that clashes, and the catalog keeps what was added
before it; the catalog can be used further. A `Step` is a catalog after such an addition. The
catalog is the `ModelBuilder`, and its indices are lists of pairs, latest first.

* `Catalog.addEnum`, `Catalog.addMessage`: one definition.
* `Catalog.addSource`: one document.
-/

namespace MavlinkCompiler

open Schema (Document EnumDefinition MessageDefinition)

/-! ## Positions by key -/

/-- Where the element with a key is in a list: `groups_by_source`, `enums_by_name` and so on. -/
structure Index (κ : Type) where
  pairs : List (κ × Nat)
  deriving DecidableEq

namespace Index

variable {κ : Type} [BEq κ]

/-- No keys. -/
def empty : Index κ := ⟨[]⟩

/-- The position of the element with a key. -/
def find? (index : Index κ) (key : κ) : Option Nat :=
  index.pairs.lookup key

/-- Sets the position for a key. -/
def insert (index : Index κ) (key : κ) (position : Nat) : Index κ :=
  ⟨(key, position) :: index.pairs⟩

@[simp]
theorem find?_empty (key : κ) : (empty : Index κ).find? key = none := rfl

theorem find?_insert (index : Index κ) (key key' : κ) (position : Nat) :
    (index.insert key position).find? key' =
      if key' == key then some position else index.find? key' := by
  simp only [insert, find?, List.lookup_cons]
  cases key' == key <;> rfl

end Index

/-! ## The catalog -/

/-- One source and what it declared first: `DefinitionGroup`. -/
structure Group where
  source : String
  name : String
  scope : Option String
  includes : List String
  /-- Positions of the enumerations that the group declared first. -/
  enums : List Nat
  /-- Positions of the group's messages. -/
  messages : List Nat
  deriving DecidableEq

/-- Everything the added documents declare: `ModelBuilder`. -/
structure Catalog where
  scoping : Scoping
  groups : List Group
  enums : List Enumeration
  messages : List Message
  groupsBySource : Index String
  enumsByName : Index String
  messagesByName : Index String
  messagesById : Index UInt32
  deriving DecidableEq

/-- A catalog after an addition, with the reason if the addition was not completed. -/
structure Step where
  catalog : Catalog
  events : List Event
  failure : Option Schema.Error

namespace Step

/-- Goes on from a completed addition. -/
def andThen (step : Step) (next : Catalog → Step) : Step :=
  match step.failure with
  | some _ => step
  | none =>
    let following := next step.catalog
    { following with events := step.events ++ following.events }

end Step

namespace Catalog

/-- A catalog of no documents: `new`. -/
def empty (scoping : Scoping) : Catalog where
  scoping := scoping
  groups := []
  enums := []
  messages := []
  groupsBySource := .empty
  enumsByName := .empty
  messagesByName := .empty
  messagesById := .empty

/-- Nothing more to add. -/
def done (catalog : Catalog) : Step :=
  ⟨catalog, [], none⟩

/-- An addition that fails and leaves the catalog as it is. -/
def refuse (catalog : Catalog) (error : Schema.Error) : Step :=
  ⟨catalog, [], some error⟩

/-- Makes one addition after the other until one fails. -/
def addAll {δ : Type} (add : Catalog → δ → Step) (catalog : Catalog) : List δ → Step
  | [] => catalog.done
  | definition :: rest => (add catalog definition).andThen fun catalog => catalog.addAll add rest

/-- The written name of an enumeration in this catalog. -/
def enumKey (catalog : Catalog) (enumeration : Enumeration) : String :=
  (enumeration.qualified catalog.scoping).text

/-- The written name of a message in this catalog. -/
def messageKey (catalog : Catalog) (message : Message) : String :=
  (message.qualified catalog.scoping).text

/-! ## Enumerations -/

/-- Adds an enumeration with a new name: the branch of `add_enum` that pushes. -/
def pushEnum (catalog : Catalog) (enumeration : Enumeration) : Catalog :=
  let position := catalog.enums.length
  { catalog with
    enums := catalog.enums ++ [enumeration]
    enumsByName := catalog.enumsByName.insert (catalog.enumKey enumeration) position
    groups := catalog.groups.modify enumeration.group fun group =>
      { group with enums := group.enums ++ [position] } }

/-- Adds the entries of an enumeration to the one at a position: the branch of `add_enum` that
merges. -/
def mergeEnum (catalog : Catalog) (position : Nat) (enumeration : Enumeration) : Step :=
  let merged := Event.mergedEnumeration (catalog.enumKey enumeration)
  match catalog.enums[position]? with
  | none => catalog.done
  | some existing =>
    let (joined, failure) := existing.absorb enumeration
    ⟨{ catalog with enums := catalog.enums.set position joined }, [merged], failure⟩

/-- Adds an enumeration, new or known by its name: the second half of `add_enum`. -/
def addEnumeration (catalog : Catalog) (enumeration : Enumeration) : Step :=
  match catalog.enumsByName.find? (catalog.enumKey enumeration) with
  | some position => catalog.mergeEnum position enumeration
  | none => (catalog.pushEnum enumeration).done

/-- Adds the enumeration of a definition in a group: `add_enum`. -/
def addEnum (scope : Option String) (group : Nat) (catalog : Catalog)
    (definition : EnumDefinition) : Step :=
  match Enumeration.ofDefinition definition scope group with
  | .ok enumeration => catalog.addEnumeration enumeration
  | .error error => catalog.refuse error

/-! ## Messages -/

/-- Adds a message with a new name and a new id: the end of `add_message`. -/
def pushMessage (catalog : Catalog) (message : Message) : Catalog :=
  let position := catalog.messages.length
  { catalog with
    messages := catalog.messages ++ [message]
    messagesByName := catalog.messagesByName.insert (catalog.messageKey message) position
    messagesById := catalog.messagesById.insert message.id position
    groups := catalog.groups.modify message.group fun group =>
      { group with messages := group.messages ++ [position] } }

/-- The written name of the message at a position. -/
def messageKeyAt (catalog : Catalog) (position : Nat) : String :=
  (catalog.messages[position]?.map catalog.messageKey).getD ""

/-- Adds a message unless its name or its id is taken, as `add_message` does; the name is looked at
first. -/
def addNamedMessage (catalog : Catalog) (message : Message) : Step :=
  let key := catalog.messageKey message
  match catalog.messagesByName.find? key with
  | some _ => catalog.refuse (.duplicateMessage key)
  | none =>
    match catalog.messagesById.find? message.id with
    | some first =>
      catalog.refuse (.duplicateMessageId message.id (catalog.messageKeyAt first) key)
    | none =>
      let added := Event.addedMessage key message.id message.baseSize message.extendedSize
        message.crcExtra
      ⟨catalog.pushMessage message, [added], none⟩

/-- Adds the message of a definition in a group: `add_message`. -/
def addMessage (scope : Option String) (group : Nat) (catalog : Catalog)
    (definition : MessageDefinition) : Step :=
  match Message.ofDefinition definition scope group with
  | .ok message => catalog.addNamedMessage message
  | .error error => catalog.refuse error

/-! ## Documents -/

/-- Adds a group without definitions: the beginning of `add_source`. -/
def pushGroup (catalog : Catalog) (source : String) (includes : List String) : Catalog :=
  let name := groupName source
  { catalog with
    groups := catalog.groups ++ [⟨source, name, groupScope name, includes, [], []⟩]
    groupsBySource := catalog.groupsBySource.insert source catalog.groups.length }

/-- Adds the definitions of a document to a group, enumerations first, then messages: the loops of
`add_source`. -/
def addDefinitions (scope : Option String) (group : Nat) (document : Document)
    (catalog : Catalog) : Step :=
  (catalog.addAll (addEnum scope group) document.enums).andThen fun catalog =>
    catalog.addAll (addMessage scope group) document.messages

/-- Adds a document as a new group: `add_source`. -/
def addSource (catalog : Catalog) (source : String) (document : Document) : Step :=
  match catalog.groupsBySource.find? source with
  | some _ => catalog.refuse (.duplicateSource source)
  | none =>
    (catalog.pushGroup source document.includes).addDefinitions (groupScope (groupName source))
      catalog.groups.length document

end Catalog

end MavlinkCompiler
