import MavlinkCompiler.Model.Association
import MavlinkCompiler.Schema.Reader

/-!
# The protocol model

A finished catalog together with the associations of its fields. Models are only looked at: by
source, by written name, or scope by scope. The `ProtocolModel` has the catalog's lists and indices
as its own; here it holds the catalog.

* `Catalog.finish`: the model of a catalog.
* `Model.load`: the model of definition files.
* `Model.scopeGroups`: the messages by effective scope.
-/

namespace MavlinkCompiler

/-- A finished catalog: `ProtocolModel`. -/
structure Model where
  catalog : Catalog
  associations : Associations
  deriving DecidableEq

namespace Model

/-- Whether scopes count. -/
def scoping (model : Model) : Scoping :=
  model.catalog.scoping

/-- The groups in order. -/
def groups (model : Model) : List Group :=
  model.catalog.groups

/-- The enumerations in order of first declaration. -/
def enums (model : Model) : List Enumeration :=
  model.catalog.enums

/-- The messages in order. -/
def messages (model : Model) : List Message :=
  model.catalog.messages

/-- The group of a source: `get_group`. -/
def group? (model : Model) (source : String) : Option Group :=
  (model.catalog.groupsBySource.find? source).bind fun position => model.groups[position]?

/-- The enumeration with a written name: `get_enum`. -/
def enum? (model : Model) (key : String) : Option Enumeration :=
  (model.catalog.enumsByName.find? key).bind fun position => model.enums[position]?

/-- The message with a written name: `get_message`. -/
def message? (model : Model) (key : String) : Option Message :=
  (model.catalog.messagesByName.find? key).bind fun position => model.messages[position]?

/-- The group of a message: `group_of`. -/
def groupOf? (model : Model) (message : Message) : Option Group :=
  model.groups[message.group]?

/-- The messages of a group: `messages_of`. -/
def messagesOf (model : Model) (group : Group) : List Message :=
  group.messages.filterMap fun position => model.messages[position]?

/-! ## Scope by scope -/

/-- Adds messages to a scope, which comes last if it is new: one round of `namespace_groups`. -/
def extendScope (scope : Option String) (messages : List Message) :
    List (Option String × List Message) → List (Option String × List Message)
  | [] => [(scope, messages)]
  | (other, found) :: rest =>
    if other = scope then
      (other, found ++ messages) :: rest
    else
      (other, found) :: extendScope scope messages rest

/-- The messages of the model by effective scope, scopes in order of first appearance:
`namespace_groups`. A scope whose groups have no messages is listed too. -/
def scopeGroups (model : Model) : List (Option String × List Message) :=
  model.groups.foldl
    (fun scopes group =>
      extendScope (model.scoping.effective group.scope) (model.messagesOf group) scopes)
    []

end Model

/-! ## Building models -/

/-- The model of a catalog: `finish`. -/
def Catalog.finish (catalog : Catalog) : Model :=
  ⟨catalog, catalog.associations.1⟩

/-- A definition file: how it is called, and its text. -/
structure Source where
  id : String
  text : String
  deriving DecidableEq, Repr

/-- A step as a computation with a catalog as its result. -/
def Step.logged (step : Step) : Logged Schema.Error Catalog :=
  match step.failure with
  | some error => ⟨step.events, .error error⟩
  | none => ⟨step.events, .ok step.catalog⟩

/-- Reads a definition file and adds it to a catalog: one round of `load_model`. -/
def Catalog.addText (catalog : Catalog) (source : Source) : Logged Schema.Error Catalog := do
  let document ← Schema.Document.parse source.id source.text
  Logged.emit (.parsedSource source.id document.enums.length document.messages.length)
  (catalog.addSource source.id document).logged

/-- The model of definition files, read in order: `load_model`. -/
def Model.load (scoping : Scoping) (sources : List Source) : Logged Schema.Error Model := do
  let catalog ← sources.foldlM Catalog.addText (Catalog.empty scoping)
  let model := catalog.finish
  ⟨catalog.associations.2 ++
    [.builtModel model.groups.length model.enums.length model.messages.length], .ok model⟩

end MavlinkCompiler
