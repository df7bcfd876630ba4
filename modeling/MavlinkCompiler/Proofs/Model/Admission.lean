import MavlinkCompiler.Proofs.Model.Residue
import MavlinkCompiler.Proofs.Schema.Normal

/-!
# Documents that were read can only clash

Building the model checks the types of fields a second time. For a document that was read from a
text this never refuses anything, whatever the catalog holds by then: what can still go wrong is
that definitions clash, with each other or with those of the catalog.

* `Schema.Error.IsClash`: the errors that are about two definitions.
* `Catalog.isClash_of_addEnum`, `Catalog.isClash_of_addMessage`: an enumeration is refused only for
  a clash, and so is a message with readable types.
* `parsed_document_only_clashes`: what is known of a document that was read.
-/

namespace MavlinkCompiler

open Schema (Document EnumDefinition MessageDefinition)

/-- An error is about two definitions, or two sources, and not about one of them alone. -/
def Schema.Error.IsClash : Schema.Error → Prop
  | .malformed _ _ => False
  | .fieldType _ => False
  | .duplicateSource _ => True
  | .duplicateMessage _ => True
  | .duplicateMessageId _ _ _ => True
  | .duplicateEntry _ _ => True
  | .duplicateParam _ _ => True

namespace Catalog

variable {catalog : Catalog} {scope : Option String} {group : Nat} {error : Schema.Error}

/-- An enumeration is refused for its own parameters and entries, or for those it is joined to. -/
theorem isClash_of_addEnum {definition : EnumDefinition}
    (h : (addEnum scope group catalog definition).failure = some error) : error.IsClash := by
  unfold addEnum at h
  split at h
  next further _ =>
    unfold addEnumeration at h
    split at h
    · unfold mergeEnum at h
      dsimp only at h
      split at h
      · cases h
      next existing _ =>
        obtain ⟨taken, left, -, -, -, ⟨-, hnone⟩ | ⟨clash, rest, -, -, hsome⟩⟩ :=
          Enumeration.addEntries_cases further.entries
            { existing with description := existing.description.or further.description }
        · rw [show (existing.absorb further).2 = none from hnone] at h
          cases h
        · rw [show (existing.absorb further).2 = _ from hsome] at h
          cases h
          trivial
    · cases h
  next cause hcause =>
    cases h
    rcases ofDefinition_eq_error hcause with ⟨entry, index, rfl⟩ | ⟨enumeration, entry, rfl⟩
    · trivial
    · trivial

/-- A message with readable types is refused for its name or its id. -/
theorem isClash_of_addMessage {definition : MessageDefinition} (htyped : definition.Typed)
    (h : (addMessage scope group catalog definition).failure = some error) : error.IsClash := by
  obtain ⟨message, hmessage⟩ : ∃ message : Message, message.Declares ⟨scope, group, definition⟩ :=
    Message.exists_declares htyped
  have hdefinition : Message.ofDefinition definition scope group = .ok message := hmessage
  unfold addMessage at h
  rw [hdefinition] at h
  dsimp only at h
  unfold addNamedMessage at h
  dsimp only at h
  split at h
  · cases h
    trivial
  split at h
  · cases h
    trivial
  · cases h

/-- A document with readable types is refused for a clash. -/
theorem isClash_of_addSource {source : String} {document : Document} (htyped : document.Typed)
    (h : (catalog.addSource source document).failure = some error) : error.IsClash := by
  rcases addSource_eq_some h with ⟨-, rfl⟩ | ⟨number, definition, hstops⟩ |
    ⟨number, definition, hstops⟩
  · trivial
  · exact isClash_of_addEnum hstops.stops.refused
  · have hmem : definition ∈ document.messages := List.mem_of_getElem? hstops.stops.place
    exact isClash_of_addMessage (htyped definition hmem) hstops.stops.refused

end Catalog

/-- **A document that was read is well formed and can only clash.** Whatever the text: the types of
all fields can be read again, parameters are counted from one, extensions start within the fields of
their message, and no description is empty or changed by describing it again. Adding the document
to a catalog, whatever that holds and whatever the source is called, fails only because a source, an
entry, a parameter, or the name or the id of a message is there twice. -/
theorem parsed_document_only_clashes {origin text : String} {document : Document}
    (h : (Document.parse origin text).outcome = .ok document) :
    (∀ message ∈ document.messages, ∀ field ∈ message.fields,
      ∃ type, FieldType.parse field.type = .ok type) ∧
    (∀ enumeration ∈ document.enums, ∀ entry ∈ enumeration.entries, ∀ param ∈ entry.params,
      1 ≤ param.1) ∧
    (∀ message ∈ document.messages, ∀ start ∈ message.extensionsAt,
      start ≤ message.fields.length) ∧
    (∀ description ∈ document.descriptions,
      description ≠ "" ∧ Schema.describe? description = some description) ∧
    ∀ (catalog : Catalog) (source : String) (error : Schema.Error),
      (catalog.addSource source document).failure = some error → error.IsClash := by
  have hnormal := Document.normal_of_parse h
  refine ⟨fun message hmessage field hfield => ?_, fun enumeration henum entry hentry => ?_,
    fun message hmessage => (hnormal.messages message hmessage).boundary,
    fun description hdescription => ?_, fun catalog source error herror => ?_⟩
  · exact ((hnormal.messages message hmessage).fields field hfield).typed
  · exact ((hnormal.enums enumeration henum).entries entry hentry).indices
  · have hfixed := hnormal.descriptions description hdescription
    exact ⟨Schema.ne_empty_of_describe? hfixed, hfixed⟩
  · exact Catalog.isClash_of_addSource (Document.typed_of_parse h) herror

/-- A definition file with descriptions in several lines, a parameter and an extension. -/
def commandText : String :=
  "<mavlink><enums><enum name='C'><entry name='GO'><param index='1'> far\n off </param></entry>" ++
    "</enum></enums><messages><message name='M' id='1'><description> a\n\n\n b  c </description>" ++
    "<extensions/><field name='f' type='char[2]'/></message></messages></mavlink>"

theorem commandText_only_clashes :
    ∃ document, (Document.parse "c.xml" commandText).outcome = .ok document ∧
      document.descriptions = ["far off", "a\n\nb c"] ∧
      (∀ description ∈ document.descriptions,
        description ≠ "" ∧ Schema.describe? description = some description) ∧
      ∀ (catalog : Catalog) (source : String) (error : Schema.Error),
        (catalog.addSource source document).failure = some error → error.IsClash := by
  have hread : (Document.parse "c.xml" commandText).outcome.toOption.map Document.descriptions =
      some ["far off", "a\n\nb c"] := by
    decide +kernel
  obtain ⟨document, hdocument, hdescriptions⟩ := Option.map_eq_some_iff.mp hread
  have hparse := Outcome.eq_ok_of_toOption hdocument
  obtain ⟨-, -, -, hnormal, hclash⟩ := parsed_document_only_clashes hparse
  exact ⟨document, hparse, hdescriptions, hnormal, hclash⟩

end MavlinkCompiler
