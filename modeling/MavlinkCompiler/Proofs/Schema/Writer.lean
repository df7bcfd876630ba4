import MavlinkCompiler.Proofs.Schema.Number
import MavlinkCompiler.Proofs.Schema.Reader
import MavlinkCompiler.Proofs.Xml.Writer

/-!
# Writing definition documents

A document is written as an element tree, and the tree as text: names, types and values as
attributes, numbers in decimal, descriptions as texts, and a mark where the extension of a message
starts. Reading gives back what was written, as long as the document is in a form that reading can
give at all.

* `Document.element`, `Document.written`: the tree and the text of a document.
* `Document.Normal`: field types can be read, parameters are counted from one, extensions start
  within the fields, descriptions are normal and file names have no blanks around them.
* `readEntry_element`, `readEnum_element`, `readField_element`, `readMessage_element`: each
  definition is read again.
* `parse_written_document`: so is the document.

Each definition is read child by child. The children of one kind are added one after the other, so
what is left to show for each kind is what a single child does.
-/

namespace MavlinkCompiler.Schema

open Xml (Element TagWritable)

/-! ## Elements -/

/-- An attribute that need not be there. -/
def optionalAttribute (key : String) (value : Option String) : List (String × String) :=
  (value.map fun text => (key, text)).toList

/-- The element of a description, if there is one. -/
def descriptionElements (description : Option String) : List Element :=
  (description.map (Element.leaf "description" [])).toList

/-- The element of a parameter. -/
def paramElement (param : UInt32 × String) : Element :=
  .leaf "param" [("index", toString param.1.toNat)] param.2

/-- The element of an entry. -/
def EntryDefinition.element (entry : EntryDefinition) : Element :=
  .branch "entry"
    (("name", entry.name) ::
      optionalAttribute "value" (entry.value.map fun value => toString value.toInt))
    (descriptionElements entry.description ++ entry.params.map paramElement)

/-- The element of an enumeration. -/
def EnumDefinition.element (enumeration : EnumDefinition) : Element :=
  .branch "enum" [("name", enumeration.name)]
    (descriptionElements enumeration.description ++
      enumeration.entries.map EntryDefinition.element)

/-- The element of a field, whose text is the description. -/
def FieldDefinition.element (field : FieldDefinition) : Element :=
  .leaf "field"
    (("type", field.type) :: ("name", field.name) ::
      (optionalAttribute "enum" field.enumName ++ optionalAttribute "units" field.units))
    (field.description.getD "")

/-- The mark before the first extension field. -/
def extensionsElement : Element :=
  .leaf "extensions" [] ""

/-- The elements of a message's fields, with the mark where the extension starts. -/
def MessageDefinition.fieldElements (message : MessageDefinition) : List Element :=
  match message.extensionsAt with
  | none => message.fields.map FieldDefinition.element
  | some start =>
    (message.fields.take start).map FieldDefinition.element ++
      extensionsElement :: (message.fields.drop start).map FieldDefinition.element

/-- The element of a message. -/
def MessageDefinition.element (message : MessageDefinition) : Element :=
  .branch "message" [("id", toString message.id.toNat), ("name", message.name)]
    (descriptionElements message.description ++ message.fieldElements)

/-- The elements of a number, if there is one. -/
def numberElements (name : String) (value : Option UInt32) : List Element :=
  (value.map fun number => Element.leaf name [] (toString number.toNat)).toList

/-- The root element of a document. -/
def Document.element (document : Document) : Element :=
  .branch "mavlink" []
    (document.includes.map (Element.leaf "include" []) ++
      (numberElements "version" document.version ++ (numberElements "dialect" document.dialect ++
        [.branch "enums" [] (document.enums.map EnumDefinition.element),
          .branch "messages" [] (document.messages.map MessageDefinition.element)])))

/-- A document as text. -/
def Document.written (document : Document) : String :=
  document.element.written

/-! ## Documents in normal form -/

/-- There is no description, or it is normal. -/
def Described (description : Option String) : Prop :=
  ∀ text ∈ description, describe? text = some text

@[mk_iff]
structure EntryDefinition.Normal (entry : EntryDefinition) : Prop where
  described : Described entry.description
  /-- Parameters are counted from one. -/
  indices : ∀ param ∈ entry.params, 1 ≤ param.1
  /-- The text of a parameter is empty or normal. -/
  texts : ∀ param ∈ entry.params, param.2 = "" ∨ describe? param.2 = some param.2

@[mk_iff]
structure EnumDefinition.Normal (enumeration : EnumDefinition) : Prop where
  described : Described enumeration.description
  entries : ∀ entry ∈ enumeration.entries, entry.Normal

@[mk_iff]
structure FieldDefinition.Normal (field : FieldDefinition) : Prop where
  typed : field.Typed
  described : Described field.description

@[mk_iff]
structure MessageDefinition.Normal (message : MessageDefinition) : Prop where
  described : Described message.description
  fields : ∀ field ∈ message.fields, field.Normal
  /-- The extension starts within the fields. -/
  boundary : ∀ start ∈ message.extensionsAt, start ≤ message.fields.length

/-- A document in a form that reading can give. Names, values and numbers can be anything. -/
@[mk_iff]
structure Document.Normal (document : Document) : Prop where
  /-- No blanks are around the name of an included file. -/
  includes : ∀ file ∈ document.includes, Text.trimmed file = file
  enums : ∀ enumeration ∈ document.enums, enumeration.Normal
  messages : ∀ message ∈ document.messages, message.Normal

instance (description : Option String) : Decidable (Described description) :=
  inferInstanceAs (Decidable (∀ text ∈ description, _))

instance (entry : EntryDefinition) : Decidable entry.Normal :=
  decidable_of_iff' _ (EntryDefinition.normal_iff entry)

instance (enumeration : EnumDefinition) : Decidable enumeration.Normal :=
  decidable_of_iff' _ (EnumDefinition.normal_iff enumeration)

instance (field : FieldDefinition) : Decidable field.Typed :=
  match h : FieldType.parse field.type with
  | .ok type => .isTrue ⟨type, h⟩
  | .error error => .isFalse fun ⟨type, htype⟩ => by
    rw [h] at htype
    cases htype

instance (field : FieldDefinition) : Decidable field.Normal :=
  decidable_of_iff' _ (FieldDefinition.normal_iff field)

instance (message : MessageDefinition) : Decidable message.Normal :=
  decidable_of_iff' _ (MessageDefinition.normal_iff message)

instance (document : Document) : Decidable document.Normal :=
  decidable_of_iff' _ (Document.normal_iff document)

/-! ## What is written can be read -/

theorem describe?_empty : describe? "" = none := rfl

/-- The text of a description is read as the description. -/
theorem Described.describe? {description : Option String} (h : Described description) :
    Schema.describe? (description.getD "") = description := by
  cases description with
  | none => exact describe?_empty
  | some text => exact h text rfl

/-- A description is the first child that is looked at, and is taken as it is written. -/
theorem foldlM_descriptionElements {σ : Type} {read : σ → Element → Except Fault σ}
    {start : σ} (describe : Option String → σ) (hnone : describe none = start)
    (hread : ∀ child, child.name = "description" →
      read start child = .ok (describe (describe? child.text)))
    {description : Option String} (h : Described description) :
    (descriptionElements description).foldlM read start = .ok (describe description) := by
  cases description with
  | none =>
    rw [hnone]
    rfl
  | some text =>
    show (read start (.leaf "description" [] text) >>= pure) = _
    rw [hread _ rfl, Element.text_leaf, h text rfl]
    rfl

theorem readParam_paramElement (name : String) {param : UInt32 × String} (hindex : 1 ≤ param.1)
    (htext : param.2 = "" ∨ describe? param.2 = some param.2) :
    readParam name (paramElement param) = .ok param := by
  have hzero : ¬ (param.1 == 0) = true := by
    intro heq
    rw [beq_iff_eq.mp heq] at hindex
    exact absurd hindex (by decide)
  have hdescribed : (describe? (paramElement param).text).getD "" = param.2 := by
    rw [paramElement, Element.text_leaf]
    rcases htext with hempty | hnormal
    · rw [hempty]
      rfl
    · rw [hnormal]
      rfl
  refine Outcome.bind_eq_ok_iff.mpr ⟨toString param.1.toNat, rfl, ?_⟩
  refine Outcome.bind_eq_ok_iff.mpr ⟨param.1, number_toString _ _, ?_⟩
  rw [if_neg hzero, hdescribed]
  rfl

/-- The value of an entry is read from its attribute. -/
theorem entryValue_element (entry : EntryDefinition) :
    entryValue entry.element entry.name = .ok entry.value := by
  have hvalue : entry.element.attribute? "value" =
      entry.value.map fun value => toString value.toInt := by
    cases hvalue : entry.value with
    | none => simp [EntryDefinition.element, Element.branch, Element.attribute?,
        optionalAttribute, hvalue]
    | some value => simp [EntryDefinition.element, Element.branch, Element.attribute?,
        optionalAttribute, hvalue, List.lookup]
  unfold entryValue
  rw [hvalue]
  cases entry.value with
  | none => rfl
  | some value =>
    rw [Option.map_some]
    dsimp only
    rw [entryValue?_toString]

theorem readEntry_element {entry : EntryDefinition} (h : entry.Normal) :
    readEntry entry.element = .ok entry := by
  obtain ⟨name, value, description, params⟩ := entry
  refine Outcome.bind_eq_ok_iff.mpr ⟨name, rfl, ?_⟩
  refine Outcome.bind_eq_ok_iff.mpr ⟨value, entryValue_element _, ?_⟩
  rw [EntryDefinition.element, Element.elements_branch, List.foldlM_append]
  refine Outcome.bind_eq_ok_iff.mpr ⟨⟨name, value, description, []⟩, ?_, ?_⟩
  · refine foldlM_descriptionElements
      (fun description => (⟨name, value, description, []⟩ : EntryDefinition)) rfl
      (fun child hname => ?_) h.described
    rw [EntryDefinition.read, if_pos hname]
  · refine Outcome.foldlM_adds
      (fun (entry : EntryDefinition) more => { entry with params := entry.params ++ more })
      (by simp) (by simp) (fun param hparam entry => ?_) _
    have hread := readParam_paramElement entry.name (h.indices param hparam) (h.texts param hparam)
    have hname : (paramElement param).name = "param" := rfl
    rw [EntryDefinition.read, hname, if_neg (by decide), if_pos rfl, hread]
    rfl

theorem readEnum_element {enumeration : EnumDefinition} (h : enumeration.Normal) :
    readEnum enumeration.element = .ok enumeration := by
  obtain ⟨name, description, entries⟩ := enumeration
  refine Outcome.bind_eq_ok_iff.mpr ⟨name, rfl, ?_⟩
  rw [EnumDefinition.element, Element.elements_branch, List.foldlM_append]
  refine Outcome.bind_eq_ok_iff.mpr ⟨⟨name, description, []⟩, ?_, ?_⟩
  · refine foldlM_descriptionElements
      (fun description => (⟨name, description, []⟩ : EnumDefinition)) rfl
      (fun child hname => ?_) h.described
    rw [EnumDefinition.read, if_pos hname]
  · refine Outcome.foldlM_adds
      (fun (enumeration : EnumDefinition) more =>
        { enumeration with entries := enumeration.entries ++ more })
      (by simp) (by simp) (fun entry hentry enumeration => ?_) _
    have hname : entry.element.name = "entry" := rfl
    rw [EnumDefinition.read, hname, if_neg (by decide), if_pos rfl,
      readEntry_element (h.entries entry hentry)]
    rfl

/-! ## Messages -/

theorem readField_element {field : FieldDefinition} (h : field.Normal) :
    readField field.element = .ok field := by
  obtain ⟨name, type, description, enumName, units⟩ := field
  obtain ⟨parsed, hparsed⟩ := h.typed
  refine Outcome.bind_eq_ok_iff.mpr ⟨name, rfl, ?_⟩
  refine Outcome.bind_eq_ok_iff.mpr ⟨type, rfl, ?_⟩
  refine Outcome.bind_eq_ok_iff.mpr ⟨parsed, Outcome.mapError_eq_ok_iff.mpr hparsed, ?_⟩
  -- an attribute that is not there does not move the other out of sight
  have henum : (FieldDefinition.element ⟨name, type, description, enumName, units⟩).attribute?
      "enum" = enumName := by
    cases enumName <;> cases units <;> rfl
  have hunits : (FieldDefinition.element ⟨name, type, description, enumName, units⟩).attribute?
      "units" = units := by
    cases enumName <;> cases units <;> rfl
  rw [henum, hunits, FieldDefinition.element, Element.text_leaf, h.described.describe?]
  rfl

/-- The elements of fields are read one after the other. -/
theorem foldlM_fieldElements {fields : List FieldDefinition}
    (h : ∀ field ∈ fields, field.Normal) (message : MessageDefinition) :
    (fields.map FieldDefinition.element).foldlM MessageDefinition.read message =
      .ok { message with fields := message.fields ++ fields } := by
  refine Outcome.foldlM_adds
    (fun (message : MessageDefinition) more => { message with fields := message.fields ++ more })
    (by simp) (by simp) (fun field hfield message => ?_) message
  have hname : field.element.name = "field" := rfl
  rw [MessageDefinition.read, hname, if_neg (by decide), if_neg (by decide), if_pos rfl,
    readField_element (h field hfield)]
  rfl

/-- The mark is read where it stands: after the fields before the extension. -/
theorem read_extensionsElement (message : MessageDefinition) :
    message.read extensionsElement = .ok { message with
      extensionsAt := message.extensionsAt.or (some message.fields.length) } := by
  have hname : extensionsElement.name = "extensions" := rfl
  rw [MessageDefinition.read, hname, if_neg (by decide), if_pos rfl]

/-- The fields of a message are read with the mark among them. -/
theorem foldlM_markedFields {message start : MessageDefinition} (h : message.Normal)
    (hfields : start.fields = []) (hmark : start.extensionsAt = none) :
    message.fieldElements.foldlM MessageDefinition.read start =
      .ok { start with fields := message.fields, extensionsAt := message.extensionsAt } := by
  unfold MessageDefinition.fieldElements
  cases hboundary : message.extensionsAt with
  | none =>
    dsimp only
    rw [foldlM_fieldElements h.fields, hfields, hmark, List.nil_append]
  | some boundary =>
    have hfront : ∀ field ∈ message.fields.take boundary, field.Normal := fun field hfield =>
      h.fields field (List.mem_of_mem_take hfield)
    have hback : ∀ field ∈ message.fields.drop boundary, field.Normal := fun field hfield =>
      h.fields field (List.mem_of_mem_drop hfield)
    -- the mark is given by the fields before it, of which there are as many as it says
    have hlength : (message.fields.take boundary).length = boundary :=
      List.length_take_of_le (h.boundary boundary hboundary)
    dsimp only
    rw [List.foldlM_append, foldlM_fieldElements hfront, Outcome.bind_eq_ok_iff]
    refine ⟨_, rfl, ?_⟩
    rw [List.foldlM_cons, read_extensionsElement, Outcome.bind_eq_ok_iff]
    refine ⟨_, rfl, ?_⟩
    rw [foldlM_fieldElements hback]
    simp [hfields, hmark, hlength]

theorem readMessage_element {message : MessageDefinition} (h : message.Normal) :
    readMessage message.element = .ok message := by
  refine Outcome.bind_eq_ok_iff.mpr ⟨message.name, rfl, ?_⟩
  refine Outcome.bind_eq_ok_iff.mpr ⟨toString message.id.toNat, rfl, ?_⟩
  refine Outcome.bind_eq_ok_iff.mpr ⟨message.id, number_toString _ _, ?_⟩
  rw [MessageDefinition.element, Element.elements_branch, List.foldlM_append]
  refine Outcome.bind_eq_ok_iff.mpr
    ⟨⟨message.name, message.id, message.description, [], none⟩, ?_, foldlM_markedFields h rfl rfl⟩
  refine foldlM_descriptionElements
    (fun description => (⟨message.name, message.id, description, [], none⟩ : MessageDefinition)) rfl
    (fun child hname => ?_) h.described
  rw [MessageDefinition.read, if_pos hname]

/-! ## Documents -/

/-- Definitions that are read again one by one are read again together. -/
theorem mapM_childrenNamed {δ : Type} {element : δ → Element} {read : Element → Except Fault δ}
    {name key : String} {definitions : List δ}
    (hname : ∀ definition, (element definition).name = key)
    (h : ∀ definition ∈ definitions, read (element definition) = .ok definition) :
    (childrenNamed (.branch name [] (definitions.map element)) key).mapM read =
      .ok definitions := by
  have hchildren : childrenNamed (.branch name [] (definitions.map element)) key =
      definitions.map element := by
    unfold childrenNamed
    rw [Element.elements_branch]
    refine List.filter_eq_self.mpr fun child hchild => ?_
    obtain ⟨definition, -, rfl⟩ := List.mem_map.mp hchild
    simpa using hname definition
  rw [hchildren, Outcome.mapM_eq_ok_iff]
  exact List.forall₂_map_left_iff.mpr (List.forall₂_same.mpr h)

namespace Document

theorem foldlM_includeElements {files : List String}
    (h : ∀ file ∈ files, Text.trimmed file = file) (document : Document) :
    (files.map (Element.leaf "include" [])).foldlM Document.read document =
      pure { document with includes := document.includes ++ files } := by
  refine Outcome.foldlM_adds
    (fun (document : Document) more => { document with includes := document.includes ++ more })
    (by simp) (by simp) (fun file hfile document => ?_) document
  have hname : (Element.leaf "include" [] file).name = "include" := rfl
  rw [Document.read, if_pos hname, Element.text_leaf, h file hfile]

/-- A number is read if its element is. -/
theorem foldlM_numberElements {name : String} {start : Document}
    (assign : Option UInt32 → Document) (hnone : assign none = start)
    (hread : ∀ (child : Element) (number : UInt32), child.name = name →
      Text.trimmed child.text = toString number.toNat →
      start.read child = pure (assign (some number)))
    (value : Option UInt32) :
    (numberElements name value).foldlM Document.read start = pure (assign value) := by
  cases value with
  | none =>
    rw [hnone]
    rfl
  | some number =>
    show (start.read (.leaf name [] (toString number.toNat)) >>= pure) = _
    rw [bind_pure, hread _ number rfl]
    rw [Element.text_leaf, Text.trimmed_toString]

theorem foldlM_versionElements {document : Document} (hnone : document.version = none)
    (version : Option UInt32) :
    (numberElements "version" version).foldlM Document.read document =
      pure { document with version := version } := by
  refine foldlM_numberElements (fun version => { document with version := version }) ?_
    (fun child number hname htext => ?_) version
  · rw [← hnone]
  · rw [Document.read, hname, if_neg (by decide), if_pos rfl, htext, number_toString]
    rfl

theorem foldlM_dialectElements {document : Document} (hnone : document.dialect = none)
    (dialect : Option UInt32) :
    (numberElements "dialect" dialect).foldlM Document.read document =
      pure { document with dialect := dialect } := by
  refine foldlM_numberElements (fun dialect => { document with dialect := dialect }) ?_
    (fun child number hname htext => ?_) dialect
  · rw [← hnone]
  · rw [Document.read, hname, if_neg (by decide), if_neg (by decide), if_pos rfl, htext,
      number_toString]
    rfl

theorem read_enums {enums : List EnumDefinition} (h : ∀ enumeration ∈ enums, enumeration.Normal)
    (document : Document) :
    document.read (.branch "enums" [] (enums.map EnumDefinition.element)) =
      pure { document with enums := document.enums ++ enums } := by
  have hname : (Element.branch "enums" [] (enums.map EnumDefinition.element)).name = "enums" := rfl
  have hread : (childrenNamed (.branch "enums" [] (enums.map EnumDefinition.element)) "enum").mapM
      readEnum = .ok enums :=
    mapM_childrenNamed (fun _ => rfl) fun enumeration henum =>
      readEnum_element (h enumeration henum)
  rw [Document.read, hname, if_neg (by decide), if_neg (by decide), if_neg (by decide), if_pos rfl,
    hread]
  rfl

theorem read_messages {messages : List MessageDefinition} (h : ∀ message ∈ messages, message.Normal)
    (document : Document) :
    document.read (.branch "messages" [] (messages.map MessageDefinition.element)) =
      pure { document with messages := document.messages ++ messages } := by
  have hname : (Element.branch "messages" [] (messages.map MessageDefinition.element)).name =
    "messages" := rfl
  have hread : (childrenNamed (.branch "messages" [] (messages.map MessageDefinition.element))
      "message").mapM readMessage = .ok messages :=
    mapM_childrenNamed (fun _ => rfl) fun message hmessage =>
      readMessage_element (h message hmessage)
  rw [Document.read, hname, if_neg (by decide), if_neg (by decide), if_neg (by decide),
    if_neg (by decide), if_pos rfl, hread]
  rfl

/-- The tree of a document is read as the document, and nothing in it is passed over. -/
theorem ofElement_element {document : Document} (h : document.Normal) :
    Document.ofElement document.element = pure document := by
  obtain ⟨includes, version, dialect, enums, messages⟩ := document
  have hname : (Document.element ⟨includes, version, dialect, enums, messages⟩).name =
    "mavlink" := rfl
  unfold Document.ofElement
  -- one kind of children after the other, in the order in which they are written
  rw [if_pos hname, Document.element, Element.elements_branch, List.foldlM_append,
    foldlM_includeElements h.includes, pure_bind, List.foldlM_append,
    foldlM_versionElements rfl, pure_bind, List.foldlM_append, foldlM_dialectElements rfl,
    pure_bind, List.foldlM_cons, read_enums h.enums, pure_bind, List.foldlM_cons,
    read_messages h.messages, pure_bind, List.foldlM_nil]
  rfl

end Document

/-! ## The tree can be written -/

/-- A tag with some of these attributes. -/
theorem tagWritable_of_keys {name : String} {attributes : List (String × String)}
    (keys : List String) (hname : Xml.ValidName name) (hkeys : (attributes.map (·.1)).Sublist keys)
    (hvalid : ∀ key ∈ keys, Xml.ValidName key) (hdistinct : keys.Nodup) :
    TagWritable name attributes := by
  refine ⟨hname, fun pair hpair => ?_, hdistinct.sublist hkeys⟩
  exact hvalid pair.1 (hkeys.subset (List.mem_map_of_mem hpair))

theorem tagWritable_nil {name : String} (hname : Xml.ValidName name) : TagWritable name [] :=
  tagWritable_of_keys [] hname (List.Sublist.refl _) nofun List.nodup_nil

theorem keys_optionalAttribute (key : String) (value : Option String) :
    ((optionalAttribute key value).map (·.1)).Sublist [key] := by
  cases value with
  | none => exact List.nil_sublist _
  | some text => exact List.Sublist.refl _

theorem writable_descriptionElements (description : Option String) :
    ∀ child ∈ descriptionElements description, child.Writable := by
  intro child hchild
  cases description with
  | none => cases hchild
  | some text =>
    obtain rfl := List.mem_singleton.mp hchild
    exact .leaf (tagWritable_nil (by decide)) text

theorem writable_paramElement (param : UInt32 × String) : (paramElement param).Writable :=
  .leaf (tagWritable_of_keys ["index"] (by decide) (List.Sublist.refl _) (by decide) (by decide)) _

theorem EntryDefinition.writable_element (entry : EntryDefinition) : entry.element.Writable := by
  refine .branch (tagWritable_of_keys ["name", "value"] (by decide) ?_ (by decide) (by decide)) ?_
  · exact (keys_optionalAttribute "value" _).cons_cons "name"
  · rw [List.forall_mem_append, List.forall_mem_map]
    exact ⟨writable_descriptionElements _, fun param _ => writable_paramElement param⟩

theorem EnumDefinition.writable_element (enumeration : EnumDefinition) :
    enumeration.element.Writable := by
  refine .branch (tagWritable_of_keys ["name"] (by decide) (List.Sublist.refl _) (by decide)
    (by decide)) ?_
  rw [List.forall_mem_append, List.forall_mem_map]
  exact ⟨writable_descriptionElements _, fun entry _ => entry.writable_element⟩

theorem FieldDefinition.writable_element (field : FieldDefinition) : field.element.Writable := by
  refine .leaf (tagWritable_of_keys ["type", "name", "enum", "units"] (by decide) ?_ (by decide)
    (by decide)) _
  rw [List.map_cons, List.map_cons, List.map_append]
  have hoptional := (keys_optionalAttribute "enum" field.enumName).append
    (keys_optionalAttribute "units" field.units)
  exact (hoptional.cons_cons "name").cons_cons "type"

theorem MessageDefinition.writable_fieldElements (message : MessageDefinition) :
    ∀ child ∈ message.fieldElements, child.Writable := by
  have hfields : ∀ fields : List FieldDefinition,
      ∀ child ∈ fields.map FieldDefinition.element, child.Writable := by
    intro fields
    exact List.forall_mem_map.mpr fun field _ => field.writable_element
  unfold MessageDefinition.fieldElements
  split
  · exact hfields _
  · rw [List.forall_mem_append, List.forall_mem_cons]
    refine ⟨hfields _, ?_, hfields _⟩
    exact .leaf (tagWritable_nil (by decide)) ""

theorem MessageDefinition.writable_element (message : MessageDefinition) :
    message.element.Writable := by
  refine .branch (tagWritable_of_keys ["id", "name"] (by decide) (List.Sublist.refl _) (by decide)
    (by decide)) ?_
  rw [List.forall_mem_append]
  exact ⟨writable_descriptionElements _, message.writable_fieldElements⟩

theorem writable_numberElements {name : String} (hname : Xml.ValidName name)
    (value : Option UInt32) : ∀ child ∈ numberElements name value, child.Writable := by
  intro child hchild
  cases value with
  | none => cases hchild
  | some number =>
    obtain rfl := List.mem_singleton.mp hchild
    exact .leaf (tagWritable_nil hname) _

theorem Document.writable_element (document : Document) : document.element.Writable := by
  have hincludes : ∀ child ∈ document.includes.map (Element.leaf "include" []), child.Writable :=
    List.forall_mem_map.mpr fun file _ => .leaf (tagWritable_nil (by decide)) file
  have henums : (Element.branch "enums" []
      (document.enums.map EnumDefinition.element)).Writable :=
    .branch (tagWritable_nil (by decide))
      (List.forall_mem_map.mpr fun enumeration _ => enumeration.writable_element)
  have hmessages : (Element.branch "messages" []
      (document.messages.map MessageDefinition.element)).Writable :=
    .branch (tagWritable_nil (by decide))
      (List.forall_mem_map.mpr fun message _ => message.writable_element)
  refine .branch (tagWritable_nil (by decide)) ?_
  rw [List.forall_mem_append, List.forall_mem_append, List.forall_mem_append, List.forall_mem_cons,
    List.forall_mem_singleton]
  exact ⟨hincludes, writable_numberElements (by decide) _, writable_numberElements (by decide) _,
    henums, hmessages⟩

/-- **A document is read as it was written.** For every document in normal form, whatever its names,
attributes, values and numbers are: writing it and reading the text gives the document, and nothing
in the text is passed over. -/
theorem parse_written_document (origin : String) {document : Document} (h : document.Normal) :
    Document.parse origin document.written = ⟨[], .ok document⟩ := by
  unfold Document.parse Document.written
  rw [Element.parse_written document.writable_element]
  dsimp only
  rw [Document.ofElement_element h]
  rfl

/-- A document with markup in its names, the least value, an empty file name, a parameter without a
text and an extension after the first field. -/
def batteryDocument : Document where
  includes := ["common.xml", ""]
  version := some 4294967295
  dialect := none
  enums := [{
    name := "CELLS <\"small\" & 'large'>"
    description := some "Cells of a battery.\n\nUp to six of them."
    entries := [
      ⟨"FIRST", some (-9223372036854775808), none, [(1, ""), (7, "Hold time.")]⟩,
      ⟨"", none, some "a < b && b > c", []⟩] }]
  messages := [{
    name := "BATTERY"
    id := 147
    description := none
    fields := [
      ⟨"voltages", "uint16_t[10]", some "Per cell.", none, some "mV"⟩,
      ⟨"id", "uint8_t", none, some "", none⟩]
    extensionsAt := some 1 }]

theorem normal_batteryDocument : batteryDocument.Normal := by
  decide

theorem parse_written_batteryDocument :
    batteryDocument.Normal ∧
      Document.parse "battery.xml" batteryDocument.written = ⟨[], .ok batteryDocument⟩ :=
  ⟨normal_batteryDocument, parse_written_document "battery.xml" normal_batteryDocument⟩

end MavlinkCompiler.Schema
