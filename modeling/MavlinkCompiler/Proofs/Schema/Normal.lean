import MavlinkCompiler.Proofs.Schema.Writer
import MavlinkCompiler.Proofs.Text.Paragraph

/-!
# Reading gives documents in normal form

Whatever a text holds, a document that is read from it is in the form in which documents are
written: types that can be read again, parameters counted from one, extensions within the fields,
descriptions that are not changed by describing them again, and file names without blanks around
them. Each part of the form is established by the reader of the smallest element that holds it and
kept by the readers around it.

* `describe?_idem`: a description is normal.
* `normal_of_readEntry`, `normal_of_readEnum`, `normal_of_readField`, `normal_of_readMessage`: each
  definition that is read is normal.
* `Document.descriptions`: all descriptions in a document.
* `Document.normal_of_parse`: so is the document.
-/

namespace MavlinkCompiler.Schema

/-! ## Descriptions -/

/-- A description joined from paragraphs is not changed by describing it. -/
theorem describe?_joined {found : List (List (List Char))} (hne : found ≠ [])
    (h : ∀ paragraph ∈ found, Text.Worded paragraph) :
    describe? (String.ofList (['\n', '\n'].intercalate (found.map paragraphLine))) =
      some (String.ofList (['\n', '\n'].intercalate (found.map paragraphLine))) := by
  have hfound : Text.paragraphs (['\n', '\n'].intercalate (found.map paragraphLine)) = found :=
    Text.paragraphs_intercalate h
  unfold describe?
  rw [String.toList_ofList, hfound]
  split
  · next hnone => exact absurd rfl hne
  · rfl

theorem describe?_idem {text description : String} (h : describe? text = some description) :
    describe? description = some description := by
  unfold describe? at h
  split at h
  · cases h
  next hne =>
    obtain rfl := Option.some.inj h
    exact describe?_joined hne fun _ hparagraph => Text.worded_of_mem_paragraphs hparagraph

/-- An element gives a normal description, or none. -/
theorem described_describe? (text : String) : Described (describe? text) :=
  fun _ hdescription => describe?_idem hdescription

/-- A normal description is not empty. -/
theorem ne_empty_of_describe? {description : String}
    (h : describe? description = some description) : description ≠ "" := by
  rintro rfl
  rw [describe?_empty] at h
  cases h

/-! ## Enumerations -/

/-- A parameter that was read is counted from one, and its text is empty or normal. -/
theorem normal_of_readParam {name : String} {element : Xml.Element} {param : UInt32 × String}
    (h : readParam name element = .ok param) :
    1 ≤ param.1 ∧ (param.2 = "" ∨ describe? param.2 = some param.2) := by
  obtain ⟨text, -, h⟩ := Outcome.bind_eq_ok_iff.mp h
  obtain ⟨index, -, h⟩ := Outcome.bind_eq_ok_iff.mp h
  split at h
  · cases h
  next hzero =>
    cases h
    constructor
    · have hne : index ≠ 0 := fun heq => hzero (beq_iff_eq.mpr heq)
      have hpos : 0 < index.toNat := Nat.pos_of_ne_zero fun heq => hne (UInt32.toNat_inj.mp heq)
      exact UInt32.le_iff_toNat_le.mpr hpos
    · show (describe? element.text).getD "" = "" ∨ _
      cases hdescription : describe? element.text with
      | none => exact .inl rfl
      | some description => exact .inr (describe?_idem hdescription)

/-- Taking a child into account keeps an entry normal. -/
theorem EntryDefinition.Normal.read {before after : EntryDefinition} {child : Xml.Element}
    (h : before.Normal) (hread : before.read child = .ok after) : after.Normal := by
  unfold EntryDefinition.read at hread
  split at hread
  · cases hread
    exact ⟨described_describe? child.text, h.indices, h.texts⟩
  split at hread
  · obtain ⟨param, hparam, hread⟩ := Outcome.bind_eq_ok_iff.mp hread
    cases hread
    obtain ⟨hindex, htext⟩ := normal_of_readParam hparam
    exact ⟨h.described,
      List.forall_mem_append.mpr ⟨h.indices, List.forall_mem_singleton.mpr hindex⟩,
      List.forall_mem_append.mpr ⟨h.texts, List.forall_mem_singleton.mpr htext⟩⟩
  · cases hread
    exact h

theorem normal_of_readEntry {element : Xml.Element} {entry : EntryDefinition}
    (h : readEntry element = .ok entry) : entry.Normal := by
  obtain ⟨name, -, h⟩ := Outcome.bind_eq_ok_iff.mp h
  obtain ⟨value, -, h⟩ := Outcome.bind_eq_ok_iff.mp h
  have hstart : EntryDefinition.Normal ⟨name, value, none, []⟩ := by
    simp [EntryDefinition.normal_iff, Described]
  exact Outcome.foldlM_keeps EntryDefinition.Normal (fun h hread => h.read hread) hstart h

/-- Taking a child into account keeps an enumeration normal. -/
theorem EnumDefinition.Normal.read {before after : EnumDefinition} {child : Xml.Element}
    (h : before.Normal) (hread : before.read child = .ok after) : after.Normal := by
  unfold EnumDefinition.read at hread
  split at hread
  · cases hread
    exact ⟨described_describe? child.text, h.entries⟩
  split at hread
  · obtain ⟨entry, hentry, hread⟩ := Outcome.bind_eq_ok_iff.mp hread
    cases hread
    exact ⟨h.described, List.forall_mem_append.mpr
      ⟨h.entries, List.forall_mem_singleton.mpr (normal_of_readEntry hentry)⟩⟩
  · cases hread
    exact h

theorem normal_of_readEnum {element : Xml.Element} {enumeration : EnumDefinition}
    (h : readEnum element = .ok enumeration) : enumeration.Normal := by
  obtain ⟨name, -, h⟩ := Outcome.bind_eq_ok_iff.mp h
  have hstart : EnumDefinition.Normal ⟨name, none, []⟩ := by
    simp [EnumDefinition.normal_iff, Described]
  exact Outcome.foldlM_keeps EnumDefinition.Normal (fun h hread => h.read hread) hstart h

/-! ## Messages -/

theorem normal_of_readField {element : Xml.Element} {field : FieldDefinition}
    (h : readField element = .ok field) : field.Normal := by
  refine ⟨typed_of_readField h, ?_⟩
  obtain ⟨name, -, h⟩ := Outcome.bind_eq_ok_iff.mp h
  obtain ⟨type, -, h⟩ := Outcome.bind_eq_ok_iff.mp h
  obtain ⟨parsed, -, h⟩ := Outcome.bind_eq_ok_iff.mp h
  cases h
  exact described_describe? element.text

/-- Taking a child into account keeps a message normal: a mark stands after the fields that were
read, and fields that follow leave it within them. -/
theorem MessageDefinition.Normal.read {before after : MessageDefinition} {child : Xml.Element}
    (h : before.Normal) (hread : before.read child = .ok after) : after.Normal := by
  obtain rfl | rfl | ⟨field, hfield, rfl⟩ | rfl := MessageDefinition.read_cases hread
  · exact ⟨described_describe? child.text, h.fields, h.boundary⟩
  · refine ⟨h.described, h.fields, fun start hstart => ?_⟩
    cases hmark : before.extensionsAt with
    | none =>
      rw [hmark] at hstart
      cases hstart
      exact Nat.le_refl _
    | some first =>
      rw [hmark] at hstart
      obtain rfl : first = start := Option.some.inj hstart
      exact h.boundary first hmark
  · refine ⟨h.described, List.forall_mem_append.mpr
      ⟨h.fields, List.forall_mem_singleton.mpr (normal_of_readField hfield)⟩, ?_⟩
    intro start hstart
    have hwithin := h.boundary start hstart
    rw [List.length_append]
    omega
  · exact h

theorem normal_of_readMessage {element : Xml.Element} {message : MessageDefinition}
    (h : readMessage element = .ok message) : message.Normal := by
  obtain ⟨name, -, h⟩ := Outcome.bind_eq_ok_iff.mp h
  obtain ⟨text, -, h⟩ := Outcome.bind_eq_ok_iff.mp h
  obtain ⟨id, -, h⟩ := Outcome.bind_eq_ok_iff.mp h
  have hstart : MessageDefinition.Normal ⟨name, id, none, [], none⟩ := by
    simp [MessageDefinition.normal_iff, Described]
  exact Outcome.foldlM_keeps MessageDefinition.Normal (fun h hread => h.read hread) hstart h

/-! ## Documents -/

/-- The descriptions of an entry: its own, and those of parameters that have one. -/
def EntryDefinition.descriptions (entry : EntryDefinition) : List String :=
  entry.description.toList ++ (entry.params.map (·.2)).filter (· ≠ "")

/-- The descriptions of an enumeration and its entries. -/
def EnumDefinition.descriptions (enumeration : EnumDefinition) : List String :=
  enumeration.description.toList ++ enumeration.entries.flatMap EntryDefinition.descriptions

/-- The descriptions of a message and its fields. -/
def MessageDefinition.descriptions (message : MessageDefinition) : List String :=
  message.description.toList ++ message.fields.flatMap (·.description.toList)

/-- All descriptions in a document. -/
def Document.descriptions (document : Document) : List String :=
  document.enums.flatMap EnumDefinition.descriptions ++
    document.messages.flatMap MessageDefinition.descriptions

theorem Described.of_mem_toList {description : Option String} (h : Described description) :
    ∀ text ∈ description.toList, Schema.describe? text = some text :=
  fun text htext => h text (Option.mem_toList.mp htext)

theorem EntryDefinition.Normal.descriptions {entry : EntryDefinition} (h : entry.Normal) :
    ∀ text ∈ entry.descriptions, describe? text = some text := by
  refine List.forall_mem_append.mpr ⟨h.described.of_mem_toList, fun text htext => ?_⟩
  obtain ⟨hmem, hne⟩ := List.mem_filter.mp htext
  obtain ⟨param, hparam, rfl⟩ := List.mem_map.mp hmem
  exact (h.texts param hparam).resolve_left (of_decide_eq_true hne)

/-- All descriptions in a normal document are normal. -/
theorem Document.Normal.descriptions {document : Document} (h : document.Normal) :
    ∀ text ∈ document.descriptions, describe? text = some text := by
  refine List.forall_mem_append.mpr
    ⟨List.forall_mem_flatMap.mpr fun enumeration henum => ?_,
      List.forall_mem_flatMap.mpr fun message hmessage => ?_⟩
  · obtain ⟨hdescribed, hentries⟩ := h.enums enumeration henum
    exact List.forall_mem_append.mpr ⟨hdescribed.of_mem_toList,
      List.forall_mem_flatMap.mpr fun entry hentry => (hentries entry hentry).descriptions⟩
  · obtain ⟨hdescribed, hfields, -⟩ := h.messages message hmessage
    exact List.forall_mem_append.mpr ⟨hdescribed.of_mem_toList,
      List.forall_mem_flatMap.mpr fun field hfield =>
        (hfields field hfield).described.of_mem_toList⟩

/-- Taking a child of the root into account keeps a document normal. -/
theorem Document.Normal.read {before after : Document} {child : Xml.Element} (h : before.Normal)
    (hread : (before.read child).outcome = .ok after) : after.Normal := by
  obtain rfl | ⟨version, rfl⟩ | ⟨dialect, rfl⟩ | ⟨enums, henums, rfl⟩ |
    ⟨messages, hmessages, rfl⟩ | rfl := Document.read_cases hread
  · exact ⟨List.forall_mem_append.mpr
      ⟨h.includes, List.forall_mem_singleton.mpr (Text.trimmed_trimmed child.text)⟩,
      h.enums, h.messages⟩
  · exact ⟨h.includes, h.enums, h.messages⟩
  · exact ⟨h.includes, h.enums, h.messages⟩
  · refine ⟨h.includes, List.forall_mem_append.mpr ⟨h.enums, fun enumeration hmem => ?_⟩,
      h.messages⟩
    obtain ⟨element, -, helement⟩ := Outcome.exists_of_mem_mapM henums hmem
    exact normal_of_readEnum helement
  · refine ⟨h.includes, h.enums, List.forall_mem_append.mpr
      ⟨h.messages, fun message hmem => ?_⟩⟩
    obtain ⟨element, -, helement⟩ := Outcome.exists_of_mem_mapM hmessages hmem
    exact normal_of_readMessage helement
  · exact h

/-- A document that was read is normal. -/
theorem Document.normal_of_parse {origin text : String} {document : Document}
    (h : (Document.parse origin text).outcome = .ok document) : document.Normal :=
  Document.keeps_of_parse Document.Normal (by decide) (fun h hread => h.read hread) h

end MavlinkCompiler.Schema
