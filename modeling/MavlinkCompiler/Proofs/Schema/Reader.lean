import MavlinkCompiler.Proofs.Outcome
import MavlinkCompiler.Schema.Reader

/-!
# What reading makes sure of

A document that was read from a text has fields with readable types: the reader reads each type
once and keeps it as it is written, so reading it again cannot fail.

* `MessageDefinition.read_cases`, `Document.read_cases`: what one child can change.
* `Document.keeps_of_parse`: what every child of the root keeps holds of the document.
* `FieldDefinition.Typed`: the type of a field can be read.
* `Document.typed_of_parse`: all fields of a document that was read are so.
-/

namespace MavlinkCompiler.Schema

/-- The type of a field can be read. -/
def FieldDefinition.Typed (field : FieldDefinition) : Prop :=
  ∃ type, FieldType.parse field.type = .ok type

/-- The types of a message's fields can be read. -/
def MessageDefinition.Typed (message : MessageDefinition) : Prop :=
  ∀ field ∈ message.fields, field.Typed

/-- The types of a document's fields can be read. -/
def Document.Typed (document : Document) : Prop :=
  ∀ message ∈ document.messages, message.Typed

theorem typed_of_readField {element : Xml.Element} {field : FieldDefinition}
    (h : readField element = .ok field) : field.Typed := by
  obtain ⟨name, -, h⟩ := Outcome.bind_eq_ok_iff.mp h
  obtain ⟨text, -, h⟩ := Outcome.bind_eq_ok_iff.mp h
  obtain ⟨type, htype, h⟩ := Outcome.bind_eq_ok_iff.mp h
  cases h
  exact ⟨type, Outcome.mapError_eq_ok_iff.mp htype⟩

/-- A child of a message is its description, a mark, a field or passed over. -/
theorem MessageDefinition.read_cases {before after : MessageDefinition} {child : Xml.Element}
    (h : before.read child = .ok after) :
    after = { before with description := describe? child.text } ∨
    after = { before with
      extensionsAt := before.extensionsAt.or (some before.fields.length) } ∨
    (∃ field, readField child = .ok field ∧
      after = { before with fields := before.fields ++ [field] }) ∨
    after = before := by
  unfold MessageDefinition.read at h
  split at h
  · exact .inl (Except.ok.inj h).symm
  split at h
  · exact .inr (.inl (Except.ok.inj h).symm)
  split at h
  · obtain ⟨field, hfield, h⟩ := Outcome.bind_eq_ok_iff.mp h
    exact .inr (.inr (.inl ⟨field, hfield, (Except.ok.inj h).symm⟩))
  · exact .inr (.inr (.inr (Except.ok.inj h).symm))

/-- Taking a child into account keeps the types of a message readable. -/
theorem MessageDefinition.Typed.read {before after : MessageDefinition} {child : Xml.Element}
    (h : before.Typed) (hread : before.read child = .ok after) : after.Typed := by
  obtain rfl | rfl | ⟨field, hfield, rfl⟩ | rfl := MessageDefinition.read_cases hread
  · exact h
  · exact h
  · exact List.forall_mem_append.mpr
      ⟨h, List.forall_mem_singleton.mpr (typed_of_readField hfield)⟩
  · exact h

theorem typed_of_readMessage {element : Xml.Element} {message : MessageDefinition}
    (h : readMessage element = .ok message) : message.Typed := by
  obtain ⟨name, -, h⟩ := Outcome.bind_eq_ok_iff.mp h
  obtain ⟨text, -, h⟩ := Outcome.bind_eq_ok_iff.mp h
  obtain ⟨id, -, h⟩ := Outcome.bind_eq_ok_iff.mp h
  exact Outcome.foldlM_keeps MessageDefinition.Typed (fun h hread => h.read hread)
    (fun _ hfield => absurd hfield List.not_mem_nil) h

/-- A child of the root is the name of a file, a number, a list of definitions or passed over. -/
theorem Document.read_cases {before after : Document} {child : Xml.Element}
    (h : (before.read child).outcome = .ok after) :
    after = { before with includes := before.includes ++ [Text.trimmed child.text] } ∨
    (∃ version, after = { before with version := some version }) ∨
    (∃ dialect, after = { before with dialect := some dialect }) ∨
    (∃ enums, (childrenNamed child "enum").mapM readEnum = .ok enums ∧
      after = { before with enums := before.enums ++ enums }) ∨
    (∃ messages, (childrenNamed child "message").mapM readMessage = .ok messages ∧
      after = { before with messages := before.messages ++ messages }) ∨
    after = before := by
  unfold Document.read at h
  split at h
  · exact .inl (Except.ok.inj h).symm
  split at h
  · rw [Logged.outcome_bind] at h
    obtain ⟨version, -, h⟩ := Outcome.bind_eq_ok_iff.mp h
    exact .inr (.inl ⟨version, (Except.ok.inj h).symm⟩)
  split at h
  · rw [Logged.outcome_bind] at h
    obtain ⟨dialect, -, h⟩ := Outcome.bind_eq_ok_iff.mp h
    exact .inr (.inr (.inl ⟨dialect, (Except.ok.inj h).symm⟩))
  split at h
  · rw [Logged.outcome_bind] at h
    obtain ⟨enums, henums, h⟩ := Outcome.bind_eq_ok_iff.mp h
    exact .inr (.inr (.inr (.inl ⟨enums, henums, (Except.ok.inj h).symm⟩)))
  split at h
  · rw [Logged.outcome_bind] at h
    obtain ⟨messages, hmessages, h⟩ := Outcome.bind_eq_ok_iff.mp h
    exact .inr (.inr (.inr (.inr (.inl ⟨messages, hmessages, (Except.ok.inj h).symm⟩))))
  · exact .inr (.inr (.inr (.inr (.inr (Except.ok.inj h).symm))))

/-- What holds of the empty document and is kept by each child of the root holds of every document
that was read. -/
theorem Document.keeps_of_parse (holds : Document → Prop) (hempty : holds Document.empty)
    (hread : ∀ {before after child}, holds before →
      (Document.read before child).outcome = .ok after → holds after)
    {origin text : String} {document : Document}
    (h : (Document.parse origin text).outcome = .ok document) : holds document := by
  unfold Document.parse at h
  split at h
  next root _ =>
    have hroot : (Document.ofElement root).outcome = .ok document :=
      Outcome.mapError_eq_ok_iff.mp h
    unfold Document.ofElement at hroot
    split at hroot
    · rw [Outcome.outcome_foldlM] at hroot
      exact Outcome.foldlM_keeps holds hread hempty hroot
    · cases hroot
  · cases h

/-- Taking a child of the root into account keeps the types of a document readable. -/
theorem Document.Typed.read {before after : Document} {child : Xml.Element} (h : before.Typed)
    (hread : (before.read child).outcome = .ok after) : after.Typed := by
  obtain rfl | ⟨version, rfl⟩ | ⟨dialect, rfl⟩ | ⟨enums, -, rfl⟩ | ⟨messages, hmessages, rfl⟩ |
    rfl := Document.read_cases hread
  · exact h
  · exact h
  · exact h
  · exact h
  · refine List.forall_mem_append.mpr ⟨h, fun message hmessage => ?_⟩
    obtain ⟨element, -, helement⟩ := Outcome.exists_of_mem_mapM hmessages hmessage
    exact typed_of_readMessage helement
  · exact h

/-- The types of a document that was read can be read again. -/
theorem Document.typed_of_parse {origin text : String} {document : Document}
    (h : (Document.parse origin text).outcome = .ok document) : document.Typed :=
  Document.keeps_of_parse Document.Typed (fun _ hmessage => absurd hmessage List.not_mem_nil)
    (fun h hread => h.read hread) h

end MavlinkCompiler.Schema
