import MavlinkCompiler.Proofs.Model.Message
import MavlinkCompiler.Proofs.Model.SourceOrder
import MavlinkCompiler.Proofs.Schema.Writer

/-!
# How large messages get

Generated code keeps the sizes of a message in two bytes each and its id in three. A field takes at
most 2040 bytes, so the sizes of a message with at most 32 fields fit. Nothing else bounds them:
loading looks at the names and ids of messages and not at how large they are, and it takes every id
of four bytes.

* `fieldsSize_le`: fields take at most 2040 bytes each.
* `exists_load_of_message`: every message in normal form can be the only one of a loaded file.
* `message_capacity`: which sizes and ids the messages of loaded files have.
* `overflowing_message_is_loaded`: a message with sizes and an id that do not fit.
-/

namespace MavlinkCompiler

open Schema (Document FieldDefinition MessageDefinition)

/-! ## Bounds -/

/-- The most bytes that a field takes: 255 scalars of eight bytes. -/
def largestSize : Nat := 2040

theorem Scalar.size_le (scalar : Scalar) : scalar.size ≤ 8 := by
  cases scalar <;> decide

theorem FieldType.elements_le (type : FieldType) : type.elements ≤ 255 := by
  unfold elements
  split
  next count _ => exact Nat.le_of_lt_succ count.lt
  · decide

theorem FieldType.wireSize_le (type : FieldType) : type.wireSize ≤ largestSize :=
  Nat.mul_le_mul type.scalar.size_le type.elements_le

theorem fieldsSize_le (fields : List Field) : fieldsSize fields ≤ largestSize * fields.length := by
  induction fields with
  | nil => exact Nat.le_refl 0
  | cons field fields ih =>
    have hfield := field.type.wireSize_le
    rw [fieldsSize, List.length_cons, Nat.mul_succ]
    omega

theorem fieldsSize_of_largest {fields : List Field}
    (h : ∀ field ∈ fields, field.type.wireSize = largestSize) :
    fieldsSize fields = largestSize * fields.length := by
  induction fields with
  | nil => rfl
  | cons field fields ih =>
    rw [List.forall_mem_cons] at h
    rw [fieldsSize, h.1, ih h.2, List.length_cons, Nat.mul_succ, Nat.add_comm]

/-- The sizes of a message are bounded by the number of its fields. -/
structure Message.Bounded (message : Message) : Prop where
  base : message.baseSize ≤ largestSize * message.payload.base.length
  extended : message.extendedSize ≤ largestSize * message.fields.length
  /-- Sizes of at most 32 fields fit in two bytes. -/
  few : message.fields.length ≤ 32 → message.baseSize < 2 ^ 16 ∧ message.extendedSize < 2 ^ 16

theorem Message.bounded (message : Message) : message.Bounded := by
  have hextended : message.extendedSize ≤ largestSize * message.fields.length := by
    rw [Message.extendedSize, Payload.extendedSize_eq_fieldsSize]
    exact fieldsSize_le _
  refine ⟨fieldsSize_le _, hextended, fun hfew => ?_⟩
  have hle : message.baseSize ≤ message.extendedSize := message.payload.baseSize_le_extendedSize
  have hmost : largestSize * message.fields.length ≤ 2040 * 32 := Nat.mul_le_mul_left _ hfew
  omega

/-! ## What is admitted -/

/-- A document with one message and nothing else. -/
def Schema.Document.ofMessage (definition : MessageDefinition) : Document :=
  { Document.empty with messages := [definition] }

/-- A file of one message, which is global. -/
def messageSource (definition : MessageDefinition) : Source :=
  ⟨"common.xml", (Document.ofMessage definition).written⟩

theorem reads_messageSource {definition : MessageDefinition} (h : definition.Normal) :
    Reads [messageSource definition] [("common.xml", Document.ofMessage definition)] := by
  have hnormal : (Document.ofMessage definition).Normal :=
    ⟨nofun, nofun, List.forall_mem_singleton.mpr h⟩
  refine .cons ⟨rfl, ?_⟩ .nil
  show (Document.parse _ (Document.ofMessage definition).element.written).outcome = _
  unfold Document.parse
  rw [Xml.Element.parse_written (Document.writable_element _)]
  dsimp only
  rw [Document.ofElement_element hnormal]
  rfl

/-- A file with one message in normal form is loaded, whatever the id and the fields are. -/
theorem exists_load_of_message (scoping : Scoping) {definition : MessageDefinition}
    (h : definition.Normal) :
    ∃ model message, (Model.load scoping [messageSource definition]).outcome = .ok model ∧
      model.messages = [message] ∧ message.Declares ⟨none, 0, definition⟩ := by
  have hloadable : Loadable scoping [("common.xml", Document.ofMessage definition)] :=
    ⟨List.nodup_singleton _, ⟨fun _ => List.nodup_nil, nofun⟩,
      ⟨List.nodup_singleton _, List.nodup_singleton _⟩⟩
  obtain ⟨catalog, hrun⟩ := exists_foldlM_addText (reads_messageSource h)
    (Catalog.covers_empty scoping) hloadable
  obtain ⟨documents, hreads, hcovers⟩ := foldlM_addText_covers (Catalog.covers_empty scoping) hrun
  obtain rfl := (reads_messageSource h).unique hreads
  obtain ⟨message, rest, hdeclares, hrest, hmessages⟩ :=
    List.forall₂_cons_right_iff.mp hcovers.holds.messages
  obtain rfl := List.forall₂_nil_right_iff.mp hrest
  exact ⟨catalog.finish, message, Model.load_eq_ok_iff.mpr ⟨catalog, hrun, rfl⟩, hmessages,
    hdeclares⟩

/-- A field as large as fields get. -/
def largestField (number : Nat) : FieldDefinition :=
  ⟨"f" ++ toString number, "uint64_t[255]", none, none, none⟩

/-- A message with an id and numbers of largest fields in its segments. -/
def largestMessage (id : UInt32) (base extension : Nat) : MessageDefinition where
  name := "M"
  id := id
  description := none
  fields := (List.range (base + extension)).map largestField
  extensionsAt := some base

theorem parse_largest :
    FieldType.parse "uint64_t[255]" = .ok ⟨.uint64, some ⟨255, by decide, by decide⟩⟩ := by
  decide +kernel

theorem normal_largestMessage (id : UInt32) (base extension : Nat) :
    (largestMessage id base extension).Normal := by
  refine ⟨nofun, List.forall_mem_map.mpr fun number _ => ⟨⟨_, parse_largest⟩, nofun⟩, ?_⟩
  rintro _ ⟨⟩
  simp [largestMessage]

/-- The sizes of a message of largest fields. -/
theorem size_of_largestMessage {id : UInt32} {base extension : Nat} {message : Message}
    (h : message.Declares ⟨none, 0, largestMessage id base extension⟩) :
    message.payload.base.length = base ∧ message.payload.extension.length = extension ∧
      message.baseSize = largestSize * base ∧
      message.extendedSize = largestSize * (base + extension) := by
  obtain ⟨-, declared, hdeclared, hpayload⟩ := Message.ofDefinition_eq_ok h
  have hlength : declared.length = base + extension := by
    rw [hdeclared.length_eq]
    simp [largestMessage]
  have hboundary : (largestMessage id base extension).boundary = base := by
    simp [MessageDefinition.boundary, largestMessage]
  have hlargest : ∀ field ∈ declared, field.type.wireSize = largestSize := by
    intro field hfield
    obtain ⟨definition, hdefinition, hdeclares⟩ := exists_of_forall₂ hdeclared hfield
    obtain ⟨number, -, rfl⟩ := List.mem_map.mp hdefinition
    have htype := hdeclares.type.symm.trans parse_largest
    rw [Except.ok.inj htype]
    rfl
  rw [hboundary] at hpayload
  have hbase : message.payload.base.length = base := by
    have hstart := congrArg Payload.extensionStart hpayload
    rw [Payload.extensionStart_packed] at hstart
    show message.payload.extensionStart = base
    rw [hstart]
    simp [Payload.extensionStart, Payload.declared, hlength]
  refine ⟨hbase, ?_, ?_, ?_⟩
  · rw [hpayload]
    simp [Payload.packed, Payload.declared, hlength]
  · rw [Message.baseSize, hpayload, Payload.baseSize_packed_declared,
      fieldsSize_of_largest fun field hfield => hlargest field (List.mem_of_mem_take hfield)]
    simp [hlength]
  · rw [Message.extendedSize, hpayload, Payload.extendedSize_packed_declared,
      fieldsSize_of_largest hlargest, hlength]

/-- **Which sizes and ids messages have.** A message of loaded files takes at most 2040 bytes for
each field in either size, so both sizes of a message with at most 32 fields are below `2 ^ 16`.
There is no other bound: for every id of 32 bits and all numbers of fields in the two segments there
is a file that is loaded with a message that has this id, and 2040 bytes for each field. -/
theorem message_capacity (scoping : Scoping) :
    (∀ sources model, (Model.load scoping sources).outcome = .ok model →
      ∀ message ∈ model.messages, message.Bounded) ∧
    ∀ (id : UInt32) (base extension : Nat), ∃ source model message,
      (Model.load scoping [source]).outcome = .ok model ∧ model.messages = [message] ∧
      message.id = id ∧
      message.payload.base.length = base ∧ message.payload.extension.length = extension ∧
      message.baseSize = largestSize * base ∧
      message.extendedSize = largestSize * (base + extension) := by
  refine ⟨fun _ _ _ message _ => message.bounded, fun id base extension => ?_⟩
  obtain ⟨model, message, hload, hmessages, hdeclares⟩ :=
    exists_load_of_message scoping (normal_largestMessage id base extension)
  exact ⟨_, model, message, hload, hmessages, hdeclares.id, size_of_largestMessage hdeclares⟩

/-- A file with a message of 33 largest fields and an id of four bytes is loaded. -/
theorem overflowing_message_is_loaded :
    ∃ model message,
      (Model.load .separate [messageSource (largestMessage 16777216 33 0)]).outcome = .ok model ∧
      message ∈ model.messages ∧ ¬ message.id.toNat < 2 ^ 24 ∧
      ¬ message.baseSize < 2 ^ 16 ∧ ¬ message.extendedSize < 2 ^ 16 := by
  obtain ⟨model, message, hload, hmessages, hdeclares⟩ :=
    exists_load_of_message .separate (normal_largestMessage 16777216 33 0)
  obtain ⟨-, -, hbase, hextended⟩ := size_of_largestMessage hdeclares
  refine ⟨model, message, hload, hmessages ▸ List.mem_singleton_self message, ?_, ?_, ?_⟩
  · rw [hdeclares.id]
    decide
  · rw [hbase]
    decide
  · rw [hextended]
    decide

end MavlinkCompiler
