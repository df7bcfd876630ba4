import MavlinkCompiler.Model.Message
import MavlinkCompiler.Proofs.Outcome
import MavlinkCompiler.Proofs.Wire.Payload

/-!
# Layouts of messages

A message has the fields of its definition in wire order. Receivers that know the base segment only
need its fields, its size and the checksum byte; what the definition says after the base segment
does not touch them.

* `Field.Declares`: a field is what its definition declares.
* `Message.LaidOut`: a message has declared fields in wire order, and the sizes that follow.
* `laidOut_of_ofDefinition`: the message of a definition is laid out so.
* `Message.SameBase`: two messages are the same to receivers that know the base segment only.
* `sameBase_of_same_base_fields`: messages whose definitions have the same base fields are.
-/

namespace MavlinkCompiler

open Schema (FieldDefinition MessageDefinition)

/-! ## Declared fields -/

/-- A field is what its definition declares. -/
structure Field.Declares (field : Field) (definition : FieldDefinition) : Prop where
  name : field.name = safeName definition.name
  wireName : field.wireName = definition.name
  type : FieldType.parse definition.type = .ok field.type
  description : field.description = definition.description
  enumName : field.enumName = definition.enumName
  units : field.units = definition.units

theorem Field.ofDefinition_eq_ok_iff {definition : FieldDefinition} {field : Field} :
    Field.ofDefinition definition = .ok field ↔ field.Declares definition := by
  unfold Field.ofDefinition
  rw [Outcome.bind_eq_ok_iff]
  constructor
  · rintro ⟨type, htype, hfield⟩
    cases hfield
    exact ⟨rfl, rfl, Outcome.mapError_eq_ok_iff.mp htype, rfl, rfl, rfl⟩
  · rintro ⟨hname, hwireName, htype, hdescription, henumName, hunits⟩
    refine ⟨field.type, Outcome.mapError_eq_ok_iff.mpr htype, ?_⟩
    rw [← hname, ← hwireName, ← hdescription, ← henumName, ← hunits]
    rfl

theorem Field.Declares.unique {one other : Field} {definition : FieldDefinition}
    (hone : one.Declares definition) (hother : other.Declares definition) : one = other := by
  have h : Except.ok (ε := Schema.Error) one = .ok other :=
    (Field.ofDefinition_eq_ok_iff.mpr hone).symm.trans (Field.ofDefinition_eq_ok_iff.mpr hother)
  exact Except.ok.inj h

theorem mapM_ofDefinition_eq_ok_iff {definitions : List FieldDefinition} {fields : List Field} :
    definitions.mapM Field.ofDefinition = .ok fields ↔
      List.Forall₂ Field.Declares fields definitions := by
  rw [Outcome.mapM_eq_ok_iff]
  simp only [Field.ofDefinition_eq_ok_iff]
  exact ⟨List.Forall₂.flip, List.Forall₂.flip⟩

theorem Schema.MessageDefinition.boundary_le (definition : MessageDefinition) :
    definition.boundary ≤ definition.fields.length := by
  unfold MessageDefinition.boundary
  split
  · exact Nat.min_le_right _ _
  · exact Nat.le_refl _

/-- The message of a definition packs the fields that are declared. -/
theorem Message.ofDefinition_eq_ok {definition : MessageDefinition} {scope : Option String}
    {group : Nat} {message : Message}
    (h : Message.ofDefinition definition scope group = .ok message) :
    message.wireName = definition.name ∧
      ∃ declared, List.Forall₂ Field.Declares declared definition.fields ∧
        message.payload = (Payload.declared declared definition.boundary).packed := by
  obtain ⟨declared, hdeclared, hmessage⟩ := Outcome.bind_eq_ok_iff.mp h
  cases hmessage
  exact ⟨rfl, declared, mapM_ofDefinition_eq_ok_iff.mp hdeclared, rfl⟩

/-- The message of a definition whose fields and their packing are known. -/
theorem Message.ofDefinition_of_fields {definition : MessageDefinition} {fields : List Field}
    {payload : Payload} (hfields : definition.fields.mapM Field.ofDefinition = .ok fields)
    (hpayload : (Payload.declared fields definition.boundary).packed = payload)
    {scope : Option String} {group : Nat} :
    Message.ofDefinition definition scope group =
      .ok {
        name := safeName definition.name
        wireName := definition.name
        id := definition.id
        scope
        group
        description := definition.description
        payload } := by
  unfold Message.ofDefinition
  rw [hfields, ← hpayload]
  rfl

/-! ## Wire order and sizes -/

/-- A message has declared fields in wire order, the extension being declared from a position on,
and the sizes that follow from them. -/
structure Message.LaidOut (message : Message) (declared : List Field) (start : Nat) : Prop where
  extensionStart : message.payload.extensionStart = start
  hasExtension : message.payload.hasExtension = true ↔ start < message.fields.length
  perm : message.fields.Perm declared
  /-- The base segment holds the fields that are declared in it. -/
  base_perm : (message.fields.take start).Perm (declared.take start)
  /-- Wider scalars come first, and equally wide ones in the order declared. -/
  arranged : Arranges (·.type.scalar.size) (message.fields.take start) (declared.take start)
  /-- There is no other such order. -/
  unique : ∀ other, Arranges (·.type.scalar.size) other (declared.take start) →
    other = message.fields.take start
  extension : message.fields.drop start = declared.drop start
  baseSize : message.baseSize =
    ((declared.take start).map fun field => field.type.scalar.size * field.type.elements).sum
  extendedSize : message.extendedSize =
    (declared.map fun field => field.type.scalar.size * field.type.elements).sum
  baseSize_le : message.baseSize ≤ message.extendedSize
  baseSize_eq_iff : message.baseSize = message.extendedSize ↔ message.payload.hasExtension = false

/-- **Wire order and sizes.** The message of a definition has the fields that the definition
declares: those before its boundary by descending widths, equally wide ones as declared, which
leaves one order only; then the others as declared. The sizes are the sums over the base segment and
over all fields, and they differ exactly if there is an extension. -/
theorem laidOut_of_ofDefinition {definition : MessageDefinition} {scope : Option String}
    {group : Nat} {message : Message}
    (h : Message.ofDefinition definition scope group = .ok message) :
    ∃ declared, List.Forall₂ Field.Declares declared definition.fields ∧
      message.LaidOut declared definition.boundary := by
  obtain ⟨-, declared, hdeclared, hpayload⟩ := Message.ofDefinition_eq_ok h
  refine ⟨declared, hdeclared, ?_⟩
  have hle : definition.boundary ≤ declared.length := by
    rw [hdeclared.length_eq]
    exact definition.boundary_le
  generalize definition.boundary = start at hpayload hle
  have hstart : message.payload.extensionStart = start := by
    rw [hpayload, Payload.extensionStart_packed]
    exact List.length_take_of_le hle
  -- the first fields on the wire are the base segment, and the others the extension
  have hbase : message.fields.take start = message.payload.base := by
    rw [← hstart]
    exact message.payload.take_fields
  have hextension : message.fields.drop start = message.payload.extension := by
    rw [← hstart]
    exact message.payload.drop_fields
  have harranged : Arranges (·.type.scalar.size) message.payload.base (declared.take start) := by
    rw [hpayload]
    exact (Payload.declared declared start).packed_arranges
  exact {
    extensionStart := hstart
    hasExtension := by
      rw [← hstart]
      exact Payload.hasExtension_iff
    perm := by
      rw [Message.fields, hpayload]
      exact (Payload.fields_packed_perm _).trans (.of_eq (Payload.fields_declared declared start))
    base_perm := by
      rw [hbase, hpayload]
      exact (Payload.declared declared start).base_packed_perm
    arranged := by
      rw [hbase]
      exact harranged
    unique := by
      intro other hother
      rw [hbase]
      exact hother.unique harranged
    extension := by
      rw [hextension, hpayload]
      rfl
    baseSize := by
      rw [← fieldsSize_eq_sum, Message.baseSize, hpayload]
      exact Payload.baseSize_packed_declared declared start
    extendedSize := by
      rw [← fieldsSize_eq_sum, Message.extendedSize, hpayload]
      exact Payload.extendedSize_packed_declared declared start
    baseSize_le := message.payload.baseSize_le_extendedSize
    baseSize_eq_iff := Payload.baseSize_eq_extendedSize_iff }

/-- A definition with two base fields, the wider one second, and two extension fields. -/
def acknowledgement : MessageDefinition where
  name := "COMMAND_ACK"
  id := 77
  description := none
  fields := [
    ⟨"result", "uint8_t", none, none, none⟩, ⟨"command", "uint16_t", none, none, none⟩,
    ⟨"progress", "uint8_t", none, none, none⟩, ⟨"parameters", "int32_t[2]", none, none, none⟩]
  extensionsAt := some 2

/-- Its message, where the wider field comes first. -/
def acknowledgementMessage : Message where
  name := "COMMAND_ACK"
  wireName := "COMMAND_ACK"
  id := 77
  scope := none
  group := 0
  description := none
  payload := {
    base := [
      ⟨"command", "command", ⟨.uint16, none⟩, none, none, none⟩,
      ⟨"result", "result", ⟨.uint8, none⟩, none, none, none⟩]
    extension := [
      ⟨"progress", "progress", ⟨.uint8, none⟩, none, none, none⟩,
      ⟨"parameters", "parameters", ⟨.int32, some ⟨2, by decide, by decide⟩⟩, none, none, none⟩] }

theorem safeName_acknowledgement : safeName acknowledgement.name = "COMMAND_ACK" := by
  decide +kernel

theorem ofDefinition_acknowledgement :
    Message.ofDefinition acknowledgement none 0 = .ok acknowledgementMessage := by
  have hfields : acknowledgement.fields.mapM Field.ofDefinition =
      .ok (acknowledgementMessage.payload.base.reverse ++
        acknowledgementMessage.payload.extension) := by
    decide +kernel
  rw [Message.ofDefinition_of_fields hfields (Payload.packed_pair _ (by decide)),
    safeName_acknowledgement]
  rfl

theorem acknowledgementMessage_laidOut :
    Message.ofDefinition acknowledgement none 0 = .ok acknowledgementMessage ∧
      ∃ declared, List.Forall₂ Field.Declares declared acknowledgement.fields ∧
        acknowledgementMessage.LaidOut declared 2 :=
  ⟨ofDefinition_acknowledgement, laidOut_of_ofDefinition ofDefinition_acknowledgement⟩

/-! ## The base segment on its own -/

/-- Two messages are the same to receivers that know the base segment only. -/
structure Message.SameBase (one other : Message) : Prop where
  fields : one.payload.base = other.payload.base
  size : one.baseSize = other.baseSize
  crcExtra : one.crcExtra = other.crcExtra

theorem Message.SameBase.of_base {one other : Message} (hname : one.wireName = other.wireName)
    (hbase : one.payload.base = other.payload.base) : one.SameBase other where
  fields := hbase
  size := congrArg fieldsSize hbase
  crcExtra := by
    rw [Message.crcExtra, Message.crcExtra, hname, hbase]

/-- The base segment depends on the name and the base fields of the definition only. -/
theorem sameBase_of_same_base_fields {one other : MessageDefinition} {scope scope' : Option String}
    {group group' : Nat} {message message' : Message} (hname : one.name = other.name)
    (hfields : one.fields.take one.boundary = other.fields.take other.boundary)
    (h : Message.ofDefinition one scope group = .ok message)
    (h' : Message.ofDefinition other scope' group' = .ok message') :
    message.SameBase message' := by
  obtain ⟨hwire, declared, hdeclared, hpayload⟩ := Message.ofDefinition_eq_ok h
  obtain ⟨hwire', declared', hdeclared', hpayload'⟩ := Message.ofDefinition_eq_ok h'
  have hbase : declared.take one.boundary = declared'.take other.boundary := by
    have hone := List.forall₂_take one.boundary hdeclared
    have hother := List.forall₂_take other.boundary hdeclared'
    rw [← hfields] at hother
    exact List.left_unique_forall₂' (fun _ _ _ ha hb => ha.unique hb) hone hother
  refine .of_base ?_ ?_
  · rw [hwire, hwire', hname]
  · rw [hpayload, hpayload']
    unfold Payload.packed Payload.declared
    rw [hbase]

/-- A definition cut down to the fields before a position, with no mark. -/
def Schema.MessageDefinition.legacy (definition : MessageDefinition) (start : Nat) :
    MessageDefinition :=
  { definition with fields := definition.fields.take start, extensionsAt := none }

theorem Schema.MessageDefinition.take_boundary {definition : MessageDefinition} {start : Nat}
    (h : definition.extensionsAt = some start) :
    definition.fields.take definition.boundary = definition.fields.take start := by
  rw [boundary, h]
  simp [List.take_eq_take_iff]

/-- All fields of a definition that is cut down are base fields. -/
theorem Schema.MessageDefinition.take_boundary_legacy (definition : MessageDefinition)
    (start : Nat) :
    (definition.legacy start).fields.take (definition.legacy start).boundary =
      definition.fields.take start :=
  List.take_length

/-- What gives a message still does when it is cut down. -/
theorem exists_ofDefinition_legacy {definition : MessageDefinition} {scope : Option String}
    {group : Nat} {message : Message}
    (h : Message.ofDefinition definition scope group = .ok message) (start : Nat)
    (scope' : Option String) (group' : Nat) :
    ∃ earlier, Message.ofDefinition (definition.legacy start) scope' group' = .ok earlier := by
  obtain ⟨-, declared, hdeclared, -⟩ := Message.ofDefinition_eq_ok h
  have hfront : (definition.legacy start).fields.mapM Field.ofDefinition =
      .ok (declared.take start) :=
    mapM_ofDefinition_eq_ok_iff.mpr (List.forall₂_take start hdeclared)
  exact ⟨_, Outcome.bind_eq_ok_iff.mpr ⟨_, hfront, rfl⟩⟩

/-- **Extensions do not touch the base segment.** Two definitions of one name that mark the same
start of their extensions and agree on the fields before it give messages with the same base fields
in the same order, the same base size and the same checksum byte, whatever follows; and so does the
definition that is cut down to the base fields. -/
theorem extension_leaves_base_same {one other : MessageDefinition} {start : Nat}
    {scope scope' : Option String} {group group' : Nat} {message message' : Message}
    (hname : one.name = other.name) (hone : one.extensionsAt = some start)
    (hother : other.extensionsAt = some start)
    (hfields : one.fields.take start = other.fields.take start)
    (h : Message.ofDefinition one scope group = .ok message)
    (h' : Message.ofDefinition other scope' group' = .ok message') :
    message.SameBase message' ∧
      ∀ scope'' group'', ∃ earlier,
        Message.ofDefinition (one.legacy start) scope'' group'' = .ok earlier ∧
          earlier.SameBase message ∧ earlier.SameBase message' := by
  have hbase : one.fields.take one.boundary = other.fields.take other.boundary := by
    rw [MessageDefinition.take_boundary hone, MessageDefinition.take_boundary hother, hfields]
  have hlegacy : (one.legacy start).fields.take (one.legacy start).boundary =
      one.fields.take one.boundary := by
    rw [MessageDefinition.take_boundary_legacy, MessageDefinition.take_boundary hone]
  have hlegacyName : (one.legacy start).name = one.name := rfl
  refine ⟨sameBase_of_same_base_fields hname hbase h h', fun scope'' group'' => ?_⟩
  obtain ⟨earlier, hearlier⟩ := exists_ofDefinition_legacy h start scope'' group''
  exact ⟨earlier, hearlier, sameBase_of_same_base_fields hlegacyName hlegacy hearlier h,
    sameBase_of_same_base_fields (hlegacyName.trans hname) (hlegacy.trans hbase) hearlier h'⟩

/-- The same base fields with another extension. -/
def laterAcknowledgement : MessageDefinition :=
  { acknowledgement with
    fields := acknowledgement.fields.take 2 ++ [⟨"note", "char[50]", none, none, none⟩] }

def laterAcknowledgementMessage : Message :=
  { acknowledgementMessage with
    payload := {
      base := acknowledgementMessage.payload.base
      extension :=
        [⟨"note", "note", ⟨.char, some ⟨50, by decide, by decide⟩⟩, none, none, none⟩] } }

theorem acknowledgements_have_same_base :
    Message.ofDefinition acknowledgement none 0 = .ok acknowledgementMessage ∧
      Message.ofDefinition laterAcknowledgement none 0 = .ok laterAcknowledgementMessage ∧
      acknowledgementMessage.SameBase laterAcknowledgementMessage ∧
      ∀ scope group, ∃ earlier,
        Message.ofDefinition (acknowledgement.legacy 2) scope group = .ok earlier ∧
          earlier.SameBase acknowledgementMessage ∧
          earlier.SameBase laterAcknowledgementMessage := by
  have hname : acknowledgement.name = laterAcknowledgement.name := rfl
  have hfields : acknowledgement.fields.take 2 = laterAcknowledgement.fields.take 2 := rfl
  have hlater : Message.ofDefinition laterAcknowledgement none 0 =
      .ok laterAcknowledgementMessage := by
    have hdeclared : laterAcknowledgement.fields.mapM Field.ofDefinition =
        .ok (laterAcknowledgementMessage.payload.base.reverse ++
          laterAcknowledgementMessage.payload.extension) := by
      decide +kernel
    rw [Message.ofDefinition_of_fields hdeclared (Payload.packed_pair _ (by decide)), ← hname,
      safeName_acknowledgement]
    rfl
  exact ⟨ofDefinition_acknowledgement, hlater,
    extension_leaves_base_same hname rfl rfl hfields ofDefinition_acknowledgement hlater⟩

end MavlinkCompiler
