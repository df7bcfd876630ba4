import MavlinkCompiler.Wire.Checksum
import MavlinkCompiler.Wire.FieldType

/-!
# Payload layout

The fields of a message come in two segments. The base segment is known to every receiver and is
packed with the widest scalars first; the extension segment was added later and keeps the order of
its declaration, so that old receivers still find the base segment where it was.

`MessageLayout` is not a record here: its three values are computed from the segments when they are
asked for.

* `Payload.declared`, `Payload.packed`: the segments as declared and as sent.
* `Payload.baseSize`, `Payload.extendedSize`: bytes without and with the extension.
* `crcExtra`: the byte that stands for the base layout in a frame's checksum.
-/

namespace MavlinkCompiler

/-- A message field. -/
structure Field where
  /-- The name in generated code. -/
  name : String
  /-- The name as the definition writes it. -/
  wireName : String
  type : FieldType
  description : Option String
  /-- The enumeration that the definition names for the values of the field. -/
  enumName : Option String
  units : Option String
  deriving DecidableEq

/-- The total size of some fields, the sum that `wire_sizes` takes of a segment. -/
def fieldsSize : List Field → Nat
  | [] => 0
  | field :: fields => field.type.wireSize + fieldsSize fields

/-- The two segments of a message's fields: `fields` before and after `extensions_start`. -/
structure Payload where
  base : List Field
  extension : List Field
  deriving DecidableEq

namespace Payload

/-- The segments of declared fields when the extension starts at position `start`. -/
def declared (fields : List Field) (start : Nat) : Payload :=
  ⟨fields.take start, fields.drop start⟩

/-- Packs the base segment: wider scalars first, equally wide ones in the order given. This is
`reorder_fields`. -/
def packed (payload : Payload) : Payload :=
  { payload with
    base := payload.base.mergeSort fun a b => b.type.scalar.size ≤ a.type.scalar.size }

/-- All fields, the base segment first. -/
def fields (payload : Payload) : List Field :=
  payload.base ++ payload.extension

/-- The position of the first extension field. -/
def extensionStart (payload : Payload) : Nat :=
  payload.base.length

/-- Whether there is an extension field: `has_extensions`. -/
def hasExtension (payload : Payload) : Bool :=
  !payload.extension.isEmpty

/-- Bytes of the base segment, the first of `wire_sizes`. -/
def baseSize (payload : Payload) : Nat :=
  fieldsSize payload.base

/-- Bytes of both segments, the second of `wire_sizes`. -/
def extendedSize (payload : Payload) : Nat :=
  payload.baseSize + fieldsSize payload.extension

end Payload

/-! ## The checksum of a layout -/

/-- The bytes of a text. -/
def textBytes (text : String) : List UInt8 :=
  text.toUTF8.toList

namespace Register

/-- The state after the bytes of a text: `accumulate_str`. -/
def feedText (register : Register) (text : String) : Register :=
  register.feedAll (textBytes text)

/-- The state after a field: its scalar type, its name as written, and the count of an array. It is
one round of `crc_extra`. -/
def feedField (register : Register) (field : Field) : Register :=
  let named := register.feedText field.type.scalar.hashedName |>.feedText " "
    |>.feedText field.wireName |>.feedText " "
  match field.type.count with
  | some count => named.feed count.byte
  | none => named

end Register

/-- The checksum of a message's name and some of its fields, folded into one byte: `crc_extra`. -/
def crcExtra (wireName : String) (fields : List Field) : UInt8 :=
  (fields.foldl Register.feedField (Register.initial.feedText wireName |>.feedText " ")).folded

end MavlinkCompiler
