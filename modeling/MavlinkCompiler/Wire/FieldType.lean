import MavlinkCompiler.Text.Blank
import MavlinkCompiler.Text.Numeral
import MavlinkCompiler.Wire.Scalar

/-!
# Field types

A field is one scalar or a fixed number of them. The number is at least one and fits in a byte,
because a message's checksum seed holds it as one; the type `Count` says so.

* `FieldType.parse`: reads `name` or `name[count]`, blanks around each part allowed.
* `FieldType.text`: the canonical spelling.
* `FieldType.wireSize`: bytes of the whole field.
-/

namespace MavlinkCompiler

/-- The number of elements of an array field, a byte that is not zero. -/
structure Count where
  val : Nat
  pos : 0 < val
  lt : val < 256
  deriving DecidableEq

namespace Count

/-- A number as a count, if it is one. -/
def ofNat? (n : Nat) : Option Count :=
  if h : 0 < n ∧ n < 256 then some ⟨n, h.1, h.2⟩ else none

/-- The byte that stands for the count in a checksum seed. -/
def byte (count : Count) : UInt8 :=
  UInt8.ofNat count.val

/-- Reads what follows the opening bracket, as `parse` does: decimal digits, blanks around them
allowed, and the closing bracket at the very end. -/
def parse? (rest : List Char) : Option Count :=
  if rest.getLast? = some ']' then
    (Text.natural? 10 (Text.trim rest.dropLast)).bind ofNat?
  else
    none

end Count

/-- Why a field type could not be read: `UnknownType` and `MalformedCount` of `SchemaError`. -/
inductive TypeError where
  /-- No scalar type has this name. -/
  | unknownType (name : String)
  /-- The part in brackets of this type is not a count. -/
  | malformedCount (text : String)
  deriving DecidableEq, Repr

/-- The text shown for a type that could not be read. -/
def TypeError.message : TypeError → String
  | unknownType name => "Unknown type name: " ++ name
  | malformedCount text => "Malformed field count: " ++ text

/-- A scalar type, or an array of them when a count is given. -/
structure FieldType where
  scalar : Scalar
  count : Option Count
  deriving DecidableEq

namespace FieldType

/-- Reads a field type: `parse`. A name that no scalar type has is reported before a bad count. -/
def parse (text : String) : Except TypeError FieldType :=
  let body := Text.trim text.toList
  match body.dropWhile (· != '[') with
  | [] =>
    match Scalar.ofName? (String.ofList body) with
    | some scalar => .ok ⟨scalar, none⟩
    | none => .error (.unknownType (String.ofList body))
  | _ :: rest =>
    let name := String.ofList (Text.trim (body.takeWhile (· != '[')))
    match Scalar.ofName? name with
    | none => .error (.unknownType name)
    | some scalar =>
      match Count.parse? rest with
      | some count => .ok ⟨scalar, some count⟩
      | none => .error (.malformedCount (String.ofList body))

/-- The canonical spelling, `fmt` of a field type. -/
def text (type : FieldType) : String :=
  match type.count with
  | some count => type.scalar.name ++ "[" ++ toString count.val ++ "]"
  | none => type.scalar.name

/-- The number of elements, one for a scalar: `count`. -/
def elements (type : FieldType) : Nat :=
  match type.count with
  | some count => count.val
  | none => 1

/-- Whether a count is given, be it one: `is_array`. -/
def isArray (type : FieldType) : Bool :=
  type.count.isSome

/-- An array of characters is a text of fixed length, not an array of elements: `is_string`. -/
def isString (type : FieldType) : Bool :=
  type.scalar == .char && type.isArray

/-- Bytes of the field on the wire: `wire_size`. -/
def wireSize (type : FieldType) : Nat :=
  type.scalar.size * type.elements

theorem elements_pos (type : FieldType) : 0 < type.elements := by
  unfold elements
  split
  · exact Count.pos _
  · decide

theorem wireSize_pos (type : FieldType) : 0 < type.wireSize :=
  Nat.mul_pos type.scalar.size_pos type.elements_pos

end FieldType

end MavlinkCompiler
