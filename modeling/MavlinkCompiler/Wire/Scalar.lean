/-!
# Scalar types

The element types a message field can have on the wire, in catalog order. The order is part of the
protocol: generated code identifies a type by its position.

* `Scalar.name`, `Scalar.ofName?`: the spelling in definition files.
* `Scalar.size`: bytes of one element.
* `Scalar.hashedName`: the spelling that enters a message's checksum seed.
-/

namespace MavlinkCompiler

/-- The element type of a field, `PrimitiveType`. `version` is an unsigned byte that carries the
protocol version. -/
inductive Scalar where
  | char
  | uint8
  | int8
  | uint16
  | int16
  | uint32
  | int32
  | uint64
  | int64
  | float
  | double
  | version
  deriving DecidableEq, Repr

namespace Scalar

/-- Every scalar type, in catalog order: `ALL`. -/
def all : List Scalar :=
  [char, uint8, int8, uint16, int16, uint32, int32, uint64, int64, float, double, version]

/-- The position in the catalog: `index`. -/
def index (s : Scalar) : Nat :=
  all.idxOf s

/-- Bytes of one element on the wire: `size`. -/
def size : Scalar → Nat
  | char | uint8 | int8 | version => 1
  | uint16 | int16 => 2
  | uint32 | int32 | float => 4
  | uint64 | int64 | double => 8

/-- The name in definition files: `name`. -/
def name : Scalar → String
  | char => "char"
  | uint8 => "uint8_t"
  | int8 => "int8_t"
  | uint16 => "uint16_t"
  | int16 => "int16_t"
  | uint32 => "uint32_t"
  | int32 => "int32_t"
  | uint64 => "uint64_t"
  | int64 => "int64_t"
  | float => "float"
  | double => "double"
  | version => "uint8_t_mavlink_version"

/-- The name that enters a checksum seed, `crc_name`: the version marker counts as a plain unsigned
byte. -/
def hashedName : Scalar → String
  | version => uint8.name
  | s => s.name

/-- The upper-case token that generated code uses for the type: `id_token`. -/
def token : Scalar → String
  | char => "CHAR"
  | uint8 => "UINT8"
  | int8 => "INT8"
  | uint16 => "UINT16"
  | int16 => "INT16"
  | uint32 => "UINT32"
  | int32 => "INT32"
  | uint64 => "UINT64"
  | int64 => "INT64"
  | float => "FLOAT"
  | double => "DOUBLE"
  | version => "UINT8_VERSION"

/-- Whether values are whole numbers, `is_integer`. Characters do not count. -/
def isInteger : Scalar → Bool
  | float | double | char => false
  | _ => true

/-- The scalar type with exactly this name: `from_str`. -/
def ofName? (text : String) : Option Scalar :=
  all.find? fun s => s.name == text

theorem mem_all (s : Scalar) : s ∈ all := by
  cases s <;> decide

theorem size_pos (s : Scalar) : 0 < s.size := by
  cases s <;> decide

/-- A name is read back as the type it names. -/
@[simp]
theorem ofName?_name (s : Scalar) : ofName? s.name = some s := by
  cases s <;> rfl

theorem name_of_ofName? {text : String} {s : Scalar} (h : ofName? text = some s) :
    s.name = text := by
  simpa using List.find?_some h

end Scalar

end MavlinkCompiler
