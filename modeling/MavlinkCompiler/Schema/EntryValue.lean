import MavlinkCompiler.Text.Blank
import MavlinkCompiler.Text.Numeral
import MavlinkCompiler.Text.Split

/-!
# Entry values

The value of an enumeration entry is a signed 64-bit number in one of four notations: hexadecimal
after `0x`, binary after `0b`, a power written `base**exponent`, or decimal. The sign of a
hexadecimal or binary number stands after the mark. A number out of range is no value.

* `entryValue?`: the value that a text writes.
* `power?`: powers without the size of a result that cannot be in range.
-/

namespace MavlinkCompiler.Schema

open Text

/-- A power, given up when it cannot fit in 64 bits: a base other than -1, 0 and 1 doubles with each
factor. With `int64?` after it this is `checked_pow`. -/
def power? (base : Int) (exponent : Nat) : Option Int :=
  if base.natAbs < 2 then
    some (base.pow (if exponent < 2 then exponent else 2 + exponent % 2))
  else if exponent < 64 then
    some (base.pow exponent)
  else
    none

/-- Two to the power of 63: values lie below it, and not below its negative. -/
def signBound : Nat := 9223372036854775808

/-- A number as a signed 64-bit word, if it is in range. -/
def int64? (value : Int) : Option Int64 :=
  if -(signBound : Int) ≤ value ∧ value < signBound then some (Int64.ofInt value) else none

/-- A number with an optional sign, in signed 64-bit range: `from_str_radix`, or `parse` for ten. -/
def signed64? (radix : Nat) (digits : List Char) : Option Int :=
  signed? radix signBound digits

/-- The number that a text without blanks around it writes: the branches of `parse_enum_value`. -/
def entryNumber? : List Char → Option Int
  | '0' :: 'x' :: digits => signed64? 16 digits
  | '0' :: 'X' :: digits => signed64? 16 digits
  | '0' :: 'b' :: digits => signed64? 2 digits
  | '0' :: 'B' :: digits => signed64? 2 digits
  | text =>
    match cutAt? ['*', '*'] text with
    | some (base, exponent) => do
      let base ← signed64? 10 (trim base)
      let exponent ← unsigned? 10 UInt32.size (trim exponent)
      power? base exponent
    | none => signed64? 10 text

/-- The value that a text writes: `parse_enum_value`. -/
def entryValue? (text : String) : Option Int64 :=
  (entryNumber? (trim text.toList)).bind int64?

end MavlinkCompiler.Schema
