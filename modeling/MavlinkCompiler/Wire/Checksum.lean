/-!
# The frame checksum

A 16-bit register that bytes are fed into one by one. The register starts with all bits set; a byte
is combined with its low half, spread by a shift, and mixed into the rest of the register by three
more. The register after a text identifies the text; its two halves combined give one byte. This is
`X25Crc`.

* `Register.feed`: one byte.
* `Register.feedAll`: a sequence of bytes.
* `Register.folded`: the register in one byte.
-/

namespace MavlinkCompiler

/-- The state of the checksum, `X25Crc`. -/
structure Register where
  value : UInt16
  deriving DecidableEq, Repr

namespace Register

/-- The state before the first byte, `new`. -/
def initial : Register := ⟨0xFFFF⟩

/-- The state after one more byte: one round of `accumulate`. -/
def feed (register : Register) (byte : UInt8) : Register :=
  let mixed := byte ^^^ register.value.toUInt8
  let spread := (mixed ^^^ (mixed <<< 4)).toUInt16
  ⟨(register.value >>> 8) ^^^ (spread <<< 8) ^^^ (spread <<< 3) ^^^ (spread >>> 4)⟩

/-- The state after a sequence of bytes: `accumulate`. -/
def feedAll (register : Register) (bytes : List UInt8) : Register :=
  bytes.foldl feed register

/-- The low half combined with the high half: `fold`. -/
def folded (register : Register) : UInt8 :=
  register.value.toUInt8 ^^^ (register.value >>> 8).toUInt8

@[simp]
theorem feedAll_nil (register : Register) : register.feedAll [] = register := rfl

/-- Feeding a sequence in two parts is feeding it at once. -/
theorem feedAll_append (register : Register) (xs ys : List UInt8) :
    register.feedAll (xs ++ ys) = (register.feedAll xs).feedAll ys :=
  List.foldl_append

end Register

end MavlinkCompiler
