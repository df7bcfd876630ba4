import Mathlib
import MavlinkCompiler.Wire.Checksum

/-!
# The checksum bit by bit

The checksum is the remainder of a division by a polynomial, bits taken lowest first: a byte is
added to the low half of the register, and for each of its eight bits the register moves down by one
place, with the polynomial added when the bit that leaves is set. The register's own step does all
eight places at once.

* `Register.shiftBit_xor`: moving down by one place is additive.
* `Register.iterate_shiftBit_octet`: what eight places make of one octet.
* `Register.feed_eq_feedBitwise`: both steps agree on every register and every byte.
* `Register.feedAll_bit_by_bit`: so they do on all sequences, however these are cut into chunks.
* `Register.toNat_folded`: the byte that a register is folded into.
-/

namespace MavlinkCompiler.Register

/-- The polynomial of the division, lowest powers in the highest bits. -/
def polynomial : UInt16 := 0x8408

/-- The register one place down. -/
def shiftBit (value : UInt16) : UInt16 :=
  if value &&& 1 = 1 then (value >>> 1) ^^^ polynomial else value >>> 1

/-- The state after one more byte, bit by bit. -/
def feedBitwise (register : Register) (byte : UInt8) : Register :=
  ⟨shiftBit^[8] (register.value ^^^ byte.toUInt16)⟩

/-- A folded register is its low byte with the high byte added, bit by bit without carries. -/
theorem toNat_folded (register : Register) :
    register.folded.toNat = register.value.toNat % 256 ^^^ register.value.toNat / 256 := by
  have hhigh : register.value.toNat / 256 < 256 := by
    have hvalue := register.value.toNat_lt
    omega
  have hshift : (register.value >>> 8).toNat = register.value.toNat / 256 := by
    rw [UInt16.toNat_shiftRight, Nat.shiftRight_eq_div_pow]
    rfl
  rw [folded, UInt8.toNat_xor, UInt16.toNat_toUInt8, UInt16.toNat_toUInt8, hshift,
    Nat.mod_eq_of_lt hhigh]

/-! ## One place -/

theorem and_one_eq_one_iff (value : UInt16) :
    value &&& 1 = 1 ↔ value.toBitVec.getLsbD 0 = true := by
  rw [← UInt16.toNat_inj, UInt16.toNat_and, BitVec.getLsbD, Nat.testBit_zero]
  simp [Nat.and_one_is_mod]

/-- The register moves down by one place as it is when the lowest bit is clear. -/
theorem toBitVec_shiftBit_of_clear {value : UInt16} (h : value.toBitVec.getLsbD 0 = false) :
    (shiftBit value).toBitVec = value.toBitVec >>> 1 := by
  have hclear : ¬ value &&& 1 = 1 := by
    rw [and_one_eq_one_iff, h]
    exact Bool.false_ne_true
  rw [shiftBit, if_neg hclear, UInt16.toBitVec_shiftRight]
  rfl

/-- Moving down is additive. -/
theorem shiftBit_xor (a b : UInt16) : shiftBit (a ^^^ b) = shiftBit a ^^^ shiftBit b := by
  have hbit : (a ^^^ b).toBitVec.getLsbD 0 =
      (a.toBitVec.getLsbD 0 ^^ b.toBitVec.getLsbD 0) := by
    rw [UInt16.toBitVec_xor, BitVec.getLsbD_xor]
  have hshift : (a ^^^ b) >>> 1 = (a >>> 1) ^^^ (b >>> 1) := by
    apply UInt16.toBitVec_inj.mp
    simp [BitVec.ushiftRight_xor_distrib]
  simp only [shiftBit, and_one_eq_one_iff, hbit, hshift]
  cases a.toBitVec.getLsbD 0 <;> cases b.toBitVec.getLsbD 0
  · simp
  · simp [UInt16.xor_assoc]
  · simp only [Bool.xor_false, if_true, Bool.false_eq_true, if_false]
    ac_rfl
  · -- two set bits cancel, and so do the two polynomials
    have hcancel : (a >>> 1) ^^^ polynomial ^^^ ((b >>> 1) ^^^ polynomial) =
        ((a >>> 1) ^^^ (b >>> 1)) ^^^ (polynomial ^^^ polynomial) := by
      ac_rfl
    simp [hcancel]

/-! ## Eight places -/

theorem iterate_shiftBit_xor (n : Nat) (a b : UInt16) :
    shiftBit^[n] (a ^^^ b) = shiftBit^[n] a ^^^ shiftBit^[n] b := by
  induction n generalizing a b with
  | zero => rfl
  | succ n ih =>
    rw [Function.iterate_succ_apply, Function.iterate_succ_apply, Function.iterate_succ_apply,
      shiftBit_xor, ih]

/-- Bits above clear ones move down as they are. -/
theorem toBitVec_iterate_shiftBit {value : UInt16} {n : Nat}
    (h : ∀ i < n, value.toBitVec.getLsbD i = false) :
    (shiftBit^[n] value).toBitVec = value.toBitVec >>> n := by
  induction n with
  | zero => rfl
  | succ n ih =>
    have hfront : (shiftBit^[n] value).toBitVec = value.toBitVec >>> n :=
      ih fun i hi => h i (Nat.lt_succ_of_lt hi)
    have hnext : (shiftBit^[n] value).toBitVec.getLsbD 0 = false := by
      rw [hfront, BitVec.getLsbD_ushiftRight]
      exact h n (Nat.lt_succ_self n)
    rw [Function.iterate_succ_apply', toBitVec_shiftBit_of_clear hnext, hfront,
      BitVec.shiftRight_add]

/-- What an octet leaves in the register when it moves out of it. -/
def contribution (octet : UInt8) : UInt16 :=
  let doubled := (octet ^^^ (octet <<< 4)).toUInt16
  (doubled <<< 8) ^^^ (doubled <<< 3) ^^^ (doubled >>> 4)

theorem iterate_shiftBit_octet (octet : UInt8) :
    shiftBit^[8] octet.toUInt16 = contribution octet := by
  have hall : ∀ n : Fin 256,
      shiftBit^[8] (UInt8.ofFin n).toUInt16 = contribution (UInt8.ofFin n) := by
    decide +kernel
  exact hall octet.toFin

/-- The upper half on its own. -/
def upper (value : UInt16) : UInt16 := value &&& 0xFF00

theorem getLsbD_upper (value : UInt16) (i : Nat) :
    (upper value).toBitVec.getLsbD i = (decide (8 ≤ i) && value.toBitVec.getLsbD i) := by
  have hmask : (0xFF00 : UInt16).toBitVec = (BitVec.allOnes 16) <<< 8 := by decide
  rw [upper, UInt16.toBitVec_and, hmask, BitVec.getLsbD_and, BitVec.getLsbD_shiftLeft,
    BitVec.getLsbD_allOnes]
  by_cases hi : i < 16
  · by_cases h8 : 8 ≤ i
    · simp [hi, h8, show i - 8 < 16 by omega]
    · simp [hi, h8, show i < 8 by omega]
  · simp [BitVec.getLsbD_of_ge value.toBitVec i (by omega)]

/-- A register with a byte added is its upper half and one octet. -/
theorem xor_byte_eq (value : UInt16) (byte : UInt8) :
    value ^^^ byte.toUInt16 = upper value ^^^ (byte ^^^ value.toUInt8).toUInt16 := by
  apply UInt16.toBitVec_inj.mp
  apply BitVec.eq_of_getLsbD_eq
  intro i hi
  simp only [UInt16.toBitVec_xor, BitVec.getLsbD_xor, getLsbD_upper, UInt8.toBitVec_toUInt16,
    UInt8.toBitVec_xor, UInt16.toBitVec_toUInt8, BitVec.getLsbD_setWidth]
  by_cases h8 : 8 ≤ i
  · simp [h8, show ¬ i < 8 by omega]
  · simp [h8, show i < 8 by omega, hi, Bool.xor_comm]

/-- Eight places bring the upper half down. -/
theorem iterate_shiftBit_upper (value : UInt16) : shiftBit^[8] (upper value) = value >>> 8 := by
  have hclear : ∀ i < 8, (upper value).toBitVec.getLsbD i = false := by
    intro i hi
    rw [getLsbD_upper, decide_eq_false (by omega), Bool.false_and]
  apply UInt16.toBitVec_inj.mp
  rw [toBitVec_iterate_shiftBit hclear, UInt16.toBitVec_shiftRight]
  apply BitVec.eq_of_getLsbD_eq
  intro i _
  rw [BitVec.getLsbD_ushiftRight, getLsbD_upper]
  simp

/-! ## Bytes and sequences -/

/-- The step in two parts: the upper half comes down, and the lower half moves out with the byte. -/
theorem value_feed (register : Register) (byte : UInt8) :
    (register.feed byte).value =
      (register.value >>> 8) ^^^ contribution (byte ^^^ register.value.toUInt8) := by
  simp only [feed, contribution, UInt16.xor_assoc]

theorem feed_eq_feedBitwise (register : Register) (byte : UInt8) :
    register.feed byte = register.feedBitwise byte := by
  have hvalue : (register.feed byte).value = (register.feedBitwise byte).value :=
    calc (register.feed byte).value
      _ = (register.value >>> 8) ^^^ contribution (byte ^^^ register.value.toUInt8) :=
        value_feed register byte
      _ = shiftBit^[8] (upper register.value) ^^^
            shiftBit^[8] (byte ^^^ register.value.toUInt8).toUInt16 := by
        rw [iterate_shiftBit_upper, iterate_shiftBit_octet]
      _ = shiftBit^[8] (register.value ^^^ byte.toUInt16) := by
        rw [← iterate_shiftBit_xor, ← xor_byte_eq]
  cases hfeed : register.feed byte
  rw [hfeed] at hvalue
  exact congrArg Register.mk hvalue

/-- A sequence bit by bit. -/
theorem feedAll_eq_foldl_feedBitwise (register : Register) (bytes : List UInt8) :
    register.feedAll bytes = bytes.foldl feedBitwise register := by
  induction bytes generalizing register with
  | nil => rfl
  | cons byte bytes ih =>
    rw [List.foldl_cons, ← feed_eq_feedBitwise, ← ih]
    rfl

/-- A sequence in chunks. -/
theorem foldl_feedAll (register : Register) (chunks : List (List UInt8)) :
    chunks.foldl feedAll register = register.feedAll chunks.flatten := by
  induction chunks generalizing register with
  | nil => rfl
  | cons chunk chunks ih => rw [List.foldl_cons, ih, List.flatten_cons, feedAll_append]

/-- **The checksum of a sequence** is the remainder that is found bit by bit, from every register
on, and feeding the sequence in chunks, however it is cut, is feeding it at once. -/
theorem feedAll_bit_by_bit (register : Register) :
    (∀ bytes : List UInt8, register.feedAll bytes = bytes.foldl feedBitwise register) ∧
      ∀ chunks : List (List UInt8),
        chunks.foldl feedAll register = register.feedAll chunks.flatten :=
  ⟨feedAll_eq_foldl_feedBitwise register, foldl_feedAll register⟩

/-- The check value of this division is the remainder of the nine decimal digits from one on. -/
example : ([0x31, 0x32, 0x33, 0x34, 0x35, 0x36, 0x37, 0x38, 0x39].foldl feedBitwise initial).value =
    0x6F91 := by
  decide +kernel

end MavlinkCompiler.Register
