import MavlinkCompiler.Proofs.Text.Numeral
import MavlinkCompiler.Proofs.Text.Split
import MavlinkCompiler.Schema.EntryValue

/-!
# What entry values denote

The notations of an entry's value as a relation between texts and integers of any size. A text has
the value that it denotes if that is a signed 64-bit number, and no value otherwise: nothing is
rounded or wrapped on the way, although powers are not always computed.

* `Text.DenotesNat`, `Text.DenotesInt`: numerals with an optional sign.
* `Writes`: the four notations.
* `power?_eq_some_iff`: a power is given up only if it is out of range.
* `entryValue_iff_writes`: a text has the value that it denotes, if it is in range.
-/

namespace MavlinkCompiler

namespace Text

/-- Digits denote a number, with or without a plus in front. -/
def DenotesNat (radix : Nat) (cs : List Char) (number : Nat) : Prop :=
  ∃ sign digits, IsPlus sign ∧ cs = sign ++ digits ∧ Denotes radix digits number

/-- Digits with or without a sign in front denote an integer. -/
def DenotesInt (radix : Nat) (cs : List Char) (value : Int) : Prop :=
  ∃ sign digits, ∃ number : Nat,
    (IsPlus sign ∧ value = number ∨ sign = ['-'] ∧ value = -(number : Int)) ∧
    cs = sign ++ digits ∧ Denotes radix digits number

end Text

namespace Schema

open Text

/-! ## The notations -/

/-- A signed 64-bit number. -/
def InRange (value : Int) : Prop :=
  -2 ^ 63 ≤ value ∧ value < 2 ^ 63

/-- What a number in another radix than ten starts with. -/
def radixMarks : List (List Char × Nat) :=
  [(['0', 'x'], 16), (['0', 'X'], 16), (['0', 'b'], 2), (['0', 'B'], 2)]

/-- What stands between the base and the exponent of a power. -/
def powerMark : List Char := ['*', '*']

/-- A text does not start like a number in another radix than ten. -/
def Unmarked (text : List Char) : Prop :=
  ∀ mark ∈ radixMarks, ¬ mark.1 <+: text

/-- A text without blanks around it denotes an integer: the digits of another radix after its mark,
a power whose base and exponent are left and right of the first power mark, or a decimal number. -/
inductive Writes : List Char → Int → Prop
  | marked {mark digits : List Char} {radix : Nat} {value : Int}
      (hmark : (mark, radix) ∈ radixMarks) (hdigits : DenotesInt radix digits value) :
      Writes (mark ++ digits) value
  | power {text before after : List Char} {base : Int} {exponent : Nat} (hplain : Unmarked text)
      (htext : text = before ++ powerMark ++ after)
      (hfirst : ∀ earlier rest, text = earlier ++ powerMark ++ rest →
        before.length ≤ earlier.length)
      (hbase : DenotesInt 10 (trim before) base) (hrange : InRange base)
      (hexponent : DenotesNat 10 (trim after) exponent) (hbound : exponent < 2 ^ 32) :
      Writes text (base ^ exponent)
  | decimal {text : List Char} {value : Int} (hplain : Unmarked text)
      (hpower : ¬ powerMark <:+: text) (hdigits : DenotesInt 10 text value) : Writes text value

/-! ## Ranges -/

theorem signed64?_eq_some_iff {radix : Nat} (hradix : radix ≤ 16) {digits : List Char}
    {value : Int} :
    signed64? radix digits = some value ↔ InRange value ∧ DenotesInt radix digits value :=
  signed?_eq_some_iff hradix

/-- A number that is a 64-bit word is kept as it is. -/
theorem toInt_int64?_eq_some_iff {number value : Int} :
    (int64? number).map Int64.toInt = some value ↔ number = value ∧ InRange value := by
  unfold int64?
  split
  next hrange =>
    rw [Option.map_some, Option.some.injEq, Int64.toInt_ofInt_of_le hrange.1 hrange.2]
    exact ⟨fun h => ⟨h, h ▸ hrange⟩, And.left⟩
  next hnot =>
    constructor
    · intro h
      cases h
    · rintro ⟨rfl, hrange⟩
      exact absurd hrange hnot

/-! ## Powers -/

/-- Powers of a number without size repeat after two factors. -/
theorem pow_of_natAbs_lt_two {base : Int} (h : base.natAbs < 2) (exponent : Nat) :
    base ^ (if exponent < 2 then exponent else 2 + exponent % 2) = base ^ exponent := by
  split
  · rfl
  next hge =>
    have hpair : exponent = 2 * (exponent / 2) + exponent % 2 := (Nat.div_add_mod exponent 2).symm
    have hpairs : exponent / 2 ≠ 0 := by omega
    -- a pair of factors is zero or one, and so are all pairs together
    have hsquare : (base ^ 2) ^ (exponent / 2) = base ^ 2 := by
      have hbase : base = -1 ∨ base = 0 ∨ base = 1 := by omega
      rcases hbase with rfl | rfl | rfl <;> simp [hpairs]
    conv_rhs => rw [hpair, pow_add, pow_mul, hsquare]
    rw [pow_add]

/-- A large power of a number with size is out of range. -/
theorem not_inRange_pow {base : Int} (hbase : 2 ≤ base.natAbs) {exponent : Nat}
    (hexponent : 64 ≤ exponent) : ¬ InRange (base ^ exponent) := by
  have hlarge : 2 ^ 64 ≤ (base ^ exponent).natAbs := by
    rw [Int.natAbs_pow]
    calc 2 ^ 64 ≤ 2 ^ exponent := Nat.pow_le_pow_right (by decide) hexponent
      _ ≤ base.natAbs ^ exponent := Nat.pow_le_pow_left hbase exponent
  rintro ⟨hlow, hhigh⟩
  omega

/-- A power that is in range is computed, and no other number is. -/
theorem power?_eq_some_iff {base value : Int} {exponent : Nat} (hvalue : InRange value) :
    power? base exponent = some value ↔ base ^ exponent = value := by
  unfold power?
  by_cases hsmall : base.natAbs < 2
  · rw [if_pos hsmall, Option.some.injEq, ← pow_of_natAbs_lt_two hsmall exponent]
    rfl
  rw [if_neg hsmall]
  by_cases hfew : exponent < 64
  · rw [if_pos hfew, Option.some.injEq]
    rfl
  · rw [if_neg hfew]
    constructor
    · intro h
      cases h
    · rintro rfl
      exact absurd hvalue (not_inRange_pow (by omega) (by omega))

/-! ## Reading -/

theorem entryNumber?_of_marked {mark : List Char} {radix : Nat} (h : (mark, radix) ∈ radixMarks)
    (digits : List Char) : entryNumber? (mark ++ digits) = signed64? radix digits := by
  simp only [radixMarks, List.mem_cons, Prod.mk.injEq, List.not_mem_nil, or_false] at h
  rcases h with ⟨rfl, rfl⟩ | ⟨rfl, rfl⟩ | ⟨rfl, rfl⟩ | ⟨rfl, rfl⟩ <;> rfl

theorem entryNumber?_of_unmarked {text : List Char} (h : Unmarked text) :
    entryNumber? text =
      match cutAt? powerMark text with
      | some (base, exponent) => do
        let base ← signed64? 10 (trim base)
        let exponent ← unsigned? 10 UInt32.size (trim exponent)
        power? base exponent
      | none => signed64? 10 text := by
  unfold entryNumber?
  split
  · exact absurd (List.prefix_append ['0', 'x'] _) (h (['0', 'x'], 16) (by decide))
  · exact absurd (List.prefix_append ['0', 'X'] _) (h (['0', 'X'], 16) (by decide))
  · exact absurd (List.prefix_append ['0', 'b'] _) (h (['0', 'b'], 2) (by decide))
  · exact absurd (List.prefix_append ['0', 'B'] _) (h (['0', 'B'], 2) (by decide))
  · rfl

theorem radix_le_of_mem {mark : List Char} {radix : Nat} (h : (mark, radix) ∈ radixMarks) :
    radix ≤ 16 := by
  have hall : ∀ found ∈ radixMarks, found.2 ≤ 16 := by decide
  exact hall _ h

/-- What is read and in range is denoted. -/
theorem writes_of_entryNumber? {text : List Char} {value : Int} (hvalue : InRange value)
    (h : entryNumber? text = some value) : Writes text value := by
  by_cases hplain : Unmarked text
  · rw [entryNumber?_of_unmarked hplain] at h
    split at h
    · next before after hcut =>
      obtain ⟨htext, hfirst⟩ := cutAt?_eq_some_iff_first.mp hcut
      obtain ⟨base, hbase, h⟩ := Option.bind_eq_some_iff.mp h
      obtain ⟨exponent, hexponent, hpower⟩ := Option.bind_eq_some_iff.mp h
      obtain ⟨hrange, hbase⟩ := (signed64?_eq_some_iff (by decide)).mp hbase
      obtain ⟨hbound, hexponent⟩ := (unsigned?_eq_some_iff (by decide)).mp hexponent
      obtain rfl := (power?_eq_some_iff hvalue).mp hpower
      exact .power hplain htext hfirst hbase hrange hexponent hbound
    · next hcut =>
      exact .decimal hplain (cutAt?_eq_none_iff.mp hcut)
        ((signed64?_eq_some_iff (by decide)).mp h).2
  · -- some mark is at the front
    unfold Unmarked at hplain
    push Not at hplain
    obtain ⟨⟨mark, radix⟩, hmark, digits, rfl⟩ := hplain
    rw [entryNumber?_of_marked hmark, signed64?_eq_some_iff (radix_le_of_mem hmark)] at h
    exact .marked hmark h.2

/-- What is denoted and in range is read. -/
theorem entryNumber?_of_writes {text : List Char} {value : Int} (hvalue : InRange value)
    (h : Writes text value) : entryNumber? text = some value := by
  cases h with
  | marked hmark hdigits =>
    rw [entryNumber?_of_marked hmark, signed64?_eq_some_iff (radix_le_of_mem hmark)]
    exact ⟨hvalue, hdigits⟩
  | @power _ before after base exponent hplain htext hfirst hbase hrange hexponent hbound =>
    have hbase' := (signed64?_eq_some_iff (by decide)).mpr ⟨hrange, hbase⟩
    have hexponent' : unsigned? 10 UInt32.size (trim after) = some exponent :=
      (unsigned?_eq_some_iff (by decide)).mpr ⟨hbound, hexponent⟩
    rw [entryNumber?_of_unmarked hplain, cutAt?_eq_some_iff_first.mpr ⟨htext, hfirst⟩]
    dsimp only
    rw [hbase', Option.bind_eq_bind, Option.bind_some, hexponent', Option.bind_eq_bind,
      Option.bind_some, power?_eq_some_iff hvalue]
  | decimal hplain hpower hdigits =>
    rw [entryNumber?_of_unmarked hplain, cutAt?_eq_none_iff.mpr hpower]
    exact (signed64?_eq_some_iff (by decide)).mpr ⟨hvalue, hdigits⟩

/-- **What entry values denote.** For every text and every integer: the text has this integer as its
value exactly if it is a signed 64-bit number and the text, without the blanks around it, denotes it
in one of the four notations. In all other cases the text has no value. -/
theorem entryValue_iff_writes (text : String) :
    (∀ value : Int, (entryValue? text).map Int64.toInt = some value ↔
      InRange value ∧ Writes (trim text.toList) value) ∧
    (entryValue? text = none ↔
      ¬ ∃ value, InRange value ∧ Writes (trim text.toList) value) := by
  have hsome : ∀ value : Int, (entryValue? text).map Int64.toInt = some value ↔
      InRange value ∧ Writes (trim text.toList) value := by
    intro value
    rw [entryValue?, Option.map_bind, Option.bind_eq_some_iff]
    constructor
    · rintro ⟨number, hnumber, hword⟩
      obtain ⟨rfl, hrange⟩ := toInt_int64?_eq_some_iff.mp hword
      exact ⟨hrange, writes_of_entryNumber? hrange hnumber⟩
    · rintro ⟨hrange, hwrites⟩
      exact ⟨value, entryNumber?_of_writes hrange hwrites,
        toInt_int64?_eq_some_iff.mpr ⟨rfl, hrange⟩⟩
  refine ⟨hsome, ?_⟩
  simp only [← hsome]
  rw [← Option.map_eq_none_iff (f := Int64.toInt), Option.eq_none_iff_forall_ne_some, not_exists]

/-- The ends of the range are reached, and blanks are allowed around base and exponent. -/
example : entryValue? " -2 ** 63 " = some (-9223372036854775808) ∧ entryValue? "2**63" = none ∧
    entryValue? "0x-1" = some (-1) ∧ entryValue? "0x 1" = none := by
  decide +kernel

end Schema

end MavlinkCompiler
