import MavlinkCompiler.Proofs.Wire.Checksum
import MavlinkCompiler.Proofs.Wire.Seed

/-!
# Changes that the checksum detects

The register loses nothing: the bit that leaves it at one end comes back at the other, because the
highest bit of the polynomial is set. So bytes that are fed the same way keep registers apart, and
two different registers stay different whatever follows. Two bytes are as wide as the register, and
feeding both is adding one word to it and moving down by sixteen places; so two bytes that differ
from two others give another register.

* `Register.shiftBit_injective`: one place down, nothing is lost.
* `Register.feedAll_bijective`: for every sequence, each register is reached from exactly one.
* `Register.value_feed_feed`: two bytes at once.
* `Register.feedAll_window_injective`: up to two bytes can be told by the register after them.
* `short_change_changes_register`: so a change within two bytes that follow each other is detected,
  in particular that of the count of an array.
-/

namespace MavlinkCompiler

namespace Register

/-! ## Registers that stay apart -/

theorem getLsbD_polynomial_top : polynomial.toBitVec.getLsbD 15 = true := by
  decide

/-- Nothing but zero moves down to zero. -/
theorem eq_zero_of_shiftBit {value : UInt16} (h : shiftBit value = 0) : value = 0 := by
  cases hlow : value.toBitVec.getLsbD 0 with
  | true =>
    -- the rest of the register would be the polynomial, but it has no highest bit
    rw [shiftBit, if_pos ((and_one_eq_one_iff value).mpr hlow), UInt16.xor_eq_zero_iff] at h
    have htop : (value >>> 1).toBitVec.getLsbD 15 = true := by
      rw [h]
      exact getLsbD_polynomial_top
    have hclear : (value >>> 1).toBitVec.getLsbD 15 = false := by
      rw [UInt16.toBitVec_shiftRight]
      exact BitVec.getLsbD_of_ge value.toBitVec 16 le_rfl
    rw [hclear] at htop
    cases htop
  | false =>
    have hdown := toBitVec_shiftBit_of_clear hlow
    rw [h] at hdown
    apply UInt16.toBitVec_inj.mp
    apply BitVec.eq_of_getLsbD_eq
    intro i _
    cases i with
    | zero => exact hlow
    | succ i =>
      rw [Nat.add_comm, ← BitVec.getLsbD_ushiftRight, ← hdown]
      simp

theorem shiftBit_injective : Function.Injective shiftBit := by
  intro a b h
  have hzero : shiftBit (a ^^^ b) = 0 := by
    rw [shiftBit_xor, UInt16.xor_eq_zero_iff]
    exact h
  exact UInt16.xor_eq_zero_iff.mp (eq_zero_of_shiftBit hzero)

theorem ext_value {one other : Register} (h : one.value = other.value) : one = other := by
  cases one
  exact congrArg Register.mk h

/-- One byte keeps registers apart. -/
theorem feed_injective (byte : UInt8) : Function.Injective fun register : Register =>
    register.feed byte := by
  intro one other h
  have hvalue : (one.feed byte).value = (other.feed byte).value := congrArg value h
  rw [feed_eq_feedBitwise, feed_eq_feedBitwise] at hvalue
  have hadded := shiftBit_injective.iterate 8 hvalue
  exact ext_value ((UInt16.xor_left_inj _).mp hadded)

/-- A sequence keeps registers apart. -/
theorem feedAll_injective (bytes : List UInt8) : Function.Injective fun register : Register =>
    register.feedAll bytes := by
  induction bytes with
  | nil => exact fun _ _ h => h
  | cons byte bytes ih => exact fun _ _ h => feed_injective byte (ih h)

theorem feedAll_bijective (bytes : List UInt8) : Function.Bijective fun register : Register =>
    register.feedAll bytes := by
  have hfinite : Finite Register := Finite.of_injective value fun _ _ => ext_value
  exact Finite.injective_iff_bijective.mp (feedAll_injective bytes)

/-! ## Two bytes at once -/

/-- Two bytes as wide as the register, the first in its lower half. -/
def word (first second : UInt8) : UInt16 :=
  first.toUInt16 ^^^ (second.toUInt16 <<< 8)

theorem getLsbD_lifted (byte : UInt8) {i : Nat} (hi : i < 16) :
    (byte.toUInt16 <<< 8).toBitVec.getLsbD i =
      (decide (8 ≤ i) && byte.toBitVec.getLsbD (i - 8)) := by
  show (byte.toUInt16.toBitVec <<< 8).getLsbD i = _
  rw [BitVec.getLsbD_shiftLeft, UInt8.toBitVec_toUInt16, BitVec.getLsbD_setWidth]
  by_cases h8 : i < 8
  · simp [h8]
  · simp [h8, hi, show 8 ≤ i by omega, show i - 8 < 16 by omega]

theorem getLsbD_word (first second : UInt8) {i : Nat} (hi : i < 16) :
    (word first second).toBitVec.getLsbD i =
      if i < 8 then first.toBitVec.getLsbD i else second.toBitVec.getLsbD (i - 8) := by
  rw [word, UInt16.toBitVec_xor, BitVec.getLsbD_xor, getLsbD_lifted second hi,
    UInt8.toBitVec_toUInt16, BitVec.getLsbD_setWidth]
  by_cases h8 : i < 8
  · simp [h8, hi, show ¬ 8 ≤ i by omega]
  · simp [h8, show 8 ≤ i by omega]

theorem word_injective {first second first' second' : UInt8}
    (h : word first second = word first' second') : first = first' ∧ second = second' := by
  have hbit : ∀ i < 16, (word first second).toBitVec.getLsbD i =
      (word first' second').toBitVec.getLsbD i := by
    intro i _
    rw [h]
  constructor
  · apply UInt8.toBitVec_inj.mp
    apply BitVec.eq_of_getLsbD_eq
    intro i hi
    have hlow := hbit i (by omega)
    rwa [getLsbD_word _ _ (by omega), getLsbD_word _ _ (by omega), if_pos hi, if_pos hi] at hlow
  · apply UInt8.toBitVec_inj.mp
    apply BitVec.eq_of_getLsbD_eq
    intro i hi
    have hhigh := hbit (i + 8) (by omega)
    rwa [getLsbD_word _ _ (by omega), getLsbD_word _ _ (by omega), if_neg (by omega),
      if_neg (by omega), Nat.add_sub_cancel] at hhigh

/-- A byte in the upper half comes down as it is. -/
theorem iterate_shiftBit_lifted (byte : UInt8) :
    shiftBit^[8] (byte.toUInt16 <<< 8) = byte.toUInt16 := by
  have hclear : ∀ i < 8, (byte.toUInt16 <<< 8).toBitVec.getLsbD i = false := by
    intro i hi
    rw [getLsbD_lifted byte (by omega), decide_eq_false (by omega), Bool.false_and]
  apply UInt16.toBitVec_inj.mp
  rw [toBitVec_iterate_shiftBit hclear]
  apply BitVec.eq_of_getLsbD_eq
  intro i hi
  rw [BitVec.getLsbD_ushiftRight, UInt8.toBitVec_toUInt16, BitVec.getLsbD_setWidth]
  by_cases h8 : i < 8
  · rw [getLsbD_lifted byte (by omega)]
    simp [hi]
  · -- both are above the byte
    rw [BitVec.getLsbD_of_ge _ (8 + i) (by omega), BitVec.getLsbD_of_ge byte.toBitVec i (by omega)]
    simp

/-- Two bytes are added to the register as one word, and both move out of it. -/
theorem value_feed_feed (register : Register) (first second : UInt8) :
    ((register.feed first).feed second).value =
      shiftBit^[16] (register.value ^^^ word first second) := by
  rw [feed_eq_feedBitwise, feed_eq_feedBitwise]
  show shiftBit^[8] (shiftBit^[8] (register.value ^^^ first.toUInt16) ^^^ second.toUInt16) = _
  rw [word, ← UInt16.xor_assoc, show 16 = 8 + 8 from rfl, Function.iterate_add_apply,
    iterate_shiftBit_xor 8 _ (second.toUInt16 <<< 8), iterate_shiftBit_lifted]

theorem feed_feed_inj {register : Register} {first second first' second' : UInt8}
    (h : (register.feed first).feed second = (register.feed first').feed second') :
    first = first' ∧ second = second' := by
  have hvalue := congrArg value h
  rw [value_feed_feed, value_feed_feed] at hvalue
  have hadded := shiftBit_injective.iterate 16 hvalue
  exact word_injective ((UInt16.xor_right_inj _).mp hadded)

/-- One byte is told by the register after it. -/
theorem byte_eq_of_feed_eq {register : Register} {byte byte' : UInt8}
    (h : register.feed byte = register.feed byte') : byte = byte' :=
  (feed_feed_inj (congrArg (fun after => after.feed 0) h)).1

/-- Up to two bytes are told by the register after them. -/
theorem feedAll_window_injective {register : Register} :
    ∀ {window window' : List UInt8}, window.length = window'.length → window.length ≤ 2 →
      register.feedAll window = register.feedAll window' → window = window'
  | [], [], _, _, _ => rfl
  | [byte], [byte'], _, _, h => by
    rw [byte_eq_of_feed_eq h]
  | [first, second], [first', second'], _, _, h => by
    obtain ⟨rfl, rfl⟩ := feed_feed_inj h
    rfl
  | _ :: _ :: _ :: _, _, _, hwidth, _ => by
    simp at hwidth

/-! ## Changes within a sequence -/

/-- Two sequences agree in front of a window and behind it. -/
def AgreeOutside (start width : Nat) (one other : List UInt8) : Prop :=
  one.take start = other.take start ∧ one.drop (start + width) = other.drop (start + width)

instance (start width : Nat) (one other : List UInt8) :
    Decidable (AgreeOutside start width one other) :=
  inferInstanceAs (Decidable (_ ∧ _))

/-- A sequence in three parts, the window in the middle. -/
theorem take_window_append (bytes : List UInt8) (start width : Nat) :
    bytes.take start ++ ((bytes.drop start).take width ++ bytes.drop (start + width)) = bytes := by
  rw [← List.drop_drop, List.take_append_drop, List.take_append_drop]

theorem feedAll_window (register : Register) (bytes : List UInt8) (start width : Nat) :
    register.feedAll bytes =
      ((register.feedAll (bytes.take start)).feedAll ((bytes.drop start).take width)).feedAll
        (bytes.drop (start + width)) := by
  rw [← feedAll_append, ← feedAll_append, take_window_append]

/-- The window brings the registers apart, and what follows it keeps them apart. -/
theorem eq_of_feedAll_eq {register : Register} {one other : List UInt8} {start width : Nat}
    (hlength : one.length = other.length) (hwidth : width ≤ 2)
    (hagree : AgreeOutside start width one other)
    (h : register.feedAll one = register.feedAll other) : one = other := by
  obtain ⟨hfront, hback⟩ := hagree
  rw [feedAll_window register one start width, feedAll_window register other start width, hback,
    hfront] at h
  have hwindow : (one.drop start).take width = (other.drop start).take width := by
    refine feedAll_window_injective ?_ ?_ (feedAll_injective _ h)
    · simp [hlength]
    · exact (List.length_take_le _ _).trans hwidth
  rw [← take_window_append one start width, hfront, hwindow, hback, take_window_append]

end Register

/-! ## Counts of arrays -/

/-- The register that the checksum byte of a name and fields is folded from. -/
def layoutRegister (wireName : String) (fields : List Field) : Register :=
  fields.foldl Register.feedField (Register.initial.feedText wireName |>.feedText " ")

/-- The field as an array of so many elements. -/
def Field.counted (field : Field) (count : Count) : Field :=
  { field with type := { field.type with count := some count } }

/-- The count of an array is the last byte of the field. -/
theorem feedField_counted (register : Register) (field : Field) (count : Count) :
    register.feedField (field.counted count) =
      (register.feedField { field with type := { field.type with count := none } }).feed
        count.byte :=
  rfl

theorem layoutRegister_append_cons (wireName : String) (front : List Field) (field : Field)
    (back : List Field) :
    layoutRegister wireName (front ++ field :: back) =
      ((layoutRegister wireName front).feedField field).feedAll (back.flatMap Field.seed) := by
  rw [layoutRegister, List.foldl_append, List.foldl_cons, foldl_feedField _ back]
  rfl

/-- **Changes that the checksum detects.** From every register on, two sequences of the same length
that differ, and differ within at most two bytes that follow each other, give different registers.
For every sequence, each register is reached from exactly one. So if only the count of an array
among the fields of a layout changes, the register changes from which its checksum byte is
folded. -/
theorem short_change_changes_register :
    (∀ (register : Register) (one other : List UInt8) (start width : Nat),
      one.length = other.length → one ≠ other → width ≤ 2 →
      Register.AgreeOutside start width one other →
      register.feedAll one ≠ register.feedAll other) ∧
    (∀ bytes : List UInt8,
      Function.Bijective fun register : Register => register.feedAll bytes) ∧
    (∀ wireName fields, crcExtra wireName fields = (layoutRegister wireName fields).folded) ∧
    ∀ (wireName : String) (front back : List Field) (field : Field) (count count' : Count),
      count ≠ count' →
      layoutRegister wireName (front ++ field.counted count :: back) ≠
        layoutRegister wireName (front ++ field.counted count' :: back) := by
  refine ⟨?_, Register.feedAll_bijective, fun _ _ => rfl, ?_⟩
  · intro register one other start width hlength hne hwidth hagree h
    exact hne (Register.eq_of_feedAll_eq hlength hwidth hagree h)
  · intro wireName front back field count count' hne h
    rw [layoutRegister_append_cons, layoutRegister_append_cons] at h
    have hfield := Register.feedAll_injective _ h
    rw [feedField_counted, feedField_counted] at hfield
    exact hne (Count.byte_injective (Register.byte_eq_of_feed_eq hfield))

/-- Two letters that are exchanged, and an array that is one element longer. -/
theorem exchanged_letters_change_register :
    let one := [0x48, 0x45, 0x41, 0x52, 0x54]
    let other := [0x48, 0x41, 0x45, 0x52, 0x54]
    let next := Field.plain "next" .int8 none
    let data := Field.plain "data" .uint8 none
    Register.AgreeOutside 1 2 one other ∧ one ≠ other ∧
      Register.initial.feedAll one ≠ Register.initial.feedAll other ∧
      (∃ register : Register, register.feedAll one = Register.initial) ∧
      layoutRegister "M" [data.counted letterCount, next] ≠
        layoutRegister "M" [data.counted ⟨118, by decide, by decide⟩, next] := by
  intro one other next data
  have hne : one ≠ other := by decide
  have hagree : Register.AgreeOutside 1 2 one other := by decide
  obtain ⟨hdetected, hbijective, -, hcounted⟩ := short_change_changes_register
  refine ⟨hagree, hne, hdetected _ _ _ 1 2 rfl hne le_rfl hagree, (hbijective one).2 _, ?_⟩
  exact hcounted "M" [] [next] data _ _ (by decide)

end MavlinkCompiler
