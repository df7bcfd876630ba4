import Mathlib
import MavlinkCompiler.Text.Numeral

/-!
# What numerals denote

A numeral denotes the number with its digits in positional notation. Reading a numeral gives this
number, and nothing else can be read.

* `IsDigit`, `Denotes`: digits with their values, and numerals with their numbers.
* `natural?_eq_some_iff`, `unsigned?_eq_some_iff`, `signed?_eq_some_iff`: what is read.
* `unsigned?_toString`, `signed?_toString`: a number written in decimal is read again.

All radices up to sixteen are covered, as far as there are library names for digits.
-/

namespace MavlinkCompiler.Text

/-- A character is the digit with this value, a letter in either case. -/
def IsDigit (radix : Nat) (c : Char) (value : Nat) : Prop :=
  value < radix ∧ (c = Nat.digitChar value ∨ c = (Nat.digitChar value).toUpper)

/-- One or more digits denote a number. -/
def Denotes (radix : Nat) (cs : List Char) (number : Nat) : Prop :=
  ∃ values, values ≠ [] ∧ List.Forall₂ (IsDigit radix) cs values ∧
    number = Nat.ofDigits radix values.reverse

/-- A sign that changes nothing. -/
def IsPlus (sign : List Char) : Prop :=
  sign = [] ∨ sign = ['+']

/-- The ranges that digits are in. -/
theorem digit?_eq_some {radix : Nat} {c : Char} {value : Nat} (h : digit? radix c = some value) :
    value < radix ∧
      ('0'.toNat ≤ c.toNat ∧ c.toNat ≤ '9'.toNat ∧ value = c.toNat - '0'.toNat ∨
        'a'.toNat ≤ c.toNat ∧ c.toNat ≤ 'z'.toNat ∧ value = c.toNat - 'a'.toNat + 10 ∨
        'A'.toNat ≤ c.toNat ∧ c.toNat ≤ 'Z'.toNat ∧ value = c.toNat - 'A'.toNat + 10) := by
  unfold digit? at h
  rw [Option.filter_eq_some_iff] at h
  obtain ⟨hvalue, hlt⟩ := h
  refine ⟨of_decide_eq_true hlt, ?_⟩
  simp only [Bool.and_eq_true, decide_eq_true_eq, Char.le_def, UInt32.le_iff_toNat_le] at hvalue
  split_ifs at hvalue with h₁ h₂ h₃
  · exact .inl ⟨h₁.1, h₁.2, (Option.some.inj hvalue).symm⟩
  · exact .inr (.inl ⟨h₂.1, h₂.2, (Option.some.inj hvalue).symm⟩)
  · exact .inr (.inr ⟨h₃.1, h₃.2, (Option.some.inj hvalue).symm⟩)

theorem digit?_eq_some_iff {radix : Nat} (hradix : radix ≤ 16) {c : Char} {value : Nat} :
    digit? radix c = some value ↔ IsDigit radix c value := by
  constructor
  · intro h
    obtain ⟨hlt, hcases⟩ := digit?_eq_some h
    refine ⟨hlt, ?_⟩
    have hvalue : value < 16 := Nat.lt_of_lt_of_le hlt hradix
    simp only [Char.reduceToNat] at hcases
    rcases hcases with ⟨hlow, hhigh, heq⟩ | ⟨hlow, hhigh, heq⟩ | ⟨hlow, hhigh, heq⟩
    · have hc : c.toNat = value + 48 := by omega
      have hten : value < 10 := by omega
      refine .inl (Char.toNat_inj.mp ?_)
      rw [hc, Nat.toNat_digitChar_of_lt_ten hten, Nat.add_comm]
    · have hc : c.toNat = value + 87 := by omega
      have hten : 10 ≤ value := by omega
      refine .inl (Char.toNat_inj.mp ?_)
      rw [hc]
      interval_cases value <;> rfl
    · have hc : c.toNat = value + 55 := by omega
      have hten : 10 ≤ value := by omega
      refine .inr (Char.toNat_inj.mp ?_)
      rw [hc]
      interval_cases value <;> rfl
  · rintro ⟨hlt, hc⟩
    have hvalue : value < 16 := Nat.lt_of_lt_of_le hlt hradix
    unfold digit?
    rw [Option.filter_eq_some_iff]
    refine ⟨?_, by simpa using hlt⟩
    clear hlt
    interval_cases value <;> rcases hc with rfl | rfl <;> decide

/-! ## Numerals -/

/-- Digits shift the number read so far. -/
theorem digitsFrom_eq_some_iff {radix : Nat} (hradix : radix ≤ 16) {cs : List Char}
    {start number : Nat} :
    digitsFrom radix start cs = some number ↔
      ∃ values, List.Forall₂ (IsDigit radix) cs values ∧
        number = start * radix ^ values.length + Nat.ofDigits radix values.reverse := by
  induction cs generalizing start with
  | nil => simp [digitsFrom, eq_comm]
  | cons c cs ih =>
    -- the first digit is shifted by all digits after it
    have hshift : ∀ (value : Nat) (values : List Nat),
        start * radix ^ (value :: values).length + Nat.ofDigits radix (value :: values).reverse =
          (start * radix + value) * radix ^ values.length + Nat.ofDigits radix values.reverse := by
      intro value values
      rw [List.reverse_cons, Nat.ofDigits_append, List.length_reverse, Nat.ofDigits_singleton,
        List.length_cons]
      ring
    unfold digitsFrom
    constructor
    · intro h
      split at h
      · next value hvalue =>
        obtain ⟨values, hvalues, rfl⟩ := ih.mp h
        exact ⟨value :: values, .cons ((digit?_eq_some_iff hradix).mp hvalue) hvalues,
          (hshift value values).symm⟩
      · cases h
    · rintro ⟨values, hvalues, rfl⟩
      cases hvalues with
      | @cons _ value _ values hvalue hvalues =>
        rw [(digit?_eq_some_iff hradix).mpr hvalue]
        exact ih.mpr ⟨values, hvalues, hshift value values⟩

/-- Digits are read as the number that they denote. -/
theorem natural?_eq_some_iff {radix : Nat} (hradix : radix ≤ 16) {cs : List Char} {number : Nat} :
    natural? radix cs = some number ↔ Denotes radix cs number := by
  unfold natural? Denotes
  cases cs with
  | nil => simp
  | cons c cs =>
    simp only [List.isEmpty_cons, Bool.false_eq_true, if_false, digitsFrom_eq_some_iff hradix,
      Nat.zero_mul, Nat.zero_add]
    refine exists_congr fun values => ?_
    constructor
    · rintro ⟨hvalues, hnumber⟩
      refine ⟨?_, hvalues, hnumber⟩
      rintro rfl
      cases hvalues
    · exact And.right

/-- What holds of digits holds of all characters of a numeral. -/
theorem Denotes.forall_mem {radix : Nat} {cs : List Char} {number : Nat} {holds : Char → Prop}
    (h : Denotes radix cs number) (hdigit : ∀ c value, IsDigit radix c value → holds c) :
    ∀ c ∈ cs, holds c := by
  obtain ⟨values, -, hvalues, -⟩ := h
  induction hvalues with
  | nil => simp
  | cons hvalue _ ih => exact List.forall_mem_cons.mpr ⟨hdigit _ _ hvalue, ih⟩

theorem IsDigit.isAlphanum {radix : Nat} (hradix : radix ≤ 16) {c : Char} {value : Nat}
    (h : IsDigit radix c value) : c.isAlphanum = true := by
  obtain ⟨hlt, hc⟩ := h
  have hvalue : value < 16 := Nat.lt_of_lt_of_le hlt hradix
  clear hlt
  interval_cases value <;> rcases hc with rfl | rfl <;> decide

theorem IsDigit.isDigit {c : Char} {value : Nat} (h : IsDigit 10 c value) : c.isDigit = true := by
  obtain ⟨hlt, hc⟩ := h
  interval_cases value <;> rcases hc with rfl | rfl <;> decide

/-- No numeral starts with a sign. -/
theorem Denotes.ne_sign {radix : Nat} (hradix : radix ≤ 16) {digits rest : List Char} {number : Nat}
    (h : Denotes radix digits number) {c : Char} (hc : c.isAlphanum = false) :
    digits ≠ c :: rest := by
  rintro rfl
  have halphanum := h.forall_mem (fun _ _ hvalue => hvalue.isAlphanum hradix) c List.mem_cons_self
  rw [halphanum] at hc
  cases hc

/-- Digits with or without a plus sign are read as the number that the digits denote, if it is below
the bound. -/
theorem unsigned?_eq_some_iff {radix bound : Nat} (hradix : radix ≤ 16) {cs : List Char}
    {number : Nat} :
    unsigned? radix bound cs = some number ↔
      number < bound ∧ ∃ sign digits, IsPlus sign ∧ cs = sign ++ digits ∧
        Denotes radix digits number := by
  unfold unsigned?
  rw [Option.filter_eq_some_iff, decide_eq_true_eq, and_comm]
  refine and_congr_right fun _ => ?_
  rw [natural?_eq_some_iff hradix]
  split
  · next rest =>
    constructor
    · exact fun h => ⟨['+'], rest, .inr rfl, rfl, h⟩
    · rintro ⟨sign, digits, rfl | rfl, heq, h⟩
      · exact absurd heq.symm (h.ne_sign hradix (by decide))
      · cases heq
        exact h
  · next hnot =>
    constructor
    · exact fun h => ⟨[], cs, .inl rfl, rfl, h⟩
    · rintro ⟨sign, digits, rfl | rfl, rfl, h⟩
      · exact h
      · exact absurd rfl (hnot digits)

/-- Digits with or without a sign are read as the integer that they denote, if it is in the
range. -/
theorem signed?_eq_some_iff {radix bound : Nat} (hradix : radix ≤ 16) {cs : List Char}
    {value : Int} :
    signed? radix bound cs = some value ↔
      (-(bound : Int) ≤ value ∧ value < bound) ∧ ∃ sign digits, ∃ number : Nat,
        (IsPlus sign ∧ value = number ∨ sign = ['-'] ∧ value = -(number : Int)) ∧
        cs = sign ++ digits ∧ Denotes radix digits number := by
  unfold signed?
  rw [Option.filter_eq_some_iff, Bool.and_eq_true, decide_eq_true_eq, decide_eq_true_eq, and_comm]
  refine and_congr_right fun _ => ?_
  split
  · next rest =>
    rw [Option.map_eq_some_iff]
    constructor
    · rintro ⟨number, hnumber, rfl⟩
      exact ⟨['+'], rest, number, .inl ⟨.inr rfl, rfl⟩, rfl,
        (natural?_eq_some_iff hradix).mp hnumber⟩
    · rintro ⟨sign, digits, number, ⟨rfl | rfl, rfl⟩ | ⟨rfl, rfl⟩, heq, h⟩
      · exact absurd heq.symm (h.ne_sign hradix (by decide))
      · cases heq
        exact ⟨number, (natural?_eq_some_iff hradix).mpr h, rfl⟩
      · cases heq
  · next rest =>
    rw [Option.map_eq_some_iff]
    constructor
    · rintro ⟨_, hcast, rfl⟩
      obtain ⟨number, hnumber, hcast⟩ := Option.bind_eq_some_iff.mp hcast
      cases hcast
      exact ⟨['-'], rest, number, .inr ⟨rfl, rfl⟩, rfl, (natural?_eq_some_iff hradix).mp hnumber⟩
    · rintro ⟨sign, digits, number, ⟨rfl | rfl, rfl⟩ | ⟨rfl, rfl⟩, heq, h⟩
      · exact absurd heq.symm (h.ne_sign hradix (by decide))
      · cases heq
      · cases heq
        have hnumber := (natural?_eq_some_iff hradix).mpr h
        exact ⟨number, Option.bind_eq_some_iff.mpr ⟨number, hnumber, rfl⟩, rfl⟩
  · next hplus hminus =>
    rw [Option.map_eq_some_iff]
    constructor
    · rintro ⟨number, hnumber, rfl⟩
      exact ⟨[], cs, number, .inl ⟨.inl rfl, rfl⟩, rfl, (natural?_eq_some_iff hradix).mp hnumber⟩
    · rintro ⟨sign, digits, number, ⟨rfl | rfl, rfl⟩ | ⟨rfl, rfl⟩, rfl, h⟩
      · exact ⟨number, (natural?_eq_some_iff hradix).mpr h, rfl⟩
      · exact absurd rfl (hplus digits)
      · exact absurd rfl (hminus digits)

/-! ## Numbers in decimal -/

theorem digit?_of_isDigit {c : Char} (h : c.isDigit = true) :
    digit? 10 c = some (c.toNat - '0'.toNat) := by
  obtain ⟨hlow, hhigh⟩ : '0' ≤ c ∧ c ≤ '9' := by
    simpa [Char.isDigit, Char.le_def] using h
  have hvalue : c.toNat - '0'.toNat < 10 := by
    simp only [Char.le_def, UInt32.le_iff_toNat_le] at hhigh
    show c.val.toNat - '0'.val.toNat < 10
    simp only [Char.reduceVal, UInt32.reduceToNat] at hhigh ⊢
    omega
  unfold digit?
  rw [if_pos (by simp [hlow, hhigh]), Option.filter_some, if_pos (by simpa using hvalue)]

/-- Decimal digits go on with the number read so far. -/
theorem digitsFrom_of_isDigit {cs : List Char} (h : ∀ c ∈ cs, c.isDigit = true) (start : Nat) :
    digitsFrom 10 start cs = some (Nat.ofDigitChars 10 cs start) := by
  induction cs generalizing start with
  | nil => rfl
  | cons c cs ih =>
    obtain ⟨hc, hcs⟩ := List.forall_mem_cons.mp h
    rw [digitsFrom, digit?_of_isDigit hc, Nat.ofDigitChars_cons, Nat.mul_comm]
    exact ih hcs _

theorem isDigit_of_mem_toString {number : Nat} :
    ∀ c ∈ (toString number).toList, c.isDigit = true := by
  intro c hc
  rw [Nat.toString_eq_ofList_toDigits, String.toList_ofList] at hc
  exact Nat.isDigit_of_mem_toDigits (by decide) (Nat.le_refl 10) hc

theorem natural?_toString (number : Nat) : natural? 10 (toString number).toList = some number := by
  unfold natural?
  rw [digitsFrom_of_isDigit isDigit_of_mem_toString, Nat.toString_eq_ofList_toDigits,
    String.toList_ofList, if_neg (by simp [Nat.toDigits_ne_nil]), Nat.ofDigitChars_ten_toDigits]

theorem denotes_toString (number : Nat) : Denotes 10 (toString number).toList number :=
  (natural?_eq_some_iff (by decide)).mp (natural?_toString number)

/-- A number below the bound is read again. -/
theorem unsigned?_toString {number bound : Nat} (h : number < bound) :
    unsigned? 10 bound (toString number).toList = some number :=
  (unsigned?_eq_some_iff (by decide)).mpr ⟨h, [], _, .inl rfl, rfl, denotes_toString number⟩

/-- An integer is written as its digits, with a minus in front if it is negative. -/
theorem toList_toString_int (value : Int) :
    (value = value.natAbs ∧ (toString value).toList = (toString value.natAbs).toList) ∨
      (value = -value.natAbs ∧
        (toString value).toList = '-' :: (toString value.natAbs).toList) := by
  cases value with
  | ofNat number => exact .inl ⟨rfl, rfl⟩
  | negSucc number =>
    refine .inr ⟨rfl, ?_⟩
    show ("-" ++ Nat.repr (number + 1)).toList = _
    rw [String.toList_append]
    rfl

theorem isDigit_of_mem_toString_int {value : Int} :
    ∀ c ∈ (toString value).toList, c = '-' ∨ c.isDigit = true := by
  intro c hc
  rcases toList_toString_int value with ⟨-, htext⟩ | ⟨-, htext⟩
  · rw [htext] at hc
    exact .inr (isDigit_of_mem_toString c hc)
  · rw [htext] at hc
    exact (List.mem_cons.mp hc).imp id (isDigit_of_mem_toString c)

/-- An integer in the range is read again. -/
theorem signed?_toString {value : Int} {bound : Nat} (hlow : -(bound : Int) ≤ value)
    (hhigh : value < bound) : signed? 10 bound (toString value).toList = some value := by
  refine (signed?_eq_some_iff (by decide)).mpr ⟨⟨hlow, hhigh⟩, ?_⟩
  rcases toList_toString_int value with ⟨hvalue, htext⟩ | ⟨hvalue, htext⟩
  · exact ⟨[], _, value.natAbs, .inl ⟨.inl rfl, hvalue⟩, htext, denotes_toString _⟩
  · exact ⟨['-'], _, value.natAbs, .inr ⟨rfl, hvalue⟩, htext, denotes_toString _⟩

end MavlinkCompiler.Text
