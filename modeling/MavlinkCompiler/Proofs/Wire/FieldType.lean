import MavlinkCompiler.Proofs.Text.Trim
import MavlinkCompiler.Wire.FieldType

/-!
# How field types are spelled

The notation of field types as a relation between texts and what they are read as, refusals
included. Every text is read as what the notation says, and the canonical spelling of a type is read
as this type.

* `BracketedNumber`: a number between blanks, up to the closing bracket.
* `FieldType.Spells`: types with their spellings, and texts that spell none with the reason.
* `FieldType.parse_of_free`, `FieldType.parse_of_cutAt`: reading without and with a bracket.
* `FieldType.parse_text`: the canonical spelling.
* `FieldType.parse_iff_spells`: a text is read as what it spells.
-/

namespace MavlinkCompiler

open Text

/-! ## Names -/

theorem Scalar.ofName?_eq_some_iff {text : String} {scalar : Scalar} :
    ofName? text = some scalar ↔ scalar.name = text := by
  constructor
  · exact name_of_ofName?
  · rintro rfl
    exact ofName?_name scalar

theorem Scalar.ofName?_eq_none_iff {text : String} :
    ofName? text = none ↔ ∀ scalar : Scalar, scalar.name ≠ text := by
  simp only [Option.eq_none_iff_forall_ne_some, ne_eq, ofName?_eq_some_iff]

/-- Names of scalar types hold no blanks and no brackets. -/
theorem Scalar.forall_mem_name (scalar : Scalar) :
    ∀ c ∈ scalar.name.toList, isBlank c = false ∧ c ≠ '[' := by
  have hall : scalar.name.toList.all (fun c => !isBlank c && c != '[') = true := by
    cases scalar <;> rfl
  simpa using hall

/-! ## Counts -/

/-- What follows an opening bracket: a number with blanks around it, and the closing bracket at the
very end. -/
def BracketedNumber (rest : List Char) (number : Nat) : Prop :=
  ∃ front digits back, rest = front ++ digits ++ back ++ [']'] ∧
    (∀ c ∈ front, isBlank c = true) ∧ (∀ c ∈ back, isBlank c = true) ∧ Denotes 10 digits number

namespace Count

theorem ofNat?_eq_some_iff {number : Nat} {count : Count} :
    ofNat? number = some count ↔ number = count.val := by
  obtain ⟨val, hpos, hlt⟩ := count
  unfold ofNat?
  split
  · simp
  next hnot =>
    constructor
    · intro h
      cases h
    · rintro rfl
      exact absurd ⟨hpos, hlt⟩ hnot

theorem parse?_eq_some_iff {rest : List Char} {count : Count} :
    parse? rest = some count ↔ BracketedNumber rest count.val := by
  unfold parse?
  constructor
  · intro h
    split at h
    next hlast =>
      obtain ⟨inside, rfl⟩ := List.getLast?_eq_some_iff.mp hlast
      obtain ⟨number, hnumber, hcount⟩ := Option.bind_eq_some_iff.mp h
      obtain rfl := ofNat?_eq_some_iff.mp hcount
      rw [List.dropLast_concat, natural?_eq_some_iff (by decide)] at hnumber
      obtain ⟨front, back, hinside, hfront, hback⟩ := exists_trim inside
      exact ⟨front, trim inside, back, by rw [← hinside], hfront, hback, hnumber⟩
    · cases h
  · rintro ⟨front, digits, back, rfl, hfront, hback, hdigits⟩
    rw [if_pos List.getLast?_concat, List.dropLast_concat,
      trim_surrounded hdigits.isWord hfront hback, (natural?_eq_some_iff (by decide)).mpr hdigits,
      Option.bind_some, ofNat?_eq_some_iff]

/-- What is no count is no number, or a number that counts nothing or too much. -/
theorem parse?_eq_none_iff {rest : List Char} :
    parse? rest = none ↔ ∀ number, BracketedNumber rest number → number = 0 ∨ 255 < number := by
  simp only [Option.eq_none_iff_forall_ne_some, ne_eq, parse?_eq_some_iff]
  constructor
  · intro h number hnumber
    by_contra hcount
    push Not at hcount
    exact h ⟨number, by omega, by omega⟩ hnumber
  · intro h count hcount
    have hpos := count.pos
    have hlt := count.lt
    have hbad := h count.val hcount
    omega

end Count

namespace FieldType

/-! ## Spellings -/

/-- The parts of a text before and after its first opening bracket. -/
def CutAt (body before rest : List Char) : Prop :=
  body = before ++ '[' :: rest ∧ '[' ∉ before

/-- What a text without blanks around it spells: the name of a scalar type, or such a name before a
bracket and a count after it. An unknown name counts before a bad count. -/
inductive Spells (body : List Char) : Except TypeError FieldType → Prop
  | scalar {scalar : Scalar} (hbracket : '[' ∉ body) (hname : scalar.name = String.ofList body) :
      Spells body (.ok ⟨scalar, none⟩)
  | array {before rest : List Char} {scalar : Scalar} {count : Count}
      (hcut : CutAt body before rest) (hname : scalar.name = String.ofList (trim before))
      (hcount : BracketedNumber rest count.val) : Spells body (.ok ⟨scalar, some count⟩)
  | unknownScalar (hbracket : '[' ∉ body)
      (hname : ∀ scalar : Scalar, scalar.name ≠ String.ofList body) :
      Spells body (.error (.unknownType (String.ofList body)))
  | unknownArray {before rest : List Char} (hcut : CutAt body before rest)
      (hname : ∀ scalar : Scalar, scalar.name ≠ String.ofList (trim before)) :
      Spells body (.error (.unknownType (String.ofList (trim before))))
  | malformed {before rest : List Char} {scalar : Scalar} (hcut : CutAt body before rest)
      (hname : scalar.name = String.ofList (trim before))
      (hcount : ∀ number, BracketedNumber rest number → number = 0 ∨ 255 < number) :
      Spells body (.error (.malformedCount (String.ofList body)))

/-! ## Reading -/

theorem bne_bracket_of_not_mem {cs : List Char} (h : '[' ∉ cs) : ∀ c ∈ cs, (c != '[') = true := by
  intro c hc
  rw [bne, free_of_not_mem h c hc]
  rfl

/-- Without a bracket the whole text is the name. -/
theorem parse_of_free {text : String} (h : '[' ∉ trim text.toList) :
    parse text =
      match Scalar.ofName? (String.ofList (trim text.toList)) with
      | some scalar => .ok ⟨scalar, none⟩
      | none => .error (.unknownType (String.ofList (trim text.toList))) := by
  have hdrop : (trim text.toList).dropWhile (· != '[') = [] :=
    List.dropWhile_eq_nil_iff.mpr (bne_bracket_of_not_mem h)
  unfold parse
  cases hname : Scalar.ofName? (String.ofList (trim text.toList)) with
  | none => simp only [hdrop, hname]
  | some scalar => simp only [hdrop, hname]

/-- With a bracket the name is before it and the count after it. -/
theorem parse_of_cutAt {text : String} {before rest : List Char}
    (h : CutAt (trim text.toList) before rest) :
    parse text =
      match Scalar.ofName? (String.ofList (trim before)) with
      | none => .error (.unknownType (String.ofList (trim before)))
      | some scalar =>
        match Count.parse? rest with
        | some count => .ok ⟨scalar, some count⟩
        | none => .error (.malformedCount (String.ofList (trim text.toList))) := by
  obtain ⟨hbody, hbefore⟩ := h
  have hfront := bne_bracket_of_not_mem hbefore
  have hrest : ∀ c ∈ ('[' :: rest).head?, (c != '[') = false := head?_cons_holds (by decide)
  have hdrop : (trim text.toList).dropWhile (· != '[') = '[' :: rest := by
    rw [hbody]
    exact dropWhile_append hfront hrest
  have htake : (trim text.toList).takeWhile (· != '[') = before := by
    rw [hbody]
    exact takeWhile_append hfront hrest
  unfold parse
  cases hname : Scalar.ofName? (String.ofList (trim before)) with
  | none => simp only [hdrop, htake, hname]
  | some scalar =>
    cases hcount : Count.parse? rest with
    | none => simp only [hdrop, htake, hname, hcount]
    | some count => simp only [hdrop, htake, hname, hcount]

theorem spells_parse (text : String) : Spells (trim text.toList) (parse text) := by
  by_cases hbracket : '[' ∈ trim text.toList
  · obtain ⟨before, rest, hbody, hbefore⟩ := List.eq_append_cons_of_mem hbracket
    have hcut : CutAt (trim text.toList) before rest := ⟨hbody, hbefore⟩
    rw [parse_of_cutAt hcut]
    cases hname : Scalar.ofName? (String.ofList (trim before)) with
    | none => exact .unknownArray hcut (Scalar.ofName?_eq_none_iff.mp hname)
    | some scalar =>
      have hname' := Scalar.ofName?_eq_some_iff.mp hname
      cases hcount : Count.parse? rest with
      | some count => exact .array hcut hname' (Count.parse?_eq_some_iff.mp hcount)
      | none => exact .malformed hcut hname' (Count.parse?_eq_none_iff.mp hcount)
  · rw [parse_of_free hbracket]
    cases hname : Scalar.ofName? (String.ofList (trim text.toList)) with
    | some scalar => exact .scalar hbracket (Scalar.ofName?_eq_some_iff.mp hname)
    | none => exact .unknownScalar hbracket (Scalar.ofName?_eq_none_iff.mp hname)

theorem parse_of_spells {text : String} {outcome : Except TypeError FieldType}
    (h : Spells (trim text.toList) outcome) : parse text = outcome := by
  cases h with
  | scalar hbracket hname =>
    rw [parse_of_free hbracket, Scalar.ofName?_eq_some_iff.mpr hname]
  | array hcut hname hcount =>
    rw [parse_of_cutAt hcut, Scalar.ofName?_eq_some_iff.mpr hname]
    simp only [Count.parse?_eq_some_iff.mpr hcount]
  | unknownScalar hbracket hname =>
    rw [parse_of_free hbracket, Scalar.ofName?_eq_none_iff.mpr hname]
  | unknownArray hcut hname => rw [parse_of_cutAt hcut, Scalar.ofName?_eq_none_iff.mpr hname]
  | malformed hcut hname hcount =>
    rw [parse_of_cutAt hcut, Scalar.ofName?_eq_some_iff.mpr hname]
    simp only [Count.parse?_eq_none_iff.mpr hcount]

/-! ## The canonical spelling -/

theorem trim_name (scalar : Scalar) : trim scalar.name.toList = scalar.name.toList :=
  trim_eq_self fun c hc => (scalar.forall_mem_name c hc).1

theorem bracket_not_mem_name (scalar : Scalar) : '[' ∉ scalar.name.toList :=
  fun hmem => (scalar.forall_mem_name '[' hmem).2 rfl

/-- The canonical spelling of an array, character by character. -/
theorem toList_text_array (scalar : Scalar) (count : Count) :
    (text ⟨scalar, some count⟩).toList =
      scalar.name.toList ++ '[' :: ((toString count.val).toList ++ [']']) := by
  simp [text]

theorem trim_text (type : FieldType) : trim type.text.toList = type.text.toList := by
  obtain ⟨scalar, count⟩ := type
  cases count with
  | none => exact trim_name scalar
  | some count =>
    refine trim_eq_self fun c hc => ?_
    rw [toList_text_array, List.mem_append, List.mem_cons, List.mem_append,
      List.mem_singleton] at hc
    rcases hc with hname | rfl | hdigit | rfl
    · exact (scalar.forall_mem_name c hname).1
    · decide
    · exact isBlank_of_isDigit (isDigit_of_mem_toString c hdigit)
    · decide

/-- The canonical spelling of a type is read as the type. -/
theorem parse_text (type : FieldType) : parse type.text = .ok type := by
  refine parse_of_spells ?_
  rw [trim_text]
  obtain ⟨scalar, count⟩ := type
  cases count with
  | none => exact .scalar (bracket_not_mem_name scalar) (String.ofList_toList).symm
  | some count =>
    refine .array ⟨toList_text_array scalar count, bracket_not_mem_name scalar⟩ ?_ ?_
    · rw [trim_name, String.ofList_toList]
    · exact ⟨[], _, [], by simp, fun _ hc => absurd hc List.not_mem_nil,
        fun _ hc => absurd hc List.not_mem_nil, denotes_toString count.val⟩

/-- **How field types are spelled.** For every text: what it is read as, a type or the reason of a
refusal, is what it spells without the blanks around it. The canonical spelling of every type is
read as this type, so what a text is read as does not change when the type is written and read
again. -/
theorem parse_iff_spells :
    (∀ text outcome, parse text = outcome ↔ Spells (trim text.toList) outcome) ∧
    (∀ type : FieldType, parse type.text = .ok type) ∧
    ∀ text, ((parse text).bind fun type => parse type.text) = parse text := by
  refine ⟨fun text outcome => ⟨?_, parse_of_spells⟩, parse_text, fun text => ?_⟩
  · rintro rfl
    exact spells_parse text
  · cases hparse : parse text with
    | error error => rfl
    | ok type => exact parse_text type

/-- Blanks and leading zeros are allowed, and a bad name is reported before a bad count. -/
example : parse " char [ 007\t] " = .ok ⟨.char, some ⟨7, by decide, by decide⟩⟩ ∧
    parse "chars [0]" = .error (.unknownType "chars") ∧
    parse "char[+7]" = .error (.malformedCount "char[+7]") := by
  decide +kernel

end FieldType

end MavlinkCompiler
