import MavlinkCompiler.Proofs.Text.Numeral
import MavlinkCompiler.Proofs.Text.Split
import MavlinkCompiler.Xml.Reference

/-!
# What references stand for

A text with references stands for the text in which each of them is replaced by its character.

* `Refers`: what stands between ampersand and semicolon, with its character.
* `Decodes`: a text with references, with the text that it stands for.
* `decode_eq_ok_iff`: decoding gives this text, and fails if there is none.

The text put in place of a reference is not looked at again: in `Decodes` the characters on the two
sides are taken off together, so what a reference gave is behind.
-/

namespace MavlinkCompiler.Xml

open Text (Denotes IsPlus)

/-- The text between ampersand and semicolon stands for a character: by one of five names, or by the
character's code in decimal or hexadecimal digits. -/
inductive Refers : List Char → Char → Prop where
  | lt : Refers ['l', 't'] '<'
  | gt : Refers ['g', 't'] '>'
  | amp : Refers ['a', 'm', 'p'] '&'
  | quot : Refers ['q', 'u', 'o', 't'] '"'
  | apos : Refers ['a', 'p', 'o', 's'] '\''
  | decimal {sign digits : List Char} {c : Char} : IsPlus sign → Denotes 10 digits c.toNat →
      Refers ('#' :: sign ++ digits) c
  | hexadecimal {x : Char} {sign digits : List Char} {c : Char} : x = 'x' ∨ x = 'X' →
      IsPlus sign → Denotes 16 digits c.toNat → Refers ('#' :: x :: sign ++ digits) c

/-- A text with references stands for a text: every ampersand starts a reference, and every other
character stands for itself. -/
inductive Decodes : List Char → List Char → Prop where
  | nil : Decodes [] []
  | plain {c : Char} {cs decoded : List Char} : c ≠ '&' → Decodes cs decoded →
      Decodes (c :: cs) (c :: decoded)
  | reference {body cs decoded : List Char} {c : Char} : Refers body c → Decodes cs decoded →
      Decodes ('&' :: body ++ ';' :: cs) (c :: decoded)

/-! ## References -/

/-- A code is that of a character if it is a scalar value. -/
theorem charOfCode?_eq_some_iff {code : Nat} {c : Char} :
    charOfCode? code = some c ↔ c.toNat = code := by
  unfold charOfCode?
  split
  · next hvalid =>
    have hcode : (Char.ofNatAux code hvalid).toNat = code := rfl
    rw [Option.some.injEq, ← Char.toNat_inj, hcode, eq_comm]
  · next hvalid =>
    constructor
    · nofun
    · rintro rfl
      exact absurd c.valid hvalid

theorem toNat_lt_size (c : Char) : c.toNat < UInt32.size :=
  c.val.toNat_lt

/-- Without a letter after the hash the code is decimal. -/
theorem referenceCode?_hash {cs : List Char} (h : ∀ c ∈ cs, c ≠ 'x' ∧ c ≠ 'X') :
    referenceCode? ('#' :: cs) = Text.unsigned? 10 UInt32.size cs := by
  unfold referenceCode?
  split
  · next heq =>
    cases heq
    exact absurd rfl (h 'x' List.mem_cons_self).1
  · next heq =>
    cases heq
    exact absurd rfl (h 'X' List.mem_cons_self).2
  · next heq =>
    cases heq
    rfl
  · next hnot => exact absurd rfl (hnot cs)

theorem referenceCode?_of_decimal {sign digits : List Char} {c : Char} (hsign : IsPlus sign)
    (hdigits : Denotes 10 digits c.toNat) :
    referenceCode? ('#' :: sign ++ digits) = some c.toNat := by
  -- neither sign nor digits can be taken for the letter of a hexadecimal code
  have hletters : ∀ c ∈ sign ++ digits, c ≠ 'x' ∧ c ≠ 'X' := by
    rw [List.forall_mem_append]
    constructor
    · rcases hsign with rfl | rfl <;> simp
    · refine hdigits.forall_mem fun c value hvalue => ?_
      have hdigit := hvalue.isDigit
      constructor
      · rintro rfl
        exact absurd hdigit (by decide)
      · rintro rfl
        exact absurd hdigit (by decide)
  rw [List.cons_append, referenceCode?_hash hletters]
  exact (Text.unsigned?_eq_some_iff (by decide)).mpr
    ⟨toNat_lt_size c, sign, digits, hsign, rfl, hdigits⟩

theorem referenceCode?_of_hexadecimal {x : Char} {sign digits : List Char} {c : Char}
    (hx : x = 'x' ∨ x = 'X') (hsign : IsPlus sign) (hdigits : Denotes 16 digits c.toNat) :
    referenceCode? ('#' :: x :: sign ++ digits) = some c.toNat := by
  have hcode : Text.unsigned? 16 UInt32.size (sign ++ digits) = some c.toNat :=
    (Text.unsigned?_eq_some_iff (Nat.le_refl 16)).mpr
      ⟨toNat_lt_size c, sign, digits, hsign, rfl, hdigits⟩
  rcases hx with rfl | rfl
  · exact hcode
  · exact hcode

/-- What is looked up or read as a code stands for the character. -/
theorem refers_of_reference? {body : List Char} {c : Char} (h : reference? body = some c) :
    Refers body c := by
  unfold reference? at h
  split at h
  · next found hfound =>
    cases h
    -- by name: one of the five in the table
    have hmem : (body, c) ∈ namedReferences := by
      obtain ⟨before, after, heq, -⟩ := List.lookup_eq_some_iff.mp hfound
      rw [heq]
      simp
    simp only [namedReferences, List.mem_cons, Prod.mk.injEq, List.not_mem_nil, or_false] at hmem
    rcases hmem with ⟨rfl, rfl⟩ | ⟨rfl, rfl⟩ | ⟨rfl, rfl⟩ | ⟨rfl, rfl⟩ | ⟨rfl, rfl⟩
    · exact .lt
    · exact .gt
    · exact .amp
    · exact .quot
    · exact .apos
  -- by code: the character is the one with this code
  · obtain ⟨code, hcode, hc⟩ := Option.bind_eq_some_iff.mp h
    obtain rfl := charOfCode?_eq_some_iff.mp hc
    unfold referenceCode? at hcode
    split at hcode
    · obtain ⟨-, sign, digits, hsign, rfl, hdigits⟩ :=
        (Text.unsigned?_eq_some_iff (Nat.le_refl 16)).mp hcode
      exact .hexadecimal (.inl rfl) hsign hdigits
    · obtain ⟨-, sign, digits, hsign, rfl, hdigits⟩ :=
        (Text.unsigned?_eq_some_iff (Nat.le_refl 16)).mp hcode
      exact .hexadecimal (.inr rfl) hsign hdigits
    · obtain ⟨-, sign, digits, hsign, rfl, hdigits⟩ :=
        (Text.unsigned?_eq_some_iff (by decide)).mp hcode
      exact .decimal hsign hdigits
    · cases hcode

/-- No name starts with a hash. -/
theorem reference?_hash (cs : List Char) :
    reference? ('#' :: cs) = (referenceCode? ('#' :: cs)).bind charOfCode? := rfl

theorem reference?_eq_some_iff {body : List Char} {c : Char} :
    reference? body = some c ↔ Refers body c := by
  refine ⟨refers_of_reference?, fun h => ?_⟩
  cases h with
  | lt | gt | amp | quot | apos => rfl
  | decimal hsign hdigits =>
    have hcode := referenceCode?_of_decimal hsign hdigits
    rw [List.cons_append] at hcode ⊢
    rw [reference?_hash, hcode]
    exact charOfCode?_eq_some_iff.mpr rfl
  | hexadecimal hx hsign hdigits =>
    have hcode := referenceCode?_of_hexadecimal hx hsign hdigits
    rw [List.cons_append] at hcode ⊢
    rw [reference?_hash, hcode]
    exact charOfCode?_eq_some_iff.mpr rfl

/-- No reference holds a semicolon. -/
theorem Refers.semicolon_not_mem {body : List Char} {c : Char} (h : Refers body c) :
    ';' ∉ body := by
  -- up to radix 16 a digit is a letter or a decimal digit
  have hfree : ∀ {radix sign digits}, radix ≤ 16 → IsPlus sign → Denotes radix digits c.toNat →
      ';' ∉ sign ++ digits := by
    intro radix sign digits hradix hsign hdigits hmem
    rcases List.mem_append.mp hmem with hmem | hmem
    · rcases hsign with rfl | rfl <;> revert hmem <;> decide
    · have hsemicolon := hdigits.forall_mem (fun _ _ hvalue => hvalue.isAlphanum hradix) ';' hmem
      exact absurd hsemicolon (by decide)
  cases h with
  | lt | gt | amp | quot | apos => decide
  | decimal hsign hdigits =>
    rw [List.cons_append, List.mem_cons, not_or]
    exact ⟨by decide, hfree (by decide) hsign hdigits⟩
  | hexadecimal hx hsign hdigits =>
    rw [List.cons_append, List.cons_append, List.mem_cons, List.mem_cons, not_or, not_or]
    refine ⟨by decide, ?_, hfree (Nat.le_refl 16) hsign hdigits⟩
    rcases hx with rfl | rfl <;> decide

/-! ## Decoding -/

/-- A text is cut at its first semicolon. -/
theorem cutAt?_semicolon {cs body rest : List Char} :
    Text.cutAt? [';'] cs = some (body, rest) ↔ cs = body ++ ';' :: rest ∧ ';' ∉ body := by
  have hmark : Text.cutAt? ([] ++ [';']) cs = some (body, rest) ↔
      cs = body ++ ([] ++ [';']) ++ rest ∧ ¬ [] ++ [';'] <:+: body :=
    Text.cutAt?_eq_some_iff List.not_mem_nil
  simpa [List.singleton_infix_iff] using hmark

theorem decodes_of_decodeIn {whole : String} {cs decoded : List Char}
    (h : decodeIn whole cs = .ok decoded) : Decodes cs decoded := by
  fun_induction decodeIn whole cs generalizing decoded with
  | case1 =>
    cases h
    exact .nil
  | case2 => cases h
  | case3 => cases h
  | case4 cs body rest hcut c hc decoded hrest ih =>
    cases h
    obtain ⟨rfl, -⟩ := cutAt?_semicolon.mp hcut
    exact .reference (reference?_eq_some_iff.mp hc) (ih hrest)
  | case5 => cases h
  | case6 c cs hplain decoded hrest ih =>
    cases h
    exact .plain hplain (ih hrest)
  | case7 => cases h

theorem decodeIn_of_decodes {whole : String} {cs decoded : List Char} (h : Decodes cs decoded) :
    decodeIn whole cs = .ok decoded := by
  induction h with
  | nil => rw [decodeIn]
  | plain hplain _ ih => rw [decodeIn, if_neg hplain, ih]
  | @reference body cs decoded c hrefers _ ih =>
    -- the reference holds no semicolon, so the first one is its own
    have hcut : Text.cutAt? [';'] (body ++ ';' :: cs) = some (body, cs) :=
      cutAt?_semicolon.mpr ⟨rfl, hrefers.semicolon_not_mem⟩
    rw [List.cons_append, decodeIn, if_pos rfl]
    split
    · next hnone =>
      rw [hcut] at hnone
      cases hnone
    · next found rest hfound =>
      rw [hcut] at hfound
      cases hfound
      rw [reference?_eq_some_iff.mpr hrefers, ih]

/-- Decoding gives the text that a text with references stands for. -/
theorem decode_eq_ok_iff {text value : String} :
    decode text = .ok value ↔ Decodes text.toList value.toList := by
  unfold decode
  constructor
  · intro h
    cases hdecoded : decodeIn text text.toList with
    | error error =>
      rw [hdecoded] at h
      cases h
    | ok decoded =>
      rw [hdecoded] at h
      cases h
      rw [String.toList_ofList]
      exact decodes_of_decodeIn hdecoded
  · intro h
    rw [decodeIn_of_decodes h]
    show Except.ok (String.ofList value.toList) = _
    rw [String.ofList_toList]

end MavlinkCompiler.Xml
