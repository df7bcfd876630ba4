import MavlinkCompiler.Proofs.Text.Numeral
import MavlinkCompiler.Proofs.Text.Paragraph

/-!
# Blanks around words and numbers

Trimming takes blanks off both ends and nothing else. Words and numbers hold no blanks, so they are
what is left of a text that has them between blanks.

* `exists_trim`: what is taken off are blanks.
* `trim_surrounded`: a word is left when the blanks around it are taken off.
* `trim_eq_self`: nothing is taken off a text without blanks.
* `Denotes.isWord`, `trim_toString`: decimal numbers are words.
-/

namespace MavlinkCompiler.Text

theorem exists_trim (cs : List Char) :
    ∃ front back, cs = front ++ trim cs ++ back ∧ (∀ c ∈ front, isBlank c = true) ∧
      ∀ c ∈ back, isBlank c = true := by
  refine ⟨cs.takeWhile isBlank, ((trimStart cs).reverse.takeWhile isBlank).reverse, ?_, ?_, ?_⟩
  · have hend : trim cs ++ ((trimStart cs).reverse.takeWhile isBlank).reverse = trimStart cs := by
      rw [trim, trimEnd, ← List.reverse_append, List.takeWhile_append_dropWhile,
        List.reverse_reverse]
    rw [List.append_assoc, hend, trimStart, List.takeWhile_append_dropWhile]
  · exact fun c hc => List.mem_takeWhile_imp hc
  · exact fun c hc => List.mem_takeWhile_imp (List.mem_reverse.mp hc)

theorem trim_surrounded {front word back : List Char} (hword : IsWord word)
    (hfront : ∀ c ∈ front, isBlank c = true) (hback : ∀ c ∈ back, isBlank c = true) :
    trim (front ++ word ++ back) = word := by
  have hstart : trimStart (front ++ word ++ back) = word ++ back := by
    rw [trimStart, List.append_assoc]
    refine dropWhile_append hfront fun c hc => hword.2 c ?_
    rw [List.head?_append_of_ne_nil _ hword.1] at hc
    exact List.mem_of_mem_head? hc
  -- the end of a text is the front of the reversed one
  have hend : (back.reverse ++ word.reverse).dropWhile isBlank = word.reverse := by
    refine dropWhile_append (fun c hc => hback c (List.mem_reverse.mp hc)) fun c hc => ?_
    exact hword.2 c (List.mem_reverse.mp (List.mem_of_mem_head? hc))
  rw [trim, hstart, trimEnd, List.reverse_append, hend, List.reverse_reverse]

/-- A text without blanks has none at its ends. -/
theorem trim_eq_self {cs : List Char} (h : ∀ c ∈ cs, isBlank c = false) :
    trim cs = cs := by
  by_cases hempty : cs = []
  · subst hempty
    rfl
  · have hsame := trim_surrounded ⟨hempty, h⟩ (fun _ hc => absurd hc List.not_mem_nil)
      (fun _ hc => absurd hc List.not_mem_nil)
    rwa [List.nil_append, List.append_nil] at hsame

theorem isBlank_of_isDigit {c : Char} (h : c.isDigit = true) : isBlank c = false := by
  have hrange : 48 ≤ c.toNat ∧ c.toNat ≤ 57 := by
    simpa [Char.isDigit, UInt32.le_iff_toNat_le] using h
  obtain ⟨hlow, hhigh⟩ := hrange
  unfold isBlank
  generalize c.toNat = code at hlow hhigh
  interval_cases code <;> rfl

/-- A decimal number is a word. -/
theorem Denotes.isWord {digits : List Char} {number : Nat} (h : Denotes 10 digits number) :
    IsWord digits := by
  refine ⟨?_, h.forall_mem fun c value hvalue => isBlank_of_isDigit hvalue.isDigit⟩
  rintro rfl
  obtain ⟨values, hne, hvalues, -⟩ := h
  cases hvalues
  exact hne rfl

theorem trim_toString (number : Nat) :
    trim (toString number).toList = (toString number).toList :=
  trim_eq_self fun c hc => isBlank_of_isDigit (isDigit_of_mem_toString c hc)

theorem trimmed_toString (number : Nat) : trimmed (toString number) = toString number := by
  rw [trimmed, trim_toString, String.ofList_toList]

end MavlinkCompiler.Text
