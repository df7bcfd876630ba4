import MavlinkCompiler.Proofs.Text.Paragraph

/-!
# The words of a text

Cutting a text at its line feeds and joining lines to paragraphs moves blanks and nothing else, so
the words of all lines, and the words of all paragraphs, are the words of the text. A sequence
without blanks lies within one word, wherever it occurs.

* `words_append_cons`: the words before a blank, then the words after it.
* `flatten_words`: words hold all characters that are not blank.
* `flatMap_words_lines`, `flatten_paragraphs`: lines and paragraphs hold the words of the text.
* `occurrences`: how often a sequence occurs in a text.
* `occurrences_eq_sum_words`: a sequence without blanks occurs as often as in all words together.
-/

namespace MavlinkCompiler.Text

/-! ## Words and blanks -/

/-- Separators are cut at one by one, so the pieces on both sides of one do not meet. -/
theorem splitWhere_append {sep : Char → Bool} {mark : Char} (hmark : sep mark = true)
    (front rest : List Char) :
    splitWhere sep (front ++ mark :: rest) = splitWhere sep front ++ splitWhere sep rest := by
  induction front with
  | nil => simp [splitWhere, hmark]
  | cons c front ih =>
    by_cases hc : sep c = true
    · simp [splitWhere, hc, ih]
    · rw [List.cons_append, splitWhere, if_neg hc, ih, splitWhere, if_neg hc]
      cases hpieces : splitWhere sep front with
      | nil => exact absurd hpieces (splitWhere_ne_nil sep front)
      | cons piece pieces => rfl

theorem words_append_cons {blank : Char} (hblank : isBlank blank = true)
    (front rest : List Char) : words (front ++ blank :: rest) = words front ++ words rest := by
  unfold words
  rw [splitWhere_append hblank, List.filter_append]

@[simp]
theorem words_nil : words [] = [] := rfl

theorem words_of_isWord {word : List Char} (h : IsWord word) : words word = [word] := by
  unfold words
  rw [splitWhere_of_free h.2]
  simpa using h.1

/-- Pieces joined by a blank have their words one after the other. -/
theorem words_intercalate_blank {blank : Char} (hblank : isBlank blank = true)
    (pieces : List (List Char)) :
    words ([blank].intercalate pieces) = pieces.flatMap words := by
  induction pieces with
  | nil => rfl
  | cons piece rest ih =>
    cases rest with
    | nil => simp
    | cons next rest =>
      rw [List.intercalate_cons_cons, List.append_assoc, List.singleton_append,
        words_append_cons hblank, ih]
      exact List.flatMap_cons.symm

theorem flatten_splitWhere (sep : Char → Bool) (cs : List Char) :
    (splitWhere sep cs).flatten = cs.filter (!sep ·) := by
  induction cs with
  | nil => rfl
  | cons c cs ih =>
    by_cases hc : sep c = true
    · simp [splitWhere, hc, ih]
    · rw [splitWhere, if_neg hc, List.filter_cons_of_pos (by simpa using hc), ← ih]
      cases hpieces : splitWhere sep cs with
      | nil => exact absurd hpieces (splitWhere_ne_nil sep cs)
      | cons piece pieces => rfl

/-- The characters of all words are those of the text that are not blank. -/
theorem flatten_words (cs : List Char) : (words cs).flatten = cs.filter (!isBlank ·) := by
  rw [words, List.flatten_filter_not_isEmpty, flatten_splitWhere]

/-! ## Lines and paragraphs -/

theorem words_dropReturn (line : List Char) : words (dropReturn line) = words line := by
  unfold dropReturn
  split
  next hlast =>
    obtain ⟨front, rfl⟩ := List.getLast?_eq_some_iff.mp hlast
    rw [List.dropLast_concat, words_append_cons (by decide), words_nil, List.append_nil]
  · rfl

theorem flatMap_words_endedLines :
    ∀ pieces : List (List Char), (endedLines pieces).flatMap words = pieces.flatMap words
  | [] => rfl
  | [last] => by
    unfold endedLines
    split
    next hempty => simp [List.isEmpty_iff.mp hempty]
    · rfl
  | piece :: next :: pieces => by
    rw [endedLines, List.flatMap_cons, words_dropReturn, flatMap_words_endedLines (next :: pieces)]
    exact List.flatMap_cons.symm

/-- The words of all lines are the words of the text. -/
theorem flatMap_words_lines (cs : List Char) : (lines cs).flatMap words = words cs := by
  have hfeed : isBlank '\n' = true := by decide
  unfold lines
  rw [flatMap_words_endedLines, ← words_intercalate_blank hfeed, intercalate_splitWhere]

theorem flatten_closed (paragraph : List (List Char)) : (closed paragraph).flatten = paragraph := by
  unfold closed
  split
  next hempty => exact (List.isEmpty_iff.mp hempty).symm
  · exact List.flatten_singleton

theorem flatten_gather :
    ∀ (found : List (List (List Char))) (current : List (List Char)),
      (gather current found).flatten = current ++ found.flatten
  | [], current => by
    rw [gather, flatten_closed, List.flatten_nil, List.append_nil]
  | line :: found, current => by
    unfold gather
    split
    next hempty =>
      rw [List.flatten_append, flatten_closed, flatten_gather found, List.flatten_cons,
        List.isEmpty_iff.mp hempty]
    · rw [flatten_gather found, List.flatten_cons, List.append_assoc]

/-- The words of all paragraphs are the words of the text. -/
theorem flatten_paragraphs (cs : List Char) : (paragraphs cs).flatten = words cs := by
  unfold paragraphs
  rw [flatten_gather, List.nil_append, ← List.flatMap_def, flatMap_words_lines]

/-- There are paragraphs if there are words. -/
theorem paragraphs_eq_nil_iff {cs : List Char} : paragraphs cs = [] ↔ words cs = [] := by
  rw [← flatten_paragraphs]
  constructor
  · intro h
    rw [h]
    rfl
  · intro h
    rw [List.eq_nil_iff_forall_not_mem]
    intro paragraph hparagraph
    exact (worded_of_mem_paragraphs hparagraph).1 (List.flatten_eq_nil_iff.mp h _ hparagraph)

/-! ## Sequences in a text -/

/-- How often a sequence occurs in a text, overlapping occurrences counted too. -/
def occurrences (mark : List Char) : List Char → Nat
  | [] => 0
  | c :: cs => (if mark <+: c :: cs then 1 else 0) + occurrences mark cs

theorem occurrences_eq_zero_iff {mark : List Char} (hmark : mark ≠ []) (cs : List Char) :
    occurrences mark cs = 0 ↔ ¬ mark <:+: cs := by
  induction cs with
  | nil => simpa [occurrences] using hmark
  | cons c cs ih =>
    rw [occurrences, List.infix_cons_iff, not_or, ← ih, Nat.add_eq_zero_iff]
    by_cases hfront : mark <+: c :: cs
    · simp [hfront]
    · simp [hfront]

theorem IsWord.not_mem_of_isBlank {word : List Char} (h : IsWord word) {c : Char}
    (hc : isBlank c = true) : c ∉ word := by
  intro hmem
  rw [h.2 c hmem] at hc
  cases hc

/-- A sequence does not reach beyond a character that is not in it. -/
theorem prefix_append_cons_iff {mark : List Char} {stop : Char} (hstop : stop ∉ mark)
    {front rest : List Char} : mark <+: front ++ stop :: rest ↔ mark <+: front := by
  refine ⟨fun h => ?_, fun h => h.trans (List.prefix_append _ _)⟩
  obtain ⟨after, hafter⟩ := h
  rcases List.append_eq_append_iff.mp hafter with ⟨between, rfl, -⟩ | ⟨beyond, rfl, hbeyond⟩
  · exact List.prefix_append _ _
  · cases beyond with
    | nil => simp
    | cons first beyond =>
      obtain ⟨rfl, -⟩ := List.cons_eq_cons.mp hbeyond
      exact absurd (List.mem_append_right _ List.mem_cons_self) hstop

theorem occurrences_append_cons {mark : List Char} (hmark : IsWord mark) {blank : Char}
    (hblank : isBlank blank = true) (front rest : List Char) :
    occurrences mark (front ++ blank :: rest) = occurrences mark front + occurrences mark rest := by
  have hstop := hmark.not_mem_of_isBlank hblank
  induction front with
  | nil =>
    have hnot : ¬ mark <+: blank :: rest := by
      rw [← List.nil_append (blank :: rest), prefix_append_cons_iff hstop]
      simpa using hmark.1
    simp [occurrences, hnot]
  | cons c front ih =>
    rw [List.cons_append, occurrences, occurrences, ih, ← List.cons_append, Nat.add_assoc]
    simp only [prefix_append_cons_iff hstop]

/-- A sequence without blanks occurs in a text as often as in all its words together. -/
theorem occurrences_eq_sum_words {mark : List Char} (hmark : IsWord mark) (cs : List Char) :
    occurrences mark cs = ((words cs).map (occurrences mark)).sum := by
  by_cases hfree : ∀ c ∈ cs, isBlank c = false
  · by_cases hempty : cs = []
    · subst hempty
      rfl
    · rw [words_of_isWord ⟨hempty, hfree⟩, List.map_singleton, List.sum_singleton]
  · -- at a blank the text falls into two shorter ones
    push Not at hfree
    obtain ⟨blank, hmem, hblank⟩ := hfree
    rw [ne_eq, Bool.not_eq_false] at hblank
    obtain ⟨front, rest, hcs⟩ := List.append_of_mem hmem
    have hlength := congrArg List.length hcs
    rw [List.length_append, List.length_cons] at hlength
    rw [hcs, occurrences_append_cons hmark hblank, words_append_cons hblank, List.map_append,
      List.sum_append, occurrences_eq_sum_words hmark front, occurrences_eq_sum_words hmark rest]
termination_by cs.length

end MavlinkCompiler.Text
