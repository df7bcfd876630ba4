import MavlinkCompiler.Proofs.Text.Split
import MavlinkCompiler.Text.Paragraph

/-!
# Texts that are cut and joined again

Trimming a text, cutting it into words and cutting it into paragraphs all lose blanks, and lose them
once: what is joined from the pieces is cut into the same pieces.

* `splitWhere_intercalate`: pieces without separators are found again.
* `trim_trim`: nothing more is trimmed the second time.
* `words_intercalate`: words with spaces between them are found again.
* `worded_of_mem_paragraphs`, `paragraphs_intercalate`: a paragraph is a list of words, not empty,
  and paragraphs with empty lines between them are found again.
-/

namespace MavlinkCompiler.Text

/-! ## Pieces -/

theorem splitWhere_of_free {sep : Char → Bool} {piece : List Char}
    (h : ∀ c ∈ piece, sep c = false) : splitWhere sep piece = [piece] := by
  induction piece with
  | nil => rfl
  | cons c piece ih =>
    rw [List.forall_mem_cons] at h
    simp [splitWhere, h.1, ih h.2]

/-- A piece without separators is cut off at the separator after it. -/
theorem splitWhere_append_cons {sep : Char → Bool} {piece : List Char} {mark : Char}
    (h : ∀ c ∈ piece, sep c = false) (hmark : sep mark = true) (rest : List Char) :
    splitWhere sep (piece ++ mark :: rest) = piece :: splitWhere sep rest := by
  induction piece with
  | nil => simp [splitWhere, hmark]
  | cons c piece ih =>
    rw [List.forall_mem_cons] at h
    simp [splitWhere, h.1, ih h.2]

theorem splitWhere_intercalate {sep : Char → Bool} {mark : Char} (hmark : sep mark = true)
    {pieces : List (List Char)} (hpieces : pieces ≠ [])
    (h : ∀ piece ∈ pieces, ∀ c ∈ piece, sep c = false) :
    splitWhere sep ([mark].intercalate pieces) = pieces := by
  induction pieces with
  | nil => exact absurd rfl hpieces
  | cons piece rest ih =>
    rw [List.forall_mem_cons] at h
    cases rest with
    | nil =>
      rw [List.intercalate_singleton]
      exact splitWhere_of_free h.1
    | cons next rest =>
      rw [List.intercalate_cons_cons, List.append_assoc, List.singleton_append,
        splitWhere_append_cons h.1 hmark, ih (List.cons_ne_nil _ _) h.2]

/-! ## Trimming -/

theorem trimStart_eq_self {cs : List Char} (h : ∀ c ∈ cs.head?, isBlank c = false) :
    trimStart cs = cs := by
  rw [trimStart, ← List.nil_append cs]
  exact dropWhile_append (fun _ hc => absurd hc List.not_mem_nil) h

theorem head?_trimStart (cs : List Char) : ∀ c ∈ (trimStart cs).head?, isBlank c = false :=
  (takeWhile_dropWhile_iff.mp ⟨rfl, rfl⟩).2.2

theorem trimEnd_isPrefix (cs : List Char) : trimEnd cs <+: cs := by
  unfold trimEnd
  rw [← List.reverse_suffix, List.reverse_reverse]
  exact List.dropWhile_suffix _

theorem trimEnd_trimEnd (cs : List Char) : trimEnd (trimEnd cs) = trimEnd cs := by
  unfold trimEnd
  rw [List.reverse_reverse]
  exact congrArg List.reverse (trimStart_eq_self (head?_trimStart cs.reverse))

theorem trim_trim (cs : List Char) : trim (trim cs) = trim cs := by
  -- the front of what is left is the front of the text without the blanks before it
  have hstart : trimStart (trimEnd (trimStart cs)) = trimEnd (trimStart cs) := by
    refine trimStart_eq_self fun c hc => head?_trimStart cs c ?_
    obtain ⟨dropped, hdropped⟩ := trimEnd_isPrefix (trimStart cs)
    cases hkept : trimEnd (trimStart cs) with
    | nil =>
      rw [hkept] at hc
      cases hc
    | cons first kept =>
      rw [hkept] at hc hdropped
      rw [← hdropped]
      exact hc
  unfold trim
  rw [hstart, trimEnd_trimEnd]

theorem trimmed_trimmed (s : String) : trimmed (trimmed s) = trimmed s := by
  unfold trimmed
  rw [String.toList_ofList, trim_trim]

/-! ## Words -/

/-- Some characters form a word. -/
def IsWord (word : List Char) : Prop :=
  word ≠ [] ∧ ∀ c ∈ word, isBlank c = false

theorem isWord_of_mem_words {cs word : List Char} (h : word ∈ words cs) : IsWord word :=
  ⟨ne_nil_of_mem_words h, isBlank_eq_false_of_mem_words h⟩

theorem words_intercalate {found : List (List Char)} (h : ∀ word ∈ found, IsWord word) :
    words ([' '].intercalate found) = found := by
  unfold words
  by_cases hempty : found = []
  · subst hempty
    rfl
  rw [splitWhere_intercalate (by decide) hempty fun word hword => (h word hword).2]
  refine List.filter_eq_self.mpr fun word hword => ?_
  simpa using (h word hword).1

/-! ## Lines -/

theorem free_of_not_mem {mark : Char} {cs : List Char} (h : mark ∉ cs) :
    ∀ c ∈ cs, (c == mark) = false := by
  intro c hc
  rw [beq_eq_false_iff_ne]
  rintro rfl
  exact h hc

/-- A line is cut off at the line feed after it. -/
theorem lines_append_cons {line : List Char} (hfeed : '\n' ∉ line) (hreturn : '\r' ∉ line)
    (rest : List Char) : lines (line ++ '\n' :: rest) = line :: lines rest := by
  have hkept : dropReturn line = line := by
    refine if_neg fun hlast => ?_
    exact hreturn (List.mem_of_getLast? hlast)
  unfold lines
  rw [splitWhere_append_cons (free_of_not_mem hfeed) (by decide)]
  cases hrest : splitWhere (· == '\n') rest with
  | nil => exact absurd hrest (splitWhere_ne_nil _ rest)
  | cons piece pieces => rw [endedLines, hkept]

theorem lines_of_free {line : List Char} (hline : line ≠ []) (hfeed : '\n' ∉ line) :
    lines line = [line] := by
  unfold lines
  rw [splitWhere_of_free (free_of_not_mem hfeed)]
  simp [endedLines, hline]

/-! ## Paragraphs -/

/-- A paragraph holds words, and at least one. -/
def Worded (paragraph : List (List Char)) : Prop :=
  paragraph ≠ [] ∧ ∀ word ∈ paragraph, IsWord word

theorem worded_of_mem_closed {paragraph current : List (List Char)}
    (hcurrent : ∀ word ∈ current, IsWord word) (h : paragraph ∈ closed current) :
    Worded paragraph := by
  unfold closed at h
  split at h
  · cases h
  next hne =>
    obtain rfl := List.mem_singleton.mp h
    exact ⟨fun heq => hne (heq ▸ rfl), hcurrent⟩

/-- Paragraphs are gathered from the words of the lines, and no empty one is kept. -/
theorem worded_of_mem_gather {paragraph : List (List Char)} :
    ∀ {found : List (List (List Char))} {current : List (List Char)},
      (∀ word ∈ current, IsWord word) → (∀ line ∈ found, ∀ word ∈ line, IsWord word) →
      paragraph ∈ gather current found → Worded paragraph
  | [], _, hcurrent, _, h => worded_of_mem_closed hcurrent h
  | line :: found, current, hcurrent, hfound, h => by
    rw [List.forall_mem_cons] at hfound
    unfold gather at h
    split at h
    · rcases List.mem_append.mp h with hclosed | hrest
      · exact worded_of_mem_closed hcurrent hclosed
      · exact worded_of_mem_gather (fun _ hword => absurd hword List.not_mem_nil) hfound.2 hrest
    · exact worded_of_mem_gather (List.forall_mem_append.mpr ⟨hcurrent, hfound.1⟩) hfound.2 h

theorem worded_of_mem_paragraphs {cs : List Char} {paragraph : List (List Char)}
    (h : paragraph ∈ paragraphs cs) : Worded paragraph := by
  refine worded_of_mem_gather (fun _ hword => absurd hword List.not_mem_nil) ?_ h
  rintro line hline word hword
  obtain ⟨text, -, rfl⟩ := List.mem_map.mp hline
  exact isWord_of_mem_words hword

/-- The line of a paragraph holds no other blanks than spaces. -/
theorem not_mem_intercalate {paragraph : List (List Char)}
    (h : ∀ word ∈ paragraph, IsWord word) {c : Char} (hblank : isBlank c = true) (hc : c ≠ ' ') :
    c ∉ [' '].intercalate paragraph := by
  induction paragraph with
  | nil => simp
  | cons word rest ih =>
    rw [List.forall_mem_cons] at h
    have hword : c ∉ word := by
      intro hmem
      rw [h.1.2 c hmem] at hblank
      cases hblank
    cases rest with
    | nil => simpa using hword
    | cons next rest =>
      rw [List.intercalate_cons_cons]
      simp only [List.mem_append, List.mem_singleton, not_or]
      exact ⟨⟨hword, hc⟩, ih h.2⟩

/-- Paragraphs with empty lines between them are found again. -/
theorem paragraphs_intercalate {found : List (List (List Char))}
    (h : ∀ paragraph ∈ found, Worded paragraph) :
    paragraphs (['\n', '\n'].intercalate (found.map ([' '].intercalate ·))) = found := by
  induction found with
  | nil => rfl
  | cons paragraph rest ih =>
    rw [List.forall_mem_cons] at h
    obtain ⟨⟨hne, hwords⟩, hrest⟩ := h
    have hfeed := not_mem_intercalate hwords (c := '\n') (by decide) (by decide)
    have hreturn := not_mem_intercalate hwords (c := '\r') (by decide) (by decide)
    have hfound := words_intercalate hwords
    cases rest with
    | nil =>
      have hline : [' '].intercalate paragraph ≠ [] := by
        intro hempty
        rw [hempty] at hfound
        exact hne hfound.symm
      rw [List.map_singleton, List.intercalate_singleton, paragraphs, lines_of_free hline hfeed,
        List.map_singleton, hfound]
      simp [gather, closed, hne]
    | cons next rest =>
      -- the line of the paragraph, the empty line that ends it, and the rest
      have hlines : ∀ text, lines ([' '].intercalate paragraph ++ '\n' :: '\n' :: text) =
          [' '].intercalate paragraph :: [] :: lines text := by
        intro text
        rw [lines_append_cons hfeed hreturn]
        exact congrArg _ (lines_append_cons List.not_mem_nil List.not_mem_nil text)
      have hgather := ih hrest
      rw [List.map_cons, List.map_cons, List.intercalate_cons_cons, List.append_assoc]
      show paragraphs ([' '].intercalate paragraph ++ '\n' :: '\n' :: _) = _
      rw [paragraphs, hlines, List.map_cons, List.map_cons, hfound]
      show gather [] (paragraph :: words [] :: _) = _
      rw [gather, if_neg (by simpa using hne), gather, if_pos (by rfl), List.nil_append, closed,
        if_neg (by simpa using hne)]
      exact congrArg _ hgather

end MavlinkCompiler.Text
