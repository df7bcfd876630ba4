import MavlinkCompiler.Proofs.Text.Trim
import MavlinkCompiler.Proofs.Text.Words

/-!
# Runs of lines

A paragraph holds the words of a run of lines that are not blank, with blank lines or the ends of
the text around it. Runs are said here by splitting the list of lines, without the words collected
so far that finding paragraphs carries along.

* `isBlankLine`, `lineRuns`: the maximal runs of lines that are not blank.
* `paragraphs_eq_map_lineRuns`: paragraphs are the words of the runs.
* `paragraphs_append_break`: an empty line between two texts keeps their paragraphs apart.
-/

namespace MavlinkCompiler.Text

/-- Whether a line is blank: nothing is left when it is trimmed. -/
def isBlankLine (line : List Char) : Bool :=
  (trim line).isEmpty

/-- The maximal runs of lines that are not blank. -/
def lineRuns (cs : List Char) : List (List (List Char)) :=
  ((lines cs).splitOnP isBlankLine).filter fun run => !run.isEmpty

/-! ## Blank lines -/

theorem isBlankLine_iff {line : List Char} :
    isBlankLine line = true ↔ ∀ c ∈ line, isBlank c = true := by
  rw [isBlankLine, List.isEmpty_iff]
  constructor
  · intro h
    obtain ⟨front, back, hline, hfront, hback⟩ := exists_trim line
    rw [h, List.append_nil] at hline
    rw [hline]
    exact List.forall_mem_append.mpr ⟨hfront, hback⟩
  · intro h
    have hstart : trimStart line = [] := List.dropWhile_eq_nil_iff.mpr h
    rw [trim, hstart]
    rfl

/-- A blank line is a line without words. -/
theorem words_eq_nil_iff {line : List Char} : words line = [] ↔ isBlankLine line = true := by
  rw [isBlankLine_iff]
  induction line with
  | nil => simp
  | cons c line ih =>
    rw [List.forall_mem_cons, ← ih]
    by_cases hblank : isBlank c = true
    · have hwords : words (c :: line) = words line := words_append_cons hblank [] line
      rw [hwords]
      exact ⟨fun h => ⟨hblank, h⟩, And.right⟩
    · -- the first character is in the first word
      have hwords : words (c :: line) ≠ [] := by
        unfold words
        rw [splitWhere, if_neg hblank]
        cases splitWhere isBlank line <;> simp
      exact ⟨fun h => absurd h hwords, fun h => absurd h.1 hblank⟩

/-! ## Paragraphs -/

theorem modifyHead_nil_append {α : Type} (runs : List (List α)) :
    runs.modifyHead ([] ++ ·) = runs := by
  cases runs <;> rfl

theorem closed_flatMap_words {run : List (List Char)}
    (h : ∀ line ∈ run, isBlankLine line = false) :
    closed (run.flatMap words) =
      ([run].filter fun run => !run.isEmpty).map (·.flatMap words) := by
  cases run with
  | nil => rfl
  | cons line run =>
    have hwords : words line ≠ [] := by
      rw [ne_eq, words_eq_nil_iff, h line List.mem_cons_self]
      decide
    simp [closed, hwords]

/-- The lines of the run that is being read come in front of the first run that follows. -/
theorem gather_flatMap_words {run : List (List Char)}
    (h : ∀ line ∈ run, isBlankLine line = false) (found : List (List Char)) :
    gather (run.flatMap words) (found.map words) =
      (((found.splitOnP isBlankLine).modifyHead (run ++ ·)).filter fun run => !run.isEmpty).map
        (·.flatMap words) := by
  induction found generalizing run with
  | nil =>
    rw [List.splitOnP_nil, List.modifyHead_cons, List.append_nil]
    exact closed_flatMap_words h
  | cons line found ih =>
    rw [List.map_cons, gather, List.splitOnP_cons_eq_if_modifyHead]
    cases hline : isBlankLine line with
    | true =>
      -- the run ends here, and the next one starts with nothing
      have hnext := ih fun _ hother => absurd hother List.not_mem_nil
      rw [List.flatMap_nil, modifyHead_nil_append] at hnext
      rw [if_pos (List.isEmpty_iff.mpr (words_eq_nil_iff.mpr hline)), if_pos rfl,
        List.modifyHead_cons, List.append_nil, hnext, closed_flatMap_words h, ← List.map_append,
        ← List.filter_append]
      rfl
    | false =>
      have hwords : ¬ (words line).isEmpty = true := by
        rw [List.isEmpty_iff, words_eq_nil_iff, hline]
        decide
      have hrun : ∀ other ∈ run ++ [line], isBlankLine other = false :=
        List.forall_mem_append.mpr ⟨h, by simpa using hline⟩
      have hnext := ih hrun
      rw [List.flatMap_append, List.flatMap_singleton] at hnext
      rw [if_neg hwords, hnext, if_neg (by decide), List.modifyHead_modifyHead]
      have hcons : (run ++ [line] ++ ·) = (run ++ ·) ∘ List.cons line := by
        funext rest
        simp
      rw [hcons]

/-- A paragraph holds the words of a run of lines that are not blank. -/
theorem paragraphs_eq_map_lineRuns (cs : List Char) :
    paragraphs cs = (lineRuns cs).map (·.flatMap words) := by
  have hgather := gather_flatMap_words (fun _ hline => absurd hline List.not_mem_nil) (lines cs)
  rwa [modifyHead_nil_append] at hgather

/-! ## Texts with an empty line between them -/

/-- An empty line ends a paragraph. -/
theorem gather_append_nil (rest : List (List (List Char))) :
    ∀ (found : List (List (List Char))) (current : List (List Char)),
      gather current (found ++ [] :: rest) = gather current found ++ gather [] rest
  | [], _ => rfl
  | line :: found, current => by
    rw [List.cons_append, gather, gather]
    split
    · rw [gather_append_nil rest found, List.append_assoc]
    · rw [gather_append_nil rest found]

/-- What ends a line makes no difference to paragraphs. -/
theorem gather_endedLines :
    ∀ (pieces : List (List Char)) (current : List (List Char)),
      gather current ((endedLines pieces).map words) = gather current (pieces.map words)
  | [], _ => rfl
  | [last], current => by
    unfold endedLines
    split
    next hempty =>
      rw [List.isEmpty_iff.mp hempty]
      simp [gather, closed]
    · rfl
  | piece :: next :: pieces, current => by
    rw [endedLines, List.map_cons, List.map_cons, words_dropReturn, gather, gather,
      gather_endedLines (next :: pieces), gather_endedLines (next :: pieces)]

theorem paragraphs_eq_gather_splitWhere (cs : List Char) :
    paragraphs cs = gather [] ((splitWhere (· == '\n') cs).map words) :=
  gather_endedLines _ _

theorem paragraphs_append_break (front rest : List Char) :
    paragraphs (front ++ '\n' :: '\n' :: rest) = paragraphs front ++ paragraphs rest := by
  have hpieces : splitWhere (· == '\n') (front ++ '\n' :: '\n' :: rest) =
      splitWhere (· == '\n') front ++ [] :: splitWhere (· == '\n') rest := by
    rw [splitWhere_append (by decide)]
    exact congrArg _ (splitWhere_append (by decide) [] rest)
  rw [paragraphs_eq_gather_splitWhere, hpieces, List.map_append, List.map_cons, words_nil,
    gather_append_nil, ← paragraphs_eq_gather_splitWhere, ← paragraphs_eq_gather_splitWhere]

end MavlinkCompiler.Text
