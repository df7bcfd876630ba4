import MavlinkCompiler.Proofs.Schema.Normal
import MavlinkCompiler.Proofs.Text.Run
import MavlinkCompiler.Target.Comment

/-!
# Descriptions and their comments

A description has the paragraphs of the text that it comes from. Everything else about the two
follows: describing a description does not change it, and a comment does not show whether it was
wrapped from the one or from the other.

Wrapping needs the words of paragraphs only. It can also find them by way of the texts of
paragraphs, which are joined from lines with their line feeds and are cut into words afterwards;
these are told apart by whether anything is left of a line when it is trimmed, and words are not
looked at. Both ways agree on every text.

* `paragraphs_of_describe?`: a description has the paragraphs of the text.
* `paragraphTexts`, `paragraphs_eq_map_paragraphTexts`: paragraphs as texts.
* `description_keeps_comment`: what a description is, and that its comment is that of the text.
-/

namespace MavlinkCompiler

open Text
open Schema (describe? paragraphLine)

/-! ## Paragraphs of a description -/

theorem describe?_eq_none_iff {text : String} :
    describe? text = none ↔ ∀ c ∈ text.toList, isBlank c = true := by
  rw [← isBlankLine_iff, ← words_eq_nil_iff, ← paragraphs_eq_nil_iff]
  unfold describe?
  split
  next hnone => simp [hnone]
  next hne => simpa using hne

/-- A description is the paragraphs of the text, each on a line of its own. -/
theorem toList_of_describe? {text description : String} (h : describe? text = some description) :
    description.toList =
      ['\n', '\n'].intercalate ((paragraphs text.toList).map ([' '].intercalate ·)) := by
  unfold describe? at h
  split at h
  · cases h
  · obtain rfl := Option.some.inj h
    exact String.toList_ofList

theorem paragraphs_of_describe? {text description : String}
    (h : describe? text = some description) :
    paragraphs description.toList = paragraphs text.toList := by
  rw [toList_of_describe? h]
  exact paragraphs_intercalate fun _ hparagraph => worded_of_mem_paragraphs hparagraph

/-! ## Paragraphs as texts -/

/-- The text of a paragraph as a list with its one element, or nothing if there is no text. -/
def closedText (current : List Char) : List (List Char) :=
  if current.isEmpty then [] else [current]

/-- Joins neighbouring lines, each with a line feed behind it; a blank line ends the text
`current`. -/
def gatherTexts (current : List Char) : List (List Char) → List (List Char)
  | [] => closedText current
  | line :: rest =>
    if isBlankLine line then
      closedText current ++ gatherTexts [] rest
    else
      gatherTexts (current ++ line ++ ['\n']) rest

/-- The texts of the paragraphs of a text. -/
def paragraphTexts (cs : List Char) : List (List Char) :=
  gatherTexts [] (lines cs)

/-- What has been joined so far: nothing, or lines with words and a line feed behind the last. -/
def Ended (current : List Char) : Prop :=
  current = [] ∨ words current ≠ [] ∧ ∃ front, current = front ++ ['\n']

theorem Ended.words_append {current : List Char} (h : Ended current) (line : List Char) :
    words (current ++ line ++ ['\n']) = words current ++ words line := by
  have hfeed : isBlank '\n' = true := by decide
  rw [words_append_cons hfeed, words_nil, List.append_nil]
  rcases h with rfl | ⟨-, front, rfl⟩
  · rfl
  · rw [List.append_assoc, List.singleton_append, words_append_cons hfeed,
      words_append_cons hfeed, words_nil, List.append_nil]

theorem Ended.append {current line : List Char} (h : Ended current)
    (hline : isBlankLine line = false) : Ended (current ++ line ++ ['\n']) := by
  refine .inr ⟨?_, _, rfl⟩
  rw [h.words_append]
  intro hnil
  have hwords := (List.append_eq_nil_iff.mp hnil).2
  rw [words_eq_nil_iff, hline] at hwords
  cases hwords

theorem Ended.map_words_closedText {current : List Char} (h : Ended current) :
    (closedText current).map words = closed (words current) := by
  rcases h with rfl | ⟨hwords, front, rfl⟩
  · rfl
  · simp [closedText, closed, hwords]

/-- Both ways go through the lines together: the words of the text that is joined are the words that
are collected. -/
theorem map_words_gatherTexts {current : List Char} (h : Ended current)
    (found : List (List Char)) :
    (gatherTexts current found).map words = gather (words current) (found.map words) := by
  induction found generalizing current with
  | nil => exact h.map_words_closedText
  | cons line found ih =>
    rw [gatherTexts, List.map_cons, gather]
    cases hline : isBlankLine line with
    | true =>
      have hwords : (words line).isEmpty = true :=
        List.isEmpty_iff.mpr (words_eq_nil_iff.mpr hline)
      rw [if_pos rfl, if_pos hwords, List.map_append, h.map_words_closedText, ih (.inl rfl),
        words_nil]
    | false =>
      have hwords : ¬ (words line).isEmpty = true := by
        rw [List.isEmpty_iff, words_eq_nil_iff, hline]
        decide
      rw [if_neg Bool.false_ne_true, if_neg hwords, ih (h.append hline), h.words_append]

theorem paragraphs_eq_map_paragraphTexts (cs : List Char) :
    paragraphs cs = (paragraphTexts cs).map words :=
  (map_words_gatherTexts (.inl rfl) (lines cs)).symm

/-! ## Comments of a description -/

/-- What a description is to the text that it comes from. -/
structure Describes (text description : String) : Prop where
  again : describe? description = some description
  wording : words description.toList = words text.toList
  joined : description.toList = ['\n', '\n'].intercalate
    ((lineRuns text.toList).map fun run => [' '].intercalate (run.flatMap words))
  wrapped : commentLines description = commentLines text

theorem describes_of_describe? {text description : String} (h : describe? text = some description) :
    Describes text description := by
  have hsame := paragraphs_of_describe? h
  refine ⟨Schema.describe?_idem h, ?_, ?_, ?_⟩
  · rw [← flatten_paragraphs, hsame, flatten_paragraphs]
  · rw [toList_of_describe? h, paragraphs_eq_map_lineRuns, List.map_map]
    rfl
  · rw [commentLines, commentLines, hsame]

/-- **Wrapping does not see whether a text was described.** A text gives no description exactly if
all its characters are blank. A description gives itself, has the words of the text in their order,
and is the maximal runs of lines of the text that are not blank, with a space between any two words
of a run and an empty line between any two runs; and it is wrapped into the same lines. These lines
are also what the texts of the paragraphs give, each joined from its lines and cut into words
afterwards. -/
theorem description_keeps_comment (text : String) :
    (describe? text = none ↔ ∀ c ∈ text.toList, isBlank c = true) ∧
    (∀ description, describe? text = some description → Describes text description) ∧
    commentLines text = (paragraphTexts text.toList).flatMap fun paragraph =>
      fillLines "" ((words paragraph).map String.ofList) := by
  refine ⟨describe?_eq_none_iff, fun description => describes_of_describe?, ?_⟩
  rw [commentLines, paragraphs_eq_map_paragraphTexts, List.flatMap_map]

/-- A text with blanks that end a line and blanks that do not. -/
def windedText : String := "\u0085 one\rtwo\r\n\u2028three \n\u00a0\r\n\n four"

theorem windedText_keeps_comment :
    describe? windedText = some "one two three\n\nfour" ∧
      Describes windedText "one two three\n\nfour" := by
  have hdescribed : describe? windedText = some "one two three\n\nfour" := by
    decide +kernel
  exact ⟨hdescribed, (description_keeps_comment windedText).2.1 _ hdescribed⟩

end MavlinkCompiler
