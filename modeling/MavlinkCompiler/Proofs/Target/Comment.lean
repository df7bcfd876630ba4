import MavlinkCompiler.Proofs.Text.Words
import MavlinkCompiler.Target.Artifact
import MavlinkCompiler.Target.Comment

/-!
# Comments hold their texts

The lines of a comment hold the words of the text and start with a space each. So what is around the
lines does not meet them: a sequence without blanks occurs in a comment where it is in a word of the
text or in a mark, and never across the two.

* `flatMap_words_commentLines`: the words of all lines are the words of the text.
* `spaced_of_mem_commentLines`: a line starts with a space.
* `occurrences_blockComment`: the mark that ends block comments occurs as often as in the text, and
  once more.
* `blockComment_complete_iff`: what is written is one block comment exactly if the text does not
  hold that mark.
* `markedText_ends_comment_early`: nothing keeps a text from holding it.
-/

namespace MavlinkCompiler

open Text

/-! ## Lines of a comment -/

/-- A line starts with a space. -/
def Spaced (line : String) : Prop :=
  ∃ rest, line = " " ++ rest

theorem words_append_space (front rest : String) :
    words (front ++ " " ++ rest).toList = words front.toList ++ words rest.toList := by
  rw [String.toList_append, String.toList_append, List.append_assoc]
  exact words_append_cons (by decide) _ _

/-- Words are put on lines one after the other, and none is lost. -/
theorem flatMap_words_fillLines :
    ∀ (found : List String) (line : String), (∀ word ∈ found, IsWord word.toList) →
      (fillLines line found).flatMap (fun line => words line.toList) =
        words line.toList ++ found.map String.toList
  | [], line, _ => by
    unfold fillLines
    split
    next hempty => simp [String.isEmpty_iff.mp hempty]
    · simp
  | word :: found, line, h => by
    rw [List.forall_mem_cons] at h
    have hword := words_of_isWord h.1
    unfold fillLines
    split
    · have hnew : words (" " ++ word).toList = [word.toList] := by
        rw [← String.empty_append (s := " "), words_append_space, hword]
        rfl
      rw [List.flatMap_cons, flatMap_words_fillLines found _ h.2, hnew, List.map_cons,
        List.singleton_append]
    · rw [flatMap_words_fillLines found _ h.2, words_append_space, hword, List.map_cons,
        List.append_assoc, List.singleton_append]

theorem spaced_of_mem_fillLines :
    ∀ {found : List String} {line other : String}, (line = "" ∨ Spaced line) →
      other ∈ fillLines line found → Spaced other
  | [], line, other, hline, h => by
    unfold fillLines at h
    split at h
    · cases h
    next hempty =>
      obtain rfl := List.mem_singleton.mp h
      exact hline.resolve_left fun heq => hempty (String.isEmpty_iff.mpr heq)
  | word :: found, line, other, hline, h => by
    unfold fillLines at h
    split at h
    next hfull =>
      rcases List.mem_cons.mp h with rfl | hrest
      · refine hline.resolve_left fun heq => ?_
        simp [heq] at hfull
      · exact spaced_of_mem_fillLines (.inr ⟨word, rfl⟩) hrest
    · refine spaced_of_mem_fillLines (.inr ?_) h
      rcases hline with rfl | ⟨rest, rfl⟩
      · exact ⟨word, by rw [String.empty_append]⟩
      · exact ⟨rest ++ " " ++ word, by simp only [String.append_assoc]⟩

/-- The words of all lines are the words of the text. -/
theorem flatMap_words_commentLines (text : String) :
    (commentLines text).flatMap (fun line => words line.toList) = words text.toList := by
  have hparagraph : ∀ paragraph ∈ paragraphs text.toList,
      (fillLines "" (paragraph.map String.ofList)).flatMap (fun line => words line.toList) =
        paragraph := by
    intro paragraph hparagraph
    have hwords := (worded_of_mem_paragraphs hparagraph).2
    rw [flatMap_words_fillLines _ _ (by simpa using hwords)]
    simp
  unfold commentLines
  rw [List.flatMap_assoc, List.flatMap_congr hparagraph, ← flatten_paragraphs]
  exact List.flatMap_id'

theorem spaced_of_mem_commentLines {text line : String} (h : line ∈ commentLines text) :
    Spaced line := by
  obtain ⟨paragraph, -, hline⟩ := List.mem_flatMap.mp h
  exact spaced_of_mem_fillLines (.inl rfl) hline

/-- There are lines if there are words. -/
theorem commentLines_eq_nil_iff {text : String} :
    commentLines text = [] ↔ words text.toList = [] := by
  constructor
  · intro h
    rw [← flatMap_words_commentLines, h]
    rfl
  · intro h
    rw [commentLines, paragraphs_eq_nil_iff.mpr h, List.flatMap_nil]

/-! ## Sequences in written lines -/

theorem toList_unlines_cons (line : String) (lines : List String) :
    (unlines (line :: lines)).toList = line.toList ++ '\n' :: (unlines lines).toList := by
  simp [unlines]

section Occurrences

variable {mark : List Char} (hmark : IsWord mark)

include hmark

/-- A sequence without blanks lies within one of the lines. -/
theorem occurrences_unlines (lines : List String) :
    occurrences mark (unlines lines).toList =
      (lines.map fun line => occurrences mark line.toList).sum := by
  induction lines with
  | nil => rfl
  | cons line lines ih =>
    rw [toList_unlines_cons, occurrences_append_cons hmark (by decide), ih, List.map_cons,
      List.sum_cons]

/-- The space in front of a line does not count. -/
theorem occurrences_padding (indent : Nat) (rest : String) :
    occurrences mark (padding indent ++ rest).toList = occurrences mark rest.toList := by
  have hspaces : ∀ n, occurrences mark (List.replicate n ' ' ++ rest.toList) =
      occurrences mark rest.toList := by
    intro n
    induction n with
    | zero => rfl
    | succ n ih =>
      rw [List.replicate_succ, List.cons_append, ← List.nil_append (' ' :: _),
        occurrences_append_cons hmark (by decide), ih]
      exact Nat.zero_add _
  rw [String.toList_append, padding, String.toList_ofList]
  exact hspaces _

/-- What is in front of a line and the line do not meet. -/
theorem occurrences_append_spaced (front : String) {line : String} (hline : Spaced line) :
    occurrences mark (front ++ line).toList =
      occurrences mark front.toList + occurrences mark line.toList := by
  obtain ⟨rest, rfl⟩ := hline
  have hspace : isBlank ' ' = true := by decide
  have hcut := occurrences_append_cons hmark hspace
  rw [String.toList_append, String.toList_append]
  show occurrences mark (front.toList ++ ' ' :: rest.toList) =
    _ + occurrences mark ([] ++ ' ' :: rest.toList)
  rw [hcut, hcut]
  exact congrArg _ (Nat.zero_add _).symm

/-- Over all lines of a comment a sequence occurs as often as in the text. -/
theorem sum_occurrences_commentLines (text : String) :
    ((commentLines text).map fun line => occurrences mark line.toList).sum =
      occurrences mark text.toList := by
  rw [occurrences_eq_sum_words hmark text.toList, ← flatMap_words_commentLines]
  induction commentLines text with
  | nil => rfl
  | cons line lines ih =>
    rw [List.map_cons, List.sum_cons, ih, List.flatMap_cons, List.map_append, List.sum_append,
      ← occurrences_eq_sum_words hmark]

end Occurrences

/-! ## Block comments -/

/-- The mark that ends a block comment. -/
def endMark : List Char := ['*', '/']

theorem isWord_endMark : IsWord endMark := by
  have hkept : endMark.all (fun c => !isBlank c) = true := by decide
  exact ⟨List.cons_ne_nil _ _, by simpa using hkept⟩

/-- A complete block comment: it starts with its opening mark, and the mark that ends it occurs
once, in front of the last line feed. -/
structure IsBlockComment (indent : Nat) (written : String) : Prop where
  shape : ∃ body, written = padding indent ++ "/**" ++ body ++ "*/\n"
  once : occurrences endMark written.toList = 1

theorem unlines_blockComment_of_blank (indent : Nat) {text : String}
    (h : words text.toList = []) : unlines (blockComment indent text) = "" := by
  unfold blockComment
  rw [commentLines_eq_nil_iff.mpr h]
  rfl

theorem exists_body_of_words (indent : Nat) {text : String} (h : words text.toList ≠ []) :
    ∃ body, unlines (blockComment indent text) = padding indent ++ "/**" ++ body ++ "*/\n" := by
  unfold blockComment
  cases hlines : commentLines text with
  | nil => exact absurd (commentLines_eq_nil_iff.mp hlines) h
  | cons first rest =>
    refine ⟨first ++ "\n" ++ unlines (rest.map fun line => padding indent ++ " *" ++ line) ++
      padding indent ++ " ", ?_⟩
    rw [← String.toList_inj]
    simp [unlines]

/-- The mark that ends a block comment occurs as often as in the text, and once more: the lines
hold what the text holds, and no other mark is across or beside them. -/
theorem occurrences_blockComment (indent : Nat) {text : String} (h : words text.toList ≠ []) :
    occurrences endMark (unlines (blockComment indent text)).toList =
      occurrences endMark text.toList + 1 := by
  have hmark := isWord_endMark
  unfold blockComment
  rw [← sum_occurrences_commentLines hmark text]
  cases hlines : commentLines text with
  | nil => exact absurd (commentLines_eq_nil_iff.mp hlines) h
  | cons first rest =>
    have hspaced : ∀ line ∈ first :: rest, Spaced line :=
      fun line hline => spaced_of_mem_commentLines (hlines ▸ hline)
    rw [List.forall_mem_cons] at hspaced
    have hfirst : occurrences endMark (padding indent ++ "/**" ++ first).toList =
        occurrences endMark first.toList := by
      rw [occurrences_append_spaced hmark _ hspaced.1, occurrences_padding hmark]
      exact Nat.zero_add _
    have hrest : ∀ line ∈ rest, occurrences endMark (padding indent ++ " *" ++ line).toList =
        occurrences endMark line.toList := by
      intro line hline
      rw [occurrences_append_spaced hmark _ (hspaced.2 line hline), occurrences_padding hmark]
      exact Nat.zero_add _
    have hlast : occurrences endMark (padding indent ++ " */").toList = 1 := by
      rw [occurrences_padding hmark]
      decide
    simp only
    rw [occurrences_unlines hmark, List.cons_append, List.map_cons, List.map_append, List.map_map,
      List.sum_cons, List.sum_append, List.map_singleton, List.sum_singleton, hfirst, hlast,
      List.map_cons, List.sum_cons, Nat.add_assoc]
    exact congrArg (fun total => _ + (List.sum total + 1)) (List.map_congr_left hrest)

/-- **When a block comment holds its text.** For every text at every indentation: if the text has no
words, nothing is written. If it has, what is written starts with the padding and the opening mark
and ends with the closing mark and a line feed; the closing mark occurs in it as often as in the
text, and once more; and so what is written is one complete block comment exactly if the closing
mark does not occur in the text. -/
theorem blockComment_complete_iff (indent : Nat) (text : String) :
    (words text.toList = [] ∧ unlines (blockComment indent text) = "") ∨
    (words text.toList ≠ [] ∧
      (∃ body, unlines (blockComment indent text) = padding indent ++ "/**" ++ body ++ "*/\n") ∧
      occurrences endMark (unlines (blockComment indent text)).toList =
        occurrences endMark text.toList + 1 ∧
      (IsBlockComment indent (unlines (blockComment indent text)) ↔
        ¬ endMark <:+: text.toList)) := by
  by_cases hwords : words text.toList = []
  · exact .inl ⟨hwords, unlines_blockComment_of_blank indent hwords⟩
  · have hshape := exists_body_of_words indent hwords
    have hcount := occurrences_blockComment indent hwords
    refine .inr ⟨hwords, hshape, hcount, ?_⟩
    rw [← occurrences_eq_zero_iff isWord_endMark.1]
    constructor
    · intro h
      have honce := h.once
      rw [hcount] at honce
      omega
    · intro hnone
      exact ⟨hshape, by rw [hcount, hnone]⟩

/-- A text with the closing mark between its words: the comment ends there, and the rest of the text
stands behind it. -/
theorem markedText_ends_comment_early :
    unlines (blockComment 0 "a */ b") = "/** a */ b\n */\n" ∧
      ¬ IsBlockComment 0 (unlines (blockComment 0 "a */ b")) := by
  have hwritten : unlines (blockComment 0 "a */ b") = "/** a */ b\n */\n" := by
    decide +kernel
  refine ⟨hwritten, fun h => ?_⟩
  have honce := h.once
  rw [hwritten] at honce
  revert honce
  decide

end MavlinkCompiler
