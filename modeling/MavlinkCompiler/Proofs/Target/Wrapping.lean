import MavlinkCompiler.Proofs.Model.Enumeration
import MavlinkCompiler.Proofs.Target.Comment
import MavlinkCompiler.Proofs.Text.Run

/-!
# How comments are wrapped

The lines of a comment are filled with the words of the text, paragraph by paragraph: a line takes
words as long as there is room, and a word that finds no room starts the next line.

* `FilledLine`, `FullBefore`, `Fills`: a line by itself, two lines that follow each other, and the
  lines of one paragraph.
* `fills_fillLines`: one line is filled after the other.
* `commentLines_append_break`: texts with an empty line between them are wrapped one by one.
* `comment_wrapped`: what the lines of every comment are, and those of the comments of entries.
-/

namespace MavlinkCompiler

open Text
open Schema (EntryDefinition)

/-- The words on a line. -/
def lineWords (line : String) : List (List Char) :=
  words line.toList

/-- A line of a comment: a space before each of its words, and at most 73 bytes, which is a space
more than the width, unless there is only one word. -/
structure FilledLine (line : String) : Prop where
  worded : lineWords line ≠ []
  spaced : line.toList = (lineWords line).flatMap (' ' :: ·)
  fits : line.utf8ByteSize ≤ 73 ∨ (lineWords line).length = 1

/-- The first word of the next line has no room on a line: the bytes of both are more than 72, the
space between them not counted. -/
def FullBefore (line next : String) : Prop :=
  ∀ word ∈ (lineWords next).head?,
    72 < line.utf8ByteSize + (String.ofList word).utf8ByteSize

/-- Lines are filled with some words in their order, none before the last with room left. -/
structure Fills (found : List (List Char)) (block : List String) : Prop where
  words : block.flatMap lineWords = found
  lines : ∀ line ∈ block, FilledLine line
  full : block.IsChain FullBefore

/-! ## Filling a line -/

theorem lineWords_append {word : String} (h : IsWord word.toList) (line : String) :
    lineWords (line ++ " " ++ word) = lineWords line ++ [word.toList] := by
  rw [lineWords, words_append_space, words_of_isWord h]
  rfl

theorem lineWords_space_append {word : String} (h : IsWord word.toList) :
    lineWords (" " ++ word) = [word.toList] := by
  rw [← String.empty_append (s := " "), lineWords_append h]
  rfl

/-- A word that starts a line. -/
theorem filledLine_space_append {word : String} (h : IsWord word.toList) :
    FilledLine (" " ++ word) := by
  have hwords := lineWords_space_append h
  refine ⟨by simp [hwords], ?_, .inr (by rw [hwords]; rfl)⟩
  rw [hwords, List.flatMap_singleton, String.toList_append]
  rfl

/-- A word that has room on a line. -/
theorem FilledLine.append {line word : String} (h : FilledLine line) (hword : IsWord word.toList)
    (hroom : line.utf8ByteSize + word.utf8ByteSize ≤ 72) :
    FilledLine (line ++ " " ++ word) := by
  have hwords := lineWords_append hword line
  refine ⟨by simp [hwords], ?_, .inl ?_⟩
  · rw [hwords, List.flatMap_append, List.flatMap_singleton, ← h.spaced, String.toList_append,
      String.toList_append, List.append_assoc]
    rfl
  · have hspace : " ".utf8ByteSize = 1 := rfl
    rw [String.utf8ByteSize_append, String.utf8ByteSize_append, hspace]
    omega

theorem FilledLine.isEmpty_eq_false {line : String} (h : FilledLine line) :
    line.isEmpty = false := by
  rw [Bool.eq_false_iff]
  intro hempty
  refine h.worded ?_
  rw [String.isEmpty_iff.mp hempty]
  rfl

/-- A line that is there is filled further, and so are the lines after it. The first of them still
starts with the first word of the line, which is what the line before it had no room for. -/
theorem fills_fillLines :
    ∀ (found : List String) {line : String}, FilledLine line →
      (∀ word ∈ found, IsWord word.toList) →
      Fills (lineWords line ++ found.map String.toList) (fillLines line found) ∧
        ∀ first ∈ (fillLines line found).head?, (lineWords first).head? = (lineWords line).head?
  | [], line, hline, _ => by
    have hlines : fillLines line [] = [line] := by
      rw [fillLines, if_neg (by simp [hline.isEmpty_eq_false])]
    rw [hlines]
    exact ⟨⟨by simp, by simpa using hline, List.isChain_singleton line⟩, by simp⟩
  | word :: found, line, hline, hfound => by
    rw [List.forall_mem_cons] at hfound
    obtain ⟨hword, hfound⟩ := hfound
    unfold fillLines
    split
    next hfull =>
      have hroom : 72 < line.utf8ByteSize + word.utf8ByteSize := by
        rw [commentWidth] at hfull
        simpa [hline.isEmpty_eq_false] using hfull
      obtain ⟨hfills, hfirst⟩ := fills_fillLines found (filledLine_space_append hword) hfound
      rw [lineWords_space_append hword] at hfills hfirst
      refine ⟨⟨?_, List.forall_mem_cons.mpr ⟨hline, hfills.lines⟩, ?_⟩, ?_⟩
      · rw [List.flatMap_cons, hfills.words]
        rfl
      · -- the next line starts with the word
        refine hfills.full.cons fun next hnext first hfirst' => ?_
        rw [hfirst next hnext] at hfirst'
        obtain rfl : word.toList = first := Option.some.inj hfirst'
        rwa [String.ofList_toList]
      · rintro first hfirst'
        rw [← Option.some.inj hfirst']
    next hfull =>
      have hroom : line.utf8ByteSize + word.utf8ByteSize ≤ 72 := by
        rw [commentWidth] at hfull
        simpa [hline.isEmpty_eq_false] using hfull
      obtain ⟨hfills, hfirst⟩ := fills_fillLines found (hline.append hword hroom) hfound
      rw [lineWords_append hword] at hfills hfirst
      rw [List.head?_append_of_ne_nil _ hline.worded] at hfirst
      rw [List.append_assoc] at hfills
      exact ⟨hfills, hfirst⟩

/-- The words of a paragraph are put on lines of their own. -/
theorem fills_of_worded {paragraph : List (List Char)} (h : Worded paragraph) :
    Fills paragraph (fillLines "" (paragraph.map String.ofList)) := by
  obtain ⟨hne, hwords⟩ := h
  cases paragraph with
  | nil => exact absurd rfl hne
  | cons word rest =>
    rw [List.forall_mem_cons] at hwords
    have hword : IsWord (String.ofList word).toList := by simpa using hwords.1
    have hrest : ∀ other ∈ rest.map String.ofList, IsWord other.toList := by
      simpa using hwords.2
    have hfills := (fills_fillLines _ (filledLine_space_append hword) hrest).1
    rw [lineWords_space_append hword] at hfills
    -- nothing is on the first line yet, so the first word starts it
    rw [List.map_cons, fillLines, if_neg (by simp), String.empty_append]
    simpa using hfills

/-! ## Texts -/

/-- The lines of the paragraphs of a text. -/
theorem forall₂_fills (text : String) :
    List.Forall₂ (fun run block => Fills (run.flatMap words) block) (lineRuns text.toList)
      ((paragraphs text.toList).map fun paragraph =>
        fillLines "" (paragraph.map String.ofList)) := by
  refine List.forall₂_map_left_iff.mp ?_
  rw [← paragraphs_eq_map_lineRuns, List.forall₂_map_right_iff, List.forall₂_same]
  exact fun paragraph hparagraph => fills_of_worded (worded_of_mem_paragraphs hparagraph)

theorem commentLines_append_break (front rest : String) :
    commentLines (front ++ "\n\n" ++ rest) = commentLines front ++ commentLines rest := by
  have htext : (front ++ "\n\n" ++ rest).toList = front.toList ++ '\n' :: '\n' :: rest.toList := by
    simp
  rw [commentLines, htext, paragraphs_append_break, List.flatMap_append]
  rfl

/-! ## Entries -/

/-- The paragraph that describes a parameter. -/
def paramText (param : UInt32 × String) : String :=
  "Param " ++ toString param.1.toNat ++ ": " ++ param.2

theorem commentLines_join_params (params : List (UInt32 × String)) :
    commentLines (String.join (params.map fun (index, text) =>
      "Param " ++ toString index.toNat ++ ": " ++ text ++ "\n\n")) =
      params.flatMap fun param => commentLines (paramText param) := by
  induction params with
  | nil => rfl
  | cons param params ih =>
    rw [List.map_cons, String.join_cons, List.flatMap_cons, ← ih]
    exact commentLines_append_break (paramText param) _

/-- The comment of an entry is wrapped part by part. -/
theorem commentLines_entryText (description : Option String) (params : List (UInt32 × String)) :
    commentLines (entryText description params) =
      description.toList.flatMap commentLines ++
        params.flatMap fun param => commentLines (paramText param) := by
  unfold entryText
  cases description with
  | none =>
    dsimp only
    rw [String.empty_append, commentLines_join_params]
    rfl
  | some text =>
    dsimp only
    rw [commentLines_append_break, commentLines_join_params]
    simp

/-- **How comments are wrapped.** The words of all lines of a comment are the words of the text. Its
lines fall into blocks, one for each maximal run of lines of the text that are not blank, and a
block is filled with the words of its run: each line has a space before each of its words, at least
one; it is at most one byte longer than the width unless it has a single word; and the first word of
the next line of the block would have had no room on it. Texts with an empty line between them are
wrapped one by one. So the comment of an entry is its description followed by its parameters, and
the parameters of a declared entry are by ascending index. -/
theorem comment_wrapped :
    (∀ text, (commentLines text).flatMap lineWords = words text.toList) ∧
    (∀ text, ∃ blocks, commentLines text = blocks.flatten ∧
      List.Forall₂ (fun run block => Fills (run.flatMap words) block) (lineRuns text.toList)
        blocks) ∧
    (∀ front rest, commentLines (front ++ "\n\n" ++ rest) =
      commentLines front ++ commentLines rest) ∧
    (∀ description params, commentLines (entryText description params) =
      description.toList.flatMap commentLines ++
        params.flatMap fun param => commentLines (paramText param)) ∧
    ∀ (definition : EntryDefinition) entry, Entry.ofDefinition definition = .ok entry →
      entry.description = definition.description ∧ entry.params.Perm definition.params ∧
        entry.params.Pairwise fun first second => first.1 < second.1 := by
  refine ⟨flatMap_words_commentLines, fun text => ⟨_, ?_, forall₂_fills text⟩,
    commentLines_append_break, commentLines_entryText, fun definition entry hentry => ?_⟩
  · rw [← List.flatMap_def]
    rfl
  · have hdeclares := (Entry.ofDefinition_eq_ok hentry).2
    exact ⟨hdeclares.description, hdeclares.params, hdeclares.sorted⟩

/-- An entry that declares its parameters in another order than that of their indices. -/
def commandDefinition : EntryDefinition :=
  ⟨"COMMAND", none, some "Do it.", [(2, "second"), (1, "first")]⟩

theorem commandDefinition_wrapped :
    ∃ entry, Entry.ofDefinition commandDefinition = .ok entry ∧
      entry.params.Perm commandDefinition.params ∧
      (entry.params.Pairwise fun first second => first.1 < second.1) ∧
      commentLines (entryText entry.description entry.params) =
        [" Do it.", " Param 1: first", " Param 2: second"] := by
  have hentry : Entry.ofDefinition commandDefinition =
      .ok ⟨"COMMAND", none, some "Do it.", [(1, "first"), (2, "second")]⟩ := by
    decide +kernel
  obtain ⟨-, hperm, hsorted⟩ := comment_wrapped.2.2.2.2 _ _ hentry
  exact ⟨_, hentry, hperm, hsorted, by decide +kernel⟩

end MavlinkCompiler
