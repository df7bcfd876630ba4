import MavlinkCompiler.Proofs.Target.Wrapping

/-!
# Comments behind a mark

In languages whose comments end with the line, every line of a comment starts with a mark. A text
cannot get out from behind it: words are on the lines with single spaces in between, so no line of a
comment is broken in two, and the mark has a space behind it whatever the text starts with.

* `filledLine_of_mem_commentLines`: a line of a comment is spaces and words.
* `splitWhere_unlines`: lines that are written one after the other are found again.
* `Lua.isShortComment`: a comment that ends with its line.
* `markedComment_stays_behind_mark`: what is written for a text is lines of comment with its words.
-/

namespace MavlinkCompiler

open Text

/-! ## Lines -/

theorem filledLine_of_mem_commentLines {text line : String} (h : line ∈ commentLines text) :
    FilledLine line := by
  obtain ⟨paragraph, hparagraph, hline⟩ := List.mem_flatMap.mp h
  exact (fills_of_worded (worded_of_mem_paragraphs hparagraph)).lines line hline

/-- The only blanks on a line of a comment are spaces. -/
theorem not_mem_commentLine {text line : String} (h : line ∈ commentLines text) {c : Char}
    (hblank : isBlank c = true) (hspace : c ≠ ' ') : c ∉ line.toList := by
  rw [(filledLine_of_mem_commentLines h).spaced, List.mem_flatMap]
  rintro ⟨word, hword, hmem⟩
  rcases List.mem_cons.mp hmem with rfl | hmem
  · exact hspace rfl
  · exact (isWord_of_mem_words hword).not_mem_of_isBlank hblank hmem

theorem not_mem_padding (indent : Nat) : '\n' ∉ (padding indent).toList := by
  rw [padding, String.toList_ofList]
  intro hmem
  exact absurd (List.eq_of_mem_replicate hmem) (by decide)

/-- Lines that are ended by line feeds are found between the line feeds, and nothing is behind the
last one. -/
theorem splitWhere_unlines {lines : List String} (h : ∀ line ∈ lines, '\n' ∉ line.toList) :
    splitWhere (· == '\n') (unlines lines).toList = lines.map String.toList ++ [[]] := by
  induction lines with
  | nil => rfl
  | cons line lines ih =>
    rw [List.forall_mem_cons] at h
    rw [toList_unlines_cons, splitWhere_append_cons (free_of_not_mem h.1) (by decide), ih h.2]
    rfl

/-! ## Comments -/

/-- Whether a long bracket opens at the start of a text: two opening brackets, with equals signs or
nothing in between. -/
def Lua.opensLongBracket : List Char → Bool
  | '[' :: rest => (rest.dropWhile (· == '=')).head? == some '['
  | _ => false

/-- Whether a line is a comment behind its indentation and the comment ends with the line. Behind
two hyphens a long bracket would open a comment of several lines. -/
def Lua.isShortComment (line : List Char) : Bool :=
  match line.dropWhile (· == ' ') with
  | '-' :: '-' :: rest => !opensLongBracket rest
  | _ => false

theorem Lua.isShortComment_marked (indent : Nat) (body : List Char) :
    isShortComment ((padding indent).toList ++ "--".toList ++ ' ' :: body) = true := by
  have hdrop : ((padding indent).toList ++ "--".toList ++ ' ' :: body).dropWhile (· == ' ') =
      '-' :: '-' :: ' ' :: body := by
    rw [padding, String.toList_ofList, List.append_assoc]
    refine dropWhile_append (fun c hc => ?_) ?_
    · exact beq_iff_eq.mpr (List.eq_of_mem_replicate hc)
    · rintro c hc
      obtain rfl : '-' = c := Option.some.inj hc
      rfl
  rw [isShortComment, hdrop]
  rfl

/-- What a text is behind marks: `bodies` are the lines of what is written, without the padding, the
mark and the space that each of them starts with. -/
structure Commented (mark : String) (indent : Nat) (text : String) (bodies : List (List Char)) :
    Prop where
  lines : splitWhere (· == '\n') (unlines (markedComment mark indent text)).toList =
    bodies.map (fun body => (padding indent).toList ++ mark.toList ++ ' ' :: body) ++ [[]]
  unbroken : ∀ body ∈ bodies, '\n' ∉ body ∧ '\r' ∉ body
  spaced : ∀ body ∈ bodies, ∀ c ∈ body, isBlank c = true → c = ' '
  unmarked : bodies.map (fun body => String.ofList (' ' :: body)) = commentLines text
  kept : bodies.flatten.filter (!isBlank ·) = text.toList.filter (!isBlank ·)

/-- A line of a comment behind its space. -/
theorem cons_tail_of_mem_commentLines {text line : String} (h : line ∈ commentLines text) :
    ' ' :: line.toList.tail = line.toList := by
  obtain ⟨rest, rfl⟩ := spaced_of_mem_commentLines h
  rw [String.toList_append]
  rfl

/-- No line of a comment is broken by what is on it. -/
theorem not_mem_of_mem_markedComment {mark : String} (hmark : '\n' ∉ mark.toList) {indent : Nat}
    {text line : String} (h : line ∈ markedComment mark indent text) : '\n' ∉ line.toList := by
  obtain ⟨line, hline, rfl⟩ := List.mem_map.mp h
  rw [String.toList_append, String.toList_append]
  simp only [List.mem_append, not_or]
  exact ⟨⟨not_mem_padding indent, hmark⟩, not_mem_commentLine hline (by decide) (by decide)⟩

/-- The characters behind the marks are those of the text, apart from blanks. -/
theorem filter_tails_commentLines (text : String) :
    ((commentLines text).map (·.toList.tail)).flatten.filter (!isBlank ·) =
      text.toList.filter (!isBlank ·) := by
  have hline : ∀ line ∈ commentLines text,
      line.toList.tail.filter (!isBlank ·) = (words line.toList).flatten := by
    intro line hline
    have hspace : (!isBlank ' ') = false := by decide
    rw [flatten_words, ← cons_tail_of_mem_commentLines hline, List.filter_cons, hspace]
    rfl
  calc ((commentLines text).map (·.toList.tail)).flatten.filter (!isBlank ·)
    _ = (commentLines text).flatMap fun line => line.toList.tail.filter (!isBlank ·) := by
      rw [← List.flatMap_def, List.filter_flatMap]
    _ = (commentLines text).flatMap fun line => (words line.toList).flatten :=
      List.flatMap_congr hline
    _ = ((commentLines text).flatMap fun line => words line.toList).flatten := by
      simp only [List.flatten_eq_flatMap, List.flatMap_assoc]
    _ = text.toList.filter (!isBlank ·) := by
      rw [flatMap_words_commentLines, flatten_words]

theorem commented_markedComment {mark : String} (hmark : '\n' ∉ mark.toList) (indent : Nat)
    (text : String) :
    Commented mark indent text ((commentLines text).map (·.toList.tail)) := by
  have hline : ∀ line ∈ commentLines text, ' ' :: line.toList.tail = line.toList :=
    fun line => cons_tail_of_mem_commentLines
  have hspaced : ∀ body ∈ (commentLines text).map (·.toList.tail), ∀ c ∈ body,
      isBlank c = true → c = ' ' := by
    intro body hbody c hc hblank
    obtain ⟨line, hmem, rfl⟩ := List.mem_map.mp hbody
    by_contra hspace
    exact not_mem_commentLine hmem hblank hspace (List.mem_of_mem_tail hc)
  refine ⟨?_, fun body hbody => ⟨fun h => ?_, fun h => ?_⟩, hspaced, ?_,
    filter_tails_commentLines text⟩
  · rw [splitWhere_unlines fun line => not_mem_of_mem_markedComment hmark, markedComment,
      List.map_map, List.map_map]
    refine congrArg (· ++ _) (List.map_congr_left fun line hmem => ?_)
    simp [hline line hmem]
  · exact absurd (hspaced body hbody '\n' h (by decide)) (by decide)
  · exact absurd (hspaced body hbody '\r' h (by decide)) (by decide)
  · rw [List.map_map]
    refine (List.map_congr_left fun line hmem => ?_).trans (List.map_id _)
    show String.ofList (' ' :: line.toList.tail) = line
    rw [hline line hmem, String.ofList_toList]

/-- **A comment behind a mark holds its text.** For every text at every indentation, and every mark
without a line feed: what is written is complete lines, nothing behind the last line feed. Each is
the padding, the mark, a space and characters none of which is a line feed or a carriage return, nor
any other blank but spaces. Without padding and mark the lines are those that the text is wrapped
into, and so all characters of the text but blanks are behind a mark, in their order. And if the
mark is that of Lua, every line is a comment that ends with the line. -/
theorem markedComment_stays_behind_mark (mark : String) (indent : Nat) (text : String)
    (hmark : '\n' ∉ mark.toList) :
    ∃ bodies, Commented mark indent text bodies ∧
      (mark = "--" → ∀ body ∈ bodies,
        Lua.isShortComment ((padding indent).toList ++ mark.toList ++ ' ' :: body) = true) := by
  refine ⟨_, commented_markedComment hmark indent text, ?_⟩
  rintro rfl body -
  exact Lua.isShortComment_marked indent body

/-- A text that starts with a long bracket and has all kinds of line ends in it. -/
def bracketedText : String := "[[\rone\u0085two\r\n\u2028three\n\n]] \x0bfour"

theorem bracketedText_stays_behind_mark :
    '\n' ∉ "--".toList ∧
    unlines (markedComment "--" 1 bracketedText) =
      "    -- [[ one two three\n    -- ]] four\n" ∧
    ∃ bodies, Commented "--" 1 bracketedText bodies ∧
      ∀ body ∈ bodies,
        Lua.isShortComment ((padding 1).toList ++ "--".toList ++ ' ' :: body) = true := by
  have hmark : '\n' ∉ "--".toList := by decide
  obtain ⟨bodies, hcommented, hshort⟩ :=
    markedComment_stays_behind_mark "--" 1 bracketedText hmark
  exact ⟨hmark, by decide +kernel, bodies, hcommented, hshort rfl⟩

end MavlinkCompiler
