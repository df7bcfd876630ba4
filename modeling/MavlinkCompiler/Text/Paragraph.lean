import MavlinkCompiler.Text.Blank

/-!
# Lines and paragraphs

A line ends at a line feed, together with the carriage return in front of it if there is one; a
carriage return on its own ends nothing. Text after the last line feed is a line too unless it is
empty. Lines that hold words form paragraphs, and lines without words separate them.

* `lines`: the lines of a text, without their ends.
* `paragraphs`: the words of each maximal run of lines that hold words.
-/

namespace MavlinkCompiler.Text

/-! ## Lines -/

/-- Drops one carriage return at the end. -/
def dropReturn (line : List Char) : List Char :=
  if line.getLast? = some '\r' then line.dropLast else line

/-- The lines among the pieces between line feeds: all but the last are ended by one. -/
def endedLines : List (List Char) → List (List Char)
  | [] => []
  | [last] => if last.isEmpty then [] else [last]
  | piece :: next :: pieces => dropReturn piece :: endedLines (next :: pieces)

/-- The lines of a text, without their ends. -/
def lines (cs : List Char) : List (List Char) :=
  endedLines (splitWhere (· == '\n') cs)

/-! ## Paragraphs -/

/-- A paragraph as a list with its one element, or nothing if it has no words. -/
def closed (paragraph : List (List Char)) : List (List (List Char)) :=
  if paragraph.isEmpty then [] else [paragraph]

/-- Joins the word lists of neighbouring lines; a line without words ends the paragraph
`current`. -/
def gather (current : List (List Char)) : List (List (List Char)) → List (List (List Char))
  | [] => closed current
  | line :: rest =>
    if line.isEmpty then
      closed current ++ gather [] rest
    else
      gather (current ++ line) rest

/-- The words of a text, paragraph by paragraph. -/
def paragraphs (cs : List Char) : List (List (List Char)) :=
  gather [] ((lines cs).map words)

end MavlinkCompiler.Text
