import MavlinkCompiler.Text.Paragraph

/-!
# Comments in generated code

Descriptions become comments, wrapped word by word. A line of a comment starts with a space; a word
goes on the line as long as the bytes of both are at most `commentWidth` together, so a long word
has a line of its own. Every paragraph starts a new line.

* `commentLines`: the lines of a text.
* `blockComment`, `markedComment`: the lines between block marks, and after a mark each.
* `entryText`: the text that describes an enumeration entry.
-/

namespace MavlinkCompiler

/-- The width that lines are filled to: `COMMENT_WIDTH`. -/
def commentWidth : Nat := 72

/-- Fills lines with words, starting with the text `line`: the inner loop of `wrap_comment`. -/
def fillLines (line : String) : List String → List String
  | [] => if line.isEmpty then [] else [line]
  | word :: words =>
    if !line.isEmpty && commentWidth < line.utf8ByteSize + word.utf8ByteSize then
      line :: fillLines (" " ++ word) words
    else
      fillLines (line ++ " " ++ word) words

/-- The lines of a comment, without marks: `wrap_comment`, with `Text.paragraphs` for
`split_paragraphs` and the words of each paragraph. -/
def commentLines (text : String) : List String :=
  (Text.paragraphs text.toList).flatMap fun paragraph => fillLines "" (paragraph.map String.ofList)

/-- The space in front of a line at a level of indentation. -/
def padding (indent : Nat) : String :=
  String.ofList (List.replicate (4 * indent) ' ')

/-- A block comment, `block_comment`; nothing if the text has no words. -/
def blockComment (indent : Nat) (text : String) : List String :=
  match commentLines text with
  | [] => []
  | first :: rest =>
    (padding indent ++ "/**" ++ first) ::
      rest.map (fun line => padding indent ++ " *" ++ line) ++ [padding indent ++ " */"]

/-- A comment whose every line starts with a mark: `line_comment`. -/
def markedComment (mark : String) (indent : Nat) (text : String) : List String :=
  (commentLines text).map fun line => padding indent ++ mark ++ line

/-- A description followed by a paragraph for each parameter: `entry_comment`. -/
def entryText (description : Option String) (params : List (UInt32 × String)) : String :=
  (match description with
    | some text => text ++ "\n\n"
    | none => "") ++
  String.join (params.map fun (index, text) =>
    "Param " ++ toString index.toNat ++ ": " ++ text ++ "\n\n")

end MavlinkCompiler
