import MavlinkCompiler.Text.Paragraph

/-!
# Descriptions

A description is kept in one normal form: the words of a paragraph are separated by single spaces,
and paragraphs by one empty line. A text without words is no description.

* `describe?`: the normal form of a text.
-/

namespace MavlinkCompiler.Schema

open Text

/-- The words of a paragraph on one line. -/
def paragraphLine (paragraph : List (List Char)) : List Char :=
  [' '].intercalate paragraph

/-- The description that a text gives: `normalize_description`. -/
def describe? (text : String) : Option String :=
  match paragraphs text.toList with
  | [] => none
  | found => some (String.ofList (['\n', '\n'].intercalate (found.map paragraphLine)))

end MavlinkCompiler.Schema
