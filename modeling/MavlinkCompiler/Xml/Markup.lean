import MavlinkCompiler.Xml.Token

/-!
# Nested markup

Tokens put together into a tree: every opening tag holds what stands between it and the closing tag
that answers it. Nothing is decoded yet, and the closing tag's name is only recorded, so that a file
with a wrong name is still seen to be well nested.

A document is one element with comments, instructions, document types and space around it.

* `Markup`: the tree.
* `RootMarkup.ofTokens?`: the element of a document given as tokens, built with a stack of open
  tags.
-/

namespace MavlinkCompiler.Xml

/-- An element or a piece of text. An empty tag is an element without content, closed by its own
name. Comments and instructions leave no trace. -/
inductive Markup where
  | element (tag : Tag) (content : List Markup) (closing : String)
  | cdata (body : String)
  | text (run : String)

/-- An element with its closing name: the root of a document. -/
structure RootMarkup where
  tag : Tag
  content : List Markup
  closing : String

/-- A root as part of some content. -/
def RootMarkup.nested (root : RootMarkup) : Markup :=
  .element root.tag root.content root.closing

/-- An open tag with the content read so far, latest first. -/
structure OpenTag where
  tag : Tag
  content : List Markup

namespace OpenTag

/-- Adds a piece of content. -/
def push (frame : OpenTag) (piece : Markup) : OpenTag :=
  { frame with content := piece :: frame.content }

/-- The element that a closing tag completes. -/
def close (frame : OpenTag) (closing : String) : RootMarkup :=
  ⟨frame.tag, frame.content.reverse, closing⟩

end OpenTag

/-- Whether a token may stand outside the root element. -/
def Token.isSurrounding : Token → Bool
  | .comment _ | .instruction _ | .doctype _ => true
  | .text run => run.toList.all isSpace
  | _ => false

namespace RootMarkup

/-- The element of an empty tag. -/
def ofEmptyTag (tag : Tag) : RootMarkup :=
  ⟨tag, [], tag.name⟩

/-- A root element is the whole document if only surrounding tokens follow. -/
def before? (root : RootMarkup) (rest : List Token) : Option RootMarkup :=
  if rest.all Token.isSurrounding then some root else none

/-- Reads content inside `frame`, which lies inside the tags `outer`, innermost first: the rules
`content` and `element`. -/
def content? (frame : OpenTag) (outer : List OpenTag) : List Token → Option RootMarkup
  | [] => none
  | token :: rest =>
    match token with
    | .opening tag => content? ⟨tag, []⟩ (frame :: outer) rest
    | .empty tag => content? (frame.push (ofEmptyTag tag).nested) outer rest
    | .closing name =>
      match outer with
      | [] => (frame.close name).before? rest
      | parent :: outer => content? (parent.push (frame.close name).nested) outer rest
    | .comment _ => content? frame outer rest
    | .instruction _ => content? frame outer rest
    | .cdata body => content? (frame.push (.cdata body)) outer rest
    | .text run => content? (frame.push (.text run)) outer rest
    | .doctype _ => none

/-- The root element of a document: the rule `document`. -/
def ofTokens? : List Token → Option RootMarkup
  | [] => none
  | token :: rest =>
    match token with
    | .opening tag => content? ⟨tag, []⟩ [] rest
    | .empty tag => (ofEmptyTag tag).before? rest
    | token => if token.isSurrounding then ofTokens? rest else none

end RootMarkup

end MavlinkCompiler.Xml
