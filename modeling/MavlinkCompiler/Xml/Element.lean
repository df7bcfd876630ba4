import MavlinkCompiler.Xml.Markup
import MavlinkCompiler.Xml.Reference

/-!
# Element trees

What a document says once its markup is resolved: elements with decoded attributes, and text.

Resolving can fail in four ways. For each element the attributes are looked at first, in order; then
the name of its closing tag; then its content, in order. The first failure on that way is reported.

For a text that is not well-formed markup the place where it stops being so is left out.

* `Element.parse`: the root element of a document.
* `Element.attribute?`, `Element.elements`, `Element.child?`, `Element.text`: views of an element.
-/

namespace MavlinkCompiler.Xml

/-- An element or a text node. -/
inductive Node where
  | element (name : String) (attributes : List (String × String)) (children : List Node)
  | text (value : String)

/-- An element on its own. -/
structure Element where
  name : String
  attributes : List (String × String)
  children : List Node

/-- Why a document could not be read. -/
inductive Error where
  /-- The text is not well-formed markup. -/
  | grammar
  /-- An attribute is given twice on a tag. -/
  | duplicateAttribute (key tag : String)
  /-- A reference in a value or a text run cannot be replaced. -/
  | reference (error : ReferenceError)
  /-- A tag is closed by another name. -/
  | mismatchedClosing (closing opening : String)
  deriving DecidableEq, Repr

/-- The text shown for an error. -/
def Error.message : Error → String
  | grammar => "Parse error"
  | duplicateAttribute key tag => "duplicate attribute '" ++ key ++ "' on <" ++ tag ++ ">"
  | reference (.unterminated text) => "unterminated entity in '" ++ text ++ "'"
  | reference (.unknown body) => "unknown entity '&" ++ body ++ ";'"
  | mismatchedClosing closing opening =>
    "mismatched closing tag </" ++ closing ++ "> for <" ++ opening ++ ">"

/-! ## Resolving markup -/

/-- Decodes a value or a text run. -/
def resolveText (raw : String) : Except Error String :=
  (decode raw).mapError .reference

/-- Decodes the attributes of the tag `name`, after those already decoded, as `build_tag` does. A
repeated name is reported before its value is looked at. -/
def resolveAttributes (name : String) (decoded : List (String × String)) :
    List (String × String) → Except Error (List (String × String))
  | [] => .ok decoded
  | (key, raw) :: rest =>
    if decoded.any (·.1 == key) then
      .error (.duplicateAttribute key name)
    else do
      let value ← resolveText raw
      resolveAttributes name (decoded ++ [(key, value)]) rest

/-- Decodes the attributes of a tag and compares its name with the one that closes it. -/
def resolveTag (tag : Tag) (closing : String) : Except Error (List (String × String)) := do
  let attributes ← resolveAttributes tag.name [] tag.attributes
  if closing != tag.name then
    throw (.mismatchedClosing closing tag.name)
  pure attributes

mutual

/-- The node that a piece of markup stands for: `build_element` for an element, and one round of
`build_content` otherwise. -/
def resolve : Markup → Except Error Node
  | .cdata body => .ok (.text body)
  | .text run => do
    let value ← resolveText run
    pure (.text value)
  | .element tag content closing => do
    let attributes ← resolveTag tag closing
    let children ← resolveAll content
    pure (.element tag.name attributes children)

/-- The nodes of some content: `build_content`. -/
def resolveAll : List Markup → Except Error (List Node)
  | [] => .ok []
  | piece :: rest => do
    let node ← resolve piece
    let nodes ← resolveAll rest
    pure (node :: nodes)

end

/-! ## Documents -/

/-- A node as an element. -/
def Node.element? : Node → Option Element
  | .element name attributes children => some ⟨name, attributes, children⟩
  | .text _ => none

/-- A node as a text. -/
def Node.text? : Node → Option String
  | .element _ _ _ => none
  | .text value => some value

/-- The root of a document in markup, if the text is well formed. -/
def root? (text : String) : Option RootMarkup := do
  let tokens ← Token.readAll? text.toList
  RootMarkup.ofTokens? tokens

namespace Element

/-- The element that a root stands for: `build_element`. -/
def ofRoot (root : RootMarkup) : Except Error Element := do
  let attributes ← resolveTag root.tag root.closing
  let children ← resolveAll root.content
  pure ⟨root.tag.name, attributes, children⟩

/-- The root element of a document: `parse_xml`. -/
def parse (text : String) : Except Error Element :=
  match root? text with
  | some root => ofRoot root
  | none => .error .grammar

/-! ## Views -/

/-- The value of an attribute: `attr`. -/
def attribute? (element : Element) (name : String) : Option String :=
  element.attributes.lookup name

/-- The child elements, in order: `elements`. -/
def elements (element : Element) : List Element :=
  element.children.filterMap Node.element?

/-- The first child element with a name: `child`. -/
def child? (element : Element) (name : String) : Option Element :=
  element.elements.find? fun child => child.name == name

/-- The text directly inside an element, its pieces joined: `text`. -/
def text (element : Element) : String :=
  String.join (element.children.filterMap Node.text?)

end Element

end MavlinkCompiler.Xml
