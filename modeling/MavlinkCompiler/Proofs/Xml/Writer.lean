import MavlinkCompiler.Proofs.Xml.Element

/-!
# Writing element trees

One way to write an element tree: nothing between tags, values in double quotes, an empty tag for an
element without content, and named references for the five characters that have one.

* `escape`: a text in which no character can be taken for markup.
* `Element.written`: the written form of an element.
* `Element.Writable`: names are names, attributes are distinct, and no text run is empty or next to
  another one. These are the trees that a text can stand for.
* `Element.parse_written`: a tree that can be written is read again.
* `Element.leaf`, `Element.branch`: elements that hold one text, or elements only.
-/

namespace MavlinkCompiler.Xml

/-! ## Escaping -/

/-- A character inside a value or a text run. -/
def escapeChar : Char → List Char
  | '&' => ['&', 'a', 'm', 'p', ';']
  | '<' => ['&', 'l', 't', ';']
  | '>' => ['&', 'g', 't', ';']
  | '"' => ['&', 'q', 'u', 'o', 't', ';']
  | '\'' => ['&', 'a', 'p', 'o', 's', ';']
  | c => [c]

/-- A text inside a value or a text run. -/
def escape (cs : List Char) : List Char :=
  cs.flatMap escapeChar

/-- An escaped text stands for the text. -/
theorem decodes_escape (cs : List Char) : Decodes (escape cs) cs := by
  induction cs with
  | nil => exact .nil
  | cons c cs ih =>
    show Decodes (escapeChar c ++ escape cs) (c :: cs)
    unfold escapeChar
    split
    · exact .reference .amp ih
    · exact .reference .lt ih
    · exact .reference .gt ih
    · exact .reference .quot ih
    · exact .reference .apos ih
    · next hamp _ _ _ _ => exact .plain hamp ih

/-- Neither the start of markup nor the quote is left. -/
theorem not_mem_escape {mark : Char} (hmark : mark = '<' ∨ mark = '"') (cs : List Char) :
    mark ∉ escape cs := by
  intro hmem
  obtain ⟨c, -, hc⟩ := List.mem_flatMap.mp hmem
  unfold escapeChar at hc
  split at hc
  · rcases hmark with rfl | rfl <;> exact absurd hc (by decide)
  · rcases hmark with rfl | rfl <;> exact absurd hc (by decide)
  · rcases hmark with rfl | rfl <;> exact absurd hc (by decide)
  · rcases hmark with rfl | rfl <;> exact absurd hc (by decide)
  · rcases hmark with rfl | rfl <;> exact absurd hc (by decide)
  · next _ hlt _ hquot _ =>
    obtain rfl := List.mem_singleton.mp hc
    exact hmark.elim hlt hquot

theorem escape_ne_nil {cs : List Char} (h : cs ≠ []) : escape cs ≠ [] := by
  intro hnil
  have hdecodes := decodes_escape cs
  rw [hnil] at hdecodes
  cases hdecodes
  exact h rfl

/-! ## Written forms -/

/-- An attribute with the space in front of it. -/
def writtenAttribute (pair : String × String) : List Char :=
  ' ' :: pair.1.toList ++ '=' :: '"' :: escape pair.2.toList ++ ['"']

/-- A tag without what ends it. -/
def writtenTag (name : String) (attributes : List (String × String)) : List Char :=
  '<' :: name.toList ++ attributes.flatMap writtenAttribute

mutual

/-- A node as text. -/
def Node.written : Node → List Char
  | .text value => escape value.toList
  | .element name attributes children =>
    if children.isEmpty then
      writtenTag name attributes ++ ['/', '>']
    else
      writtenTag name attributes ++ ['>'] ++ writtenContent children ++
        ('<' :: '/' :: name.toList ++ ['>'])

/-- Nodes as text, one after the other. -/
def writtenContent : List Node → List Char
  | [] => []
  | node :: rest => node.written ++ writtenContent rest

end

/-- An element as text. -/
def Element.written (element : Element) : String :=
  String.ofList element.node.written

/-! ## What can be written -/

/-- A name and attributes that a tag can have. -/
structure TagWritable (name : String) (attributes : List (String × String)) : Prop where
  name : ValidName name
  keys : ∀ pair ∈ attributes, ValidName pair.1
  distinct : (attributes.map (·.1)).Nodup

mutual

/-- An element that can be written. -/
inductive Element.Writable : Element → Prop where
  | mk {element : Element} : TagWritable element.name element.attributes →
      ContentWritable element.children → Element.Writable element

/-- Content that can be written: a text run is not empty, and is not followed by another one. -/
inductive ContentWritable : List Node → Prop where
  | nil : ContentWritable []
  | element {element : Element} {rest : List Node} : element.Writable → ContentWritable rest →
      ContentWritable (element.node :: rest)
  | text {value : String} {rest : List Node} : value ≠ "" →
      (∀ node ∈ rest.head?, node.text? = none) → ContentWritable rest →
      ContentWritable (.text value :: rest)

end

/-- Whether characters are a name. -/
def isName : List Char → Bool
  | [] => false
  | first :: rest => isNameStart first && rest.all isNameChar

instance (name : String) : Decidable (ValidName name) :=
  decidable_of_iff (isName name.toList = true) (by
    unfold ValidName
    cases name.toList with
    | nil => simp [isName]
    | cons first rest => simp [isName])

/-! ## What is written is a document -/

/-- The tag that is written for an element. -/
def escapedTag (name : String) (attributes : List (String × String)) : Tag :=
  ⟨name, attributes.map fun pair =>
    (pair.1, String.ofList (escape pair.2.toList))⟩

theorem attributeWritten {key : String} (hkey : ValidName key) (value : String) :
    AttributeWritten (key, String.ofList (escape value.toList))
      (writtenAttribute (key, value)) := by
  have hspace : Spacing [' '] := by
    simp [Spacing, isSpace]
  have hnone : Spacing [] := fun _ hc => absurd hc List.not_mem_nil
  have hwritten : AttributeWritten (key, String.ofList (escape value.toList)) _ :=
    .mk (List.cons_ne_nil ' ' []) hspace hkey hnone hnone (.inl rfl)
      (by simpa using not_mem_escape (.inr rfl) value.toList)
      (by simpa using not_mem_escape (.inl rfl) value.toList)
  simpa [writtenAttribute] using hwritten

theorem attributesWritten {attributes : List (String × String)}
    (h : ∀ pair ∈ attributes, ValidName pair.1) :
    AttributesWritten
      (attributes.map fun pair => (pair.1, String.ofList (escape pair.2.toList)))
      (attributes.flatMap writtenAttribute) := by
  induction attributes with
  | nil => exact .nil
  | cons pair attributes ih =>
    obtain ⟨hfirst, hrest⟩ := List.forall_mem_cons.mp h
    exact .cons (attributeWritten hfirst pair.2) (ih hrest)

namespace TagWritable

variable {name : String} {attributes : List (String × String)}

theorem written (h : TagWritable name attributes) :
    (escapedTag name attributes).Written (name.toList ++ attributes.flatMap writtenAttribute) :=
  .mk h.name (attributesWritten h.keys)

theorem declares (h : TagWritable name attributes) :
    (escapedTag name attributes).Declares attributes := by
  refine ⟨?_, ?_⟩
  · unfold escapedTag
    rw [List.map_map]
    exact h.distinct
  · refine List.forall₂_map_left_iff.mpr (List.forall₂_same.mpr fun pair _ => ⟨rfl, ?_⟩)
    rw [String.toList_ofList]
    exact decodes_escape pair.2.toList

end TagWritable

/-- The text of an element starts with a mark. -/
theorem Element.atMark_written (element : Element) (rest : List Char) :
    AtMark (element.node.written ++ rest) := by
  show AtMark (Node.written (.element element.name element.attributes element.children) ++ rest)
  rw [Node.written, writtenTag]
  split
  · exact Text.head?_cons_holds rfl
  · exact Text.head?_cons_holds rfl

/-- After a text run there is nothing, or an element. -/
theorem atMark_writtenContent {rest : List Node} (h : ∀ node ∈ rest.head?, node.text? = none) :
    AtMark (writtenContent rest) := by
  cases rest with
  | nil => nofun
  | cons node rest =>
    rw [writtenContent]
    cases node with
    | text value => cases h (.text value) rfl
    | element name attributes children =>
      exact (Element.mk name attributes children).atMark_written _

mutual

theorem rendersElement_written {element : Element} :
    element.Writable → RendersElement element.node.written element
  | @Element.Writable.mk ⟨name, attributes, children⟩ htag hchildren => by
    show RendersElement (Node.written (.element name attributes children)) _
    rw [Node.written]
    split
    · next hempty =>
      obtain rfl := List.isEmpty_iff.mp hempty
      have hwritten : (Token.empty (escapedTag name attributes)).Written
          (writtenTag name attributes ++ [] ++ ['/', '>']) := .empty htag.written nofun
      rw [List.append_nil] at hwritten
      exact .empty hwritten htag.declares
    · have hopening : (Token.opening (escapedTag name attributes)).Written
          (writtenTag name attributes ++ [] ++ ['>']) := .opening htag.written nofun
      have hclosing : (Token.closing name).Written ('<' :: '/' :: name.toList ++ [] ++ ['>']) :=
        .closing htag.name nofun
      rw [List.append_nil] at hopening hclosing
      exact .paired hopening htag.declares (rendersContent_written hchildren) hclosing

theorem rendersContent_written {nodes : List Node} :
    ContentWritable nodes → RendersContent (writtenContent nodes) nodes
  | .nil => .nil
  | .element helement hrest => by
    rw [writtenContent]
    exact .element (rendersElement_written helement) (rendersContent_written hrest)
  | @ContentWritable.text value rest hvalue hnext hrest => by
    have hne : value.toList ≠ [] := fun hnil => hvalue (String.toList_eq_nil_iff.mp hnil)
    have hwritten : (Token.text (String.ofList (escape value.toList))).Written
        (String.ofList (escape value.toList)).toList :=
      .text (by simpa using escape_ne_nil hne)
        (by simpa using not_mem_escape (.inl rfl) value.toList)
    have hdecodes : Decodes (String.ofList (escape value.toList)).toList value.toList := by
      rw [String.toList_ofList]
      exact decodes_escape value.toList
    rw [writtenContent, Node.written]
    rw [String.toList_ofList] at hwritten
    exact .text hwritten (atMark_writtenContent hnext) hdecodes (rendersContent_written hrest)

end

/-- What is written is read again. -/
theorem Element.parse_written {element : Element} (h : element.Writable) :
    Element.parse element.written = .ok element := by
  refine Element.parse_of_renders ⟨[], element.node.written, [], ?_, .nil,
    rendersElement_written h, .nil⟩
  rw [Element.written, String.toList_ofList, List.nil_append, List.append_nil]

/-! ## Texts and branches -/

namespace Element

/-- An element that holds nothing but a text. -/
def leaf (name : String) (attributes : List (String × String)) (text : String) : Element :=
  ⟨name, attributes, if text = "" then [] else [.text text]⟩

/-- An element that holds nothing but elements. -/
def branch (name : String) (attributes : List (String × String)) (children : List Element) :
    Element :=
  ⟨name, attributes, children.map Element.node⟩

variable {name : String} {attributes : List (String × String)}

@[simp]
theorem text_leaf (value : String) : (leaf name attributes value).text = value := by
  unfold leaf Element.text
  dsimp only
  split
  · next hempty =>
    rw [hempty]
    rfl
  · show String.join [value] = value
    simp [String.join]

@[simp]
theorem elements_branch (children : List Element) :
    (branch name attributes children).elements = children := by
  unfold branch elements
  rw [List.filterMap_map]
  exact List.filterMap_some

theorem Writable.leaf (htag : TagWritable name attributes) (value : String) :
    (leaf name attributes value).Writable := by
  refine .mk htag ?_
  unfold Element.leaf
  dsimp only
  split
  · exact .nil
  · next hvalue => exact .text hvalue nofun .nil

theorem Writable.branch (htag : TagWritable name attributes) {children : List Element}
    (h : ∀ child ∈ children, child.Writable) : (branch name attributes children).Writable := by
  refine .mk htag ?_
  unfold Element.branch
  dsimp only
  induction children with
  | nil => exact .nil
  | cons child children ih =>
    obtain ⟨hchild, hrest⟩ := List.forall_mem_cons.mp h
    exact .element hchild (ih hrest)

end Element

end MavlinkCompiler.Xml
