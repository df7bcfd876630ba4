import Mathlib
import MavlinkCompiler.Xml.Markup

/-!
# Which tokens nest

The tokens of an element and of what it holds, and that the stack of open tags finds exactly these.

* `Spans`, `Nested`: the tokens of an element, and of some content.
* `content?_append`: content inside a tag is taken up by the tag.
* `nested_of_content?`: what was taken up before a tag was closed is content.
* `ofTokens?_eq_some_iff`: a document is an element with surrounding tokens on both sides.
-/

namespace MavlinkCompiler.Xml

mutual

/-- The tokens of an element: an empty tag, or content between an opening and a closing tag. -/
inductive Spans : List Token → RootMarkup → Prop where
  | empty {tag : Tag} : Spans [.empty tag] (RootMarkup.ofEmptyTag tag)
  | paired {tag : Tag} {inner : List Token} {content : List Markup} {name : String} :
      Nested inner content → Spans (.opening tag :: inner ++ [.closing name]) ⟨tag, content, name⟩

/-- The tokens of some content, one piece after the other. -/
inductive Nested : List Token → List Markup → Prop where
  | nil : Nested [] []
  | element {body rest : List Token} {root : RootMarkup} {pieces : List Markup} :
      Spans body root → Nested rest pieces → Nested (body ++ rest) (root.nested :: pieces)
  | comment {body : String} {rest : List Token} {pieces : List Markup} :
      Nested rest pieces → Nested (.comment body :: rest) pieces
  | instruction {body : String} {rest : List Token} {pieces : List Markup} :
      Nested rest pieces → Nested (.instruction body :: rest) pieces
  | cdata {body : String} {rest : List Token} {pieces : List Markup} :
      Nested rest pieces → Nested (.cdata body :: rest) (.cdata body :: pieces)
  | text {run : String} {rest : List Token} {pieces : List Markup} :
      Nested rest pieces → Nested (.text run :: rest) (.text run :: pieces)

end

namespace OpenTag

/-- Adds pieces of content one after the other. -/
def pushAll (frame : OpenTag) (pieces : List Markup) : OpenTag :=
  { frame with content := pieces.reverse ++ frame.content }

@[simp]
theorem pushAll_nil (frame : OpenTag) : frame.pushAll [] = frame := rfl

@[simp]
theorem pushAll_cons (frame : OpenTag) (piece : Markup) (pieces : List Markup) :
    frame.pushAll (piece :: pieces) = (frame.push piece).pushAll pieces := by
  simp [pushAll, push]

theorem close_pushAll (tag : Tag) (pieces : List Markup) (closing : String) :
    ((⟨tag, []⟩ : OpenTag).pushAll pieces).close closing = ⟨tag, pieces, closing⟩ := by
  simp [pushAll, close]

end OpenTag

namespace RootMarkup

/-! ## Content is taken up -/

mutual

theorem content?_spans {body : List Token} {root : RootMarkup} (frame : OpenTag)
    (outer : List OpenTag) (rest : List Token) :
    Spans body root →
      content? frame outer (body ++ rest) = content? (frame.push root.nested) outer rest
  | .empty => rfl
  | @Spans.paired tag inner content name hinner => by
    rw [List.append_assoc]
    show content? ⟨tag, []⟩ (frame :: outer) (inner ++ (.closing name :: rest)) = _
    -- the content goes to the new tag, and the closing tag hands it on to the frame below
    rw [content?_append ⟨tag, []⟩ (frame :: outer) (.closing name :: rest) hinner]
    show content? (frame.push (((⟨tag, []⟩ : OpenTag).pushAll content).close name).nested)
      outer rest = _
    rw [OpenTag.close_pushAll]

/-- Content inside a tag is taken up by the tag, whatever follows. -/
theorem content?_append {tokens : List Token} {pieces : List Markup} (frame : OpenTag)
    (outer : List OpenTag) (rest : List Token) :
    Nested tokens pieces →
      content? frame outer (tokens ++ rest) = content? (frame.pushAll pieces) outer rest
  | .nil => rfl
  | .element hbody hrest => by
    rw [List.append_assoc, content?_spans frame outer _ hbody, content?_append _ outer rest hrest,
      OpenTag.pushAll_cons]
  | @Nested.comment _ tokens _ hrest => by
    show content? frame outer (tokens ++ rest) = _
    exact content?_append frame outer rest hrest
  | @Nested.instruction _ tokens _ hrest => by
    show content? frame outer (tokens ++ rest) = _
    exact content?_append frame outer rest hrest
  | .cdata hrest => by
    rw [OpenTag.pushAll_cons]
    exact content?_append _ outer rest hrest
  | .text hrest => by
    rw [OpenTag.pushAll_cons]
    exact content?_append _ outer rest hrest

end

/-! ## What was taken up is content -/

/-- The tag on top of the stack has to be closed, and up to there is its content. -/
theorem nested_of_content? {tokens : List Token} {frame : OpenTag} {outer : List OpenTag}
    {root : RootMarkup} (h : content? frame outer tokens = some root) :
    ∃ inner pieces name rest, tokens = inner ++ .closing name :: rest ∧ Nested inner pieces ∧
      content? (frame.pushAll pieces) outer (.closing name :: rest) = some root := by
  match tokens with
  | [] => cases h
  | .opening tag :: tokens =>
    -- the new tag is closed first; the run goes on with what it has become as one more piece
    have hnext : content? ⟨tag, []⟩ (frame :: outer) tokens = some root := h
    obtain ⟨inner, content, name, rest, rfl, hinner, hclose⟩ := nested_of_content? hnext
    have hrest : content? (frame.push (RootMarkup.nested ⟨tag, content, name⟩)) outer rest =
        some root := by
      rw [← OpenTag.close_pushAll]
      exact hclose
    obtain ⟨later, pieces, name', rest', rfl, hlater, hroot⟩ := nested_of_content? hrest
    refine ⟨.opening tag :: inner ++ [.closing name] ++ later, _, name', rest', ?_,
      .element (.paired hinner) hlater, ?_⟩
    · simp
    · rw [OpenTag.pushAll_cons]
      exact hroot
  | .empty tag :: tokens =>
    have hnext : content? (frame.push (ofEmptyTag tag).nested) outer tokens = some root := h
    obtain ⟨inner, pieces, name, rest, rfl, hinner, hroot⟩ := nested_of_content? hnext
    refine ⟨.empty tag :: inner, _, name, rest, rfl, .element .empty hinner, ?_⟩
    rw [OpenTag.pushAll_cons]
    exact hroot
  | .closing name :: tokens => exact ⟨[], [], name, tokens, rfl, .nil, h⟩
  | .comment body :: tokens =>
    have hnext : content? frame outer tokens = some root := h
    obtain ⟨inner, pieces, name, rest, rfl, hinner, hroot⟩ := nested_of_content? hnext
    exact ⟨.comment body :: inner, pieces, name, rest, rfl, .comment hinner, hroot⟩
  | .instruction body :: tokens =>
    have hnext : content? frame outer tokens = some root := h
    obtain ⟨inner, pieces, name, rest, rfl, hinner, hroot⟩ := nested_of_content? hnext
    exact ⟨.instruction body :: inner, pieces, name, rest, rfl, .instruction hinner, hroot⟩
  | .cdata body :: tokens =>
    have hnext : content? (frame.push (.cdata body)) outer tokens = some root := h
    obtain ⟨inner, pieces, name, rest, rfl, hinner, hroot⟩ := nested_of_content? hnext
    refine ⟨.cdata body :: inner, _, name, rest, rfl, .cdata hinner, ?_⟩
    rw [OpenTag.pushAll_cons]
    exact hroot
  | .text run :: tokens =>
    have hnext : content? (frame.push (.text run)) outer tokens = some root := h
    obtain ⟨inner, pieces, name, rest, rfl, hinner, hroot⟩ := nested_of_content? hnext
    refine ⟨.text run :: inner, _, name, rest, rfl, .text hinner, ?_⟩
    rw [OpenTag.pushAll_cons]
    exact hroot
  | .doctype body :: tokens => cases h
termination_by tokens.length

/-! ## Documents -/

theorem before?_eq_some_iff {root root' : RootMarkup} {rest : List Token} :
    root.before? rest = some root' ↔ root' = root ∧ rest.all Token.isSurrounding = true := by
  unfold before?
  split
  · next h => simp [h, eq_comm]
  · next h => simp [h]

/-- The tokens after an opening tag are read up to its closing tag. -/
theorem content?_opening_eq_some_iff {tag : Tag} {tokens : List Token} {root : RootMarkup} :
    content? ⟨tag, []⟩ [] tokens = some root ↔
      ∃ inner content name after, tokens = inner ++ .closing name :: after ∧
        Nested inner content ∧ root = ⟨tag, content, name⟩ ∧
        after.all Token.isSurrounding = true := by
  -- with no tag below, closing ends the document
  have hclose : ∀ (content : List Markup) (name : String) (after : List Token),
      content? ((⟨tag, []⟩ : OpenTag).pushAll content) [] (.closing name :: after) = some root ↔
        root = ⟨tag, content, name⟩ ∧ after.all Token.isSurrounding = true := by
    intro content name after
    rw [← before?_eq_some_iff, ← OpenTag.close_pushAll]
    rfl
  constructor
  · intro h
    obtain ⟨inner, content, name, after, rfl, hinner, hroot⟩ := nested_of_content? h
    exact ⟨inner, content, name, after, rfl, hinner, (hclose content name after).mp hroot⟩
  · rintro ⟨inner, content, name, after, rfl, hinner, hroot⟩
    rw [content?_append _ _ _ hinner]
    exact (hclose content name after).mpr hroot

theorem ofTokens?_surrounding {token : Token} (h : token.isSurrounding = true)
    (rest : List Token) : ofTokens? (token :: rest) = ofTokens? rest := by
  cases token with
  | opening tag | empty tag | closing name | cdata body => cases h
  | comment body | instruction body | doctype body => rfl
  | text run =>
    show (if (Token.text run).isSurrounding = true then ofTokens? rest else none) = _
    exact if_pos h

/-- A document is an element with surrounding tokens on both sides. -/
theorem ofTokens?_eq_some_iff {tokens : List Token} {root : RootMarkup} :
    ofTokens? tokens = some root ↔
      ∃ before body after, tokens = before ++ body ++ after ∧ Spans body root ∧
        before.all Token.isSurrounding = true ∧ after.all Token.isSurrounding = true := by
  constructor
  · intro h
    fun_induction ofTokens? tokens with
    | case1 => cases h
    | case2 rest tag =>
      obtain ⟨inner, content, name, after, rfl, hinner, rfl, hafter⟩ :=
        content?_opening_eq_some_iff.mp h
      exact ⟨[], _, after, by simp, .paired hinner, rfl, hafter⟩
    | case3 rest tag =>
      obtain ⟨rfl, hafter⟩ := before?_eq_some_iff.mp h
      exact ⟨[], _, rest, rfl, .empty, rfl, hafter⟩
    | case4 rest token _ _ htoken ih =>
      obtain ⟨before, body, after, rfl, hbody, hbefore, hafter⟩ := ih h
      refine ⟨token :: before, body, after, rfl, hbody, ?_, hafter⟩
      rw [List.all_cons, htoken, hbefore]
      rfl
    | case5 => cases h
  · rintro ⟨before, body, after, rfl, hbody, hbefore, hafter⟩
    -- surrounding tokens are passed over one by one
    induction before with
    | nil =>
      cases hbody with
      | empty => exact before?_eq_some_iff.mpr ⟨rfl, hafter⟩
      | paired hinner =>
        exact content?_opening_eq_some_iff.mpr
          ⟨_, _, _, after, by simp, hinner, rfl, hafter⟩
    | cons token before ih =>
      rw [List.all_cons, Bool.and_eq_true] at hbefore
      rw [List.cons_append, List.cons_append, ofTokens?_surrounding hbefore.1]
      exact ih hbefore.2

end RootMarkup

end MavlinkCompiler.Xml
