import MavlinkCompiler.Proofs.Schema.Vocabulary
import MavlinkCompiler.Proofs.Xml.Writer

/-!
# Spellings of a document

The same document can be spelled with or without comments and instructions, and with sections in
place of text runs. A comment inside a text run cuts it into two text nodes, and that is all that
the tree shows of it.

* `Respelled`: content with a comment or an instruction added, or a text run turned into a section,
  at any depth.
* `renders_append`: contents that are written one behind the other are the content of both,
  up to a text that is cut where they meet.
* `Respelled.renders`: trees of both spellings, which differ in pieces of texts only.
* `unread_parts_make_no_difference`: neither what no one looks at nor the spelling changes what is
  read.
-/

namespace MavlinkCompiler.Schema

open Xml (AtMark Decodes Element Node RendersContent RendersElement Surrounding Tag Token)

/-! ## Other spellings -/

/-- Content that is spelled in another way in one place. The place is between two parts that are
content each: so it is not inside a tag or a reference, but it may be inside a text run. -/
inductive Respelled : List Char → List Char → Prop where
  | comment {front back cs : List Char} {nodes nodes' : List Node} {body : String} :
      RendersContent front nodes → (Token.comment body).Written cs → RendersContent back nodes' →
      Respelled (front ++ back) (front ++ (cs ++ back))
  | instruction {front back cs : List Char} {nodes nodes' : List Node} {body : String} :
      RendersContent front nodes → (Token.instruction body).Written cs →
      RendersContent back nodes' → Respelled (front ++ back) (front ++ (cs ++ back))
  /-- A text run is turned into a section with the text that it stands for. -/
  | cdata {front back written cs : List Char} {nodes nodes' : List Node} {run value : String} :
      RendersContent front nodes → (Token.text run).Written written →
      Decodes run.toList value.toList → (Token.cdata value).Written cs →
      RendersContent back nodes' → Respelled (front ++ (written ++ back)) (front ++ (cs ++ back))
  /-- The content of an element is spelled in another way. -/
  | inside {front back opening body body' closing : List Char} {nodes nodes' : List Node}
      {tag : Tag} {attributes : List (String × String)} :
      RendersContent front nodes → (Token.opening tag).Written opening →
      tag.Declares attributes → Respelled body body' → (Token.closing tag.name).Written closing →
      RendersContent back nodes' →
      Respelled (front ++ (opening ++ body ++ closing ++ back))
        (front ++ (opening ++ body' ++ closing ++ back))

/-- A document in which the content of the root element is spelled in another way. -/
def RespelledDocument (text text' : String) : Prop :=
  ∃ (before opening body body' closing after : List Char) (tag : Tag)
    (attributes : List (String × String)),
    text.toList = before ++ (opening ++ body ++ closing) ++ after ∧
    text'.toList = before ++ (opening ++ body' ++ closing) ++ after ∧
    Surrounding before ∧ (Token.opening tag).Written opening ∧ tag.Declares attributes ∧
    Respelled body body' ∧ (Token.closing tag.name).Written closing ∧ Surrounding after

/-! ## Contents one behind the other -/

/-- Texts with references are decoded one behind the other. -/
theorem decodes_append {cs cs' decoded decoded' : List Char} (h : Decodes cs decoded)
    (h' : Decodes cs' decoded') : Decodes (cs ++ cs') (decoded ++ decoded') := by
  induction h with
  | nil => exact h'
  | plain hc _ ih => exact .plain hc ih
  | @reference body cs decoded c hbody _ ih =>
    have hreference := Decodes.reference hbody ih
    simpa using hreference

theorem written_text_append {run run' : String} {cs cs' : List Char}
    (h : (Token.text run).Written cs) (h' : (Token.text run').Written cs') :
    (Token.text (run ++ run')).Written (cs ++ cs') := by
  cases h with
  | text hne hmark =>
    cases h' with
    | text _ hmark' =>
      rw [← String.toList_append]
      refine .text ?_ ?_
      · simp [hne]
      · rw [String.toList_append, List.mem_append]
        exact not_or_intro hmark hmark'

/-- A text run in front of some content is a text of its own, or joins the text run that the content
starts with. -/
theorem renders_text_append {run value : String} {cs back : List Char} {nodes : List Node}
    (hwritten : (Token.text run).Written cs) (hvalue : Decodes run.toList value.toList)
    (hback : RendersContent back nodes) :
    ∃ joined, RendersContent (cs ++ back) joined ∧
      ∀ role, Edits role joined (.text value :: nodes) := by
  -- markup ends the run, so the run is a node of its own
  have hends : AtMark back → ∃ joined, RendersContent (cs ++ back) joined ∧
      ∀ role, Edits role joined (.text value :: nodes) :=
    fun hmark => ⟨_, .text hwritten hmark hvalue hback, fun _ => .refl _⟩
  cases hback with
  | nil => exact hends nofun
  | element helement _ => exact hends (helement.atMark _)
  | comment hcomment _ => exact hends (hcomment.atMark nofun _)
  | instruction hinstruction _ => exact hends (hinstruction.atMark nofun _)
  | cdata hcdata _ => exact hends (hcdata.atMark nofun _)
  | @text run' value' cs' rest nodes hwritten' hmark hvalue' hrest =>
    refine ⟨.text (value ++ value') :: nodes, ?_, fun role => ?_⟩
    · rw [← List.append_assoc]
      refine .text (written_text_append hwritten hwritten') hmark ?_ hrest
      rw [String.toList_append, String.toList_append]
      exact decodes_append hvalue hvalue'
    · have hsplit : Edit role ([] ++ .text (value ++ value') :: nodes)
          ([] ++ .text value :: .text value' :: nodes) := .split
      exact .rel _ _ hsplit

/-- Contents one behind the other are the content of both, up to a text that is cut where they
meet. -/
theorem renders_append {front back : List Char} {nodes nodes' : List Node} :
    RendersContent front nodes → RendersContent back nodes' →
      ∃ joined, RendersContent (front ++ back) joined ∧
        ∀ role, Edits role joined (nodes ++ nodes')
  | .nil, hback => ⟨nodes', hback, fun _ => .refl _⟩
  | @RendersContent.element cs rest element nodes helement hrest, hback => by
    obtain ⟨joined, hjoined, hedits⟩ := renders_append hrest hback
    refine ⟨element.node :: joined, ?_, fun role => (hedits role).append [element.node]⟩
    rw [List.append_assoc]
    exact .element helement hjoined
  | .comment hwritten hrest, hback => by
    obtain ⟨joined, hjoined, hedits⟩ := renders_append hrest hback
    refine ⟨joined, ?_, hedits⟩
    rw [List.append_assoc]
    exact .comment hwritten hjoined
  | .instruction hwritten hrest, hback => by
    obtain ⟨joined, hjoined, hedits⟩ := renders_append hrest hback
    refine ⟨joined, ?_, hedits⟩
    rw [List.append_assoc]
    exact .instruction hwritten hjoined
  | @RendersContent.cdata body cs rest nodes hwritten hrest, hback => by
    obtain ⟨joined, hjoined, hedits⟩ := renders_append hrest hback
    refine ⟨.text body :: joined, ?_, fun role => (hedits role).append [.text body]⟩
    rw [List.append_assoc]
    exact .cdata hwritten hjoined
  | @RendersContent.text run value cs rest nodes hwritten _ hvalue hrest, hback => by
    obtain ⟨later, hlater, hedits⟩ := renders_append hrest hback
    obtain ⟨joined, hjoined, hjoin⟩ := renders_text_append hwritten hvalue hlater
    refine ⟨joined, ?_, fun role => .trans _ _ _ (hjoin role) ((hedits role).append [.text value])⟩
    rw [List.append_assoc]
    exact hjoined

/-- Content with a part that is spelled in two ways, if the part and what is behind it show the same
in both. -/
theorem renders_respelled {front back back' : List Char} {nodes later later' : List Node}
    (hfront : RendersContent front nodes) (hback : RendersContent back later)
    (hback' : RendersContent back' later') (hsame : ∀ role, Edits role later later') :
    ∃ joined joined', RendersContent (front ++ back) joined ∧
      RendersContent (front ++ back') joined' ∧ ∀ role, Edits role joined joined' := by
  obtain ⟨joined, hjoined, hedits⟩ := renders_append hfront hback
  obtain ⟨joined', hjoined', hedits'⟩ := renders_append hfront hback'
  refine ⟨joined, joined', hjoined, hjoined', fun role => ?_⟩
  exact .trans _ _ _ (hedits role) (.trans _ _ _ ((hsame role).append nodes)
    (.symm _ _ (hedits' role)))

/-- Both spellings are content, and the nodes differ in what is not seen only. -/
theorem Respelled.renders {cs cs' : List Char} (h : Respelled cs cs') :
    ∃ nodes nodes', RendersContent cs nodes ∧ RendersContent cs' nodes' ∧
      ∀ role, Edits role nodes nodes' := by
  induction h with
  | comment hfront hwritten hback =>
    exact renders_respelled hfront hback (.comment hwritten hback) fun _ => .refl _
  | instruction hfront hwritten hback =>
    exact renders_respelled hfront hback (.instruction hwritten hback) fun _ => .refl _
  | cdata hfront hwritten hvalue hcdata hback =>
    obtain ⟨joined, hjoined, hedits⟩ := renders_text_append hwritten hvalue hback
    exact renders_respelled hfront hjoined (.cdata hcdata hback) hedits
  | @inside front back opening body body' closing nodes nodes' tag attributes hfront hopening
      hdeclares _ hclosing hback ih =>
    obtain ⟨children, children', hchildren, hchildren', hedits⟩ := ih
    refine renders_respelled hfront (.element (.paired hopening hdeclares hchildren hclosing) hback)
      (.element (.paired hopening hdeclares hchildren' hclosing) hback) fun role => ?_
    exact (hedits (role.child tag.name)).inside attributes [] nodes'

/-- A document is read as the same in both spellings. -/
theorem RespelledDocument.outcome_parse {text text' : String} (h : RespelledDocument text text')
    (origin : String) :
    (Document.parse origin text').outcome = (Document.parse origin text).outcome := by
  obtain ⟨before, opening, body, body', closing, after, tag, attributes, htext, htext', hbefore,
    hopening, hdeclares, hrespelled, hclosing, hafter⟩ := h
  obtain ⟨children, children', hchildren, hchildren', hedits⟩ := hrespelled.renders
  have hparse : Element.parse text = .ok ⟨tag.name, attributes, children⟩ :=
    Element.parse_of_renders
      ⟨before, _, after, htext, hbefore, .paired hopening hdeclares hchildren hclosing, hafter⟩
  have hparse' : Element.parse text' = .ok ⟨tag.name, attributes, children'⟩ :=
    Element.parse_of_renders
      ⟨before, _, after, htext', hbefore, .paired hopening hdeclares hchildren' hclosing, hafter⟩
  have houtcome := outcome_of_edits attributes (hedits (Role.ofRoot tag.name))
  unfold Document.parse
  rw [hparse, hparse']
  show ((Document.ofElement _).outcome.mapError _) = (Document.ofElement _).outcome.mapError _
  rw [houtcome]

/-- **Neither unread parts nor the spelling make a difference.** For every element tree: adding and
removing elements that their parent does not look at, and cutting and joining texts, any number of
times and at any depth, does not change the document that is read, or the error. For every text:
adding comments and instructions between the nodes of an element or inside its texts, outside
references, and turning text runs into sections, any number of times and at any depth, does not
change it either. -/
theorem unread_parts_make_no_difference :
    (∀ (name : String) (attributes : List (String × String)) (children children' : List Node),
      Relation.EqvGen (Edit (Role.ofRoot name)) children children' →
      (Document.ofElement ⟨name, attributes, children⟩).outcome =
        (Document.ofElement ⟨name, attributes, children'⟩).outcome) ∧
    ∀ origin text text' : String, Relation.ReflTransGen RespelledDocument text text' →
      (Document.parse origin text').outcome = (Document.parse origin text).outcome := by
  refine ⟨fun name attributes children children' h => outcome_of_edits attributes h,
    fun origin text text' h => ?_⟩
  induction h with
  | refl => rfl
  | tail _ hrespelled ih => exact (hrespelled.outcome_parse origin).trans ih

section Unattributed

variable {name : String} {body body' : List Char}

theorem written_opening (hname : Xml.ValidName name) :
    (Token.opening ⟨name, []⟩).Written ('<' :: name.toList ++ ['>']) := by
  have hwritten : (Token.opening ⟨name, []⟩).Written ('<' :: (name.toList ++ []) ++ [] ++ ['>']) :=
    .opening (.mk hname .nil) fun _ h => absurd h List.not_mem_nil
  rwa [List.append_nil, List.append_nil] at hwritten

theorem written_closing (hname : Xml.ValidName name) :
    (Token.closing name).Written ('<' :: '/' :: name.toList ++ ['>']) := by
  have hwritten : (Token.closing name).Written ('<' :: '/' :: name.toList ++ [] ++ ['>']) :=
    .closing hname fun _ h => absurd h List.not_mem_nil
  rwa [List.append_nil] at hwritten

/-- An element without attributes as text. -/
def enclosed (name : String) (body : List Char) : List Char :=
  '<' :: name.toList ++ ['>'] ++ body ++ ('<' :: '/' :: name.toList ++ ['>'])

theorem Respelled.enclosed (h : Respelled body body') (name : String)
    (hname : Xml.ValidName name) :
    Respelled (enclosed name body) (enclosed name body') := by
  have hdeclares : Tag.Declares ⟨name, []⟩ [] := ⟨List.nodup_nil, .nil⟩
  have hinside := Respelled.inside .nil (written_opening hname) hdeclares h
    (written_closing hname) .nil
  rwa [List.append_nil, List.append_nil] at hinside

theorem Respelled.document (h : Respelled body body') (name : String)
    (hname : Xml.ValidName name) {text text' : String}
    (htext : text.toList = Schema.enclosed name body)
    (htext' : text'.toList = Schema.enclosed name body') : RespelledDocument text text' := by
  refine ⟨[], _, body, body', _, [], ⟨name, []⟩, [], ?_, ?_, .nil, written_opening hname,
    ⟨List.nodup_nil, .nil⟩, h, written_closing hname, .nil⟩
  · rw [htext, List.nil_append, List.append_nil]
    rfl
  · rw [htext', List.nil_append, List.append_nil]
    rfl

end Unattributed

/-- A document with a reference in a text. -/
def referringText : String :=
  "<mavlink><include>a&lt;b</include></mavlink>"

/-- The same document with a comment in front of the reference. -/
def commentedText : String :=
  "<mavlink><include>a<!-- c -->&lt;b</include></mavlink>"

/-- The same document with a section in place of the reference. -/
def sectionedText : String :=
  "<mavlink><include>a<!-- c --><![CDATA[<b]]></include></mavlink>"

theorem sectionedText_makes_no_difference :
    Relation.ReflTransGen RespelledDocument referringText sectionedText ∧
    ∀ origin, (Document.parse origin sectionedText).outcome =
      (Document.parse origin referringText).outcome := by
  have hletter : (Token.text "a").Written "a".toList := .text (by decide) (by decide)
  have hcomment : (Token.comment " c ").Written "<!-- c -->".toList := .comment (by decide)
  have hreference : (Token.text "&lt;b").Written "&lt;b".toList := .text (by decide) (by decide)
  have hdecodes : Decodes "&lt;b".toList "<b".toList := .reference .lt (.plain (by decide) .nil)
  have hsection : (Token.cdata "<b").Written "<![CDATA[<b]]>".toList := .cdata (by decide)
  -- the comment is added between the letter and the reference
  have hcommented : RespelledDocument referringText commentedText := by
    have hfront : RendersContent ("a".toList ++ []) [.text "a"] :=
      .text hletter nofun (.plain (by decide) .nil) .nil
    have hback : RendersContent ("&lt;b".toList ++ []) [.text "<b"] :=
      .text hreference nofun hdecodes .nil
    have hadded := (Respelled.comment hfront hcomment hback).enclosed "include" (by decide)
    exact hadded.document "mavlink" (by decide) (by decide) (by decide)
  -- the reference behind the comment becomes a section
  have hsectioned : RespelledDocument commentedText sectionedText := by
    have hfront : RendersContent _ [.text "a"] :=
      .text hletter (hcomment.atMark nofun []) (.plain (by decide) .nil) (.comment hcomment .nil)
    have hturned := (Respelled.cdata hfront hreference hdecodes hsection .nil).enclosed
      "include" (by decide)
    exact hturned.document "mavlink" (by decide) (by decide) (by decide)
  have hchain : Relation.ReflTransGen RespelledDocument referringText sectionedText :=
    .tail (.single hcommented) hsectioned
  exact ⟨hchain, fun origin => unread_parts_make_no_difference.2 origin _ _ hchain⟩

end MavlinkCompiler.Schema
