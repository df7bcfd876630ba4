import MavlinkCompiler.Proofs.Outcome
import MavlinkCompiler.Proofs.Xml.Markup
import MavlinkCompiler.Proofs.Xml.Reference
import MavlinkCompiler.Proofs.Xml.Token
import MavlinkCompiler.Xml.Element

/-!
# Which texts are documents

A grammar for documents, without a word about how one is read: which texts render an element tree.
Reading a document then gives a tree exactly if the text renders it.

* `RendersElement`, `RendersContent`: texts for elements, and for what stands inside an element.
* `Surrounding`: texts that may stand around the root element.
* `Renders`: texts for whole documents.
* `parse_eq_ok_iff_renders`: what is read is what is rendered.

Reading goes through tokens and nested markup. The proof goes the same way in both directions: a
rendered text has a token sequence that nests and can be resolved, and the other way round. Each of
the three steps is an equivalence of its own, in the modules imported here.
-/

namespace MavlinkCompiler.Xml

/-! ## The grammar -/

/-- An attribute as it is written, with the one that it stands for. -/
def AttributeDecodes (raw decoded : String × String) : Prop :=
  decoded.1 = raw.1 ∧ Decodes raw.2.toList decoded.2.toList

/-- The attributes that a tag declares: names are distinct, values are decoded. -/
structure Tag.Declares (tag : Tag) (attributes : List (String × String)) : Prop where
  distinct : (tag.attributes.map (·.1)).Nodup
  values : List.Forall₂ AttributeDecodes tag.attributes attributes

/-- An element as a node of a tree. -/
def Element.node (element : Element) : Node :=
  .element element.name element.attributes element.children

mutual

/-- Texts for an element: an empty tag, or content between two tags with one name. -/
inductive RendersElement : List Char → Element → Prop where
  | empty {tag : Tag} {attributes : List (String × String)} {cs : List Char} :
      (Token.empty tag).Written cs → tag.Declares attributes →
      RendersElement cs ⟨tag.name, attributes, []⟩
  | paired {tag : Tag} {attributes : List (String × String)} {children : List Node}
      {front body back : List Char} :
      (Token.opening tag).Written front → tag.Declares attributes →
      RendersContent body children → (Token.closing tag.name).Written back →
      RendersElement (front ++ body ++ back) ⟨tag.name, attributes, children⟩

/-- Texts for the nodes inside an element. Comments and instructions give no node, a section gives
its body as it is, and a text run, which is as long as it can be, gives its decoded text. -/
inductive RendersContent : List Char → List Node → Prop where
  | nil : RendersContent [] []
  | element {cs rest : List Char} {element : Element} {nodes : List Node} :
      RendersElement cs element → RendersContent rest nodes →
      RendersContent (cs ++ rest) (element.node :: nodes)
  | comment {body : String} {cs rest : List Char} {nodes : List Node} :
      (Token.comment body).Written cs → RendersContent rest nodes →
      RendersContent (cs ++ rest) nodes
  | instruction {body : String} {cs rest : List Char} {nodes : List Node} :
      (Token.instruction body).Written cs → RendersContent rest nodes →
      RendersContent (cs ++ rest) nodes
  | cdata {body : String} {cs rest : List Char} {nodes : List Node} :
      (Token.cdata body).Written cs → RendersContent rest nodes →
      RendersContent (cs ++ rest) (.text body :: nodes)
  | text {run value : String} {cs rest : List Char} {nodes : List Node} :
      (Token.text run).Written cs → AtMark rest → Decodes run.toList value.toList →
      RendersContent rest nodes → RendersContent (cs ++ rest) (.text value :: nodes)

end

/-- Texts that may stand around the root element. -/
inductive Surrounding : List Char → Prop where
  | nil : Surrounding []
  | space {space rest : List Char} : Spacing space → Surrounding rest → Surrounding (space ++ rest)
  | comment {body : String} {cs rest : List Char} : (Token.comment body).Written cs →
      Surrounding rest → Surrounding (cs ++ rest)
  | instruction {body : String} {cs rest : List Char} : (Token.instruction body).Written cs →
      Surrounding rest → Surrounding (cs ++ rest)
  | doctype {body : String} {cs rest : List Char} : (Token.doctype body).Written cs →
      Surrounding rest → Surrounding (cs ++ rest)

/-- Texts for a document: its root element with what may stand around it. -/
def Renders (text : String) (element : Element) : Prop :=
  ∃ before body after, text.toList = before ++ body ++ after ∧ Surrounding before ∧
    RendersElement body element ∧ Surrounding after

/-! ## Resolving -/

theorem resolveText_eq_ok_iff {raw value : String} :
    resolveText raw = .ok value ↔ Decodes raw.toList value.toList := by
  unfold resolveText
  rw [Outcome.mapError_eq_ok_iff, decode_eq_ok_iff]

/-- Attributes are resolved if no name is there twice and all values can be decoded. -/
theorem resolveAttributes_eq_ok_iff {name : String} {decoded raws result : List (String × String)} :
    resolveAttributes name decoded raws = .ok result ↔
      ∃ more, result = decoded ++ more ∧ List.Forall₂ AttributeDecodes raws more ∧
        (raws.map (·.1)).Nodup ∧ ∀ raw ∈ raws, raw.1 ∉ decoded.map (·.1) := by
  -- names are compared with those decoded before, so these are part of the induction
  induction raws generalizing decoded with
  | nil =>
    constructor
    · intro h
      cases h
      exact ⟨[], by simp, .nil, by simp, by simp⟩
    · rintro ⟨more, rfl, hmore, -⟩
      cases hmore
      rw [resolveAttributes, List.append_nil]
  | cons pair raws ih =>
    obtain ⟨key, raw⟩ := pair
    have hany : decoded.any (·.1 == key) = true ↔ key ∈ decoded.map (·.1) := by
      simp
    -- a name is new to the list with `key` if it differs from `key` and is new without it
    have hsplit : ∀ value : String,
        (∀ raw ∈ raws, raw.1 ∉ (decoded ++ [(key, value)]).map (·.1)) ↔
          key ∉ raws.map (·.1) ∧ ∀ raw ∈ raws, raw.1 ∉ decoded.map (·.1) := by
      intro value
      simp only [List.map_append, List.map_cons, List.map_nil, List.mem_append, List.mem_singleton,
        not_or]
      constructor
      · intro h
        refine ⟨fun hmem => ?_, fun raw hraw => (h raw hraw).1⟩
        obtain ⟨raw, hraw, rfl⟩ := List.mem_map.mp hmem
        exact (h raw hraw).2 rfl
      · rintro ⟨hkey, hfresh⟩ raw hraw
        exact ⟨hfresh raw hraw, fun heq => hkey (List.mem_map.mpr ⟨raw, hraw, heq⟩)⟩
    rw [resolveAttributes]
    constructor
    · intro h
      split at h
      · cases h
      next hnew =>
      obtain ⟨value, hvalue, hrest⟩ := Outcome.bind_eq_ok_iff.mp h
      obtain ⟨more, rfl, hmore, hdistinct, hfresh⟩ := ih.mp hrest
      obtain ⟨hkey, hfresh⟩ := (hsplit value).mp hfresh
      refine ⟨(key, value) :: more, by simp, .cons ⟨rfl, resolveText_eq_ok_iff.mp hvalue⟩ hmore,
        List.nodup_cons.mpr ⟨hkey, hdistinct⟩, List.forall_mem_cons.mpr ⟨?_, hfresh⟩⟩
      exact fun hmem => hnew (hany.mpr hmem)
    · rintro ⟨more, rfl, hmore, hdistinct, hfresh⟩
      cases hmore with
      | @cons _ pair _ more hpair hmore =>
        obtain ⟨key', value⟩ := pair
        obtain ⟨rfl, hvalue⟩ := hpair
        obtain ⟨hkey, hdistinct⟩ := List.nodup_cons.mp hdistinct
        obtain ⟨hnew, hfresh⟩ := List.forall_mem_cons.mp hfresh
        rw [if_neg (fun h => hnew (hany.mp h)), Outcome.bind_eq_ok_iff]
        exact ⟨value, resolveText_eq_ok_iff.mpr hvalue, ih.mpr
          ⟨more, by simp, hmore, hdistinct, (hsplit value).mpr ⟨hkey, hfresh⟩⟩⟩

/-- A tag is resolved if it is closed by its name and declares attributes. -/
theorem resolveTag_eq_ok_iff {tag : Tag} {closing : String} {attributes : List (String × String)} :
    resolveTag tag closing = .ok attributes ↔ closing = tag.name ∧ tag.Declares attributes := by
  unfold resolveTag
  rw [Outcome.bind_eq_ok_iff]
  constructor
  · rintro ⟨found, hfound, h⟩
    obtain ⟨more, rfl, hvalues, hdistinct, -⟩ := resolveAttributes_eq_ok_iff.mp hfound
    split at h
    · cases h
    next hname =>
    cases h
    exact ⟨by simpa using hname, hdistinct, hvalues⟩
  · rintro ⟨rfl, hdistinct, hvalues⟩
    refine ⟨attributes, resolveAttributes_eq_ok_iff.mpr
      ⟨attributes, rfl, hvalues, hdistinct, by simp⟩, ?_⟩
    simp [pure, Except.pure]

/-- An element is resolved if its tag and its content are. -/
theorem Element.ofRoot_eq_ok_iff {root : RootMarkup} {element : Element} :
    Element.ofRoot root = .ok element ↔
      root.closing = root.tag.name ∧ element.name = root.tag.name ∧
        root.tag.Declares element.attributes ∧ resolveAll root.content = .ok element.children := by
  unfold Element.ofRoot
  rw [Outcome.bind_eq_ok_iff]
  constructor
  · rintro ⟨attributes, htag, h⟩
    obtain ⟨children, hchildren, h⟩ := Outcome.bind_eq_ok_iff.mp h
    cases h
    obtain ⟨hclosing, hdeclares⟩ := resolveTag_eq_ok_iff.mp htag
    exact ⟨hclosing, rfl, hdeclares, hchildren⟩
  · rintro ⟨hclosing, hname, hdeclares, hchildren⟩
    refine ⟨element.attributes, resolveTag_eq_ok_iff.mpr ⟨hclosing, hdeclares⟩, ?_⟩
    refine Outcome.bind_eq_ok_iff.mpr ⟨element.children, hchildren, ?_⟩
    rw [← hname]
    rfl

theorem resolve_nested_eq_ok_iff {root : RootMarkup} {node : Node} :
    resolve root.nested = .ok node ↔
      ∃ element, Element.ofRoot root = .ok element ∧ node = element.node := by
  unfold RootMarkup.nested Element.ofRoot
  rw [resolve, Outcome.bind_eq_ok_iff]
  constructor
  · rintro ⟨attributes, htag, h⟩
    obtain ⟨children, hchildren, h⟩ := Outcome.bind_eq_ok_iff.mp h
    cases h
    refine ⟨⟨root.tag.name, attributes, children⟩, ?_, rfl⟩
    exact Outcome.bind_eq_ok_iff.mpr
      ⟨attributes, htag, Outcome.bind_eq_ok_iff.mpr ⟨children, hchildren, rfl⟩⟩
  · rintro ⟨element, helement, rfl⟩
    obtain ⟨attributes, htag, h⟩ := Outcome.bind_eq_ok_iff.mp helement
    obtain ⟨children, hchildren, h⟩ := Outcome.bind_eq_ok_iff.mp h
    cases h
    exact ⟨attributes, htag, Outcome.bind_eq_ok_iff.mpr ⟨children, hchildren, rfl⟩⟩

theorem resolveAll_cons_eq_ok_iff {piece : Markup} {pieces : List Markup} {nodes : List Node} :
    resolveAll (piece :: pieces) = .ok nodes ↔
      ∃ node rest, resolve piece = .ok node ∧ resolveAll pieces = .ok rest ∧
        nodes = node :: rest := by
  rw [resolveAll, Outcome.bind_eq_ok_iff]
  constructor
  · rintro ⟨node, hnode, h⟩
    obtain ⟨rest, hrest, h⟩ := Outcome.bind_eq_ok_iff.mp h
    cases h
    exact ⟨node, rest, hnode, hrest, rfl⟩
  · rintro ⟨node, rest, hnode, hrest, rfl⟩
    exact ⟨node, hnode, Outcome.bind_eq_ok_iff.mpr ⟨rest, hrest, rfl⟩⟩

theorem resolve_text_eq_ok_iff {run : String} {node : Node} :
    resolve (.text run) = .ok node ↔
      ∃ value, Decodes run.toList value.toList ∧ node = .text value := by
  rw [resolve, Outcome.bind_eq_ok_iff]
  constructor
  · rintro ⟨value, hvalue, h⟩
    cases h
    exact ⟨value, resolveText_eq_ok_iff.mp hvalue, rfl⟩
  · rintro ⟨value, hvalue, rfl⟩
    exact ⟨value, resolveText_eq_ok_iff.mpr hvalue, rfl⟩

/-! ## From texts to tokens -/

/-- Tokens are written by a text as long as what follows them is markup. -/
def Token.Leads (tokens : List Token) (cs : List Char) : Prop :=
  ∀ (after : List Token) (back : List Char), Token.Sequence after back → AtMark back →
    Token.Sequence (tokens ++ after) (cs ++ back)

theorem Token.Leads.cons {token : Token} {tokens : List Token} {front cs : List Char}
    (hwritten : token.Written front)
    (hprecede : ∀ back, AtMark back → token.MayPrecede (cs ++ back)) (h : Token.Leads tokens cs) :
    Token.Leads (token :: tokens) (front ++ cs) := by
  intro after back hafter hmark
  rw [List.append_assoc]
  exact .cons hwritten (hprecede back hmark) (h after back hafter hmark)

mutual

/-- A text for an element has tokens that span an element; any tokens may follow. -/
theorem RendersElement.tokens {cs : List Char} {element : Element} :
    RendersElement cs element → ∃ tokens root, Spans tokens root ∧
      Element.ofRoot root = .ok element ∧
      ∀ {after : List Token} {back : List Char}, Token.Sequence after back →
        Token.Sequence (tokens ++ after) (cs ++ back)
  | @RendersElement.empty tag attributes cs hwritten hdeclares => by
    refine ⟨[.empty tag], _, .empty, ?_, fun hafter => .cons hwritten trivial hafter⟩
    exact Element.ofRoot_eq_ok_iff.mpr ⟨rfl, rfl, hdeclares, rfl⟩
  | @RendersElement.paired tag attributes children front body back hopening hdeclares hbody
      hclosing => by
    obtain ⟨inner, content, hinner, hcontent, hsequence⟩ := hbody.tokens
    refine ⟨.opening tag :: inner ++ [.closing tag.name], _, .paired hinner, ?_, ?_⟩
    · exact Element.ofRoot_eq_ok_iff.mpr ⟨rfl, rfl, hdeclares, hcontent⟩
    · intro after rest hafter
      have hclosed := Token.Sequence.cons hclosing trivial hafter
      -- the closing tag ends the last text run of the body
      have hmark : AtMark (back ++ rest) := hclosing.atMark nofun rest
      have hopened := Token.Sequence.cons hopening trivial (hsequence _ _ hclosed hmark)
      simpa using hopened

/-- A text for content has tokens that nest; what follows has to be markup, so that a text run at
the end is not taken further. -/
theorem RendersContent.tokens {cs : List Char} {nodes : List Node} :
    RendersContent cs nodes → ∃ tokens pieces, Nested tokens pieces ∧
      resolveAll pieces = .ok nodes ∧ Token.Leads tokens cs
  | .nil => ⟨[], [], .nil, rfl, fun _ _ hafter _ => hafter⟩
  | .element helement hrest => by
    obtain ⟨first, root, hspans, hroot, hfirst⟩ := helement.tokens
    obtain ⟨tokens, pieces, hnested, hpieces, hsequence⟩ := hrest.tokens
    refine ⟨first ++ tokens, root.nested :: pieces, .element hspans hnested, ?_, ?_⟩
    · exact resolveAll_cons_eq_ok_iff.mpr
        ⟨_, _, resolve_nested_eq_ok_iff.mpr ⟨_, hroot, rfl⟩, hpieces, rfl⟩
    · intro after back hafter hmark
      rw [List.append_assoc, List.append_assoc]
      exact hfirst (hsequence after back hafter hmark)
  | @RendersContent.comment body cs rest nodes hwritten hrest => by
    obtain ⟨tokens, pieces, hnested, hpieces, hsequence⟩ := hrest.tokens
    exact ⟨.comment body :: tokens, pieces, .comment hnested, hpieces,
      .cons hwritten (fun _ _ => trivial) hsequence⟩
  | @RendersContent.instruction body cs rest nodes hwritten hrest => by
    obtain ⟨tokens, pieces, hnested, hpieces, hsequence⟩ := hrest.tokens
    exact ⟨.instruction body :: tokens, pieces, .instruction hnested, hpieces,
      .cons hwritten (fun _ _ => trivial) hsequence⟩
  | @RendersContent.cdata body cs rest nodes hwritten hrest => by
    obtain ⟨tokens, pieces, hnested, hpieces, hsequence⟩ := hrest.tokens
    refine ⟨.cdata body :: tokens, .cdata body :: pieces, .cdata hnested, ?_,
      .cons hwritten (fun _ _ => trivial) hsequence⟩
    exact resolveAll_cons_eq_ok_iff.mpr ⟨_, _, by rw [resolve], hpieces, rfl⟩
  | @RendersContent.text run value cs rest nodes hwritten hstop hvalue hrest => by
    obtain ⟨tokens, pieces, hnested, hpieces, hsequence⟩ := hrest.tokens
    refine ⟨.text run :: tokens, .text run :: pieces, .text hnested, ?_,
      .cons hwritten (fun _ => hstop.append) hsequence⟩
    exact resolveAll_cons_eq_ok_iff.mpr
      ⟨_, _, resolve_text_eq_ok_iff.mpr ⟨value, hvalue, rfl⟩, hpieces, rfl⟩

end

theorem Spacing.mark_not_mem {space : List Char} (h : Spacing space) : '<' ∉ space :=
  fun hmem => absurd (h '<' hmem) (by decide)

/-- Space in front of markup is a text run, unless it is empty. -/
theorem Spacing.leads {space rest : List Char} {tokens : List Token} (h : Spacing space)
    (hmark : AtMark rest) (htokens : tokens.all Token.isSurrounding = true)
    (hrest : Token.Leads tokens rest) :
    ∃ tokens, tokens.all Token.isSurrounding = true ∧ Token.Leads tokens (space ++ rest) := by
  -- an empty text run is no token
  by_cases hempty : space = []
  · subst hempty
    exact ⟨tokens, htokens, hrest⟩
  · have hwritten : (Token.text (String.ofList space)).Written (String.ofList space).toList :=
      .text (by simpa using hempty) (by simpa using h.mark_not_mem)
    rw [String.toList_ofList] at hwritten
    refine ⟨.text (String.ofList space) :: tokens, ?_, .cons hwritten (fun _ => hmark.append) hrest⟩
    rw [List.all_cons, htokens, Bool.and_true]
    show (String.ofList space).toList.all isSpace = true
    rw [String.toList_ofList]
    exact List.all_eq_true.mpr h

/-- A surrounding text starts with space, and the tokens after it surround. The space is kept apart
because pieces of space next to each other are one text run. -/
theorem Surrounding.cut {cs : List Char} (h : Surrounding cs) :
    ∃ space rest tokens, cs = space ++ rest ∧ Spacing space ∧ AtMark rest ∧
      tokens.all Token.isSurrounding = true ∧ Token.Leads tokens rest := by
  -- each token is put in front of what the space after it and its tokens give together
  have hcons : ∀ {token : Token} {cs rest : List Char}, token.Written cs →
      (∀ run, token ≠ .text run) → token.isSurrounding = true →
      (∃ space rest' tokens, rest = space ++ rest' ∧ Spacing space ∧ AtMark rest' ∧
        tokens.all Token.isSurrounding = true ∧ Token.Leads tokens rest') →
      ∃ space rest' tokens, cs ++ rest = space ++ rest' ∧ Spacing space ∧ AtMark rest' ∧
        tokens.all Token.isSurrounding = true ∧ Token.Leads tokens rest' := by
    rintro token cs _ hwritten htext htoken ⟨space, rest, tokens, rfl, hspace, hmark, hall, hleads⟩
    obtain ⟨later, hlater, hlead⟩ := hspace.leads hmark hall hleads
    refine ⟨[], cs ++ (space ++ rest), token :: later, rfl, nofun, hwritten.atMark htext _, ?_, ?_⟩
    · rw [List.all_cons, htoken, hlater]
      rfl
    · refine .cons hwritten (fun _ _ => ?_) hlead
      cases token with
      | text run => exact absurd rfl (htext run)
      | _ => trivial
  induction h with
  | nil => exact ⟨[], [], [], rfl, nofun, nofun, rfl, fun _ _ hafter _ => hafter⟩
  | @space space rest hspace _ ih =>
    -- space joins the space that comes after it
    obtain ⟨space', rest', tokens, rfl, hspace', hrest⟩ := ih
    refine ⟨space ++ space', rest', tokens, by simp, ?_, hrest⟩
    exact List.forall_mem_append.mpr ⟨hspace, hspace'⟩
  | comment hwritten _ ih => exact hcons hwritten nofun rfl ih
  | instruction hwritten _ ih => exact hcons hwritten nofun rfl ih
  | doctype hwritten _ ih => exact hcons hwritten nofun rfl ih

theorem Surrounding.tokens {cs : List Char} (h : Surrounding cs) :
    ∃ tokens, tokens.all Token.isSurrounding = true ∧ Token.Leads tokens cs := by
  obtain ⟨space, rest, tokens, rfl, hspace, hmark, hall, hleads⟩ := h.cut
  exact hspace.leads hmark hall hleads

/-! ## From tokens to texts -/

mutual

/-- Tokens that span an element are written by texts for the element. -/
theorem rendersElement_of_spans {tokens : List Token} {root : RootMarkup} {cs : List Char}
    {element : Element} (hcs : Token.Sequence tokens cs)
    (helement : Element.ofRoot root = .ok element) : Spans tokens root → RendersElement cs element
  | @Spans.empty tag => by
    obtain ⟨-, hname, hdeclares, hchildren⟩ := Element.ofRoot_eq_ok_iff.mp helement
    obtain ⟨name, attributes, children⟩ := element
    cases hchildren
    cases hname
    cases hcs with
    | cons hwritten _ hrest =>
      cases hrest
      rw [List.append_nil]
      exact .empty hwritten hdeclares
  | @Spans.paired tag inner content name hinner => by
    obtain ⟨hclosing, hname, hdeclares, hchildren⟩ := Element.ofRoot_eq_ok_iff.mp helement
    obtain ⟨_, attributes, children⟩ := element
    obtain rfl : name = tag.name := hclosing
    cases hname
    cases hcs with
    | cons hopening _ hrest =>
      -- the body is what stands between the two tags
      obtain ⟨body, last, rfl, hbody, hlast⟩ := hrest.split
      cases hlast with
      | cons hwritten _ hend =>
        cases hend
        rw [List.append_nil, ← List.append_assoc]
        exact .paired hopening hdeclares (rendersContent_of_nested hbody hchildren hinner) hwritten

theorem rendersContent_of_nested {tokens : List Token} {pieces : List Markup} {cs : List Char}
    {nodes : List Node} (hcs : Token.Sequence tokens cs) (hnodes : resolveAll pieces = .ok nodes) :
    Nested tokens pieces → RendersContent cs nodes
  | .nil => by
    cases hcs
    cases hnodes
    exact .nil
  | .element hspans hrest => by
    obtain ⟨node, later, hnode, hlater, rfl⟩ := resolveAll_cons_eq_ok_iff.mp hnodes
    obtain ⟨element, helement, rfl⟩ := resolve_nested_eq_ok_iff.mp hnode
    obtain ⟨front, back, rfl, hfront, hback⟩ := hcs.split
    exact .element (rendersElement_of_spans hfront helement hspans)
      (rendersContent_of_nested hback hlater hrest)
  | .comment hrest => by
    cases hcs with
    | cons hwritten _ hback =>
      exact .comment hwritten (rendersContent_of_nested hback hnodes hrest)
  | .instruction hrest => by
    cases hcs with
    | cons hwritten _ hback =>
      exact .instruction hwritten (rendersContent_of_nested hback hnodes hrest)
  | .cdata hrest => by
    obtain ⟨node, later, hnode, hlater, rfl⟩ := resolveAll_cons_eq_ok_iff.mp hnodes
    rw [resolve] at hnode
    cases hnode
    cases hcs with
    | cons hwritten _ hback =>
      exact .cdata hwritten (rendersContent_of_nested hback hlater hrest)
  | .text hrest => by
    obtain ⟨node, later, hnode, hlater, rfl⟩ := resolveAll_cons_eq_ok_iff.mp hnodes
    obtain ⟨value, hvalue, rfl⟩ := resolve_text_eq_ok_iff.mp hnode
    cases hcs with
    | cons hwritten hstop hback =>
      exact .text hwritten hstop hvalue (rendersContent_of_nested hback hlater hrest)

end

theorem surrounding_of_tokens {tokens : List Token} {cs : List Char}
    (hcs : Token.Sequence tokens cs) (h : tokens.all Token.isSurrounding = true) :
    Surrounding cs := by
  induction hcs with
  | nil => exact .nil
  | @cons token tokens front back hwritten _ _ ih =>
    rw [List.all_cons, Bool.and_eq_true] at h
    have hback := ih h.2
    cases token with
    | opening tag | empty tag | closing name | cdata body => cases h.1
    | comment body => exact .comment hwritten hback
    | instruction body => exact .instruction hwritten hback
    | doctype body => exact .doctype hwritten hback
    | text run =>
      cases hwritten with
      | text _ _ => exact .space (List.all_eq_true.mp h.1) hback

/-! ## Documents -/

theorem RendersElement.atMark {cs : List Char} {element : Element} (h : RendersElement cs element)
    (rest : List Char) : AtMark (cs ++ rest) := by
  cases h with
  | empty hwritten _ => exact hwritten.atMark nofun rest
  | paired hopening _ _ _ =>
    rw [List.append_assoc, List.append_assoc]
    exact hopening.atMark nofun _

/-- A root is found if the tokens of the text are those of a document. -/
theorem root?_eq_some_iff {text : String} {root : RootMarkup} :
    root? text = some root ↔
      ∃ tokens, Token.Sequence tokens text.toList ∧ RootMarkup.ofTokens? tokens = some root := by
  unfold root?
  rw [Option.bind_eq_bind, Option.bind_eq_some_iff]
  refine exists_congr fun tokens => and_congr_left fun _ => ?_
  exact Token.readAll?_eq_some_iff

/-- A text is read as an element if it has a root and the root is that element. -/
theorem Element.parse_eq_ok_iff {text : String} {element : Element} :
    Element.parse text = .ok element ↔
      ∃ root, root? text = some root ∧ Element.ofRoot root = .ok element := by
  unfold Element.parse
  cases root? text with
  | none => simp
  | some root => simp

/-- A text that is read renders what it is read as. -/
theorem Element.renders_of_parse {text : String} {element : Element}
    (h : Element.parse text = .ok element) : Renders text element := by
  obtain ⟨root, hroot, helement⟩ := Element.parse_eq_ok_iff.mp h
  obtain ⟨tokens, htokens, hroot⟩ := root?_eq_some_iff.mp hroot
  obtain ⟨before, body, after, rfl, hspans, hbefore, hafter⟩ :=
    RootMarkup.ofTokens?_eq_some_iff.mp hroot
  -- the text is cut where its tokens are
  obtain ⟨front, last, htext, hfront, hlast⟩ := htokens.split
  obtain ⟨first, middle, rfl, hfirst, hmiddle⟩ := hfront.split
  exact ⟨first, middle, last, htext, surrounding_of_tokens hfirst hbefore,
    rendersElement_of_spans hmiddle helement hspans, surrounding_of_tokens hlast hafter⟩

/-- A text for a document is read as its root element. -/
theorem Element.parse_of_renders {text : String} {element : Element} (h : Renders text element) :
    Element.parse text = .ok element := by
  obtain ⟨before, body, after, htext, hbefore, hbody, hafter⟩ := h
  -- the tokens of the three parts are put together from the last to the first
  obtain ⟨tokens, root, hspans, helement, hsequence⟩ := hbody.tokens
  obtain ⟨first, hfirst, hleads⟩ := hbefore.tokens
  obtain ⟨last, hlast, hends⟩ := hafter.tokens
  refine Element.parse_eq_ok_iff.mpr ⟨root,
    root?_eq_some_iff.mpr ⟨first ++ (tokens ++ (last ++ [])), ?_, ?_⟩, helement⟩
  · have hend := hends [] [] .nil nofun
    rw [List.append_nil after] at hend
    rw [htext, List.append_assoc]
    exact hleads _ _ (hsequence hend) (hbody.atMark after)
  · exact RootMarkup.ofTokens?_eq_some_iff.mpr
      ⟨first, tokens, last, by simp, hspans, hfirst, hlast⟩

/-- **A document is read exactly if it is one.** For every text and every element tree: reading the
text gives the tree if and only if the text renders the tree. -/
theorem parse_eq_ok_iff_renders (text : String) (element : Element) :
    Element.parse text = .ok element ↔ Renders text element :=
  ⟨Element.renders_of_parse, Element.parse_of_renders⟩

end MavlinkCompiler.Xml
