import MavlinkCompiler.Proofs.Schema.Reader

/-!
# What is read of an element tree

Every element of a definition file looks at children with certain names, and at the text directly
inside it where it has a text. Everything else in the tree can be changed without a difference:
elements that no one looks at can be added and removed, and a text can be cut into pieces.

* `Role`: what an element is read as. `Role.vocabulary`: the children that it looks at.
* `Edit`: a change of one place, at any depth, that is not seen. `Edits`: any number of them.
* `Role.Agree`: contents that are read as the same by an element with a role.
* `Edit.agree`: contents agree before and after a change.
* `outcome_of_edits`: so the documents, or the errors, are the same after any changes.

Agreement is checked where the change is made, and carried outwards: one element that is read as the
same before and after gives a content that agrees.
-/

namespace MavlinkCompiler.Schema

open Xml (Element Node)

/-! ## Roles -/

/-- What an element is read as. -/
inductive Role where
  | root
  | enums
  | enumeration
  | entry
  | messages
  | message
  /-- The text directly inside counts, and nothing else. -/
  | text
  /-- Nothing inside counts. -/
  | unread
  deriving DecidableEq

/-- The names of the children that an element looks at, with what these are read as. -/
def Role.vocabulary : Role → List (String × Role)
  | .root => [("include", .text), ("version", .text), ("dialect", .text), ("enums", .enums),
      ("messages", .messages)]
  | .enums => [("enum", .enumeration)]
  | .enumeration => [("description", .text), ("entry", .entry)]
  | .entry => [("description", .text), ("param", .text)]
  | .messages => [("message", .message)]
  | .message => [("description", .text), ("extensions", .unread), ("field", .text)]
  | .text => []
  | .unread => []

/-- What a child with a name is read as. -/
def Role.child (role : Role) (name : String) : Role :=
  (role.vocabulary.lookup name).getD .unread

/-- What the root element is read as: no other name than that of definition files is accepted. -/
def Role.ofRoot (name : String) : Role :=
  if name = "mavlink" then .root else .unread

/-! ## Changes -/

/-- A change of the content of an element with a role, in one place at any depth. -/
inductive Edit : Role → List Node → List Node → Prop where
  /-- A child that the element does not look at is added, whatever is inside it. -/
  | insert {role : Role} {front back : List Node} {name : String}
      {attributes : List (String × String)} {children : List Node} :
      role.vocabulary.lookup name = none →
      Edit role (front ++ back) (front ++ .element name attributes children :: back)
  /-- A text is cut into two. -/
  | split {role : Role} {front back : List Node} {one other : String} :
      Edit role (front ++ .text (one ++ other) :: back)
        (front ++ .text one :: .text other :: back)
  /-- The content of a child is changed. -/
  | inside {role : Role} {front back : List Node} {name : String}
      {attributes : List (String × String)} {before after : List Node} :
      Edit (role.child name) before after →
      Edit role (front ++ .element name attributes before :: back)
        (front ++ .element name attributes after :: back)

/-- Any number of changes, made or taken back. -/
def Edits (role : Role) : List Node → List Node → Prop :=
  Relation.EqvGen (Edit role)

/-- Changes are made in a larger content as each of them is. -/
theorem Edits.lift {role role' : Role} {f : List Node → List Node}
    (hedit : ∀ {before after}, Edit role before after → Edit role' (f before) (f after))
    {before after : List Node} (h : Edits role before after) :
    Edits role' (f before) (f after) := by
  induction h with
  | rel before after h => exact .rel _ _ (hedit h)
  | refl before => exact .refl _
  | symm before after _ ih => exact .symm _ _ ih
  | trans before between after _ _ ih ih' => exact .trans _ _ _ ih ih'

/-- Changes can be made behind other nodes. -/
theorem Edits.append {role : Role} {before after : List Node} (h : Edits role before after)
    (front : List Node) : Edits role (front ++ before) (front ++ after) := by
  refine h.lift fun hedit => ?_
  cases hedit with
  | insert hname =>
    rw [← List.append_assoc, ← List.append_assoc]
    exact .insert hname
  | split =>
    rw [← List.append_assoc, ← List.append_assoc]
    exact .split
  | inside hinside =>
    rw [← List.append_assoc, ← List.append_assoc]
    exact .inside hinside

/-- Changes can be made in the content of a child. -/
theorem Edits.inside {role : Role} {name : String} {before after : List Node}
    (h : Edits (role.child name) before after) (attributes : List (String × String))
    (front back : List Node) :
    Edits role (front ++ .element name attributes before :: back)
      (front ++ .element name attributes after :: back) :=
  h.lift (f := fun content => front ++ .element name attributes content :: back)
    fun hedit => .inside hedit

/-! ## Agreement -/

/-- The elements of some content. -/
def elementsIn (nodes : List Node) : List Element :=
  nodes.filterMap Node.element?

/-- The text of some content. -/
def textIn (nodes : List Node) : String :=
  String.join (nodes.filterMap Node.text?)

/-- Elements that are taken into account one after the other have the same effect. -/
def SameRun {σ : Type} (step : σ → Element → Except Fault σ) (nodes nodes' : List Node) : Prop :=
  ∀ state, (elementsIn nodes).foldlM step state = (elementsIn nodes').foldlM step state

/-- Elements with a name are read one after the other as the same. -/
def SameList {α : Type} (name : String) (read : Element → Except Fault α)
    (nodes nodes' : List Node) : Prop :=
  ((elementsIn nodes).filter fun child => child.name = name).mapM read =
    ((elementsIn nodes').filter fun child => child.name = name).mapM read

/-- Two contents are the same to an element with a role. -/
def Role.Agree : Role → List Node → List Node → Prop
  | .root => SameRun fun (document : Document) child => (document.read child).outcome
  | .enums => SameList "enum" readEnum
  | .enumeration => SameRun EnumDefinition.read
  | .entry => SameRun EntryDefinition.read
  | .messages => SameList "message" readMessage
  | .message => SameRun MessageDefinition.read
  | .text => fun nodes nodes' => textIn nodes = textIn nodes'
  | .unread => fun _ _ => True

section Within

variable {middle middle' : List Node}

theorem SameRun.within {σ : Type} {step : σ → Element → Except Fault σ}
    (h : SameRun step middle middle') (front back : List Node) :
    SameRun step (front ++ middle ++ back) (front ++ middle' ++ back) := by
  intro state
  simp only [elementsIn, List.filterMap_append, List.foldlM_append]
  refine congrArg (· >>= _) (congrArg (_ >>= ·) (funext fun reached => ?_))
  exact h reached

theorem SameList.within {α : Type} {name : String} {read : Element → Except Fault α}
    (h : SameList name read middle middle') (front back : List Node) :
    SameList name read (front ++ middle ++ back) (front ++ middle' ++ back) := by
  unfold SameList at h ⊢
  simp only [elementsIn, List.filterMap_append, List.filter_append, List.mapM_append] at h ⊢
  rw [h]

theorem textIn_append (nodes nodes' : List Node) :
    textIn (nodes ++ nodes') = textIn nodes ++ textIn nodes' := by
  simp [textIn, List.filterMap_append]

/-- Agreement of a part is agreement of the whole. -/
theorem Role.Agree.within {role : Role} (h : role.Agree middle middle') (front back : List Node) :
    role.Agree (front ++ middle ++ back) (front ++ middle' ++ back) := by
  cases role with
  | root => exact SameRun.within h front back
  | enums => exact SameList.within h front back
  | enumeration => exact SameRun.within h front back
  | entry => exact SameRun.within h front back
  | messages => exact SameList.within h front back
  | message => exact SameRun.within h front back
  | text =>
    have htext : textIn middle = textIn middle' := h
    show textIn _ = textIn _
    rw [textIn_append, textIn_append, textIn_append, textIn_append, htext]
  | unread => trivial

end Within

/-! ## Children that are not looked at -/

/-- A name that is not in the vocabulary is none of its names. -/
theorem ne_of_lookup_eq_none {role role' : Role} {name key : String}
    (h : role.vocabulary.lookup name = none) (hkey : (key, role') ∈ role.vocabulary) :
    name ≠ key := by
  rintro rfl
  exact absurd (List.lookup_eq_none_iff.mp h _ hkey) (by simp)

section Inserted

variable {name : String} {attributes : List (String × String)} {children : List Node}

/-- An element that changes nothing has no effect. -/
theorem sameRun_inserted {σ : Type} {step : σ → Element → Except Fault σ}
    (h : ∀ state, step state ⟨name, attributes, children⟩ = .ok state) :
    SameRun step [] [.element name attributes children] := by
  intro state
  show pure state = (step state ⟨name, attributes, children⟩ >>= pure)
  rw [h state]
  rfl

theorem sameList_inserted {α : Type} {key : String} {read : Element → Except Fault α}
    (h : name ≠ key) : SameList key read [] [.element name attributes children] := by
  show _ = ([⟨name, attributes, children⟩].filter fun child : Element => child.name = key).mapM read
  rw [List.filter_cons_of_neg (by simpa using h)]
  rfl

/-- A child that an element does not look at makes no difference. -/
theorem Role.agree_inserted (role : Role) (h : role.vocabulary.lookup name = none) :
    role.Agree [] [.element name attributes children] := by
  cases role with
  | root =>
    refine sameRun_inserted fun document => ?_
    have hinclude : name ≠ "include" := ne_of_lookup_eq_none h (.head _)
    have hversion : name ≠ "version" := ne_of_lookup_eq_none h (.tail _ (.head _))
    have hdialect : name ≠ "dialect" := ne_of_lookup_eq_none h (.tail _ (.tail _ (.head _)))
    have henums : name ≠ "enums" :=
      ne_of_lookup_eq_none h (.tail _ (.tail _ (.tail _ (.head _))))
    have hmessages : name ≠ "messages" :=
      ne_of_lookup_eq_none h (.tail _ (.tail _ (.tail _ (.tail _ (.head _)))))
    rw [Document.read, if_neg hinclude, if_neg hversion, if_neg hdialect, if_neg henums,
      if_neg hmessages]
    rfl
  | enums => exact sameList_inserted (ne_of_lookup_eq_none h (.head _))
  | enumeration =>
    refine sameRun_inserted fun enumeration => ?_
    have hdescription : name ≠ "description" := ne_of_lookup_eq_none h (.head _)
    have hentry : name ≠ "entry" := ne_of_lookup_eq_none h (.tail _ (.head _))
    rw [EnumDefinition.read, if_neg hdescription, if_neg hentry]
  | entry =>
    refine sameRun_inserted fun entry => ?_
    have hdescription : name ≠ "description" := ne_of_lookup_eq_none h (.head _)
    have hparam : name ≠ "param" := ne_of_lookup_eq_none h (.tail _ (.head _))
    rw [EntryDefinition.read, if_neg hdescription, if_neg hparam]
  | messages => exact sameList_inserted (ne_of_lookup_eq_none h (.head _))
  | message =>
    refine sameRun_inserted fun message => ?_
    have hdescription : name ≠ "description" := ne_of_lookup_eq_none h (.head _)
    have hextensions : name ≠ "extensions" := ne_of_lookup_eq_none h (.tail _ (.head _))
    have hfield : name ≠ "field" := ne_of_lookup_eq_none h (.tail _ (.tail _ (.head _)))
    rw [MessageDefinition.read, if_neg hdescription, if_neg hextensions, if_neg hfield]
  | text => rfl
  | unread => trivial

end Inserted

/-! ## Texts in pieces -/

/-- A text in two pieces is the same text, and no element. -/
theorem Role.agree_split (role : Role) (one other : String) :
    role.Agree [.text (one ++ other)] [.text one, .text other] := by
  cases role with
  | text =>
    show String.join [one ++ other] = String.join [one, other]
    simp [String.join]
  | unread => trivial
  | enums | messages => rfl
  | root | enumeration | entry | message => exact fun _ => rfl

/-! ## Children that are looked at -/

section Changed

variable {name : String} {attributes : List (String × String)} {before after : List Node}

/-- Each reader is given the same by contents that agree. -/
theorem readEntry_congr (h : Role.entry.Agree before after) :
    readEntry ⟨name, attributes, before⟩ = readEntry ⟨name, attributes, after⟩ := by
  unfold readEntry
  refine congrArg (_ >>= ·) (funext fun entry => congrArg (_ >>= ·) (funext fun value => ?_))
  exact h _

theorem readEnum_congr (h : Role.enumeration.Agree before after) :
    readEnum ⟨name, attributes, before⟩ = readEnum ⟨name, attributes, after⟩ := by
  unfold readEnum
  refine congrArg (_ >>= ·) (funext fun enumeration => ?_)
  exact h _

theorem readMessage_congr (h : Role.message.Agree before after) :
    readMessage ⟨name, attributes, before⟩ = readMessage ⟨name, attributes, after⟩ := by
  unfold readMessage
  refine congrArg (_ >>= ·) (funext fun message => congrArg (_ >>= ·) (funext fun text =>
    congrArg (_ >>= ·) (funext fun id => ?_)))
  exact h _

theorem text_congr (h : Role.text.Agree before after) :
    Element.text ⟨name, attributes, before⟩ = Element.text ⟨name, attributes, after⟩ :=
  h

theorem sameRun_changed {σ : Type} {step : σ → Element → Except Fault σ}
    (h : ∀ state, step state ⟨name, attributes, before⟩ = step state ⟨name, attributes, after⟩) :
    SameRun step [.element name attributes before] [.element name attributes after] := by
  intro state
  show (step state ⟨name, attributes, before⟩ >>= pure) =
    (step state ⟨name, attributes, after⟩ >>= pure)
  rw [h state]

theorem sameList_changed {α : Type} {key : String} {read : Element → Except Fault α}
    (h : name = key → read ⟨name, attributes, before⟩ = read ⟨name, attributes, after⟩) :
    SameList key read [.element name attributes before] [.element name attributes after] := by
  show ([⟨name, attributes, before⟩].filter fun child : Element => child.name = key).mapM read =
    ([⟨name, attributes, after⟩].filter fun child : Element => child.name = key).mapM read
  by_cases hname : name = key
  · rw [List.filter_cons_of_pos (by simpa using hname), List.filter_cons_of_pos
      (by simpa using hname), List.mapM_cons, List.mapM_cons, h hname]
  · rw [List.filter_cons_of_neg (by simpa using hname), List.filter_cons_of_neg
      (by simpa using hname)]

/-- Each element takes a child whose content agrees into account in the same way. -/
theorem EntryDefinition.read_congr (h : (Role.entry.child name).Agree before after)
    (entry : EntryDefinition) :
    entry.read ⟨name, attributes, before⟩ = entry.read ⟨name, attributes, after⟩ := by
  refine ite_congr rfl (fun hname => ?_) fun _ => ite_congr rfl (fun hname => ?_) fun _ => rfl
  · obtain rfl : name = "description" := hname
    rw [text_congr h]
  · obtain rfl : name = "param" := hname
    unfold readParam
    rw [text_congr h]
    rfl

theorem EnumDefinition.read_congr (h : (Role.enumeration.child name).Agree before after)
    (enumeration : EnumDefinition) :
    enumeration.read ⟨name, attributes, before⟩ = enumeration.read ⟨name, attributes, after⟩ := by
  refine ite_congr rfl (fun hname => ?_) fun _ => ite_congr rfl (fun hname => ?_) fun _ => rfl
  · obtain rfl : name = "description" := hname
    rw [text_congr h]
  · obtain rfl : name = "entry" := hname
    rw [readEntry_congr h]

theorem MessageDefinition.read_congr (h : (Role.message.child name).Agree before after)
    (message : MessageDefinition) :
    message.read ⟨name, attributes, before⟩ = message.read ⟨name, attributes, after⟩ := by
  -- of an extension mark it only counts that it is there
  refine ite_congr rfl (fun hname => ?_) fun _ => ite_congr rfl (fun _ => rfl) fun _ =>
    ite_congr rfl (fun hname => ?_) fun _ => rfl
  · obtain rfl : name = "description" := hname
    rw [text_congr h]
  · obtain rfl : name = "field" := hname
    unfold readField
    rw [text_congr h]
    rfl

theorem Document.read_congr (h : (Role.root.child name).Agree before after)
    (document : Document) :
    document.read ⟨name, attributes, before⟩ = document.read ⟨name, attributes, after⟩ := by
  refine ite_congr rfl (fun hname => ?_) fun _ => ite_congr rfl (fun hname => ?_) fun _ =>
    ite_congr rfl (fun hname => ?_) fun _ => ite_congr rfl (fun hname => ?_) fun _ =>
    ite_congr rfl (fun hname => ?_) fun _ => rfl
  · obtain rfl : name = "include" := hname
    rw [text_congr h]
  · obtain rfl : name = "version" := hname
    rw [text_congr h]
  · obtain rfl : name = "dialect" := hname
    rw [text_congr h]
  · obtain rfl : name = "enums" := hname
    have hlist : (childrenNamed ⟨"enums", attributes, before⟩ "enum").mapM readEnum =
      (childrenNamed ⟨"enums", attributes, after⟩ "enum").mapM readEnum := h
    rw [hlist]
  · obtain rfl : name = "messages" := hname
    have hlist : (childrenNamed ⟨"messages", attributes, before⟩ "message").mapM readMessage =
      (childrenNamed ⟨"messages", attributes, after⟩ "message").mapM readMessage := h
    rw [hlist]

/-- A child whose content agrees makes no difference. -/
theorem Role.agree_changed (role : Role) (h : (role.child name).Agree before after) :
    role.Agree [.element name attributes before] [.element name attributes after] := by
  cases role with
  | root => exact sameRun_changed fun document => congrArg _ (document.read_congr h)
  | enums =>
    refine sameList_changed fun hname => ?_
    subst hname
    exact readEnum_congr h
  | enumeration => exact sameRun_changed fun enumeration => enumeration.read_congr h
  | entry => exact sameRun_changed fun entry => entry.read_congr h
  | messages =>
    refine sameList_changed fun hname => ?_
    subst hname
    exact readMessage_congr h
  | message => exact sameRun_changed fun message => message.read_congr h
  | text => rfl
  | unread => trivial

end Changed

/-! ## Changes are not seen -/

/-- Contents agree before and after a change. -/
theorem Edit.agree {role : Role} {before after : List Node} (h : Edit role before after) :
    role.Agree before after := by
  -- the change is made between what is in front of it and what is behind it
  induction h with
  | @insert role front back name attributes children hname =>
    have hagree : role.Agree [] [.element name attributes children] := role.agree_inserted hname
    simpa using hagree.within front back
  | @split role front back one other =>
    simpa using (role.agree_split one other).within front back
  | @inside role front back name attributes before after _ ih =>
    have hagree : role.Agree [.element name attributes before] [.element name attributes after] :=
      role.agree_changed ih
    simpa using hagree.within front back

/-- Documents and errors are the same before and after any changes. -/
theorem outcome_of_edits {name : String} (attributes : List (String × String))
    {children children' : List Node}
    (h : Edits (Role.ofRoot name) children children') :
    (Document.ofElement ⟨name, attributes, children⟩).outcome =
      (Document.ofElement ⟨name, attributes, children'⟩).outcome := by
  induction h with
  | refl children => rfl
  | symm children children' _ ih => exact ih.symm
  | trans children between children' _ _ ih ih' => exact ih.trans ih'
  | rel children children' hedit =>
    unfold Document.ofElement
    dsimp only
    by_cases hroot : name = "mavlink"
    · have hagree : Role.root.Agree children children' := by
        have hedit' := hedit.agree
        rwa [Role.ofRoot, if_pos hroot] at hedit'
      rw [if_pos hroot, if_pos hroot, Outcome.outcome_foldlM, Outcome.outcome_foldlM]
      exact hagree Document.empty
    · rw [if_neg hroot, if_neg hroot]

end MavlinkCompiler.Schema
