import MavlinkCompiler.Proofs.Model.Catalog
import MavlinkCompiler.Proofs.Schema.Reader

/-!
# Declarations

What definition files declare, all together: each definition with the group that it is in. Said of
these are the conditions under which files can be joined, and what the joined model looks like.

* `declarations`: the definitions of all files in order.
* `Loadable`: sources, message ids and message names are distinct; so are the entry names of all
  declarations of one enumeration, and the parameter indices of one entry.
* `Enumeration.Joins`: an enumeration is joined from declarations.
* `Message.Declares`: a message is what a declaration gives.
-/

namespace MavlinkCompiler

open Schema (Document EntryDefinition EnumDefinition MessageDefinition)

/-! ## Declarations -/

/-- A definition with the scope and the position of the group that declares it. -/
structure Declared (δ : Type) where
  scope : Option String
  group : Nat
  definition : δ

namespace Declared

/-- The written name of a declared enumeration. -/
def enumKey (scoping : Scoping) (declared : Declared EnumDefinition) : String :=
  (scoping.qualify declared.scope (safeName declared.definition.name)).text

/-- The written name of a declared message. -/
def messageKey (scoping : Scoping) (declared : Declared MessageDefinition) : String :=
  (scoping.qualify declared.scope (safeName declared.definition.name)).text

end Declared

/-- The definitions of a source as the group at a position. -/
def declaredBy {δ : Type} (source : String) (group : Nat) (definitions : List δ) :
    List (Declared δ) :=
  definitions.map (Declared.mk (groupScope (groupName source)) group)

/-- The definitions of documents in order, each document a group of its own. -/
def declarations {δ : Type} (pick : Document → List δ) (documents : List (String × Document)) :
    List (Declared δ) :=
  documents.zipIdx.flatMap fun ((source, document), group) =>
    declaredBy source group (pick document)

theorem declarations_concat {δ : Type} (pick : Document → List δ)
    (documents : List (String × Document)) (source : String) (document : Document) :
    declarations pick (documents ++ [(source, document)]) =
      declarations pick documents ++ declaredBy source documents.length (pick document) := by
  simp [declarations, List.zipIdx_append]

/-- The declarations of the first documents come first. -/
theorem declarations_append {δ : Type} (pick : Document → List δ)
    (front back : List (String × Document)) :
    ∃ rest, declarations pick (front ++ back) = declarations pick front ++ rest := by
  unfold declarations
  rw [List.zipIdx_append, List.flatMap_append]
  exact ⟨_, rfl⟩

/-- The declarations of the enumeration with a written name. -/
def declarationsOf (scoping : Scoping) (key : String) (enums : List (Declared EnumDefinition)) :
    List (Declared EnumDefinition) :=
  enums.filter fun declared => declared.enumKey scoping = key

/-- The entries that declarations declare. -/
def declaredEntries (enums : List (Declared EnumDefinition)) : List EntryDefinition :=
  enums.flatMap (·.definition.entries)

theorem declaredEntries_append (front back : List (Declared EnumDefinition)) :
    declaredEntries (front ++ back) = declaredEntries front ++ declaredEntries back :=
  List.flatMap_append

section DeclarationsOf

variable {scoping : Scoping} {key : String} {enums : List (Declared EnumDefinition)}
  {declared : Declared EnumDefinition}

theorem declarationsOf_concat_of_eq (h : declared.enumKey scoping = key) :
    declarationsOf scoping key (enums ++ [declared]) =
      declarationsOf scoping key enums ++ [declared] := by
  simp [declarationsOf, List.filter_append, h]

theorem declarationsOf_concat_of_ne (h : declared.enumKey scoping ≠ key) :
    declarationsOf scoping key (enums ++ [declared]) = declarationsOf scoping key enums := by
  simp [declarationsOf, List.filter_append, h]

/-- An enumeration that is not declared has no declarations. -/
theorem declarationsOf_eq_nil (h : key ∉ enums.map (Declared.enumKey scoping)) :
    declarationsOf scoping key enums = [] := by
  rw [declarationsOf, List.filter_eq_nil_iff]
  intro other hother heq
  exact h (List.mem_map.mpr ⟨other, hother, of_decide_eq_true heq⟩)

end DeclarationsOf

/-- A key that is there already does not appear for the first time. -/
theorem eraseDups_concat_of_mem {α : Type} [BEq α] [LawfulBEq α] {keys : List α} {key : α}
    (h : key ∈ keys) : (keys ++ [key]).eraseDups = keys.eraseDups := by
  simp [List.eraseDups_append, List.removeAll, h]

/-- A new key appears last. -/
theorem eraseDups_concat_of_not_mem {α : Type} [BEq α] [LawfulBEq α] {keys : List α} {key : α}
    (h : key ∉ keys) : (keys ++ [key]).eraseDups = keys.eraseDups ++ [key] := by
  simp [List.eraseDups_append, List.removeAll, h, List.eraseDups_cons]

/-! ## What is accepted -/

/-- Enumerations that can be joined: the declarations of each have distinct entry names, and the
parameters of each entry distinct indices. -/
structure EnumsAgree (scoping : Scoping) (enums : List (Declared EnumDefinition)) : Prop where
  entries : ∀ key, ((declaredEntries (declarationsOf scoping key enums)).map fun entry =>
    safeName entry.name).Nodup
  params : ∀ entry ∈ declaredEntries enums, (entry.params.map (·.1)).Nodup

/-- Messages that can stand beside each other: their ids and their written names are distinct. -/
structure MessagesAgree (scoping : Scoping) (messages : List (Declared MessageDefinition)) :
    Prop where
  ids : (messages.map (·.definition.id)).Nodup
  names : (messages.map (Declared.messageKey scoping)).Nodup

/-- Documents that can be joined to a model. -/
structure Loadable (scoping : Scoping) (documents : List (String × Document)) : Prop where
  sources : (documents.map (·.1)).Nodup
  enums : EnumsAgree scoping (declarations (·.enums) documents)
  messages : MessagesAgree scoping (declarations (·.messages) documents)

theorem EnumsAgree.front {scoping : Scoping} {front back : List (Declared EnumDefinition)}
    (h : EnumsAgree scoping (front ++ back)) : EnumsAgree scoping front := by
  refine ⟨fun key => ?_, fun entry hentry => h.params entry ?_⟩
  · have hall := h.entries key
    rw [declarationsOf, List.filter_append, declaredEntries_append, List.map_append] at hall
    exact hall.of_append_left
  · rw [declaredEntries_append]
    exact List.mem_append_left _ hentry

theorem MessagesAgree.front {scoping : Scoping} {front back : List (Declared MessageDefinition)}
    (h : MessagesAgree scoping (front ++ back)) : MessagesAgree scoping front := by
  have hids := h.ids
  have hnames := h.names
  rw [List.map_append] at hids hnames
  exact ⟨hids.of_append_left, hnames.of_append_left⟩

theorem Loadable.front {scoping : Scoping} {front back : List (String × Document)}
    (h : Loadable scoping (front ++ back)) : Loadable scoping front := by
  have hsources := h.sources
  have henums := h.enums
  have hmessages := h.messages
  obtain ⟨enums, heq⟩ := declarations_append (·.enums) front back
  obtain ⟨messages, heq'⟩ := declarations_append (·.messages) front back
  rw [List.map_append] at hsources
  rw [heq] at henums
  rw [heq'] at hmessages
  exact ⟨hsources.of_append_left, henums.front, hmessages.front⟩

/-! ## What is given -/

/-- An enumeration that is joined from declarations: it belongs where the first one is, has the
first description there is, and the entries of all in order. -/
structure Enumeration.Joins (enumeration : Enumeration)
    (found : List (Declared EnumDefinition)) : Prop where
  first : ∃ first rest, found = first :: rest ∧
    enumeration.name = safeName first.definition.name ∧ enumeration.scope = first.scope ∧
    enumeration.group = first.group
  description : enumeration.description = found.findSome? (·.definition.description)
  entries : List.Forall₂ Entry.Declares enumeration.entries (declaredEntries found)

/-- An enumeration that one declaration gives. -/
def Enumeration.Declares (enumeration : Enumeration) (declared : Declared EnumDefinition) : Prop :=
  Enumeration.ofDefinition declared.definition declared.scope declared.group = .ok enumeration

/-- A message that a declaration gives. -/
def Message.Declares (message : Message) (declared : Declared MessageDefinition) : Prop :=
  Message.ofDefinition declared.definition declared.scope declared.group = .ok message

theorem Enumeration.Declares.joins {enumeration : Enumeration}
    {declared : Declared EnumDefinition} (h : enumeration.Declares declared) :
    enumeration.Joins [declared] := by
  obtain ⟨hname, hscope, hgroup, hdescription, hentries, -, -⟩ := Enumeration.ofDefinition_eq_ok h
  refine ⟨⟨declared, [], rfl, hname, hscope, hgroup⟩, ?_, ?_⟩
  · rw [hdescription, List.findSome?_singleton]
  · simpa [declaredEntries] using hentries

/-- One more declaration. -/
theorem Enumeration.Joins.concat {existing further : Enumeration}
    {found : List (Declared EnumDefinition)} {declared : Declared EnumDefinition}
    (h : existing.Joins found) (hfurther : further.Declares declared)
    (hnone : (existing.absorb further).2 = none) :
    (existing.absorb further).1.Joins (found ++ [declared]) := by
  rw [absorb_of_eq_none hnone]
  have hlast := hfurther.joins
  -- the first declaration stays the first
  obtain ⟨first, rest, rfl, hfirst⟩ := h.first
  refine ⟨⟨first, rest ++ [declared], rfl, hfirst⟩, ?_, ?_⟩
  · rw [List.findSome?_append, ← h.description, ← hlast.description]
  · rw [declaredEntries_append]
    exact List.rel_append h.entries hlast.entries

/-- The entries of a joined enumeration have the names that are declared. -/
theorem Enumeration.Joins.entryNames {enumeration : Enumeration}
    {found : List (Declared EnumDefinition)} (h : enumeration.Joins found) :
    enumeration.entryNames = (declaredEntries found).map fun entry => safeName entry.name :=
  entryNames_of_declares h.entries

/-- Values are resolved over all declared entries. -/
theorem Enumeration.Joins.values {enumeration : Enumeration}
    {found : List (Declared EnumDefinition)} (h : enumeration.Joins found) :
    enumeration.values = resolveValues ((declaredEntries found).map (·.value)) := by
  rw [Enumeration.values, map_eq_map_of_forall₂ (fun hentry => hentry.declared) h.entries]

theorem Enumeration.Declares.key {catalog : Catalog} {enumeration : Enumeration}
    {declared : Declared EnumDefinition} (h : enumeration.Declares declared) :
    catalog.enumKey enumeration = declared.enumKey catalog.scoping := by
  obtain ⟨hname, hscope, -⟩ := Enumeration.ofDefinition_eq_ok h
  rw [Catalog.enumKey, Enumeration.qualified, hname, hscope]
  rfl

theorem Message.Declares.key {catalog : Catalog} {message : Message}
    {declared : Declared MessageDefinition} (h : message.Declares declared) :
    catalog.messageKey message = declared.messageKey catalog.scoping := by
  obtain ⟨fields, -, hmessage⟩ := Outcome.bind_eq_ok_iff.mp h
  cases hmessage
  rfl

theorem Message.Declares.id {message : Message} {declared : Declared MessageDefinition}
    (h : message.Declares declared) : message.id = declared.definition.id := by
  obtain ⟨fields, -, hmessage⟩ := Outcome.bind_eq_ok_iff.mp h
  cases hmessage
  rfl

/-- A message is given by every definition with readable types. -/
theorem Message.exists_declares {declared : Declared MessageDefinition}
    (h : declared.definition.Typed) : ∃ message : Message, message.Declares declared := by
  obtain ⟨fields, hfields⟩ : ∃ fields,
      declared.definition.fields.mapM Field.ofDefinition = .ok fields := by
    refine Outcome.exists_mapM fun field hfield => ?_
    obtain ⟨type, htype⟩ := h field hfield
    exact ⟨_, Outcome.bind_eq_ok_iff.mpr ⟨type, Outcome.mapError_eq_ok_iff.mpr htype, rfl⟩⟩
  exact ⟨_, Outcome.bind_eq_ok_iff.mpr ⟨fields, hfields, rfl⟩⟩

end MavlinkCompiler
