import MavlinkCompiler.Proofs.Model.SourceOrder
import MavlinkCompiler.Proofs.Text.Split

/-!
# Merged scopes

When scopes are merged, definitions are told apart by their names alone; when they are separate, by
their names in their scopes. So merging can only let more definitions clash, as long as the written
form of a name in a scope tells what the name is: `a::b` could be the name `b` in the scope `a`, or
a global `a::b`. Names without a colon are told in every scope.

* `Plain`, `QualifiedName.eq_of_text_eq`: names without a colon, which can be told.
* `Loadable.separate`: documents that can be joined with merged scopes can be joined with separate
  ones.
* `Model.Separates`: the model with separate scopes has the messages of the model with merged ones,
  and its enumerations are parts of those there.
* `separate_load_of_merged_load`: so it is whenever files can be loaded with merged scopes.

The two models are compared through the declarations that both are made from: those of one
enumeration with separate scopes are some of those of its name, in the same order.
-/

namespace MavlinkCompiler

open Schema (Document EntryDefinition EnumDefinition MessageDefinition)

/-! ## Names without a colon -/

/-- A name without a colon. -/
def Plain (name : String) : Prop :=
  ':' ∉ name.toList

instance (name : String) : Decidable (Plain name) :=
  inferInstanceAs (Decidable (':' ∉ name.toList))

theorem Plain.safeName {name : String} (h : Plain name) : Plain (safeName name) := by
  unfold MavlinkCompiler.safeName
  cases hfound : reservedNames.lookup name with
  | none => exact h
  | some replacement =>
    -- replacements of reserved names have no colon either
    have hmem : (name, replacement) ∈ reservedNames := by
      obtain ⟨before, after, heq, -⟩ := List.lookup_eq_some_iff.mp hfound
      rw [heq]
      simp
    have hplain : ∀ reserved ∈ reservedNames, Plain reserved.2 := by decide
    exact hplain _ hmem

theorem QualifiedName.toList_text_some (scope name : String) :
    (QualifiedName.text ⟨some scope, name⟩).toList =
      (scope.toList ++ [':']) ++ ':' :: name.toList := by
  simp [text, joined]

/-- A name without a colon and its scope can be told from the written form. -/
theorem QualifiedName.eq_of_text_eq {one other : QualifiedName} (hone : Plain one.name)
    (hother : Plain other.name) (h : one.text = other.text) : one = other := by
  obtain ⟨scope, name⟩ := one
  obtain ⟨scope', name'⟩ := other
  have hlist := congrArg String.toList h
  cases scope with
  | none =>
    cases scope' with
    | none => exact congrArg (QualifiedName.mk none) h
    | some scope' =>
      -- only one of the two written forms has a colon
      rw [toList_text_some] at hlist
      refine absurd ?_ hone
      show ':' ∈ name.toList
      rw [show name.toList = _ from hlist]
      exact List.mem_append_right _ List.mem_cons_self
  | some scope =>
    cases scope' with
    | none =>
      rw [toList_text_some] at hlist
      refine absurd ?_ hother
      show ':' ∈ name'.toList
      rw [show name'.toList = _ from hlist.symm]
      exact List.mem_append_right _ List.mem_cons_self
    | some scope' =>
      rw [toList_text_some, toList_text_some] at hlist
      obtain ⟨hscope, hname⟩ := Text.append_mark_inj_right hone hother hlist
      obtain rfl : scope = scope' := String.toList_inj.mp (List.append_cancel_right hscope)
      obtain rfl : name = name' := String.toList_inj.mp hname
      rfl

/-- The names of a document's enumerations and messages have no colon. -/
structure Schema.Document.Plain (document : Document) : Prop where
  enums : ∀ enumeration ∈ document.enums, MavlinkCompiler.Plain enumeration.name
  messages : ∀ message ∈ document.messages, MavlinkCompiler.Plain message.name

/-! ## Declarations in both scopings -/

/-- Names that are the same with separate scopes are the same with merged ones. -/
theorem merged_text_eq {scope scope' : Option String} {name name' : String} (hname : Plain name)
    (hname' : Plain name') (h : (Scoping.separate.qualify scope (safeName name)).text =
      (Scoping.separate.qualify scope' (safeName name')).text) :
    (Scoping.merged.qualify scope (safeName name)).text =
      (Scoping.merged.qualify scope' (safeName name')).text := by
  have hqualified : Scoping.separate.qualify scope (safeName name) =
      Scoping.separate.qualify scope' (safeName name') :=
    QualifiedName.eq_of_text_eq hname.safeName hname'.safeName h
  have hsafe : safeName name = safeName name' := congrArg QualifiedName.name hqualified
  exact hsafe

section Declarations

variable {enums : List (Declared EnumDefinition)} {messages : List (Declared MessageDefinition)}

/-- With separate scopes the declarations of an enumeration are some of those of its name. -/
theorem declarationsOf_sublist (hplain : ∀ declared ∈ enums, Plain declared.definition.name)
    {first : Declared EnumDefinition} (hfirst : first ∈ enums) :
    (declarationsOf .separate (first.enumKey .separate) enums).Sublist
      (declarationsOf .merged (first.enumKey .merged) enums) := by
  have hsome : declarationsOf .separate (first.enumKey .separate) enums =
      (declarationsOf .merged (first.enumKey .merged) enums).filter
        fun declared => declared.enumKey .separate = first.enumKey .separate := by
    unfold declarationsOf
    rw [List.filter_filter]
    refine List.filter_congr fun declared hdeclared => ?_
    by_cases hkey : declared.enumKey .separate = first.enumKey .separate
    · have hmerged : declared.enumKey .merged = first.enumKey .merged :=
        merged_text_eq (hplain declared hdeclared) (hplain first hfirst) hkey
      simp [hkey, hmerged]
    · simp [hkey]
  rw [hsome]
  exact List.filter_sublist

theorem EnumsAgree.separate (h : EnumsAgree .merged enums)
    (hplain : ∀ declared ∈ enums, Plain declared.definition.name) :
    EnumsAgree .separate enums := by
  refine ⟨fun key => ?_, h.params⟩
  by_cases hkey : key ∈ enums.map (Declared.enumKey .separate)
  · obtain ⟨first, hfirst, rfl⟩ := List.mem_map.mp hkey
    have hentries := (declarationsOf_sublist hplain hfirst).flatMap (·.definition.entries)
    exact (hentries.map _).nodup (h.entries _)
  · rw [declarationsOf_eq_nil hkey]
    exact List.nodup_nil

theorem MessagesAgree.separate (h : MessagesAgree .merged messages)
    (hplain : ∀ declared ∈ messages, Plain declared.definition.name) :
    MessagesAgree .separate messages := by
  refine ⟨h.ids, ?_⟩
  have hnames := h.names
  rw [List.Nodup, List.pairwise_map] at hnames ⊢
  refine hnames.imp_of_mem ?_
  intro one other hone hother hne heq
  exact hne (merged_text_eq (hplain one hone) (hplain other hother) heq)

end Declarations

section Documents

variable {documents : List (String × Document)}

theorem plain_of_mem_enums (hplain : ∀ document ∈ documents, document.2.Plain) :
    ∀ declared ∈ declarations (·.enums) documents, Plain declared.definition.name := by
  intro declared hdeclared
  obtain ⟨source, document, hat, -, hmem⟩ := mem_declarations_iff.mp hdeclared
  exact (hplain _ (List.mem_of_getElem? hat)).enums _ hmem

theorem plain_of_mem_messages (hplain : ∀ document ∈ documents, document.2.Plain) :
    ∀ declared ∈ declarations (·.messages) documents, Plain declared.definition.name := by
  intro declared hdeclared
  obtain ⟨source, document, hat, -, hmem⟩ := mem_declarations_iff.mp hdeclared
  exact (hplain _ (List.mem_of_getElem? hat)).messages _ hmem

/-- Documents that can be joined with merged scopes can be joined with separate ones. -/
theorem Loadable.separate (h : Loadable .merged documents)
    (hplain : ∀ document ∈ documents, document.2.Plain) : Loadable .separate documents :=
  ⟨h.sources, h.enums.separate (plain_of_mem_enums hplain),
    h.messages.separate (plain_of_mem_messages hplain)⟩

end Documents

/-! ## Models in both scopings -/

/-- A model with separate scopes beside the model of the same files with merged scopes: the messages
are the same and the groups list the same of them; and every enumeration has some of the entries of
the one with its name, in the same order. -/
structure Model.Separates (separate merged : Model) : Prop where
  messages : separate.messages = merged.messages
  groups : separate.groups.map (fun group => (group.source, group.messages)) =
    merged.groups.map fun group => (group.source, group.messages)
  enums : ∀ enumeration ∈ separate.enums, ∃ joined,
    merged.enum? enumeration.name = some joined ∧ joined.name = enumeration.name ∧
      enumeration.entries.Sublist joined.entries

/-- What is given one by one by some elements of a list is some of what the list gives. -/
theorem sublist_of_forall₂ {α β : Type} {R : α → β → Prop} {some' all : List β}
    {results results' : List α} (hsome : some'.Sublist all) (h : List.Forall₂ R results some')
    (h' : List.Forall₂ R results' all) (hunique : ∀ {a a' b}, R a b → R a' b → a = a') :
    results.Sublist results' := by
  induction hsome generalizing results results' with
  | slnil =>
    cases h
    exact List.nil_sublist _
  | cons last _ ih =>
    cases h' with
    | cons _ hrest' => exact (ih h hrest').cons _
  | cons_cons first _ ih =>
    cases h with
    | cons hfirst hrest =>
      cases h' with
      | cons hfirst' hrest' =>
        rw [hunique hfirst hfirst']
        exact (ih hrest hrest').cons_cons _

namespace Catalog

variable {scoping scoping' : Scoping} {catalog catalog' : Catalog}
  {documents : List (String × Document)}

/-- Messages do not depend on the scoping. -/
theorem Covers.messages_eq (h : catalog.Covers scoping documents)
    (h' : catalog'.Covers scoping' documents) : catalog.messages = catalog'.messages := by
  refine List.left_unique_forall₂' ?_ h.holds.messages h'.holds.messages
  intro message message' declared hdeclares hdeclares'
  exact Except.ok.inj (hdeclares.symm.trans hdeclares')

/-- Neither does what the groups list of them. -/
theorem Covers.groups_eq (h : catalog.Covers scoping documents)
    (h' : catalog'.Covers scoping' documents) :
    catalog.groups.map (fun group => (group.source, group.messages)) =
      catalog'.groups.map fun group => (group.source, group.messages) := by
  have hsources : catalog.groups.map (·.source) = catalog'.groups.map (·.source) :=
    h.holds.sources.trans h'.holds.sources.symm
  have hmessages := h.messages_eq h'
  refine List.ext_getElem? fun position => ?_
  have hsource := congrArg (·[position]?) hsources
  simp only [List.getElem?_map] at hsource ⊢
  -- there is a group at the position in both or in neither, and its messages are those that name it
  cases hgroup : catalog.groups[position]? with
  | none =>
    rw [hgroup, Option.map_none, eq_comm, Option.map_eq_none_iff] at hsource
    rw [hsource]
  | some group =>
    rw [hgroup, Option.map_some, eq_comm, Option.map_eq_some_iff] at hsource
    obtain ⟨group', hgroup', hsource⟩ := hsource
    rw [hgroup', Option.map_some, Option.map_some, hsource,
      h.coherent.messages.positions_eq hgroup, h'.coherent.messages.positions_eq hgroup', hmessages]

/-- With separate scopes an enumeration has some of the entries of the merged one. -/
theorem Covers.exists_joined (h : catalog.Covers .separate documents)
    (h' : catalog'.Covers .merged documents) (hplain : ∀ document ∈ documents, document.2.Plain)
    {enumeration : Enumeration} (henum : enumeration ∈ catalog.enums) :
    ∃ joined, catalog'.finish.enum? enumeration.name = some joined ∧
      joined.name = enumeration.name ∧ enumeration.entries.Sublist joined.entries := by
  obtain ⟨position, hposition⟩ := List.mem_iff_getElem?.mp henum
  have hjoins := h.holds.joins position enumeration hposition
  obtain ⟨first, rest, hfound, hname, hscope, -⟩ := hjoins.first
  have hkey : catalog.enumKey enumeration = first.enumKey .separate := by
    rw [enumKey, Enumeration.qualified, h.holds.settled, hname, hscope]
    rfl
  have hfirst : first ∈ declarations (·.enums) documents := by
    have hmem : first ∈ declarationsOf .separate (catalog.enumKey enumeration) _ :=
      hfound ▸ List.mem_cons_self
    exact List.mem_of_mem_filter hmem
  -- the name is declared, so with merged scopes there is an enumeration with it
  obtain ⟨joined, hjoined, hkey'⟩ :=
    List.mem_map.mp (h'.holds.mem_keys.mpr (List.mem_map.mpr ⟨first, hfirst, rfl⟩))
  have hname' : joined.name = enumeration.name := by
    rw [enumKey, Enumeration.qualified, h'.holds.settled] at hkey'
    exact hkey'.trans hname.symm
  obtain ⟨position', hposition'⟩ := List.mem_iff_getElem?.mp hjoined
  have hjoins' := h'.holds.joins position' joined hposition'
  rw [hkey] at hjoins
  rw [hkey'] at hjoins'
  refine ⟨joined, ?_, hname', ?_⟩
  · refine h'.coherent.enumsByName.bind_eq_some_iff.mpr ⟨hjoined, ?_⟩
    rw [hkey', hname]
    rfl
  · have hentries := (declarationsOf_sublist (plain_of_mem_enums hplain) hfirst).flatMap
      (·.definition.entries)
    exact sublist_of_forall₂ hentries hjoins.entries hjoins'.entries Entry.Declares.unique

/-- Catalogs of the same documents with separate and with merged scopes. -/
theorem Covers.separates (h : catalog.Covers .separate documents)
    (h' : catalog'.Covers .merged documents) (hplain : ∀ document ∈ documents, document.2.Plain) :
    catalog.finish.Separates catalog'.finish :=
  ⟨h.messages_eq h', h.groups_eq h', fun _ henum => h.exists_joined h' hplain henum⟩

end Catalog

/-! ## Loading in both scopings -/

/-- **Merging scopes is only stricter.** Let no enumeration and no message of the files have a colon
in its name. If the files can be loaded with merged scopes, they can be loaded with separate ones.
The messages are then the same one by one, and so is what the groups list of them; and the entries
of every enumeration are some of those of the merged one with its name, in the same order. -/
theorem separate_load_of_merged_load {sources : List Source}
    (hplain : ∀ source ∈ sources, ∀ document,
      (Document.parse source.id source.text).outcome = .ok document → document.Plain)
    {merged : Model} (hmerged : (Model.load .merged sources).outcome = .ok merged) :
    ∃ separate, (Model.load .separate sources).outcome = .ok separate ∧
      separate.Separates merged := by
  obtain ⟨catalog', documents, rfl, hreads, hcovers'⟩ := Model.exists_covers hmerged
  have hplain' : ∀ document ∈ documents, document.2.Plain := by
    intro document hdocument
    obtain ⟨source, hsource, -, hread⟩ := exists_of_forall₂ hreads.flip hdocument
    exact hplain source hsource document.2 hread
  obtain ⟨catalog, hrun⟩ := exists_foldlM_addText hreads (Catalog.covers_empty .separate)
    (hcovers'.loadable.separate hplain')
  have hseparate : (Model.load .separate sources).outcome = .ok catalog.finish :=
    Model.load_eq_ok_iff.mpr ⟨catalog, hrun, rfl⟩
  refine ⟨catalog.finish, hseparate, ?_⟩
  obtain ⟨documents', hreads', hcovers⟩ :=
    foldlM_addText_covers (Catalog.covers_empty .separate) hrun
  -- both runs read the same documents
  obtain rfl : documents = documents' := by
    refine List.right_unique_forall₂' ?_ hreads hreads'
    intro source document document' hread hread'
    exact eq_of_read hread hread'
  exact hcovers.separates hcovers' hplain'

/-- Two files with one enumeration name in different scopes. -/
theorem separate_load_of_switch_and_further :
    (∀ source ∈ [switchSource, furtherSource], ∀ document,
      (Document.parse source.id source.text).outcome = .ok document → document.Plain) ∧
    ∃ separate merged, (Model.load .merged [switchSource, furtherSource]).outcome = .ok merged ∧
      (Model.load .separate [switchSource, furtherSource]).outcome = .ok separate ∧
      merged.enums.map (·.entryNames) = [["ON", "OFF"]] ∧ separate.Separates merged := by
  have hread : ∀ source ∈ [switchSource, furtherSource],
      ∀ document ∈ (Document.parse source.id source.text).outcome.toOption,
      (∀ enumeration ∈ document.enums, Plain enumeration.name) ∧
        ∀ message ∈ document.messages, Plain message.name := by
    decide +kernel
  have hplain : ∀ source ∈ [switchSource, furtherSource], ∀ document,
      (Document.parse source.id source.text).outcome = .ok document → document.Plain := by
    intro source hsource document hdocument
    obtain ⟨henums, hmessages⟩ := hread source hsource document (by rw [hdocument]; rfl)
    exact ⟨henums, hmessages⟩
  have hloaded : (Model.load .merged [switchSource, furtherSource]).outcome.toOption.map
      (fun model => model.enums.map (·.entryNames)) = some [["ON", "OFF"]] := by
    decide +kernel
  obtain ⟨merged, hsome, hentries⟩ := Option.map_eq_some_iff.mp hloaded
  have hmerged := Outcome.eq_ok_of_toOption hsome
  obtain ⟨separate, hseparate, hseparates⟩ := separate_load_of_merged_load hplain hmerged
  exact ⟨hplain, separate, merged, hmerged, hseparate, hentries, hseparates⟩

end MavlinkCompiler
