import MavlinkCompiler.Proofs.Model.Association
import MavlinkCompiler.Proofs.Model.Load

/-!
# The order of sources

The order in which definition files are given decides the order in a model, which group an
enumeration belongs to, and which of two clashing files is blamed. Nothing else depends on it: the
same files can be loaded, and the models have the same messages, the same enumerations up to the
order of their entries, and the same associations.

* `Declared.placeless`: a declaration apart from the position of its group.
* `Loadable.of_perm`: whether documents can be joined does not depend on their order.
* `Model.Agrees`: models that differ in nothing but order.
* `load_of_perm`: files in another order give a model that agrees.

A catalog is compared with the declarations that it covers, not with the other catalog step by step.
So all that has to be known of the order is that it takes no part in the declarations.
-/

namespace MavlinkCompiler

open Schema (Document EntryDefinition EnumDefinition MessageDefinition)

/-- Lists whose elements are given one by one by the elements of lists in different order are
themselves the same up to order. -/
theorem perm_of_forall₂ {α β : Type} {R : α → β → Prop} {inputs inputs' : List α}
    {results results' : List β} (hperm : inputs.Perm inputs')
    (h : List.Forall₂ R inputs results) (h' : List.Forall₂ R inputs' results')
    (hunique : ∀ a b b', R a b → R a b' → b = b') : results.Perm results' := by
  obtain ⟨reordered, hreordered, hresults⟩ := List.perm_comp_forall₂ hperm h'
  have heq : results = reordered := by
    clear hresults h' hperm
    induction h generalizing reordered with
    | nil => cases hreordered; rfl
    | cons hfirst _ ih =>
      cases hreordered with
      | cons hfirst' hrest => rw [hunique _ _ _ hfirst hfirst', ih _ hrest]
  exact heq ▸ hresults

/-- What is given by an element of a list is given by the list. -/
theorem exists_of_forall₂ {α β : Type} {R : α → β → Prop} {inputs : List α} {results : List β}
    (h : List.Forall₂ R inputs results) {input : α} (hinput : input ∈ inputs) :
    ∃ result ∈ results, R input result := by
  induction h with
  | nil => cases hinput
  | cons hfirst _ ih =>
    rcases List.mem_cons.mp hinput with rfl | hrest
    · exact ⟨_, List.mem_cons_self, hfirst⟩
    · obtain ⟨result, hresult, hgiven⟩ := ih hrest
      exact ⟨result, List.mem_cons_of_mem _ hresult, hgiven⟩

/-! ## Declarations without the positions of their groups -/

/-- A declaration apart from the position of its group. -/
def Declared.placeless {δ : Type} (declared : Declared δ) : Option String × δ :=
  (declared.scope, declared.definition)

theorem map_placeless_declarations {δ : Type} (pick : Document → List δ)
    (documents : List (String × Document)) :
    (declarations pick documents).map Declared.placeless =
      documents.flatMap fun (source, document) =>
        (pick document).map fun definition => (groupScope (groupName source), definition) := by
  induction documents using List.reverseRecOn with
  | nil => rfl
  | append_singleton documents last ih =>
    rw [declarations_concat, List.map_append, ih, List.flatMap_append, List.flatMap_singleton]
    simp [declaredBy, Declared.placeless]

theorem placeless_perm {δ : Type} (pick : Document → List δ)
    {documents documents' : List (String × Document)} (h : documents.Perm documents') :
    ((declarations pick documents).map Declared.placeless).Perm
      ((declarations pick documents').map Declared.placeless) := by
  rw [map_placeless_declarations, map_placeless_declarations]
  exact h.flatMap_right _

/-- A declaration is in a document at the position of its group. -/
theorem mem_declarations_iff {δ : Type} {pick : Document → List δ}
    {documents : List (String × Document)} {declared : Declared δ} :
    declared ∈ declarations pick documents ↔
      ∃ source document, documents[declared.group]? = some (source, document) ∧
        declared.scope = groupScope (groupName source) ∧ declared.definition ∈ pick document := by
  unfold declarations declaredBy
  simp only [List.mem_flatMap, List.mem_zipIdx_iff_getElem?, List.mem_map]
  constructor
  · rintro ⟨⟨⟨source, document⟩, group⟩, hat, definition, hmem, rfl⟩
    dsimp only at hat hmem ⊢
    exact ⟨source, document, hat, rfl, hmem⟩
  · rintro ⟨source, document, hat, hscope, hmem⟩
    exact ⟨((source, document), declared.group), hat, declared.definition, hmem, by rw [← hscope]⟩

section Placeless

variable {scoping : Scoping} {enums enums' : List (Declared EnumDefinition)}
  {messages messages' : List (Declared MessageDefinition)}

theorem declaredEntries_declarationsOf (key : String) :
    declaredEntries (declarationsOf scoping key enums) =
      ((enums.map Declared.placeless).filter fun declared =>
        (scoping.qualify declared.1 (safeName declared.2.name)).text = key).flatMap
        (·.2.entries) := by
  rw [List.filter_map, List.flatMap_map]
  rfl

/-- The entries that are declared for a name. -/
theorem declaredEntries_perm
    (h : (enums.map Declared.placeless).Perm (enums'.map Declared.placeless)) (key : String) :
    (declaredEntries (declarationsOf scoping key enums)).Perm
      (declaredEntries (declarationsOf scoping key enums')) := by
  rw [declaredEntries_declarationsOf, declaredEntries_declarationsOf]
  exact (h.filter _).flatMap_right _

/-- The names that are declared. -/
theorem enumKeys_perm (h : (enums.map Declared.placeless).Perm (enums'.map Declared.placeless)) :
    (enums.map (Declared.enumKey scoping)).Perm (enums'.map (Declared.enumKey scoping)) := by
  have hkeys : ((enums.map Declared.placeless).map fun declared =>
      (scoping.qualify declared.1 (safeName declared.2.name)).text).Perm _ := h.map _
  rwa [List.map_map, List.map_map] at hkeys

theorem EnumsAgree.of_perm (h : EnumsAgree scoping enums)
    (hperm : (enums.map Declared.placeless).Perm (enums'.map Declared.placeless)) :
    EnumsAgree scoping enums' := by
  refine ⟨fun key => ?_, fun entry hentry => h.params entry ?_⟩
  · exact ((declaredEntries_perm hperm key).map _).nodup_iff.mp (h.entries key)
  · have hall : ∀ enums : List (Declared EnumDefinition), declaredEntries enums =
        (enums.map Declared.placeless).flatMap (·.2.entries) :=
      fun enums => by rw [List.flatMap_map]; rfl
    rw [hall] at hentry ⊢
    exact (hperm.flatMap_right _).mem_iff.mpr hentry

theorem MessagesAgree.of_perm (h : MessagesAgree scoping messages)
    (hperm : (messages.map Declared.placeless).Perm (messages'.map Declared.placeless)) :
    MessagesAgree scoping messages' := by
  have hids : ((messages.map Declared.placeless).map (·.2.id)).Perm _ := hperm.map _
  have hnames : ((messages.map Declared.placeless).map fun declared =>
      (scoping.qualify declared.1 (safeName declared.2.name)).text).Perm _ := hperm.map _
  rw [List.map_map, List.map_map] at hids hnames
  exact ⟨hids.nodup_iff.mp h.ids, hnames.nodup_iff.mp h.names⟩

end Placeless

/-- Whether documents can be joined does not depend on their order. -/
theorem Loadable.of_perm {scoping : Scoping} {documents documents' : List (String × Document)}
    (h : Loadable scoping documents) (hperm : documents.Perm documents') :
    Loadable scoping documents' :=
  ⟨(hperm.map (·.1)).nodup_iff.mp h.sources, h.enums.of_perm (placeless_perm _ hperm),
    h.messages.of_perm (placeless_perm _ hperm)⟩

/-- Files in another order are read as the same documents in another order. -/
theorem Reads.of_perm {sources sources' : List Source} {documents : List (String × Document)}
    (h : Reads sources documents) (hperm : sources.Perm sources') :
    ∃ documents', Reads sources' documents' ∧ documents.Perm documents' := by
  obtain ⟨documents', hreads, hdocuments⟩ := List.perm_comp_forall₂ hperm.symm h
  exact ⟨documents', hreads, hdocuments.symm⟩

/-- A file is read in one way only. -/
theorem eq_of_read {source : Source} {document document' : String × Document}
    (h : document.1 = source.id ∧
      (Document.parse source.id source.text).outcome = .ok document.2)
    (h' : document'.1 = source.id ∧
      (Document.parse source.id source.text).outcome = .ok document'.2) : document = document' := by
  obtain ⟨_, document⟩ := document
  obtain ⟨_, document'⟩ := document'
  obtain ⟨rfl, hread⟩ := h
  obtain ⟨rfl, hread'⟩ := h'
  obtain rfl : document = document' := Except.ok.inj (hread.symm.trans hread')
  rfl

/-- What is read from files is determined by the files. -/
theorem Reads.unique {sources : List Source} {documents documents' : List (String × Document)}
    (h : Reads sources documents) (h' : Reads sources documents') : documents = documents' := by
  refine List.right_unique_forall₂' ?_ h h'
  intro source document document' hread hread'
  exact eq_of_read hread hread'

theorem Reads.perm {sources sources' : List Source}
    {documents documents' : List (String × Document)} (h : Reads sources documents)
    (h' : Reads sources' documents') (hperm : sources.Perm sources') :
    documents.Perm documents' := by
  exact perm_of_forall₂ hperm h h' fun _ _ _ hread hread' => eq_of_read hread hread'

/-! ## Models that differ in order only -/

/-- An entry is given by its definition. -/
theorem Entry.Declares.unique {definition : EntryDefinition} {entry other : Entry}
    (h : entry.Declares definition) (h' : other.Declares definition) : entry = other := by
  have hparams : entry.params = other.params := by
    refine List.Perm.eq_of_pairwise ?_ h.sorted h'.sorted (h.params.trans h'.params.symm)
    -- no two indices are each below the other
    intro a b _ _ hab hba
    exact absurd (UInt32.lt_trans hab hba) (UInt32.lt_irrefl _)
  cases entry
  cases other
  obtain ⟨rfl, rfl, rfl, -, -⟩ := h
  obtain ⟨hname, hdeclared, hdescription, -, -⟩ := h'
  simp_all

/-- A declaration in another group gives the same message but for the group. -/
theorem Message.Declares.at_group {message : Message} {declared : Declared MessageDefinition}
    (h : message.Declares declared) (group : Nat) :
    ({ message with group } : Message).Declares { declared with group } := by
  obtain ⟨fields, hfields, hmessage⟩ := Outcome.bind_eq_ok_iff.mp h
  cases hmessage
  exact Outcome.bind_eq_ok_iff.mpr ⟨fields, hfields, rfl⟩

theorem Message.Declares.group {message : Message} {declared : Declared MessageDefinition}
    (h : message.Declares declared) : message.group = declared.group :=
  (Catalog.ofDefinition_home h).2

/-- A message of one model and one of another that are the same but for the positions of their
groups, and whose groups have the same source. -/
structure Model.Corresponds (model model' : Model) (message message' : Message) : Prop where
  content : message' = { message with group := message'.group }
  source : ∃ group group', model.groupOf? message = some group ∧
    model'.groupOf? message' = some group' ∧ group.source = group'.source

/-- Models that differ in nothing but order: they have messages with the same written names, which
correspond to each other; enumerations with the same written names, with the same entries up to
order; and the same associations. -/
structure Model.Agrees (model model' : Model) : Prop where
  messages : ∀ key, Option.Rel (model.Corresponds model') (model.message? key)
    (model'.message? key)
  enums : ∀ key, Option.Rel (fun enumeration other => enumeration.entries.Perm other.entries)
    (model.enum? key) (model'.enum? key)
  associations : ∀ message field,
    model.associations.lookup? message field = model'.associations.lookup? message field

/-- What one side has, the other has, and neither has what the other has not. -/
theorem optionRel_of_forall {α : Type} {R : α → α → Prop} {left right : Option α}
    (hleft : ∀ a, left = some a → ∃ b, right = some b ∧ R a b)
    (hright : ∀ b, right = some b → left ≠ none) : Option.Rel R left right := by
  cases left with
  | none =>
    cases right with
    | none => exact .none
    | some b => exact absurd rfl (hright b rfl)
  | some a =>
    obtain ⟨b, rfl, hab⟩ := hleft a rfl
    exact .some hab

namespace Catalog

variable {scoping : Scoping} {catalog catalog' : Catalog}
  {documents documents' : List (String × Document)}

theorem covers_empty (scoping : Scoping) : (empty scoping).Covers scoping [] :=
  ⟨coherent_empty scoping, holds_empty scoping⟩

/-- The group of a document is at the position of the document. -/
theorem Covers.exists_group (h : catalog.Covers scoping documents) {position : Nat}
    {source : String} {document : Document}
    (hat : documents[position]? = some (source, document)) :
    ∃ group, catalog.groups[position]? = some group ∧ group.source = source := by
  have hsource : (catalog.groups.map (·.source))[position]? = some source := by
    rw [h.holds.sources, List.getElem?_map, hat]
    rfl
  rw [List.getElem?_map, Option.map_eq_some_iff] at hsource
  exact hsource

/-- The message of a catalog has a counterpart in the catalog of the same documents in another
order. -/
theorem Covers.exists_corresponding (h : catalog.Covers scoping documents)
    (h' : catalog'.Covers scoping documents') (hperm : documents.Perm documents') {key : String}
    {message : Message} (hfound : catalog.finish.message? key = some message) :
    ∃ message', catalog'.finish.message? key = some message' ∧
      catalog.finish.Corresponds catalog'.finish message message' := by
  obtain ⟨hmem, hkey⟩ := h.coherent.messagesByName.bind_eq_some_iff.mp hfound
  obtain ⟨declared, hdeclared, hdeclares⟩ := exists_of_forall₂ h.holds.messages hmem
  obtain ⟨source, document, hat, hscope, hdefinition⟩ := mem_declarations_iff.mp hdeclared
  -- the document is in the other list too, at a position of its own
  obtain ⟨position, hat'⟩ :=
    List.mem_iff_getElem?.mp (hperm.subset (List.mem_of_getElem? hat))
  have hdeclared' : { declared with group := position } ∈ declarations (·.messages) documents' :=
    mem_declarations_iff.mpr ⟨source, document, hat', hscope, hdefinition⟩
  obtain ⟨message', hmem', hdeclares'⟩ := exists_of_forall₂ h'.holds.messages.flip hdeclared'
  have hcontent : message' = { message with group := position } :=
    Except.ok.inj ((hdeclares' : message'.Declares _).symm.trans (hdeclares.at_group position))
  have hkey' : catalog'.messageKey message' = key := by
    rw [← hkey, Message.Declares.key hdeclares', Message.Declares.key hdeclares,
      h'.holds.settled, h.holds.settled]
    rfl
  obtain ⟨group, hgroup, hsource⟩ := h.exists_group hat
  obtain ⟨group', hgroup', hsource'⟩ := h'.exists_group hat'
  refine ⟨message', h'.coherent.messagesByName.bind_eq_some_iff.mpr ⟨hmem', hkey'⟩, ?_,
    group, group', ?_, ?_, hsource.trans hsource'.symm⟩
  · rw [hcontent]
  · show catalog.groups[message.group]? = some group
    rw [hdeclares.group, hgroup]
  · show catalog'.groups[message'.group]? = some group'
    rw [hcontent, hgroup']

/-- An enumeration has the same entries in the catalog of the same documents in another order. -/
theorem Covers.exists_entries_perm (h : catalog.Covers scoping documents)
    (h' : catalog'.Covers scoping documents') (hperm : documents.Perm documents') {key : String}
    {enumeration : Enumeration} (hfound : catalog.finish.enum? key = some enumeration) :
    ∃ enumeration', catalog'.finish.enum? key = some enumeration' ∧
      enumeration.entries.Perm enumeration'.entries := by
  obtain ⟨hmem, hkey⟩ := h.coherent.enumsByName.bind_eq_some_iff.mp hfound
  have hplaceless := placeless_perm (·.enums) hperm
  -- the name is declared, so there is an enumeration of this name in the other catalog
  have hdeclared : key ∈ (declarations (·.enums) documents').map (Declared.enumKey scoping) := by
    refine (enumKeys_perm hplaceless).subset (h.holds.mem_keys.mp ?_)
    exact List.mem_map.mpr ⟨enumeration, hmem, hkey⟩
  obtain ⟨enumeration', hmem', hkey'⟩ := List.mem_map.mp (h'.holds.mem_keys.mpr hdeclared)
  refine ⟨enumeration', h'.coherent.enumsByName.bind_eq_some_iff.mpr ⟨hmem', hkey'⟩, ?_⟩
  -- both are joined from all declarations of the name
  obtain ⟨position, hposition⟩ := List.mem_iff_getElem?.mp hmem
  obtain ⟨position', hposition'⟩ := List.mem_iff_getElem?.mp hmem'
  have hjoins := (h.holds.joins position enumeration hposition).entries
  have hjoins' := (h'.holds.joins position' enumeration' hposition').entries
  rw [hkey] at hjoins
  rw [hkey'] at hjoins'
  exact perm_of_forall₂ (declaredEntries_perm hplaceless key) hjoins.flip hjoins'.flip
    fun _ _ _ hentry hother => Entry.Declares.unique hentry hother

/-! ## Associations -/

/-- What the fields of a message name depends on which enumerations there are, and on the scope and
the fields of the message. -/
theorem namedEnums_congr (hscoping : catalog.scoping = catalog'.scoping)
    (henums : catalog.hasEnum = catalog'.hasEnum) {message message' : Message}
    (hscope : message.scope = message'.scope) (hfields : message.fields = message'.fields)
    (field : String) : catalog.namedEnums message field = catalog'.namedEnums message' field := by
  have hresolved : catalog.resolvedEnum? message = catalog'.resolvedEnum? message' := by
    funext found
    unfold resolvedEnum? fieldEnum?
    rw [hscoping, henums, hscope]
  rw [namedEnums, namedEnums, hfields, hresolved]

/-- What a message names does not depend on the order of documents. -/
theorem namedEnum?_congr (hscoping : catalog.scoping = catalog'.scoping)
    (henums : catalog.hasEnum = catalog'.hasEnum)
    (hmessages : ∀ key, Option.Rel (catalog.finish.Corresponds catalog'.finish)
      (catalog.finish.message? key) (catalog'.finish.message? key)) (message field : String) :
    catalog.namedEnum? message field = catalog'.namedEnum? message field := by
  unfold namedEnum?
  have hrel := hmessages message
  generalize catalog.finish.message? message = found at hrel
  generalize catalog'.finish.message? message = found' at hrel
  cases hrel with
  | none => rfl
  | some hcorresponds =>
    rw [Option.bind_some, Option.bind_some, namedEnums_congr hscoping henums]
    · rw [hcorresponds.content]
    · rw [hcorresponds.content]
      rfl

/-- Catalogs of the same documents in different orders give models that agree. -/
theorem Covers.agrees (h : catalog.Covers scoping documents)
    (h' : catalog'.Covers scoping documents') (hperm : documents.Perm documents') :
    catalog.finish.Agrees catalog'.finish := by
  have hmessages : ∀ key, Option.Rel (catalog.finish.Corresponds catalog'.finish)
      (catalog.finish.message? key) (catalog'.finish.message? key) := by
    intro key
    refine optionRel_of_forall (fun _ hfound => h.exists_corresponding h' hperm hfound) ?_
    intro message' hfound' hnone
    obtain ⟨message, hfound, -⟩ := h'.exists_corresponding h hperm.symm hfound'
    rw [hnone] at hfound
    cases hfound
  have henums : ∀ key, Option.Rel
      (fun enumeration other : Enumeration => enumeration.entries.Perm other.entries)
      (catalog.finish.enum? key) (catalog'.finish.enum? key) := by
    intro key
    refine optionRel_of_forall (fun _ hfound => h.exists_entries_perm h' hperm hfound) ?_
    intro enumeration' hfound' hnone
    obtain ⟨enumeration, hfound, -⟩ := h'.exists_entries_perm h hperm.symm hfound'
    rw [hnone] at hfound
    cases hfound
  refine ⟨hmessages, henums, fun message field => ?_⟩
  have hscoping : catalog.scoping = catalog'.scoping :=
    h.holds.settled.trans h'.holds.settled.symm
  have hdeclared : catalog.hasEnum = catalog'.hasEnum := by
    funext key
    rw [h.coherent.hasEnum_eq, h'.coherent.hasEnum_eq]
    have hrel := henums key
    generalize catalog.finish.enum? key = found at hrel
    generalize catalog'.finish.enum? key = found' at hrel
    cases hrel <;> rfl
  have hknown : catalog.knownFieldAssociations = catalog'.knownFieldAssociations := by
    unfold knownFieldAssociations
    rw [hdeclared]
  have hnamed := namedEnum?_congr hscoping hdeclared hmessages
  rw [h.coherent.lookup?_associations, h'.coherent.lookup?_associations, hnamed, hnamed, hknown]

end Catalog

/-! ## Loading in another order -/

/-- A loaded model is that of a catalog that covers the documents of the files. -/
theorem Model.exists_covers {scoping : Scoping} {sources : List Source} {model : Model}
    (h : (Model.load scoping sources).outcome = .ok model) :
    ∃ (catalog : Catalog) (documents : List (String × Document)), model = catalog.finish ∧
      Reads sources documents ∧ catalog.Covers scoping documents := by
  obtain ⟨catalog, hrun, rfl⟩ := Model.load_eq_ok_iff.mp h
  obtain ⟨documents, hreads, hcovers⟩ := foldlM_addText_covers (Catalog.covers_empty scoping) hrun
  exact ⟨catalog, documents, rfl, hreads, hcovers⟩

/-- Files that can be loaded can be loaded in another order. -/
theorem Model.exists_load_of_perm {scoping : Scoping} {sources sources' : List Source}
    (hperm : sources.Perm sources') {model : Model}
    (h : (Model.load scoping sources).outcome = .ok model) :
    ∃ model', (Model.load scoping sources').outcome = .ok model' := by
  obtain ⟨catalog, documents, -, hreads, hcovers⟩ := Model.exists_covers h
  obtain ⟨documents', hreads', hdocuments⟩ := hreads.of_perm hperm
  obtain ⟨after, hafter⟩ := exists_foldlM_addText hreads' (Catalog.covers_empty scoping)
    (hcovers.loadable.of_perm hdocuments)
  exact ⟨after.finish, Model.load_eq_ok_iff.mpr ⟨after, hafter, rfl⟩⟩

/-- **Only order depends on the order of sources.** Files can be loaded exactly if they can be
loaded in any other order. The models then agree: there are messages with the same written names,
which differ at most in the position of their group and have groups with the same source;
enumerations with the same written names and the same entries; and the same association for every
message and field. -/
theorem load_of_perm (scoping : Scoping) {sources sources' : List Source}
    (hperm : sources.Perm sources') :
    ((∃ model, (Model.load scoping sources).outcome = .ok model) ↔
      ∃ model', (Model.load scoping sources').outcome = .ok model') ∧
    ∀ model model', (Model.load scoping sources).outcome = .ok model →
      (Model.load scoping sources').outcome = .ok model' → model.Agrees model' := by
  refine ⟨⟨?_, ?_⟩, fun model model' hmodel hmodel' => ?_⟩
  · rintro ⟨model, hmodel⟩
    exact Model.exists_load_of_perm hperm hmodel
  · rintro ⟨model', hmodel'⟩
    exact Model.exists_load_of_perm hperm.symm hmodel'
  · obtain ⟨catalog, documents, rfl, hreads, hcovers⟩ := Model.exists_covers hmodel
    obtain ⟨catalog', documents', rfl, hreads', hcovers'⟩ := Model.exists_covers hmodel'
    exact hcovers.agrees hcovers' (hreads.perm hreads' hperm)

/-- A definition file with an enumeration and a message whose field names it. -/
def switchSource : Source :=
  ⟨"s.xml", "<mavlink><enums><enum name='M'><entry name='ON'/></enum></enums>" ++
    "<messages><message name='S' id='1'><field name='f' type='char' enum='M'/></message>" ++
    "</messages></mavlink>"⟩

/-- A definition file with a further entry of the enumeration. -/
def furtherSource : Source :=
  ⟨"t.xml", "<mavlink><enums><enum name='M'><entry name='OFF'/></enum></enums></mavlink>"⟩

theorem load_of_swapped_sources :
    [switchSource, furtherSource].Perm [furtherSource, switchSource] ∧
    ∃ model model', (Model.load .merged [switchSource, furtherSource]).outcome = .ok model ∧
      (Model.load .merged [furtherSource, switchSource]).outcome = .ok model' ∧
      model.Agrees model' ∧ model'.associations.lookup? "S" "f" = some "M" := by
  have hperm : [switchSource, furtherSource].Perm [furtherSource, switchSource] := .swap _ _ _
  have hloaded : ((Model.load .merged [switchSource, furtherSource]).outcome.toOption.bind
      fun model => model.associations.lookup? "S" "f") = some "M" := by
    decide +kernel
  obtain ⟨model, hsome, hlookup⟩ := Option.bind_eq_some_iff.mp hloaded
  have hmodel : (Model.load .merged [switchSource, furtherSource]).outcome = .ok model := by
    cases houtcome : (Model.load .merged [switchSource, furtherSource]).outcome with
    | error error =>
      rw [houtcome] at hsome
      cases hsome
    | ok found =>
      rw [houtcome] at hsome
      cases hsome
      rfl
  obtain ⟨hiff, hagree⟩ := load_of_perm .merged hperm
  obtain ⟨model', hmodel'⟩ := hiff.mp ⟨model, hmodel⟩
  have hagrees := hagree model model' hmodel hmodel'
  exact ⟨hperm, model, model', hmodel, hmodel', hagrees, by rw [← hagrees.associations, hlookup]⟩

end MavlinkCompiler
