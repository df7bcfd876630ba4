import MavlinkCompiler.Proofs.Model.Declaration

/-!
# What loading accepts and what it gives

Loading looks at one definition at a time. Here is what its checks amount to for all definition
files together, and what the model is when all checks pass.

* `Catalog.Holds`: a catalog to which exactly these declarations were added.
* `Reads`: the documents that files are read as.
* `Model.Describes`: messages come one by one from their declarations; each enumeration is joined
  from its declarations.
* `load_meets_specification`: loading succeeds exactly for readable files with loadable documents,
  and then the model describes them.

A completed addition leads from `Holds` to `Holds`. So a completed run ends in a catalog that holds
all declarations, and its being coherent gives the conditions for all files. The other way round,
every condition carries over to the declarations up to some point, so no addition can fail.
-/

namespace MavlinkCompiler

open Schema (Document EntryDefinition EnumDefinition MessageDefinition)

/-! ## Catalogs and what was added to them -/

namespace Catalog

/-- A catalog to which exactly these sources and declarations were added. -/
structure Holds (catalog : Catalog) (scoping : Scoping) (sources : List String)
    (enums : List (Declared EnumDefinition)) (messages : List (Declared MessageDefinition)) :
    Prop where
  settled : catalog.scoping = scoping
  sources : catalog.groups.map (·.source) = sources
  keys : catalog.enums.map catalog.enumKey = (enums.map (Declared.enumKey scoping)).eraseDups
  joins : ∀ (position : Nat) (enumeration : Enumeration),
    catalog.enums[position]? = some enumeration →
    enumeration.Joins (declarationsOf scoping (catalog.enumKey enumeration) enums)
  params : ∀ entry ∈ declaredEntries enums, (entry.params.map (·.1)).Nodup
  messages : List.Forall₂ Message.Declares catalog.messages messages

/-- Changing a group but not its source keeps the sources. -/
theorem map_source_modify (groups : List Group) (position : Nat) {f : Group → Group}
    (hsource : ∀ group, (f group).source = group.source) :
    (groups.modify position f).map (·.source) = groups.map (·.source) := by
  induction groups generalizing position with
  | nil => simp
  | cons first rest ih =>
    cases position with
    | zero => simp [hsource]
    | succ position => simpa using ih position

theorem holds_empty (scoping : Scoping) : (empty scoping).Holds scoping [] [] [] :=
  ⟨rfl, rfl, rfl, by simp [empty], by simp [declaredEntries], .nil⟩

namespace Holds

variable {catalog : Catalog} {scoping : Scoping} {sources : List String}
  {enums : List (Declared EnumDefinition)} {messages : List (Declared MessageDefinition)}

/-- An enumeration is there if it is declared. -/
theorem mem_keys (h : catalog.Holds scoping sources enums messages) {key : String} :
    key ∈ catalog.enums.map catalog.enumKey ↔ key ∈ enums.map (Declared.enumKey scoping) := by
  rw [h.keys, List.mem_eraseDups]

theorem messageKeys (h : catalog.Holds scoping sources enums messages) :
    catalog.messages.map catalog.messageKey = messages.map (Declared.messageKey scoping) := by
  rw [← h.settled]
  exact map_eq_map_of_forall₂ (fun hmessage => hmessage.key) h.messages

theorem messageIds (h : catalog.Holds scoping sources enums messages) :
    catalog.messages.map (·.id) = messages.map (·.definition.id) :=
  map_eq_map_of_forall₂ (fun hmessage => hmessage.id) h.messages

/-- The declarations in a coherent catalog agree. -/
theorem enumsAgree (h : catalog.Holds scoping sources enums messages)
    (hcoherent : catalog.Coherent) : EnumsAgree scoping enums := by
  refine ⟨fun key => ?_, h.params⟩
  -- of a name that is not declared there are no entries
  by_cases hkey : key ∈ enums.map (Declared.enumKey scoping)
  · obtain ⟨enumeration, henum, rfl⟩ := List.mem_map.mp (h.mem_keys.mpr hkey)
    obtain ⟨position, hposition⟩ := List.mem_iff_getElem?.mp henum
    rw [← (h.joins position enumeration hposition).entryNames]
    exact hcoherent.entries enumeration henum
  · rw [declarationsOf_eq_nil hkey]
    exact List.nodup_nil

theorem messagesAgree (h : catalog.Holds scoping sources enums messages)
    (hcoherent : catalog.Coherent) : MessagesAgree scoping messages :=
  ⟨h.messageIds ▸ hcoherent.messagesById.nodup, h.messageKeys ▸ hcoherent.messagesByName.nodup⟩

/-! ## Adding an enumeration -/

/-- The parameters of a declaration that gives an enumeration are distinct as well. -/
theorem params_concat (h : catalog.Holds scoping sources enums messages)
    {enumeration : Enumeration} {declared : Declared EnumDefinition}
    (hdeclares : enumeration.Declares declared) :
    ∀ entry ∈ declaredEntries (enums ++ [declared]), (entry.params.map (·.1)).Nodup := by
  obtain ⟨-, -, -, -, -, hparams, -⟩ := Enumeration.ofDefinition_eq_ok hdeclares
  rw [declaredEntries_append]
  exact List.forall_mem_append.mpr ⟨h.params, by simpa [declaredEntries] using hparams⟩

/-- A declaration with a new name. -/
theorem pushEnum (h : catalog.Holds scoping sources enums messages)
    (hcoherent : catalog.Coherent) {enumeration : Enumeration}
    {declared : Declared EnumDefinition} (hdeclares : enumeration.Declares declared)
    (hnew : catalog.enumsByName.find? (catalog.enumKey enumeration) = none) :
    (catalog.pushEnum enumeration).Holds scoping sources (enums ++ [declared]) messages := by
  have hkey : catalog.enumKey enumeration = declared.enumKey scoping :=
    h.settled ▸ hdeclares.key
  have hnot : declared.enumKey scoping ∉ enums.map (Declared.enumKey scoping) := by
    rw [← hkey, ← h.mem_keys]
    exact hcoherent.enumsByName.find?_eq_none_iff.mp hnew
  refine ⟨h.settled, ?_, ?_, fun position other hother => ?_, h.params_concat hdeclares,
    h.messages⟩
  · rw [← h.sources]
    exact map_source_modify _ _ fun _ => rfl
  · show (catalog.enums ++ [enumeration]).map catalog.enumKey = _
    rw [List.map_append, List.map_append, List.map_singleton, List.map_singleton,
      eraseDups_concat_of_not_mem hnot, h.keys, hkey]
  · show other.Joins (declarationsOf scoping (catalog.enumKey other) _)
    -- the enumerations before are not declared again, and the new one only once
    rcases getElem?_concat_eq_some_iff.mp hother with hold | ⟨-, rfl⟩
    · rw [declarationsOf_concat_of_ne]
      · exact h.joins position other hold
      · intro heq
        rw [heq] at hnot
        exact hnot (h.mem_keys.mp (List.mem_map.mpr ⟨other, List.mem_of_getElem? hold, rfl⟩))
    · rw [hkey, declarationsOf_concat_of_eq rfl, declarationsOf_eq_nil hnot]
      exact hdeclares.joins

/-- A further declaration of the enumeration at a position. -/
theorem mergeEnum (h : catalog.Holds scoping sources enums messages)
    (hcoherent : catalog.Coherent) {position : Nat} {existing enumeration : Enumeration}
    {declared : Declared EnumDefinition} (hdeclares : enumeration.Declares declared)
    (hexisting : catalog.enums[position]? = some existing)
    (hsame : catalog.enumKey existing = catalog.enumKey enumeration)
    (hnone : (existing.absorb enumeration).2 = none) :
    ({ catalog with
        enums := catalog.enums.set position (existing.absorb enumeration).1 } : Catalog).Holds
      scoping sources (enums ++ [declared]) messages := by
  have hkey : catalog.enumKey existing = declared.enumKey scoping :=
    hsame.trans (h.settled ▸ hdeclares.key)
  have hmem : declared.enumKey scoping ∈ enums.map (Declared.enumKey scoping) := by
    rw [← hkey, ← h.mem_keys]
    exact List.mem_map.mpr ⟨existing, List.mem_of_getElem? hexisting, rfl⟩
  have hjoined : catalog.enumKey (existing.absorb enumeration).1 = catalog.enumKey existing :=
    enumKey_absorb catalog existing enumeration
  refine ⟨h.settled, h.sources, ?_, fun other found hfound => ?_, h.params_concat hdeclares,
    h.messages⟩
  · show (catalog.enums.set position _).map catalog.enumKey = _
    rw [enumKeys_set hexisting hjoined, List.map_append, List.map_singleton,
      eraseDups_concat_of_mem hmem, h.keys]
  · show found.Joins (declarationsOf scoping (catalog.enumKey found) _)
    -- the one at the position has a declaration more, the others have the same as before
    rcases eq_or_ne position other with rfl | hne
    · obtain rfl : (existing.absorb enumeration).1 = found := by
        rw [List.getElem?_set_self (List.getElem?_eq_some_iff.mp hexisting).1] at hfound
        exact Option.some.inj hfound
      rw [hjoined, declarationsOf_concat_of_eq hkey.symm]
      exact (h.joins position existing hexisting).concat hdeclares hnone
    · rw [List.getElem?_set_ne hne] at hfound
      rw [declarationsOf_concat_of_ne]
      · exact h.joins other found hfound
      · intro heq
        -- two positions with one key would be one position
        have hposition : (catalog.enums.map catalog.enumKey)[position]? =
            some (catalog.enumKey found) := by
          rw [List.getElem?_map, hexisting, ← heq, ← hkey]
          rfl
        have hother : (catalog.enums.map catalog.enumKey)[other]? =
            some (catalog.enumKey found) := by
          rw [List.getElem?_map, hfound]
          rfl
        exact hne (hcoherent.enumsByName.position_eq hposition hother)

/-- A declaration that was added is in the catalog. -/
theorem addEnum (h : catalog.Holds scoping sources enums messages)
    (hcoherent : catalog.Coherent) {scope : Option String} {group : Nat}
    {definition : EnumDefinition}
    (hnone : (addEnum scope group catalog definition).failure = none) :
    (addEnum scope group catalog definition).catalog.Holds scoping sources
      (enums ++ [⟨scope, group, definition⟩]) messages := by
  obtain ⟨error, -, heq⟩ | ⟨enumeration, hdefinition, hnew, heq⟩ |
    ⟨enumeration, position, existing, hdefinition, hexisting, hsame, heq⟩ :=
    hcoherent.addEnum_cases scope group definition
  · rw [heq] at hnone
    cases hnone
  · rw [heq]
    exact h.pushEnum hcoherent hdefinition hnew
  · rw [heq] at hnone ⊢
    exact h.mergeEnum hcoherent hdefinition hexisting hsame hnone

/-- A declaration that agrees with those in the catalog is added. -/
theorem addEnum_eq_none (h : catalog.Holds scoping sources enums messages)
    (hcoherent : catalog.Coherent) {scope : Option String} {group : Nat}
    {definition : EnumDefinition}
    (hagree : EnumsAgree scoping (enums ++ [⟨scope, group, definition⟩])) :
    (Catalog.addEnum scope group catalog definition).failure = none := by
  have hnames := hagree.entries (Declared.enumKey scoping ⟨scope, group, definition⟩)
  rw [declarationsOf_concat_of_eq rfl, declaredEntries_append, List.map_append] at hnames
  have hparams := hagree.params
  rw [declaredEntries_append, List.forall_mem_append] at hparams
  obtain ⟨error, hdefinition, heq⟩ | ⟨enumeration, hdefinition, hnew, heq⟩ |
    ⟨enumeration, position, existing, hdefinition, hexisting, hsame, heq⟩ :=
    hcoherent.addEnum_cases scope group definition
  -- its own entries and parameters are distinct, so the definition is not refused
  · obtain ⟨enumeration, hok⟩ : ∃ enumeration,
        Enumeration.ofDefinition definition scope group = .ok enumeration :=
      Enumeration.exists_ofDefinition scope group
        (by simpa [declaredEntries] using hnames.of_append_right)
        (by simpa [declaredEntries] using hparams.2)
    rw [hok] at hdefinition
    cases hdefinition
  · rw [heq]
    rfl
  · rw [heq]
    -- the names there and the names to come are those of all declarations of this key
    refine Enumeration.absorb_eq_none ?_
    have hdeclares : enumeration.Declares ⟨scope, group, definition⟩ := hdefinition
    have hkey : catalog.enumKey existing =
        Declared.enumKey scoping ⟨scope, group, definition⟩ :=
      hsame.trans (h.settled ▸ hdeclares.key)
    rw [(h.joins position existing hexisting).entryNames, hdeclares.joins.entryNames, hkey]
    exact hnames

/-! ## Adding a message -/

/-- A message that was added is in the catalog. -/
theorem addMessage (h : catalog.Holds scoping sources enums messages) {scope : Option String}
    {group : Nat} {definition : MessageDefinition}
    (hnone : (addMessage scope group catalog definition).failure = none) :
    (addMessage scope group catalog definition).catalog.Holds scoping sources enums
      (messages ++ [⟨scope, group, definition⟩]) := by
  obtain ⟨error, heq⟩ | ⟨message, events, hdefinition, hname, hid, heq⟩ :=
    catalog.addMessage_cases scope group definition
  · rw [heq] at hnone
    cases hnone
  · rw [heq]
    refine ⟨h.settled, ?_, h.keys, h.joins, h.params, ?_⟩
    · rw [← h.sources]
      exact map_source_modify _ _ fun _ => rfl
    · exact List.rel_append h.messages (.cons hdefinition .nil)

/-- A message that agrees with those in the catalog is added. -/
theorem addMessage_eq_none (h : catalog.Holds scoping sources enums messages)
    (hcoherent : catalog.Coherent) {scope : Option String} {group : Nat}
    {definition : MessageDefinition} (htyped : definition.Typed)
    (hagree : MessagesAgree scoping (messages ++ [⟨scope, group, definition⟩])) :
    (Catalog.addMessage scope group catalog definition).failure = none := by
  obtain ⟨message, hmessage⟩ : ∃ message : Message, message.Declares ⟨scope, group, definition⟩ :=
    Message.exists_declares htyped
  have hkey : catalog.messageKey message = Declared.messageKey scoping ⟨scope, group, definition⟩ :=
    h.settled ▸ hmessage.key
  have hname : catalog.messagesByName.find? (catalog.messageKey message) = none := by
    rw [hcoherent.messagesByName.find?_eq_none_iff, h.messageKeys, hkey]
    intro hmem
    have hnames := hagree.names
    rw [List.map_append, List.map_singleton, List.nodup_append] at hnames
    exact hnames.2.2 _ hmem _ List.mem_cons_self rfl
  have hid : catalog.messagesById.find? message.id = none := by
    rw [hcoherent.messagesById.find?_eq_none_iff, h.messageIds, hmessage.id]
    intro hmem
    have hids := hagree.ids
    rw [List.map_append, List.map_singleton, List.nodup_append] at hids
    exact hids.2.2 _ hmem _ List.mem_cons_self rfl
  have hdefinition : Message.ofDefinition definition scope group = .ok message := hmessage
  simp only [Catalog.addMessage, hdefinition, addNamedMessage, hname, hid]

end Holds

/-! ## Additions one after the other -/

theorem failure_andThen {step : Step} {next : Catalog → Step} :
    (step.andThen next).failure = none ↔
      step.failure = none ∧ (next step.catalog).failure = none := by
  unfold Step.andThen
  split
  next error herror => simp [herror]
  next hnone => simp [hnone]

theorem catalog_andThen {step : Step} {next : Catalog → Step} (h : step.failure = none) :
    (step.andThen next).catalog = (next step.catalog).catalog := by
  unfold Step.andThen
  rw [h]

section AddAll

variable {δ : Type} {add : Catalog → δ → Step} (declare : δ → Declared δ)
  (holds : List (Declared δ) → Catalog → Prop)
  (hadd : ∀ seen catalog definition, holds seen catalog →
    (add catalog definition).failure = none →
    holds (seen ++ [declare definition]) (add catalog definition).catalog)

include hadd

/-- If all additions are completed, the catalog holds all that was added. -/
theorem holds_addAll : ∀ (definitions : List δ) {seen : List (Declared δ)} {catalog : Catalog},
    holds seen catalog → (catalog.addAll add definitions).failure = none →
    holds (seen ++ definitions.map declare) (catalog.addAll add definitions).catalog
  | [], seen, catalog, h, _ => by
    rw [List.map_nil, List.append_nil]
    exact h
  | definition :: definitions, seen, catalog, h, hnone => by
    obtain ⟨hfirst, hrest⟩ := failure_andThen.mp hnone
    unfold addAll
    rw [catalog_andThen hfirst, List.map_cons, List.append_cons]
    exact holds_addAll definitions (hadd _ _ _ h hfirst) hrest

/-- If all that is to be added is accepted together with what was added before, all additions are
completed. -/
theorem addAll_eq_none (accepts : List (Declared δ) → Prop)
    (hfront : ∀ {front back}, accepts (front ++ back) → accepts front) :
    ∀ (definitions : List δ) {seen : List (Declared δ)} {catalog : Catalog},
      (∀ seen catalog, ∀ definition ∈ definitions, holds seen catalog →
        accepts (seen ++ [declare definition]) → (add catalog definition).failure = none) →
      holds seen catalog → accepts (seen ++ definitions.map declare) →
      (catalog.addAll add definitions).failure = none
  | [], _, _, _, _, _ => rfl
  | definition :: definitions, seen, catalog, hok, h, haccepts => by
    rw [List.map_cons, List.append_cons] at haccepts
    -- each addition only needs what was added up to it to be accepted
    have hfirst := hok _ _ definition List.mem_cons_self h (hfront haccepts)
    have hrest := addAll_eq_none accepts hfront definitions
      (fun seen catalog other hother => hok seen catalog other (List.mem_cons_of_mem _ hother))
      (hadd _ _ _ h hfirst) haccepts
    exact failure_andThen.mpr ⟨hfirst, hrest⟩

end AddAll

/-! ## One document -/

namespace Holds

variable {catalog : Catalog} {scoping : Scoping} {sources : List String}
  {enums : List (Declared EnumDefinition)} {messages : List (Declared MessageDefinition)}
  {source : String} {document : Document} {scope : Option String} {group : Nat}

theorem pushGroup (h : catalog.Holds scoping sources enums messages) (source : String)
    (includes : List String) :
    (catalog.pushGroup source includes).Holds scoping (sources ++ [source]) enums messages := by
  refine ⟨h.settled, ?_, h.keys, h.joins, h.params, h.messages⟩
  rw [← h.sources]
  simp [Catalog.pushGroup]

/-- The positions of groups are the positions of their sources. -/
theorem length_groups (h : catalog.Holds scoping sources enums messages) :
    catalog.groups.length = sources.length := by
  rw [← h.sources, List.length_map]

/-- The catalog while the enumerations of a group are added. -/
theorem addEnum_keeps (seen : List (Declared EnumDefinition)) (catalog : Catalog)
    (definition : EnumDefinition)
    (h : catalog.Open scope group ∧ catalog.Holds scoping sources seen messages)
    (hnone : (Catalog.addEnum scope group catalog definition).failure = none) :
    (Catalog.addEnum scope group catalog definition).catalog.Open scope group ∧
      (Catalog.addEnum scope group catalog definition).catalog.Holds scoping sources
        (seen ++ [⟨scope, group, definition⟩]) messages :=
  ⟨h.1.addEnum definition, h.2.addEnum h.1.coherent hnone⟩

/-- The catalog while the messages of a group are added. -/
theorem addMessage_keeps (seen : List (Declared MessageDefinition)) (catalog : Catalog)
    (definition : MessageDefinition)
    (h : catalog.Open scope group ∧ catalog.Holds scoping sources enums seen)
    (hnone : (Catalog.addMessage scope group catalog definition).failure = none) :
    (Catalog.addMessage scope group catalog definition).catalog.Open scope group ∧
      (Catalog.addMessage scope group catalog definition).catalog.Holds scoping sources enums
        (seen ++ [⟨scope, group, definition⟩]) :=
  ⟨h.1.addMessage definition, h.2.addMessage hnone⟩

/-- Definitions that were added are in the catalog. -/
theorem addDefinitions (h : catalog.Holds scoping sources enums messages)
    (hopen : catalog.Open scope group)
    (hnone : (catalog.addDefinitions scope group document).failure = none) :
    (catalog.addDefinitions scope group document).catalog.Holds scoping sources
      (enums ++ document.enums.map (Declared.mk scope group))
      (messages ++ document.messages.map (Declared.mk scope group)) := by
  obtain ⟨hfirst, hrest⟩ := failure_andThen.mp hnone
  have henums := holds_addAll _ _ addEnum_keeps document.enums ⟨hopen, h⟩ hfirst
  unfold Catalog.addDefinitions
  rw [catalog_andThen hfirst]
  exact (holds_addAll _ _ addMessage_keeps document.messages henums hrest).2

/-- Definitions that agree with those in the catalog are added. -/
theorem addDefinitions_eq_none (h : catalog.Holds scoping sources enums messages)
    (hopen : catalog.Open scope group) (htyped : document.Typed)
    (henums : EnumsAgree scoping (enums ++ document.enums.map (Declared.mk scope group)))
    (hmessages : MessagesAgree scoping
      (messages ++ document.messages.map (Declared.mk scope group))) :
    (catalog.addDefinitions scope group document).failure = none := by
  have hfirst := addAll_eq_none _ _ addEnum_keeps (EnumsAgree scoping) EnumsAgree.front
    document.enums (fun _ _ _ _ h hagree => h.2.addEnum_eq_none h.1.coherent hagree) ⟨hopen, h⟩
    henums
  have hadded := holds_addAll _ _ addEnum_keeps document.enums ⟨hopen, h⟩ hfirst
  have hrest := addAll_eq_none _ _ addMessage_keeps (MessagesAgree scoping) MessagesAgree.front
    document.messages (fun _ _ definition hmem h hagree =>
      h.2.addMessage_eq_none h.1.coherent (htyped definition hmem) hagree) hadded hmessages
  exact failure_andThen.mpr ⟨hfirst, hrest⟩

/-- A document that was added is in the catalog. -/
theorem addSource (h : catalog.Holds scoping sources enums messages)
    (hcoherent : catalog.Coherent)
    (hnone : (catalog.addSource source document).failure = none) :
    (catalog.addSource source document).catalog.Holds scoping (sources ++ [source])
      (enums ++ declaredBy source sources.length document.enums)
      (messages ++ declaredBy source sources.length document.messages) := by
  unfold Catalog.addSource at hnone ⊢
  split at hnone
  · cases hnone
  next hnew =>
  rw [h.length_groups] at hnone ⊢
  have hopen := h.length_groups ▸ hcoherent.pushGroup document.includes hnew
  exact (h.pushGroup source document.includes).addDefinitions hopen hnone

/-- A new document that agrees with those in the catalog is added. -/
theorem addSource_eq_none (h : catalog.Holds scoping sources enums messages)
    (hcoherent : catalog.Coherent) (hnew : source ∉ sources) (htyped : document.Typed)
    (henums : EnumsAgree scoping (enums ++ declaredBy source sources.length document.enums))
    (hmessages : MessagesAgree scoping
      (messages ++ declaredBy source sources.length document.messages)) :
    (catalog.addSource source document).failure = none := by
  have hnone : catalog.groupsBySource.find? source = none := by
    rw [hcoherent.groupsBySource.find?_eq_none_iff, h.sources]
    exact hnew
  have hopen := h.length_groups ▸ hcoherent.pushGroup document.includes hnone
  unfold Catalog.addSource
  rw [hnone, h.length_groups]
  exact (h.pushGroup source document.includes).addDefinitions_eq_none hopen htyped henums hmessages

end Holds

/-! ## All files -/

/-- A coherent catalog to which exactly these documents were added. -/
structure Covers (catalog : Catalog) (scoping : Scoping) (documents : List (String × Document)) :
    Prop where
  coherent : catalog.Coherent
  holds : catalog.Holds scoping (documents.map (·.1)) (declarations (·.enums) documents)
    (declarations (·.messages) documents)

/-- The documents in a catalog can be joined. -/
theorem Covers.loadable {catalog : Catalog} {scoping : Scoping}
    {documents : List (String × Document)} (h : catalog.Covers scoping documents) :
    Loadable scoping documents :=
  ⟨h.holds.sources ▸ h.coherent.groupsBySource.nodup, h.holds.enumsAgree h.coherent,
    h.holds.messagesAgree h.coherent⟩

theorem Covers.addSource {catalog : Catalog} {scoping : Scoping}
    {documents : List (String × Document)} {source : String} {document : Document}
    (h : catalog.Covers scoping documents)
    (hnone : (catalog.addSource source document).failure = none) :
    (catalog.addSource source document).catalog.Covers scoping
      (documents ++ [(source, document)]) := by
  refine ⟨h.coherent.addSource source document, ?_⟩
  have hholds := h.holds.addSource h.coherent hnone
  rw [List.length_map] at hholds
  rw [List.map_append, declarations_concat, declarations_concat]
  exact hholds

theorem Covers.addSource_eq_none {catalog : Catalog} {scoping : Scoping}
    {documents : List (String × Document)} {source : String} {document : Document}
    (h : catalog.Covers scoping documents) (htyped : document.Typed)
    (hloadable : Loadable scoping (documents ++ [(source, document)])) :
    (catalog.addSource source document).failure = none := by
  obtain ⟨hsources, henums, hmessages⟩ := hloadable
  rw [declarations_concat] at henums hmessages
  rw [List.map_append, List.nodup_append] at hsources
  have hlength : (documents.map (·.1)).length = documents.length := List.length_map _
  refine h.holds.addSource_eq_none h.coherent ?_ htyped (hlength ▸ henums) (hlength ▸ hmessages)
  intro hmem
  exact hsources.2.2 _ hmem _ List.mem_cons_self rfl

/-- A file is added if it can be read and its document can be added. -/
theorem addText_eq_ok_iff {catalog after : Catalog} {source : Source} :
    (catalog.addText source).outcome = .ok after ↔
      ∃ document, (Document.parse source.id source.text).outcome = .ok document ∧
        (catalog.addSource source.id document).failure = none ∧
        after = (catalog.addSource source.id document).catalog := by
  unfold addText
  rw [Logged.outcome_bind, Outcome.bind_eq_ok_iff]
  refine exists_congr fun document => and_congr_right fun _ => ?_
  rw [Logged.outcome_bind]
  show (catalog.addSource source.id document).logged.outcome = .ok after ↔ _
  unfold Step.logged
  split
  next error herror => simp [herror]
  next hnone =>
    constructor
    · intro h
      cases h
      exact ⟨hnone, rfl⟩
    · rintro ⟨-, rfl⟩
      rfl

end Catalog

/-- The documents that files are read as. -/
def Reads (sources : List Source) (documents : List (String × Document)) : Prop :=
  List.Forall₂ (fun source document => document.1 = source.id ∧
    (Document.parse source.id source.text).outcome = .ok document.2) sources documents

/-- What loading files one after the other amounts to: the documents before stay, the new ones come
after them. -/
theorem foldlM_addText_covers {scoping : Scoping} :
    ∀ {sources : List Source} {seen : List (String × Document)} {catalog after : Catalog},
      catalog.Covers scoping seen →
      sources.foldlM (fun catalog source => (catalog.addText source).outcome) catalog = .ok after →
      ∃ documents, Reads sources documents ∧ after.Covers scoping (seen ++ documents)
  | [], seen, catalog, after, h, hrun => by
    cases hrun
    exact ⟨[], .nil, by rwa [List.append_nil]⟩
  | source :: sources, seen, catalog, after, h, hrun => by
    rw [List.foldlM_cons] at hrun
    obtain ⟨middle, hmiddle, hrest⟩ := Outcome.bind_eq_ok_iff.mp hrun
    obtain ⟨document, hread, hnone, rfl⟩ := Catalog.addText_eq_ok_iff.mp hmiddle
    obtain ⟨documents, hreads, hafter⟩ := foldlM_addText_covers (h.addSource hnone) hrest
    rw [← List.append_cons] at hafter
    exact ⟨(source.id, document) :: documents, .cons ⟨rfl, hread⟩ hreads, hafter⟩

theorem exists_foldlM_addText {scoping : Scoping} :
    ∀ {sources : List Source} {documents seen : List (String × Document)} {catalog : Catalog},
      Reads sources documents → catalog.Covers scoping seen →
      Loadable scoping (seen ++ documents) →
      ∃ after, sources.foldlM (fun catalog source => (catalog.addText source).outcome) catalog =
        .ok after
  | [], _, _, catalog, _, _, _ => ⟨catalog, rfl⟩
  | source :: sources, _, seen, catalog, hreads, h, hloadable => by
    obtain ⟨⟨_, document⟩, documents, ⟨rfl, hread⟩, hrest, rfl⟩ :=
      List.forall₂_cons_left_iff.mp hreads
    rw [List.append_cons] at hloadable
    have hnone := h.addSource_eq_none (Schema.Document.typed_of_parse hread) hloadable.front
    obtain ⟨after, hafter⟩ := exists_foldlM_addText hrest (h.addSource hnone) hloadable
    refine ⟨after, ?_⟩
    rw [List.foldlM_cons]
    exact Outcome.bind_eq_ok_iff.mpr
      ⟨_, Catalog.addText_eq_ok_iff.mpr ⟨document, hread, hnone, rfl⟩, hafter⟩

/-- The model that documents are joined to: a message for every declaration in order, and an
enumeration for every declared name in the order of first appearance, joined from the declarations
with this name and with its values resolved over all of them. -/
structure Model.Describes (model : Model) (scoping : Scoping)
    (documents : List (String × Document)) : Prop where
  messages : List.Forall₂ Message.Declares model.messages (declarations (·.messages) documents)
  names : model.enums.map (fun enumeration => (enumeration.qualified scoping).text) =
    ((declarations (·.enums) documents).map (Declared.enumKey scoping)).eraseDups
  enums : ∀ enumeration ∈ model.enums, ∃ found,
    found = declarationsOf scoping (enumeration.qualified scoping).text
      (declarations (·.enums) documents) ∧
    enumeration.Joins found ∧
    enumeration.values = resolveValues ((declaredEntries found).map (·.value))

theorem Catalog.Covers.describes {catalog : Catalog} {scoping : Scoping}
    {documents : List (String × Document)} (h : catalog.Covers scoping documents) :
    catalog.finish.Describes scoping documents := by
  have hholds := h.holds
  obtain rfl := hholds.settled
  refine ⟨hholds.messages, hholds.keys, fun enumeration henum => ?_⟩
  obtain ⟨position, hposition⟩ := List.mem_iff_getElem?.mp henum
  have hjoins := hholds.joins position enumeration hposition
  exact ⟨_, rfl, hjoins, hjoins.values⟩

theorem Model.load_eq_ok_iff {scoping : Scoping} {sources : List Source} {model : Model} :
    (Model.load scoping sources).outcome = .ok model ↔
      ∃ catalog, sources.foldlM (fun catalog source => (catalog.addText source).outcome)
        (Catalog.empty scoping) = .ok catalog ∧ model = catalog.finish := by
  unfold Model.load
  rw [Logged.outcome_bind, Outcome.bind_eq_ok_iff, Outcome.outcome_foldlM]
  refine exists_congr fun catalog => and_congr_right fun _ => ?_
  constructor
  · intro h
    cases h
    rfl
  · rintro rfl
    rfl

/-- **Loading meets its specification.** Files can be loaded exactly if each can be read and their
documents can be joined: sources, message ids, message names, entry names of an enumeration over all
its declarations, and parameter indices of an entry are distinct. The model is then the one that the
documents describe. -/
theorem load_meets_specification (scoping : Scoping) (sources : List Source) :
    ((∃ model, (Model.load scoping sources).outcome = .ok model) ↔
      ∃ documents, Reads sources documents ∧ Loadable scoping documents) ∧
    ∀ model, (Model.load scoping sources).outcome = .ok model →
      ∃ documents, Reads sources documents ∧ model.Describes scoping documents := by
  have hempty : (Catalog.empty scoping).Covers scoping [] :=
    ⟨Catalog.coherent_empty scoping, Catalog.holds_empty scoping⟩
  have hloaded : ∀ model, (Model.load scoping sources).outcome = .ok model →
      ∃ documents, Reads sources documents ∧ Loadable scoping documents ∧
        model.Describes scoping documents := by
    intro model hmodel
    obtain ⟨catalog, hrun, rfl⟩ := Model.load_eq_ok_iff.mp hmodel
    obtain ⟨documents, hreads, hcovers⟩ := foldlM_addText_covers hempty hrun
    rw [List.nil_append] at hcovers
    exact ⟨documents, hreads, hcovers.loadable, hcovers.describes⟩
  refine ⟨⟨?_, ?_⟩, fun model hmodel => ?_⟩
  · rintro ⟨model, hmodel⟩
    obtain ⟨documents, hreads, hloadable, -⟩ := hloaded model hmodel
    exact ⟨documents, hreads, hloadable⟩
  · rintro ⟨documents, hreads, hloadable⟩
    obtain ⟨catalog, hrun⟩ := exists_foldlM_addText hreads hempty hloadable
    exact ⟨catalog.finish, Model.load_eq_ok_iff.mpr ⟨catalog, hrun, rfl⟩⟩
  · obtain ⟨documents, hreads, -, hdescribes⟩ := hloaded model hmodel
    exact ⟨documents, hreads, hdescribes⟩

end MavlinkCompiler
