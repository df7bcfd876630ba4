import MavlinkCompiler.Proofs.Model.Load

/-!
# What a failed addition leaves behind

A document that cannot be added leaves the catalog with all that was added before the definition at
which the addition stopped. That is exactly what a shorter document would have left, one that ends
before this definition, so a catalog after a failure is no stranger than one after a success. The
only exception is a declaration that clashes while it is joined to an enumeration of the catalog:
the description and the entries before the clash have been taken by then.

* `Catalog.StopsAt`: additions one after the other stop at a definition.
* `Catalog.StopsAtEnum`, `Catalog.StopsAtMessage`: the addition of a document stops at one of its
  definitions.
* `Catalog.JoinedUpTo`: what a clash leaves of an enumeration.
* `Catalog.residue_of_failed_addition`: the catalog after a failure.
-/

namespace MavlinkCompiler

open Schema (Document EntryDefinition EnumDefinition MessageDefinition)

/-- A document up to one of its messages. -/
def Schema.Document.beforeMessage (document : Document) (number : Nat) : Document :=
  { document with messages := document.messages.take number }

/-- A document up to one of its enumerations. -/
def Schema.Document.beforeEnum (document : Document) (number : Nat) : Document :=
  { document with enums := document.enums.take number, messages := [] }

namespace Catalog

/-! ## Additions one after the other -/

/-- Additions one after the other stop at the definition with a number: those before it are
completed, and it is not. -/
structure StopsAt {δ : Type} (add : Catalog → δ → Step) (catalog : Catalog) (definitions : List δ)
    (number : Nat) (definition : δ) (error : Schema.Error) : Prop where
  place : definitions[number]? = some definition
  before : (catalog.addAll add (definitions.take number)).failure = none
  refused : (add (catalog.addAll add (definitions.take number)).catalog definition).failure =
    some error

section AddAll

variable {δ : Type} {add : Catalog → δ → Step} {error : Schema.Error}

/-- A failure is that of the first addition, or comes after it. -/
theorem failure_andThen_eq_some {step : Step} {next : Catalog → Step} :
    (step.andThen next).failure = some error ↔
      step.failure = some error ∨
        step.failure = none ∧ (next step.catalog).failure = some error := by
  unfold Step.andThen
  split
  next other hother => simp [hother]
  next hnone => simp [hnone]

theorem catalog_andThen_of_failure {step : Step} {next : Catalog → Step}
    (h : step.failure = some error) : (step.andThen next).catalog = step.catalog := by
  unfold Step.andThen
  rw [h]

/-- Additions that are not all completed stop somewhere. -/
theorem exists_stopsAt :
    ∀ {definitions : List δ} {catalog : Catalog},
      (catalog.addAll add definitions).failure = some error →
      ∃ number definition, StopsAt add catalog definitions number definition error
  | [], _, h => by cases h
  | definition :: rest, catalog, h => by
    rcases failure_andThen_eq_some.mp h with hfirst | ⟨hfirst, hrest⟩
    · exact ⟨0, definition, rfl, rfl, hfirst⟩
    -- the first one is completed: the others stop as they would from there
    · obtain ⟨number, other, hplace, hbefore, hrefused⟩ := exists_stopsAt hrest
      refine ⟨number + 1, other, hplace, ?_, ?_⟩
      · exact failure_andThen.mpr ⟨hfirst, hbefore⟩
      · rw [List.take_succ_cons, addAll, catalog_andThen hfirst]
        exact hrefused

/-- Additions that stop at a definition fail with it and leave what it leaves. -/
theorem StopsAt.addAll_eq :
    ∀ {definitions : List δ} {catalog : Catalog} {number : Nat} {definition : δ},
      StopsAt add catalog definitions number definition error →
      (catalog.addAll add definitions).failure = some error ∧
      (catalog.addAll add definitions).catalog =
        (add (catalog.addAll add (definitions.take number)).catalog definition).catalog
  | [], _, _, _, h => by cases h.place
  | first :: rest, catalog, 0, definition, h => by
    obtain rfl : first = definition := Option.some.inj h.place
    have hrefused : (add catalog first).failure = some error := h.refused
    exact ⟨failure_andThen_eq_some.mpr (.inl hrefused), catalog_andThen_of_failure hrefused⟩
  | first :: rest, catalog, number + 1, definition, h => by
    obtain ⟨hplace, hbefore, hrefused⟩ := h
    rw [List.take_succ_cons] at hbefore hrefused ⊢
    obtain ⟨hfirst, hbefore⟩ := failure_andThen.mp hbefore
    have hstep : ∀ definitions, (catalog.addAll add (first :: definitions)).catalog =
        ((add catalog first).catalog.addAll add definitions).catalog :=
      fun _ => catalog_andThen hfirst
    rw [hstep] at hrefused
    have hrest : StopsAt add (add catalog first).catalog rest number definition error :=
      ⟨hplace, hbefore, hrefused⟩
    obtain ⟨hfailure, hcatalog⟩ := hrest.addAll_eq
    rw [hstep, hstep]
    exact ⟨failure_andThen_eq_some.mpr (.inr ⟨hfirst, hfailure⟩), hcatalog⟩

end AddAll

/-! ## One definition -/

/-- A further declaration clashes with the enumeration of its name at an entry. The enumeration is
left with the description of the declaration if it had none, and with the entries before that one,
whose names were not taken. -/
structure JoinedUpTo (catalog after : Catalog) (definition : EnumDefinition)
    (further existing : Enumeration) (position : Nat) (taken : List Entry) (clash : Entry) :
    Prop where
  found : catalog.enums[position]? = some existing
  key : catalog.enumKey existing = catalog.enumKey further
  split : ∃ left, further.entries = taken ++ clash :: left
  distinct : (existing.entryNames ++ taken.map (·.name)).Nodup
  repeats : clash.name ∈ existing.entryNames
  left : after = { catalog with
    enums := catalog.enums.set position { existing with
      description := existing.description.or definition.description
      entries := existing.entries ++ taken } }

/-- A declaration that is not accepted leaves the catalog as it is; one that clashes is joined up to
the clash. -/
theorem Coherent.addEnum_eq_some {catalog : Catalog} (h : catalog.Coherent)
    {scope : Option String} {group : Nat} {definition : EnumDefinition} {error : Schema.Error}
    (hfailure : (addEnum scope group catalog definition).failure = some error) :
    (Enumeration.ofDefinition definition scope group = .error error ∧
      (addEnum scope group catalog definition).catalog = catalog) ∨
    (∃ further position existing taken clash,
      Enumeration.ofDefinition definition scope group = .ok further ∧
      error = .duplicateEntry existing.name clash.name ∧
      catalog.JoinedUpTo (addEnum scope group catalog definition).catalog definition further
        existing position taken clash) := by
  obtain ⟨other, hdefinition, heq⟩ | ⟨enumeration, -, -, heq⟩ |
    ⟨further, position, existing, hdefinition, hexisting, hkey, heq⟩ :=
    h.addEnum_cases scope group definition
  · rw [heq] at hfailure ⊢
    cases hfailure
    exact .inl ⟨hdefinition, rfl⟩
  · rw [heq] at hfailure
    cases hfailure
  · rw [heq] at hfailure ⊢
    obtain ⟨-, -, -, hdescription, -, -, hnames⟩ := Enumeration.ofDefinition_eq_ok hdefinition
    obtain ⟨taken, left, hsplit, hjoined, hdistinct,
      ⟨-, hnone⟩ | ⟨clash, rest, rfl, hclash, hsome⟩⟩ :=
      Enumeration.addEntries_cases further.entries
        { existing with description := existing.description.or further.description }
    · rw [Enumeration.absorb, hnone] at hfailure
      cases hfailure
    have herror : error = .duplicateEntry existing.name clash.name := by
      rw [Enumeration.absorb, hsome] at hfailure
      exact (Option.some.inj hfailure).symm
    rw [Enumeration.entryNames_extend] at hclash hdistinct
    -- the names of one declaration are distinct, so the clash is with what was there before
    have hclash' : clash.name ∈ existing.entryNames := by
      refine (List.mem_append.mp hclash).resolve_right fun hmem => ?_
      rw [Enumeration.entryNames, hsplit, List.map_append, List.nodup_append] at hnames
      exact hnames.2.2 _ hmem clash.name (by simp) rfl
    refine .inr ⟨further, position, existing, taken, clash, hdefinition, herror, hexisting, hkey,
      ⟨rest, hsplit⟩, ?_, hclash', ?_⟩
    · exact hdistinct (h.entries existing (List.mem_of_getElem? hexisting))
    · rw [Enumeration.absorb, hjoined, hdescription]
      rfl

/-- A message that is not added leaves the catalog as it is. -/
theorem addMessage_eq_some {catalog : Catalog} {scope : Option String} {group : Nat}
    {definition : MessageDefinition} {error : Schema.Error}
    (hfailure : (addMessage scope group catalog definition).failure = some error) :
    (addMessage scope group catalog definition).catalog = catalog := by
  obtain ⟨other, heq⟩ | ⟨message, events, -, -, -, heq⟩ :=
    catalog.addMessage_cases scope group definition
  · rw [heq]
    rfl
  · rw [heq] at hfailure
    cases hfailure

/-! ## What a refusal is about -/

theorem collectParams_eq_error {entry : String} {error : Schema.Error} :
    ∀ {params collected : List (UInt32 × String)},
      collectParams entry collected params = .error error →
      ∃ index, error = .duplicateParam entry index
  | [], _, h => by cases h
  | (index, text) :: params, collected, h => by
    unfold collectParams at h
    split at h
    · cases h
      exact ⟨index, rfl⟩
    · exact collectParams_eq_error h

/-- An enumeration is refused for its parameters or its entries. -/
theorem ofDefinition_eq_error {definition : EnumDefinition} {scope : Option String} {group : Nat}
    {error : Schema.Error}
    (h : Enumeration.ofDefinition definition scope group = .error error) :
    (∃ entry index, error = .duplicateParam entry index) ∨
      ∃ enumeration entry, error = .duplicateEntry enumeration entry := by
  rw [Enumeration.ofDefinition_eq] at h
  obtain ⟨enumeration, definition, -, hfails⟩ := Outcome.exists_of_foldlM_eq_error h
  rcases Outcome.bind_eq_error_iff.mp hfails with hentry | ⟨entry, -, hadd⟩
  · rcases Outcome.bind_eq_error_iff.mp hentry with hparams | ⟨params, -, hpure⟩
    · exact .inl ⟨_, collectParams_eq_error hparams⟩
    · cases hpure
  · rw [Enumeration.addEntry_eq] at hadd
    split at hadd
    · cases hadd
      exact .inr ⟨_, _, rfl⟩
    · cases hadd

/-- A message is refused for the type of a field, its name or its id. -/
theorem addMessage_failure {catalog : Catalog} {scope : Option String} {group : Nat}
    {definition : MessageDefinition} {error : Schema.Error}
    (h : (addMessage scope group catalog definition).failure = some error) :
    (∃ cause, error = .fieldType cause) ∨ (∃ name, error = .duplicateMessage name) ∨
      ∃ id first second, error = .duplicateMessageId id first second := by
  unfold addMessage at h
  split at h
  next message _ =>
    unfold addNamedMessage at h
    dsimp only at h
    split at h
    · cases h
      exact .inr (.inl ⟨_, rfl⟩)
    split at h
    · cases h
      exact .inr (.inr ⟨_, _, _, rfl⟩)
    · cases h
  next cause hcause =>
    cases h
    rcases Outcome.bind_eq_error_iff.mp hcause with hfields | ⟨fields, -, hpure⟩
    · obtain ⟨field, -, hfield⟩ := Outcome.exists_of_mapM_eq_error hfields
      rcases Outcome.bind_eq_error_iff.mp hfield with htype | ⟨type, -, hpure⟩
      · cases hparse : FieldType.parse field.type with
        | error cause =>
          rw [hparse] at htype
          cases htype
          exact .inl ⟨cause, rfl⟩
        | ok type =>
          rw [hparse] at htype
          cases htype
      · cases hpure
    · cases hpure

/-! ## One document -/

/-- Adds enumerations as those of a new group. -/
def addGroup (catalog : Catalog) (source : String) (includes : List String)
    (enums : List EnumDefinition) : Step :=
  (catalog.pushGroup source includes).addAll
    (addEnum (groupScope (groupName source)) catalog.groups.length) enums

/-- The addition of a document stops at one of its enumerations. -/
structure StopsAtEnum (catalog : Catalog) (source : String) (document : Document) (number : Nat)
    (definition : EnumDefinition) (error : Schema.Error) : Prop where
  new : catalog.groupsBySource.find? source = none
  stops : StopsAt (addEnum (groupScope (groupName source)) catalog.groups.length)
    (catalog.pushGroup source document.includes) document.enums number definition error

/-- The addition of a document stops at one of its messages, when all enumerations are added. -/
structure StopsAtMessage (catalog : Catalog) (source : String) (document : Document) (number : Nat)
    (definition : MessageDefinition) (error : Schema.Error) : Prop where
  new : catalog.groupsBySource.find? source = none
  enums : (catalog.addGroup source document.includes document.enums).failure = none
  stops : StopsAt (addMessage (groupScope (groupName source)) catalog.groups.length)
    (catalog.addGroup source document.includes document.enums).catalog document.messages number
    definition error

section AddSource

variable {catalog : Catalog} {source : String} {document : Document} {number : Nat}
  {error : Schema.Error}

theorem addSource_of_known {position : Nat}
    (hknown : catalog.groupsBySource.find? source = some position) (document : Document) :
    catalog.addSource source document = catalog.refuse (.duplicateSource source) := by
  unfold Catalog.addSource
  rw [hknown]

/-- The messages of a new document are added when its enumerations are. -/
theorem addSource_of_new (hnew : catalog.groupsBySource.find? source = none)
    (document : Document) :
    catalog.addSource source document =
      (catalog.addGroup source document.includes document.enums).andThen fun added =>
        added.addAll (addMessage (groupScope (groupName source)) catalog.groups.length)
          document.messages := by
  unfold Catalog.addSource addDefinitions
  rw [hnew]
  rfl

theorem catalog_addSource_of_new (hnew : catalog.groupsBySource.find? source = none)
    (henums : (catalog.addGroup source document.includes document.enums).failure = none) :
    (catalog.addSource source document).catalog =
      ((catalog.addGroup source document.includes document.enums).catalog.addAll
        (addMessage (groupScope (groupName source)) catalog.groups.length)
        document.messages).catalog := by
  rw [addSource_of_new hnew, catalog_andThen henums]

/-- A document that cannot be added is not new, or its addition stops at one of its definitions. -/
theorem addSource_eq_some (h : (catalog.addSource source document).failure = some error) :
    (catalog.groupsBySource.find? source ≠ none ∧ error = .duplicateSource source) ∨
    (∃ number definition, catalog.StopsAtEnum source document number definition error) ∨
    (∃ number definition, catalog.StopsAtMessage source document number definition error) := by
  cases hnew : catalog.groupsBySource.find? source with
  | some position =>
    rw [addSource_of_known hnew] at h
    cases h
    exact .inl ⟨nofun, rfl⟩
  | none =>
    rw [addSource_of_new hnew] at h
    rcases failure_andThen_eq_some.mp h with henums | ⟨henums, hmessages⟩
    · obtain ⟨number, definition, hstops⟩ := exists_stopsAt henums
      exact .inr (.inl ⟨number, definition, hnew, hstops⟩)
    · obtain ⟨number, definition, hstops⟩ := exists_stopsAt hmessages
      exact .inr (.inr ⟨number, definition, hnew, henums, hstops⟩)

/-- Stopping at a message leaves what the document up to that message leaves. -/
theorem StopsAtMessage.residue {definition : MessageDefinition}
    (h : catalog.StopsAtMessage source document number definition error) :
    (catalog.addSource source document).failure = some error ∧
    (catalog.addSource source (document.beforeMessage number)).failure = none ∧
    (catalog.addSource source document).catalog =
      (catalog.addSource source (document.beforeMessage number)).catalog := by
  obtain ⟨hnew, henums, hstops⟩ := h
  obtain ⟨hfailure, hcatalog⟩ := hstops.addAll_eq
  have henums' : (catalog.addGroup source (document.beforeMessage number).includes
      (document.beforeMessage number).enums).failure = none := henums
  refine ⟨?_, ?_, ?_⟩
  · rw [addSource_of_new hnew]
    exact failure_andThen_eq_some.mpr (.inr ⟨henums, hfailure⟩)
  · rw [addSource_of_new hnew]
    exact failure_andThen.mpr ⟨henums, hstops.before⟩
  · rw [catalog_addSource_of_new hnew henums, catalog_addSource_of_new hnew henums', hcatalog]
    exact addMessage_eq_some hstops.refused

/-- Stopping at an enumeration leaves what this enumeration leaves after the document up to it. -/
theorem StopsAtEnum.residue {definition : EnumDefinition}
    (h : catalog.StopsAtEnum source document number definition error) :
    let kept := catalog.addSource source (document.beforeEnum number)
    let last := addEnum (groupScope (groupName source)) catalog.groups.length kept.catalog
      definition
    (catalog.addSource source document).failure = some error ∧ kept.failure = none ∧
    last.failure = some error ∧ (catalog.addSource source document).catalog = last.catalog := by
  intro kept last
  obtain ⟨hnew, hstops⟩ := h
  obtain ⟨hfailure, hcatalog⟩ := hstops.addAll_eq
  have henums : (catalog.addGroup source (document.beforeEnum number).includes
      (document.beforeEnum number).enums).failure = none := hstops.before
  -- the shorter document has no messages, so its enumerations are all that it adds
  have hkept : kept.catalog = ((catalog.pushGroup source document.includes).addAll
      (addEnum (groupScope (groupName source)) catalog.groups.length)
      (document.enums.take number)).catalog :=
    catalog_addSource_of_new hnew henums
  refine ⟨?_, ?_, ?_, ?_⟩
  · rw [addSource_of_new hnew]
    exact failure_andThen_eq_some.mpr (.inl hfailure)
  · show (catalog.addSource source (document.beforeEnum number)).failure = none
    rw [addSource_of_new hnew]
    exact failure_andThen.mpr ⟨henums, rfl⟩
  · show (addEnum _ _ kept.catalog definition).failure = some error
    rw [hkept]
    exact hstops.refused
  · show _ = (addEnum _ _ kept.catalog definition).catalog
    rw [addSource_of_new hnew, hkept]
    exact (catalog_andThen_of_failure hfailure).trans hcatalog

end AddSource

/-- **What a failed addition leaves.** Let a document be added after any session. If its source is
known, the catalog is unchanged. Otherwise a failure is at one of its messages or enumerations. At a
message, it leaves what the document up to that message leaves, which can be added. At an
enumeration, it leaves what the document up to that enumeration leaves, which can be added, except
when the declaration is accepted and clashes with an enumeration of its name: then that enumeration
has in addition the entries before the clash, and the description of the declaration if it had
none. -/
theorem residue_of_failed_addition (scoping : Scoping) (documents : List (String × Document))
    (source : String) (document : Document) :
    let catalog := session scoping documents
    let step := catalog.addSource source document
    (∀ name, step.failure = some (.duplicateSource name) → step.catalog = catalog) ∧
    (∀ error, step.failure = some error →
      error = .duplicateSource source ∨
      (∃ number definition, catalog.StopsAtMessage source document number definition error) ∨
      (∃ number definition, catalog.StopsAtEnum source document number definition error)) ∧
    (∀ number definition error,
      catalog.StopsAtMessage source document number definition error →
      let kept := catalog.addSource source (document.beforeMessage number)
      step.failure = some error ∧ kept.failure = none ∧ step.catalog = kept.catalog) ∧
    (∀ number definition error,
      catalog.StopsAtEnum source document number definition error →
      let kept := catalog.addSource source (document.beforeEnum number)
      let declared := Enumeration.ofDefinition definition (groupScope (groupName source))
        catalog.groups.length
      step.failure = some error ∧ kept.failure = none ∧
      ((declared = .error error ∧ step.catalog = kept.catalog) ∨
        ∃ further existing position taken clash, declared = .ok further ∧
          error = .duplicateEntry existing.name clash.name ∧
          kept.catalog.JoinedUpTo step.catalog definition further existing position taken
            clash)) := by
  intro catalog step
  have hcoherent : catalog.Coherent := coherent_session scoping documents
  refine ⟨fun name hname => ?_, fun error herror => ?_, fun number definition error hstops =>
    hstops.residue, fun number definition error hstops => ?_⟩
  -- no definition is refused for the source
  · rcases addSource_eq_some hname with ⟨hknown, -⟩ | ⟨number, definition, hstops⟩ |
      ⟨number, definition, hstops⟩
    · obtain ⟨position, hposition⟩ := Option.ne_none_iff_exists'.mp hknown
      show (catalog.addSource source document).catalog = catalog
      rw [addSource_of_known hposition]
      rfl
    · obtain ⟨-, -, hlast, -⟩ := hstops.residue
      have hkept := hcoherent.addSource source (document.beforeEnum number)
      rcases hkept.addEnum_eq_some hlast with ⟨hrefused, -⟩ | ⟨_, _, _, _, _, -, hclash, -⟩
      · rcases ofDefinition_eq_error hrefused with ⟨_, _, heq⟩ | ⟨_, _, heq⟩ <;> cases heq
      · cases hclash
    · rcases addMessage_failure hstops.stops.refused with ⟨_, heq⟩ | ⟨_, heq⟩ | ⟨_, _, _, heq⟩ <;>
        cases heq
  · rcases addSource_eq_some herror with ⟨-, heq⟩ | henum | hmessage
    · exact .inl heq
    · exact .inr (.inr henum)
    · exact .inr (.inl hmessage)
  · intro kept declared
    obtain ⟨hfailure, hnone, hlast, hcatalog⟩ := hstops.residue
    have hkept : kept.catalog.Coherent := hcoherent.addSource source (document.beforeEnum number)
    refine ⟨hfailure, hnone, ?_⟩
    rw [show step.catalog = _ from hcatalog]
    rcases hkept.addEnum_eq_some hlast with hrefused |
      ⟨further, position, existing, taken, clash, hdeclared, herror, hjoined⟩
    · exact .inl hrefused
    · exact .inr ⟨further, existing, position, taken, clash, hdeclared, herror, hjoined⟩

end Catalog

end MavlinkCompiler
