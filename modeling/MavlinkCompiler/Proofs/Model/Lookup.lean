import MavlinkCompiler.Proofs.Model.Association

/-!
# What looking up a field finds

Associations are filled from two origins: fields that are known by their names, and fields that name
an enumeration. Here the enumeration of a field is given by four rules that do not mention the order
in which associations are filled: what the message names counts first, then what is known of a field
of this message, then what is known of a field of any message.

* `Model.Resolves`: the attribute of a field leads to an enumeration of the model.
* `Model.Associates`: the four rules.
* `Catalog.Coherent.namedEnum?_eq_some_iff`, `Catalog.Coherent.lookup_known_eq_some_iff`: what each
  origin has for a field.
* `Catalog.lookup_follows_rules`: a look-up in the model of any session follows the rules.

Fields of any message are kept under the empty name, so the rules need that no message is called
that.
-/

namespace MavlinkCompiler

/-- Of pairs with different keys, looking up a key finds the one pair with it. -/
theorem lookup_eq_some_iff_mem {κ ν : Type} [BEq κ] [LawfulBEq κ] {pairs : List (κ × ν)} {key : κ}
    {value : ν} (h : (pairs.map (·.1)).Nodup) :
    pairs.lookup key = some value ↔ (key, value) ∈ pairs := by
  induction pairs with
  | nil => simp
  | cons first pairs ih =>
    obtain ⟨name, found⟩ := first
    obtain ⟨hname, hrest⟩ := List.nodup_cons.mp h
    rw [List.lookup_cons, List.mem_cons, Prod.mk.injEq]
    by_cases hkey : key = name
    · subst hkey
      have hmem : (key, value) ∉ pairs := fun hmem => hname (List.mem_map.mpr ⟨_, hmem, rfl⟩)
      simp [hmem, eq_comm]
    · rw [beq_false_of_ne hkey, ih hrest]
      simp [hkey]

namespace Model

/-! ## The rules -/

/-- An enumeration of the model has this written name. -/
def Stores (model : Model) (key : String) : Prop :=
  ∃ enumeration ∈ model.enums, (enumeration.qualified model.scoping).text = key

/-- The attribute of a field leads to an enumeration of the model: to the one with the name in the
scope of the message, or else to the one that is written like the attribute. -/
inductive Resolves (model : Model) (message : Message) (field : Field) : String → Prop
  | own {name : String} (hattribute : field.enumName = some name)
      (hown : model.Stores (model.scoping.qualify message.scope name).text) :
      Resolves model message field (model.scoping.qualify message.scope name).text
  | bare {name : String} (hattribute : field.enumName = some name)
      (hown : ¬ model.Stores (model.scoping.qualify message.scope name).text)
      (hbare : model.Stores name) : Resolves model message field name

/-- The message with a written name has a field with a name that leads to an enumeration, and no
later one in wire order does. -/
def Names (model : Model) (written field key : String) : Prop :=
  ∃ message ∈ model.messages, (message.qualified model.scoping).text = written ∧
    ∃ front last back, message.fields = front ++ last :: back ∧ last.name = field ∧
      model.Resolves message last key ∧
      ∀ later ∈ back, later.name = field → ∀ other, ¬ model.Resolves message later other

/-- No message with a written name has a field with a name that leads to an enumeration. -/
def NamesNone (model : Model) (written field : String) : Prop :=
  ∀ message ∈ model.messages, (message.qualified model.scoping).text = written →
    ∀ found ∈ message.fields, found.name = field → ∀ key, ¬ model.Resolves message found key

/-- The field is known to have an enumeration, and the model has it. -/
def Knows (model : Model) (written field key : String) : Prop :=
  (written, field, key) ∈ knownAssociations ∧ model.Stores key

/-- The enumeration that is found for a field of a message. -/
inductive Associates (model : Model) (written field : String) : Option String → Prop
  | named {key : String} (h : model.Names written field key) :
      Associates model written field (some key)
  | known {key : String} (hnone : model.NamesNone written field)
      (h : model.Knows written field key) : Associates model written field (some key)
  | knownAnywhere {key : String} (hnone : model.NamesNone written field)
      (hunknown : ∀ other, ¬ model.Knows written field other) (h : model.Knows "" field key) :
      Associates model written field (some key)
  | nothing (hnone : model.NamesNone written field)
      (hunknown : ∀ other, ¬ model.Knows written field other)
      (hanywhere : ∀ other, ¬ model.Knows "" field other) : Associates model written field none

end Model

namespace Catalog

/-! ## Fields that name an enumeration -/

theorem Coherent.hasEnum_iff_stores {catalog : Catalog} (h : catalog.Coherent) {key : String} :
    catalog.hasEnum key = true ↔ catalog.finish.Stores key := by
  rw [hasEnum, Option.isSome_iff_ne_none, ne_eq, h.enumsByName.find?_eq_none_iff, not_not,
    List.mem_map]
  rfl

theorem Coherent.hasEnum_eq_false_iff {catalog : Catalog} (h : catalog.Coherent) {key : String} :
    catalog.hasEnum key = false ↔ ¬ catalog.finish.Stores key := by
  rw [← h.hasEnum_iff_stores, Bool.not_eq_true]

theorem Coherent.resolvedEnum?_eq_some_iff {catalog : Catalog} (h : catalog.Coherent)
    {message : Message} {field : Field} {key : String} :
    catalog.resolvedEnum? message field = some key ↔
      catalog.finish.Resolves message field key := by
  rw [resolvedEnum?, Option.bind_eq_some_iff]
  constructor
  · rintro ⟨name, hattribute, hfound⟩
    cases hown : catalog.hasEnum (catalog.scoping.qualify message.scope name).text with
    | true =>
      rw [fieldEnum?_of_own hown] at hfound
      cases hfound
      exact .own hattribute (h.hasEnum_iff_stores.mp hown)
    | false =>
      cases hbare : catalog.hasEnum name with
      | true =>
        rw [fieldEnum?_of_global hown hbare] at hfound
        cases hfound
        exact .bare hattribute (h.hasEnum_eq_false_iff.mp hown) (h.hasEnum_iff_stores.mp hbare)
      | false => simp [fieldEnum?, hown, hbare] at hfound
  · intro hresolves
    cases hresolves with
    | own hattribute hown =>
      exact ⟨_, hattribute, fieldEnum?_of_own (h.hasEnum_iff_stores.mpr hown)⟩
    | bare hattribute hown hbare =>
      exact ⟨key, hattribute, fieldEnum?_of_global (h.hasEnum_eq_false_iff.mpr hown)
        (h.hasEnum_iff_stores.mpr hbare)⟩

theorem Coherent.resolvedEnum?_eq_none_iff {catalog : Catalog} (h : catalog.Coherent)
    {message : Message} {field : Field} :
    catalog.resolvedEnum? message field = none ↔
      ∀ key, ¬ catalog.finish.Resolves message field key := by
  simp only [Option.eq_none_iff_forall_ne_some, ne_eq, h.resolvedEnum?_eq_some_iff]

/-- Of what the fields with a name name, the last counts. -/
theorem Coherent.getLast?_namedEnums_eq_some_iff {catalog : Catalog} (h : catalog.Coherent)
    {message : Message} {field key : String} :
    (catalog.namedEnums message field).getLast? = some key ↔
      ∃ front last back, message.fields = front ++ last :: back ∧ last.name = field ∧
        catalog.finish.Resolves message last key ∧
        ∀ later ∈ back, later.name = field →
          ∀ other, ¬ catalog.finish.Resolves message later other := by
  -- the fields are gone through from their end
  rw [namedEnums, List.filterMap_filter, List.getLast?_filterMap, List.findSome?_eq_some_iff]
  have hsome : ∀ found : Field,
      (if (found.name == field) = true then catalog.resolvedEnum? message found else none) =
        some key ↔ found.name = field ∧ catalog.finish.Resolves message found key := by
    intro found
    rw [← h.resolvedEnum?_eq_some_iff]
    by_cases hname : found.name = field <;> simp [hname]
  have hnone : ∀ found : Field,
      (if (found.name == field) = true then catalog.resolvedEnum? message found else none) =
        none ↔ (found.name = field → ∀ other, ¬ catalog.finish.Resolves message found other) := by
    intro found
    rw [← h.resolvedEnum?_eq_none_iff]
    by_cases hname : found.name = field <;> simp [hname]
  simp only [hsome, hnone]
  constructor
  · rintro ⟨back, last, front, hfields, ⟨hname, hresolves⟩, hback⟩
    refine ⟨front.reverse, last, back.reverse, ?_, hname, hresolves, ?_⟩
    · rw [← List.reverse_inj, hfields]
      simp
    · intro later hlater
      exact hback later (List.mem_reverse.mp hlater)
  · rintro ⟨front, last, back, hfields, hname, hresolves, hback⟩
    refine ⟨back.reverse, last, front.reverse, ?_, ⟨hname, hresolves⟩, ?_⟩
    · rw [hfields]
      simp
    · intro later hlater
      exact hback later (List.mem_reverse.mp hlater)

/-- What a message names for a field. -/
theorem Coherent.namedEnum?_eq_some_iff {catalog : Catalog} (h : catalog.Coherent)
    {written field key : String} :
    catalog.namedEnum? written field = some key ↔ catalog.finish.Names written field key := by
  rw [namedEnum?, Option.bind_eq_some_iff]
  constructor
  · rintro ⟨message, hmessage, hlast⟩
    obtain ⟨hmem, hkey⟩ := h.messagesByName.bind_eq_some_iff.mp hmessage
    exact ⟨message, hmem, hkey, h.getLast?_namedEnums_eq_some_iff.mp hlast⟩
  · rintro ⟨message, hmem, hkey, hlast⟩
    exact ⟨message, h.messagesByName.bind_eq_some_iff.mpr ⟨hmem, hkey⟩,
      h.getLast?_namedEnums_eq_some_iff.mpr hlast⟩

theorem Coherent.namedEnum?_eq_none_iff {catalog : Catalog} (h : catalog.Coherent)
    {written field : String} :
    catalog.namedEnum? written field = none ↔ catalog.finish.NamesNone written field := by
  have hnone : ∀ message, (catalog.namedEnums message field).getLast? = none ↔
      ∀ found ∈ message.fields, found.name = field →
        ∀ key, ¬ catalog.finish.Resolves message found key := by
    intro message
    simp only [← h.resolvedEnum?_eq_none_iff]
    rw [List.getLast?_eq_none_iff, namedEnums, List.filterMap_eq_nil_iff]
    simp
  rw [namedEnum?, Option.bind_eq_none_iff]
  constructor
  · intro hall message hmem hkey
    exact (hnone message).mp (hall message (h.messagesByName.bind_eq_some_iff.mpr ⟨hmem, hkey⟩))
  · intro hall message hmessage
    obtain ⟨hmem, hkey⟩ := h.messagesByName.bind_eq_some_iff.mp hmessage
    exact (hnone message).mpr (hall message hmem hkey)

/-! ## Fields that are known -/

/-- No field is known to have two enumerations. -/
theorem nodup_knownAssociations :
    (knownAssociations.map fun known => (known.1, known.2.1)).Nodup := by
  decide

theorem pairs_knownFieldAssociations (catalog : Catalog) :
    catalog.knownFieldAssociations.pairs =
      ((knownAssociations.filter fun known => catalog.hasEnum known.2.2).map fun known =>
        ((known.1, known.2.1), known.2.2)).reverse := by
  have hfold : ∀ (known : List (String × String × String)) (start : Associations),
      (known.foldl (fun associations known =>
          associations.insert known.1 known.2.1 known.2.2) start).pairs =
        (known.map fun known => ((known.1, known.2.1), known.2.2)).reverse ++ start.pairs := by
    intro known
    induction known with
    | nil => intro start; rfl
    | cons first known ih =>
      intro start
      rw [List.foldl_cons, ih]
      simp [Associations.insert]
  rw [knownFieldAssociations, hfold, List.append_nil]

/-- What is known of a field and stored. -/
theorem Coherent.lookup_known_eq_some_iff {catalog : Catalog} (h : catalog.Coherent)
    {written field key : String} :
    catalog.knownFieldAssociations.pairs.lookup (written, field) = some key ↔
      catalog.finish.Knows written field key := by
  have hdistinct : (catalog.knownFieldAssociations.pairs.map (·.1)).Nodup := by
    rw [pairs_knownFieldAssociations, List.map_reverse, List.nodup_reverse, List.map_map]
    exact (List.filter_sublist.map _).nodup nodup_knownAssociations
  rw [lookup_eq_some_iff_mem hdistinct, pairs_knownFieldAssociations, List.mem_reverse,
    List.mem_map, Model.Knows, ← h.hasEnum_iff_stores]
  constructor
  · rintro ⟨known, hknown, heq⟩
    cases heq
    exact List.mem_filter.mp hknown
  · rintro ⟨hknown, hstored⟩
    exact ⟨_, List.mem_filter.mpr ⟨hknown, hstored⟩, rfl⟩

theorem Coherent.lookup_known_eq_none_iff {catalog : Catalog} (h : catalog.Coherent)
    {written field : String} :
    catalog.knownFieldAssociations.pairs.lookup (written, field) = none ↔
      ∀ other, ¬ catalog.finish.Knows written field other := by
  simp only [Option.eq_none_iff_forall_ne_some, ne_eq, h.lookup_known_eq_some_iff]

/-! ## Looking up -/

/-- Unless a message has the empty name, only known fields are kept under it. -/
theorem Coherent.lookup?_of_named {catalog : Catalog} (h : catalog.Coherent)
    (hnamed : ∀ message ∈ catalog.messages, catalog.messageKey message ≠ "")
    (written field : String) :
    catalog.finish.associations.lookup? written field =
      ((catalog.namedEnum? written field).or
        (catalog.knownFieldAssociations.pairs.lookup (written, field))).or
        (catalog.knownFieldAssociations.pairs.lookup ("", field)) := by
  have hnone : catalog.namedEnum? "" field = none :=
    h.namedEnum?_eq_none_iff.mpr fun message hmessage hkey => absurd hkey (hnamed message hmessage)
  rw [h.lookup?_associations, hnone, Option.none_or]

/-- The rules say what is found. -/
theorem Coherent.associates_lookup? {catalog : Catalog} (h : catalog.Coherent)
    (hnamed : ∀ message ∈ catalog.messages, catalog.messageKey message ≠ "")
    (written field : String) :
    catalog.finish.Associates written field
      (catalog.finish.associations.lookup? written field) := by
  rw [h.lookup?_of_named hnamed]
  cases hnames : catalog.namedEnum? written field with
  | some key => exact .named (h.namedEnum?_eq_some_iff.mp hnames)
  | none =>
    have hnone := h.namedEnum?_eq_none_iff.mp hnames
    cases hknown : catalog.knownFieldAssociations.pairs.lookup (written, field) with
    | some key => exact .known hnone (h.lookup_known_eq_some_iff.mp hknown)
    | none =>
      have hunknown := h.lookup_known_eq_none_iff.mp hknown
      cases hanywhere : catalog.knownFieldAssociations.pairs.lookup ("", field) with
      | some key => exact .knownAnywhere hnone hunknown (h.lookup_known_eq_some_iff.mp hanywhere)
      | none => exact .nothing hnone hunknown (h.lookup_known_eq_none_iff.mp hanywhere)

/-- What the rules say is found. -/
theorem Coherent.lookup?_of_associates {catalog : Catalog} (h : catalog.Coherent)
    (hnamed : ∀ message ∈ catalog.messages, catalog.messageKey message ≠ "")
    {written field : String} {answer : Option String}
    (hanswer : catalog.finish.Associates written field answer) :
    catalog.finish.associations.lookup? written field = answer := by
  rw [h.lookup?_of_named hnamed]
  cases hanswer with
  | named hnames => rw [h.namedEnum?_eq_some_iff.mpr hnames, Option.some_or, Option.some_or]
  | known hnone hknown =>
    rw [h.namedEnum?_eq_none_iff.mpr hnone, h.lookup_known_eq_some_iff.mpr hknown, Option.none_or,
      Option.some_or]
  | knownAnywhere hnone hunknown hanywhere =>
    rw [h.namedEnum?_eq_none_iff.mpr hnone, h.lookup_known_eq_none_iff.mpr hunknown,
      h.lookup_known_eq_some_iff.mpr hanywhere, Option.none_or, Option.none_or]
  | nothing hnone hunknown hanywhere =>
    rw [h.namedEnum?_eq_none_iff.mpr hnone, h.lookup_known_eq_none_iff.mpr hunknown,
      h.lookup_known_eq_none_iff.mpr hanywhere, Option.none_or, Option.none_or]

end Catalog

/-- Whatever the rules give is stored. -/
theorem Model.Associates.stores {model : Model} {written field key : String}
    (h : model.Associates written field (some key)) : model.Stores key := by
  cases h with
  | named hnames =>
    obtain ⟨message, -, -, -, last, -, -, -, hresolves, -⟩ := hnames
    cases hresolves with
    | own _ hown => exact hown
    | bare _ _ hbare => exact hbare
  | known _ hknown => exact hknown.2
  | knownAnywhere _ _ hknown => exact hknown.2

/-- **What looking up a field finds.** Let a session end with a model in which no message has the
empty written name. For all texts, what is found for a field of a message is what the rules say:
the enumeration that the last field with this name leads to in the message with this name; if none
does, what is known of the field in this message and stored; if nothing is, what is known of the
field in any message and stored; otherwise nothing. And what is found is the written name of an
enumeration that is found by it. -/
theorem Catalog.lookup_follows_rules (scoping : Scoping)
    (documents : List (String × Schema.Document))
    (hnamed : ∀ message ∈ (session scoping documents).finish.messages,
      (message.qualified scoping).text ≠ "") (written field : String) :
    let model := (session scoping documents).finish
    (∀ answer, model.associations.lookup? written field = answer ↔
      model.Associates written field answer) ∧
    ∀ key, model.associations.lookup? written field = some key →
      ∃ enumeration, model.enum? key = some enumeration ∧
        (enumeration.qualified scoping).text = key := by
  intro model
  have h := coherent_session scoping documents
  have hscoping := scoping_session scoping documents
  have hnamed' : ∀ message ∈ (session scoping documents).messages,
      (session scoping documents).messageKey message ≠ "" := by
    intro message hmessage
    rw [messageKey, hscoping]
    exact hnamed message hmessage
  refine ⟨fun answer => ⟨?_, h.lookup?_of_associates hnamed'⟩, fun key hkey => ?_⟩
  · rintro rfl
    exact h.associates_lookup? hnamed' written field
  · have hassociates := h.associates_lookup? hnamed' written field
    rw [hkey] at hassociates
    obtain ⟨enumeration, henum, hwritten⟩ := hassociates.stores
    refine ⟨enumeration, h.enumsByName.bind_eq_some_iff.mpr ⟨henum, hwritten⟩, ?_⟩
    rw [← hscoping]
    exact hwritten

/-- A document with a message whose fields are known by their names. One field is there twice: the
first time it names an enumeration of the document, the second time one that is not declared. -/
def heartbeatDocument : Schema.Document where
  includes := []
  version := none
  dialect := none
  enums := [⟨"MAV_MODE", none, []⟩, ⟨"MAV_TYPE", none, []⟩, ⟨"FLIGHT_MODE", none, []⟩]
  messages := [⟨"HEARTBEAT", 0, none,
    [⟨"type", "uint8_t", none, none, none⟩,
      ⟨"mode", "uint8_t", none, some "FLIGHT_MODE", none⟩,
      ⟨"mode", "uint8_t", none, some "FLIGHT_STAGE", none⟩], some 1⟩]

/-- Each rule has a field of this document that it applies to. -/
theorem Catalog.heartbeatDocument_follows_rules :
    let model := (session .separate [("common.xml", heartbeatDocument)]).finish
    (∀ message ∈ model.messages, (message.qualified .separate).text ≠ "") ∧
    model.Associates "HEARTBEAT" "mode" (some "FLIGHT_MODE") ∧
    model.Associates "HEARTBEAT" "type" (some "MAV_TYPE") ∧
    model.Associates "PING" "mode" (some "MAV_MODE") ∧
    model.Associates "PING" "type" none := by
  intro model
  have hnamed : ∀ message ∈ model.messages, (message.qualified .separate).text ≠ "" := by
    decide +kernel
  have hrules := fun written field answer =>
    ((lookup_follows_rules .separate _ hnamed written field).1 answer).mp
  exact ⟨hnamed, hrules _ _ _ (by decide +kernel), hrules _ _ _ (by decide +kernel),
    hrules _ _ _ (by decide +kernel), hrules _ _ _ (by decide +kernel)⟩

end MavlinkCompiler
