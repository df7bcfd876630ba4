import MavlinkCompiler.Proofs.Model.Catalog

/-!
# Catalogs only grow

Adding a document leaves what is in a catalog where it is. Groups and messages are added at the end
and never touched again. An enumeration can be joined with further declarations, but these only add
entries at its end and a description if it has none; since the value of an entry depends on the
entries before it alone, values that were assigned stay.

* `Enumeration.Grown`, `Catalog.Grown`: what may happen to an enumeration and to a catalog.
* `resolveValues_prefix`: values do not depend on later entries.
* `Catalog.Coherent.grown_addSource`: adding a document lets a catalog grow, wherever it stops.
* `Catalog.later_source_leaves_model`: so every look-up in the finished model that had an answer is
  answered from the same position.

Definitions are added to the group of the document, which comes after all groups that were there
before. This is why changing that group leaves the others alone.
-/

namespace MavlinkCompiler

open Schema (Document EnumDefinition MessageDefinition)

/-! ## Values -/

theorem length_valuesFrom (next : Int64) (declared : List (Option Int64)) :
    (valuesFrom next declared).length = declared.length := by
  induction declared generalizing next with
  | nil => rfl
  | cons value rest ih => simp [valuesFrom, ih]

theorem length_resolveValues (declared : List (Option Int64)) :
    (resolveValues declared).length = declared.length :=
  length_valuesFrom 0 declared

theorem Enumeration.length_values (enumeration : Enumeration) :
    enumeration.values.length = enumeration.entries.length := by
  rw [Enumeration.values, length_resolveValues, List.length_map]

/-- The values of entries do not depend on entries after them. -/
theorem valuesFrom_prefix {front all : List (Option Int64)} (h : front <+: all) (next : Int64) :
    valuesFrom next front <+: valuesFrom next all := by
  induction front generalizing all next with
  | nil => exact List.nil_prefix
  | cons value front ih =>
    obtain ⟨rest, rfl⟩ := h
    simp only [List.cons_append, valuesFrom, List.cons_prefix_cons, true_and]
    exact ih (List.prefix_append front rest) _

theorem resolveValues_prefix {front all : List (Option Int64)} (h : front <+: all) :
    resolveValues front <+: resolveValues all :=
  valuesFrom_prefix h 0

/-! ## Enumerations -/

namespace Enumeration

/-- An enumeration before and after further declarations: it is found as before, has its entries
and perhaps more after them, and keeps its description if it has one. -/
structure Grown (before after : Enumeration) : Prop where
  name : after.name = before.name
  scope : after.scope = before.scope
  group : after.group = before.group
  entries : before.entries <+: after.entries
  description : after.description = before.description ∨ before.description = none

namespace Grown

variable {first second third : Enumeration}

theorem refl (enumeration : Enumeration) : Grown enumeration enumeration :=
  ⟨rfl, rfl, rfl, List.prefix_refl _, .inl rfl⟩

theorem trans (h : Grown first second) (h' : Grown second third) : Grown first third := by
  refine ⟨h'.name.trans h.name, h'.scope.trans h.scope, h'.group.trans h.group,
    h.entries.trans h'.entries, ?_⟩
  rcases h.description with hfirst | hnone
  · rcases h'.description with hsecond | hnone
    · exact .inl (hsecond.trans hfirst)
    · exact .inr (hfirst ▸ hnone)
  · exact .inr hnone

/-- Entries keep the values that they had. -/
theorem valuedEntries (h : Grown first second) : first.valuedEntries <+: second.valuedEntries := by
  obtain ⟨entries, hentries⟩ := h.entries
  have hvalues : first.values <+: second.values := by
    refine resolveValues_prefix ?_
    rw [← hentries, List.map_append]
    exact List.prefix_append _ _
  obtain ⟨values, hvalues⟩ := hvalues
  unfold Enumeration.valuedEntries
  rw [← hentries, ← hvalues, List.zip_append first.length_values.symm]
  exact List.prefix_append _ _

end Grown

/-- Joining a further declaration lets an enumeration grow, wherever it stops. -/
theorem grown_absorb (enumeration further : Enumeration) :
    enumeration.Grown (enumeration.absorb further).1 := by
  obtain ⟨taken, left, -, hjoined, -, -⟩ := addEntries_cases further.entries
    { enumeration with description := enumeration.description.or further.description }
  unfold absorb
  rw [hjoined]
  refine ⟨rfl, rfl, rfl, List.prefix_append _ _, ?_⟩
  show enumeration.description.or further.description = _ ∨ _
  cases enumeration.description with
  | none => exact .inr rfl
  | some text => exact .inl rfl

end Enumeration

/-! ## Catalogs -/

namespace Catalog

/-- A catalog before and after additions: groups and messages come at the end, and enumerations
grow where they are. -/
structure Grown (before after : Catalog) : Prop where
  scoping : after.scoping = before.scoping
  groups : before.groups <+: after.groups
  messages : before.messages <+: after.messages
  enums : ∀ (position : Nat) (enumeration : Enumeration),
    before.enums[position]? = some enumeration →
    ∃ grown, after.enums[position]? = some grown ∧ enumeration.Grown grown

/-- Changing the element after a front part leaves the front part. -/
theorem prefix_modify {α : Type} {front all : List α} (h : front <+: all) (f : α → α) :
    front <+: all.modify front.length f := by
  induction front generalizing all with
  | nil => exact List.nil_prefix
  | cons first front ih =>
    obtain ⟨rest, rfl⟩ := h
    rw [List.length_cons, List.cons_append, List.modify_succ_cons, List.cons_prefix_cons]
    exact ⟨rfl, ih (List.prefix_append front rest)⟩

namespace Grown

variable {base catalog : Catalog}

theorem refl (catalog : Catalog) : Grown catalog catalog :=
  ⟨rfl, List.prefix_refl _, List.prefix_refl _, fun _ enumeration h => ⟨enumeration, h, .refl _⟩⟩

theorem pushGroup (h : Grown base catalog) (source : String) (includes : List String) :
    Grown base (catalog.pushGroup source includes) :=
  ⟨h.scoping, h.groups.trans (List.prefix_append _ _), h.messages, h.enums⟩

/-- A new enumeration comes after those there are. -/
theorem pushEnum (h : Grown base catalog) {enumeration : Enumeration}
    (hgroup : enumeration.group = base.groups.length) :
    Grown base (catalog.pushEnum enumeration) := by
  refine ⟨h.scoping, ?_, h.messages, fun position old hold => ?_⟩
  · show base.groups <+: catalog.groups.modify enumeration.group _
    rw [hgroup]
    exact prefix_modify h.groups _
  · obtain ⟨grown, hgrown, hold⟩ := h.enums position old hold
    exact ⟨grown, getElem?_concat_eq_some_iff.mpr (.inl hgrown), hold⟩

/-- A further declaration lets one enumeration grow. -/
theorem setEnum (h : Grown base catalog) {position : Nat} {existing joined : Enumeration}
    (hexisting : catalog.enums[position]? = some existing) (hjoined : existing.Grown joined) :
    Grown base { catalog with enums := catalog.enums.set position joined } := by
  refine ⟨h.scoping, h.groups, h.messages, fun other old hold => ?_⟩
  obtain ⟨grown, hgrown, hold⟩ := h.enums other old hold
  show ∃ found, (catalog.enums.set position joined)[other]? = some found ∧ _
  by_cases heq : position = other
  · subst heq
    obtain rfl : existing = grown := Option.some.inj (hexisting.symm.trans hgrown)
    have hlt := (List.getElem?_eq_some_iff.mp hexisting).1
    exact ⟨joined, List.getElem?_set_self hlt, hold.trans hjoined⟩
  · exact ⟨grown, by rw [List.getElem?_set_ne heq, hgrown], hold⟩

theorem pushMessage (h : Grown base catalog) {message : Message}
    (hgroup : message.group = base.groups.length) :
    Grown base (catalog.pushMessage message) := by
  refine ⟨h.scoping, ?_, h.messages.trans (List.prefix_append _ _), h.enums⟩
  show base.groups <+: catalog.groups.modify message.group _
  rw [hgroup]
  exact prefix_modify h.groups _

/-- The definitions of a document are added to a group that was not there before. -/
theorem addEnum (h : Grown base catalog) (hcoherent : catalog.Coherent) (scope : Option String)
    (definition : EnumDefinition) :
    Grown base (addEnum scope base.groups.length catalog definition).catalog := by
  obtain ⟨error, -, heq⟩ | ⟨enumeration, hdefinition, -, heq⟩ |
    ⟨enumeration, position, existing, -, hexisting, -, heq⟩ :=
    hcoherent.addEnum_cases scope base.groups.length definition
  · rw [heq]
    exact h
  · rw [heq]
    obtain ⟨-, -, hgroup, -⟩ := Enumeration.ofDefinition_eq_ok hdefinition
    exact h.pushEnum hgroup
  · rw [heq]
    exact h.setEnum hexisting (existing.grown_absorb enumeration)

theorem addMessage (h : Grown base catalog) (scope : Option String)
    (definition : MessageDefinition) :
    Grown base (addMessage scope base.groups.length catalog definition).catalog := by
  obtain ⟨error, heq⟩ | ⟨message, events, hdefinition, -, -, heq⟩ :=
    catalog.addMessage_cases scope base.groups.length definition
  · rw [heq]
    exact h
  · rw [heq]
    exact h.pushMessage (ofDefinition_home hdefinition).2

end Grown

/-- Adding a document lets a catalog grow, whether or not the document can be added. -/
theorem Coherent.grown_addSource {catalog : Catalog} (h : catalog.Coherent) (source : String)
    (document : Document) : Grown catalog (catalog.addSource source document).catalog := by
  unfold Catalog.addSource
  split
  · exact .refl catalog
  next hnew =>
  have hstart := (Grown.refl catalog).pushGroup source document.includes
  have hopen := h.pushGroup document.includes hnew
  -- the group of the document stays open and the catalog below it as it was
  have henums := addAll_keeps
    (fun c => c.Open (groupScope (groupName source)) catalog.groups.length ∧ catalog.Grown c)
    (fun c definition hc => ⟨hc.1.addEnum definition, hc.2.addEnum hc.1.coherent _ definition⟩)
    document.enums _ ⟨hopen, hstart⟩
  unfold addDefinitions Step.andThen
  split
  · exact henums.2
  · exact addAll_keeps (Grown catalog) (fun c definition hc => hc.addMessage _ definition)
      document.messages _ henums.2

/-! ## Look-ups -/

theorem getElem?_of_prefix {α : Type} {front all : List α} (h : front <+: all) {position : Nat}
    {element : α} (helement : front[position]? = some element) :
    all[position]? = some element := by
  obtain ⟨rest, rfl⟩ := h
  rw [List.getElem?_append_left (List.getElem?_eq_some_iff.mp helement).1, helement]

/-- A grown enumeration has its written name still. -/
theorem enumKey_of_grown (catalog : Catalog) {before after : Enumeration}
    (h : before.Grown after) : catalog.enumKey after = catalog.enumKey before := by
  rw [enumKey, enumKey, Enumeration.qualified, Enumeration.qualified, h.name, h.scope]

/-- If every element has an element with its key at its position in another list, what is found by a
key has such a counterpart, and that is found by the key in the other list. -/
theorem find?_counterpart {α κ : Type} [BEq κ] {index index' : Index κ} {key : α → κ}
    {elements elements' : List α} (h : index.Describes (elements.map key))
    (h' : index'.Describes (elements'.map key)) (counterpart : α → α → Prop)
    (hkept : ∀ (position : Nat) (element : α), elements[position]? = some element →
      ∃ other, elements'[position]? = some other ∧ counterpart element other)
    (hkey : ∀ {element other}, counterpart element other → key other = key element)
    {sought : κ} {element : α}
    (hfound : ((index.find? sought).bind fun position => elements[position]?) = some element) :
    ∃ (position : Nat) (other : α), elements[position]? = some element ∧
      elements'[position]? = some other ∧ counterpart element other ∧
      ((index'.find? sought).bind fun position => elements'[position]?) = some other := by
  obtain ⟨position, hposition, helement⟩ := Option.bind_eq_some_iff.mp hfound
  obtain ⟨other, hother, hcounterpart⟩ := hkept position element helement
  -- the key at the position is the one that is looked for
  have hsought : key element = sought := by
    have hat := (h sought position).mp hposition
    rw [List.getElem?_map, helement] at hat
    exact Option.some.inj hat
  have hposition' : index'.find? sought = some position := by
    rw [h' sought position, List.getElem?_map, hother, Option.map_some, hkey hcounterpart, hsought]
  exact ⟨position, other, helement, hother, hcounterpart, by rw [hposition']; exact hother⟩

/-- **Loading more leaves what is loaded.** Let a document be added after any session, completely or
not. The messages and groups of the finished model before are the first ones after, with all that
they list; every enumeration is where it was and has grown, its entries with the values that they
had; and whatever was found is found at the same position. -/
theorem later_source_leaves_model (scoping : Scoping) (documents : List (String × Document))
    (source : String) (document : Document) :
    let before := (session scoping documents).finish
    let after := ((session scoping documents).addSource source document).catalog.finish
    before.messages <+: after.messages ∧ before.groups <+: after.groups ∧
    (∀ (position : Nat) (enumeration : Enumeration),
      before.enums[position]? = some enumeration →
      ∃ grown, after.enums[position]? = some grown ∧ enumeration.Grown grown ∧
        enumeration.valuedEntries <+: grown.valuedEntries) ∧
    (∀ (origin : String) (group : Group), before.group? origin = some group →
      ∃ position : Nat, before.groups[position]? = some group ∧
        after.groups[position]? = some group ∧ after.group? origin = some group) ∧
    (∀ (key : String) (message : Message), before.message? key = some message →
      ∃ position : Nat, before.messages[position]? = some message ∧
        after.messages[position]? = some message ∧ after.message? key = some message) ∧
    (∀ (key : String) (enumeration : Enumeration), before.enum? key = some enumeration →
      ∃ (position : Nat) (grown : Enumeration), before.enums[position]? = some enumeration ∧
        after.enums[position]? = some grown ∧ after.enum? key = some grown) := by
  intro before after
  have hcoherent := coherent_session scoping documents
  have hcoherent' := hcoherent.addSource source document
  have hgrown := hcoherent.grown_addSource source document
  have hgroups : before.groups <+: after.groups := hgrown.groups
  have hmessages : before.messages <+: after.messages := hgrown.messages
  -- written names depend on the scoping, which is the same
  have henumKey := hcoherent'.enumsByName
  have hmessageKey := hcoherent'.messagesByName
  unfold enumKey at henumKey
  unfold messageKey at hmessageKey
  rw [hgrown.scoping] at henumKey hmessageKey
  refine ⟨hmessages, hgroups, fun position enumeration henum => ?_, fun origin group hgroup => ?_,
    fun key message hmessage => ?_, fun key enumeration henum => ?_⟩
  · obtain ⟨grown, hfound, hgrows⟩ := hgrown.enums position enumeration henum
    exact ⟨grown, hfound, hgrows, hgrows.valuedEntries⟩
  · obtain ⟨position, _, hold, hnew, rfl, hfound⟩ :=
      find?_counterpart hcoherent.groupsBySource hcoherent'.groupsBySource Eq
        (fun _ _ h => ⟨_, getElem?_of_prefix hgroups h, rfl⟩) (fun h => h ▸ rfl) hgroup
    exact ⟨position, hold, hnew, hfound⟩
  · obtain ⟨position, _, hold, hnew, rfl, hfound⟩ :=
      find?_counterpart hcoherent.messagesByName hmessageKey Eq
        (fun _ _ h => ⟨_, getElem?_of_prefix hmessages h, rfl⟩) (fun h => h ▸ rfl) hmessage
    exact ⟨position, hold, hnew, hfound⟩
  · obtain ⟨position, grown, hold, hnew, -, hfound⟩ :=
      find?_counterpart hcoherent.enumsByName henumKey Enumeration.Grown hgrown.enums
        (fun h => enumKey_of_grown _ h) henum
    exact ⟨position, grown, hold, hnew, hfound⟩

end Catalog

end MavlinkCompiler
