import MavlinkCompiler.Model.Basic
import MavlinkCompiler.Proofs.Model.Enumeration

/-!
# What holds of every catalog

A catalog keeps lists of groups, enumerations and messages together with indices into them. However
documents are added to it, and wherever an addition stops, the lists and the indices stay in step.

* `Index.Describes`: an index has the keys of a list at their positions, and no others.
* `Listed`: the groups list the elements in order, each in the group that it names as its own.
* `Catalog.Coherent`: both, for everything that a catalog keeps, with distinct entry names.
* `Catalog.Coherent.addSource`: adding a document keeps a catalog coherent, also when it fails.

Definitions are always added to the group that was added last. That group being the last is what
keeps the positions of all groups in order; `Catalog.Open` says that it is.
-/

namespace MavlinkCompiler

open Schema (Document EnumDefinition MessageDefinition)

/-- A position in a list with one more element at its end. -/
theorem getElem?_concat_eq_some_iff {α : Type} {front : List α} {last a : α} {position : Nat} :
    (front ++ [last])[position]? = some a ↔
      front[position]? = some a ∨ position = front.length ∧ last = a := by
  rcases Nat.lt_trichotomy position front.length with hlt | rfl | hgt
  · rw [List.getElem?_append_left hlt]
    constructor
    · exact .inl
    · rintro (h | ⟨rfl, -⟩)
      · exact h
      · omega
  · simp
  · rw [List.getElem?_eq_none (by simp; omega), List.getElem?_eq_none (by omega)]
    constructor
    · nofun
    · rintro (h | ⟨rfl, -⟩)
      · cases h
      · omega

/-- The elements at all positions of a list are the list. -/
theorem filterMap_range_getElem? {α : Type} (elements : List α) :
    (List.range elements.length).filterMap (fun position => elements[position]?) = elements := by
  induction elements with
  | nil => rfl
  | cons first rest ih =>
    rw [List.length_cons, List.range_succ_eq_map, List.filterMap_cons_some List.getElem?_cons_zero,
      List.filterMap_map]
    simpa using ih

/-- If one element of a list gives something, it gives all that the list gives. -/
theorem flatMap_eq_of_getElem? {α β : Type} {f : α → List β} {elements : List α} {position : Nat}
    {element : α} (helement : elements[position]? = some element)
    (hothers : ∀ (other : Nat) (found : α), other ≠ position → elements[other]? = some found →
      f found = []) :
    elements.flatMap f = f element := by
  induction elements generalizing position with
  | nil => cases helement
  | cons first rest ih =>
    rw [List.flatMap_cons]
    cases position with
    | zero =>
      have hrest : rest.flatMap f = [] := by
        refine List.flatMap_eq_nil_iff.mpr fun found hfound => ?_
        obtain ⟨other, hother⟩ := List.mem_iff_getElem?.mp hfound
        exact hothers (other + 1) found (by omega) hother
      rw [hrest, List.append_nil, Option.some.inj helement]
    | succ position =>
      have hrest := ih helement fun other found hne hfound =>
        hothers (other + 1) found (by omega) hfound
      rw [hothers 0 first (by omega) rfl, List.nil_append, hrest]

/-! ## Indices -/

namespace Index

variable {κ : Type} [BEq κ]

/-- An index has every key of a list at the position of the key, and no other keys. -/
def Describes (index : Index κ) (keys : List κ) : Prop :=
  ∀ key position, index.find? key = some position ↔ keys[position]? = some key

theorem describes_empty : (empty : Index κ).Describes [] := by
  intro key position
  simp

namespace Describes

variable {index : Index κ} {keys : List κ}

theorem find?_eq_none_iff (h : index.Describes keys) {key : κ} :
    index.find? key = none ↔ key ∉ keys := by
  constructor
  · intro hnone hmem
    obtain ⟨position, hposition⟩ := List.mem_iff_getElem?.mp hmem
    rw [(h key position).mpr hposition] at hnone
    cases hnone
  · intro hnot
    cases hfound : index.find? key with
    | none => rfl
    | some position =>
      exact absurd (List.mem_of_getElem? ((h key position).mp hfound)) hnot

theorem position_eq (h : index.Describes keys) {key : κ} {position other : Nat}
    (hposition : keys[position]? = some key) (hother : keys[other]? = some key) :
    position = other := by
  have hfound := (h key position).mpr hposition
  rw [(h key other).mpr hother] at hfound
  exact (Option.some.inj hfound).symm

/-- A key has one position, so no key is there twice. -/
theorem nodup (h : index.Describes keys) : keys.Nodup := by
  rw [List.nodup_iff_injective_getElem]
  rintro ⟨i, hi⟩ ⟨j, hj⟩ heq
  have hkey : keys[i] = keys[j] := heq
  have hj' : keys[j]? = some keys[i] := by
    rw [hkey]
    exact List.getElem?_eq_getElem hj
  obtain rfl := h.position_eq (List.getElem?_eq_getElem hi) hj'
  rfl

/-- Every element is found by its key. -/
theorem find?_bind {α : Type} {key : α → κ} {elements : List α}
    (h : index.Describes (elements.map key)) {element : α} (helement : element ∈ elements) :
    ((index.find? (key element)).bind fun position => elements[position]?) = some element := by
  obtain ⟨position, hposition⟩ := List.mem_iff_getElem?.mp helement
  rw [(h (key element) position).mpr (by rw [List.getElem?_map, hposition]; rfl)]
  exact hposition

/-- What is found by a key are the elements with this key. -/
theorem bind_eq_some_iff {α : Type} {key : α → κ} {elements : List α}
    (h : index.Describes (elements.map key)) {sought : κ} {element : α} :
    ((index.find? sought).bind fun position => elements[position]?) = some element ↔
      element ∈ elements ∧ key element = sought := by
  constructor
  · intro hfound
    obtain ⟨position, hposition, helement⟩ := Option.bind_eq_some_iff.mp hfound
    have hkey := (h sought position).mp hposition
    rw [List.getElem?_map, helement] at hkey
    exact ⟨List.mem_of_getElem? helement, Option.some.inj hkey⟩
  · rintro ⟨helement, rfl⟩
    exact h.find?_bind helement

/-- A new key comes last. -/
theorem insert [LawfulBEq κ] (h : index.Describes keys) {key : κ} (hnew : key ∉ keys) :
    (index.insert key keys.length).Describes (keys ++ [key]) := by
  intro other position
  rw [find?_insert, getElem?_concat_eq_some_iff]
  -- only the new key has changed its position
  by_cases hother : other = key
  · subst hother
    rw [if_pos (beq_self_eq_true other)]
    constructor
    · intro hposition
      cases hposition
      exact .inr ⟨rfl, rfl⟩
    · rintro (hposition | ⟨rfl, -⟩)
      · exact absurd (List.mem_of_getElem? hposition) hnew
      · rfl
  · rw [if_neg (by simpa using hother), h other position]
    constructor
    · exact .inl
    · rintro (hposition | ⟨-, rfl⟩)
      · exact hposition
      · exact absurd rfl hother

end Describes

end Index

/-! ## Groups and what they list -/

/-- The groups list the positions of all elements in order, and an element names the group that
lists it as its own, with the scope of the group. -/
structure Listed {α : Type} (positions : Group → List Nat) (home : α → Nat)
    (scope : α → Option String) (groups : List Group) (elements : List α) : Prop where
  tiled : groups.flatMap positions = List.range elements.length
  home : ∀ (at' : Nat) (group : Group), groups[at']? = some group →
    ∀ position ∈ positions group, ∃ element, elements[position]? = some element ∧
      home element = at' ∧ scope element = group.scope

namespace Listed

variable {α : Type} {positions : Group → List Nat} {home : α → Nat} {scope : α → Option String}
  {groups front : List Group} {last last' : Group} {elements : List α} {element : α}

/-- A new group lists nothing. -/
theorem pushGroup (h : Listed positions home scope groups elements) (hlast : positions last = []) :
    Listed positions home scope (groups ++ [last]) elements := by
  refine ⟨by simp [h.tiled, hlast], fun at' group hgroup position hposition => ?_⟩
  rcases getElem?_concat_eq_some_iff.mp hgroup with hgroup | ⟨-, rfl⟩
  · exact h.home at' group hgroup position hposition
  · rw [hlast] at hposition
    cases hposition

/-- The last group may change in what it does not list. -/
theorem setLast (h : Listed positions home scope (front ++ [last]) elements)
    (hpositions : positions last' = positions last) (hscope : last'.scope = last.scope) :
    Listed positions home scope (front ++ [last']) elements := by
  refine ⟨by simpa [hpositions] using h.tiled, fun at' group hgroup position hposition => ?_⟩
  rcases getElem?_concat_eq_some_iff.mp hgroup with hgroup | ⟨rfl, rfl⟩
  · exact h.home at' group (getElem?_concat_eq_some_iff.mpr (.inl hgroup)) position hposition
  · rw [hscope]
    exact h.home front.length last (by simp) position (hpositions ▸ hposition)

/-- A new element comes last and is listed by the last group. -/
theorem pushElement (h : Listed positions home scope (front ++ [last]) elements)
    (hpositions : positions last' = positions last ++ [elements.length])
    (hscope : last'.scope = last.scope) (hhome : home element = front.length)
    (hscope' : scope element = last.scope) :
    Listed positions home scope (front ++ [last']) (elements ++ [element]) := by
  refine ⟨?_, fun at' group hgroup position hposition => ?_⟩
  -- the last group lists one position more, the next one
  · have htiled := h.tiled
    rw [List.flatMap_append, List.flatMap_singleton] at htiled ⊢
    rw [hpositions, ← List.append_assoc, htiled, List.length_append, List.length_singleton,
      List.range_succ]
  rcases getElem?_concat_eq_some_iff.mp hgroup with hgroup | ⟨rfl, rfl⟩
  · obtain ⟨found, hfound, hrest⟩ :=
      h.home at' group (getElem?_concat_eq_some_iff.mpr (.inl hgroup)) position hposition
    exact ⟨found, getElem?_concat_eq_some_iff.mpr (.inl hfound), hrest⟩
  · rw [hpositions] at hposition
    rcases List.mem_append.mp hposition with hold | hnew
    · obtain ⟨found, hfound, hfhome, hfscope⟩ :=
        h.home front.length last (by simp) position hold
      exact ⟨found, getElem?_concat_eq_some_iff.mpr (.inl hfound), hfhome,
        hfscope.trans hscope.symm⟩
    · obtain rfl : position = elements.length := by simpa using hnew
      exact ⟨element, by simp, hhome, hscope'.trans hscope.symm⟩

/-- An element may change in what does not say where it belongs. -/
theorem setElement (h : Listed positions home scope groups elements) {position : Nat}
    {old : α} (hold : elements[position]? = some old) (hhome : home element = home old)
    (hscope : scope element = scope old) :
    Listed positions home scope groups (elements.set position element) := by
  refine ⟨by rw [h.tiled, List.length_set], fun at' group hgroup other hother => ?_⟩
  obtain ⟨found, hfound, hfhome, hfscope⟩ := h.home at' group hgroup other hother
  by_cases heq : position = other
  · subst heq
    rw [hold] at hfound
    cases hfound
    have hlt := (List.getElem?_eq_some_iff.mp hold).1
    exact ⟨element, by simp [hlt], hhome.trans hfhome, hscope.trans hfscope⟩
  · exact ⟨found, by rw [List.getElem?_set_ne heq, hfound], hfhome, hfscope⟩

/-- The elements that the groups list, group by group, are all elements in order. -/
theorem flatMap_elements (h : Listed positions home scope groups elements) :
    (groups.flatMap fun group => (positions group).filterMap fun position => elements[position]?) =
      elements := by
  rw [← List.filterMap_flatMap, h.tiled, filterMap_range_getElem?]

/-- A group lists the positions of the elements that name it as their own, in order. -/
theorem positions_eq (h : Listed positions home scope groups elements) {at' : Nat} {group : Group}
    (hgroup : groups[at']? = some group) :
    positions group = (List.range elements.length).filter fun position =>
      elements[position]?.map home = some at' := by
  -- of the positions that all groups list, those in this group are kept and no others
  rw [← h.tiled, List.filter_flatMap, flatMap_eq_of_getElem? hgroup]
  · symm
    refine List.filter_eq_self.mpr fun position hposition => ?_
    obtain ⟨element, helement, hhome, -⟩ := h.home at' group hgroup position hposition
    simp [helement, hhome]
  · intro other found hne hfound
    refine List.filter_eq_nil_iff.mpr fun position hposition => ?_
    obtain ⟨element, helement, hhome, -⟩ := h.home other found hfound position hposition
    simp [helement, hhome, hne]

end Listed

/-! ## Coherent catalogs -/

namespace Catalog

/-- The lists and the indices of a catalog are in step. -/
structure Coherent (catalog : Catalog) : Prop where
  groupsBySource : catalog.groupsBySource.Describes (catalog.groups.map (·.source))
  enumsByName : catalog.enumsByName.Describes (catalog.enums.map catalog.enumKey)
  messagesByName : catalog.messagesByName.Describes (catalog.messages.map catalog.messageKey)
  messagesById : catalog.messagesById.Describes (catalog.messages.map (·.id))
  enums : Listed (·.enums) (·.group) (·.scope) catalog.groups catalog.enums
  messages : Listed (·.messages) (·.group) (·.scope) catalog.groups catalog.messages
  entries : ∀ enumeration ∈ catalog.enums, enumeration.entryNames.Nodup

theorem coherent_empty (scoping : Scoping) : (empty scoping).Coherent :=
  ⟨Index.describes_empty, Index.describes_empty, Index.describes_empty, Index.describes_empty,
    ⟨rfl, nofun⟩, ⟨rfl, nofun⟩, nofun⟩

/-- The last group has this scope and this position. -/
structure Open (scope : Option String) (group : Nat) (catalog : Catalog) : Prop where
  coherent : catalog.Coherent
  last : ∃ front last, catalog.groups = front ++ [last] ∧ front.length = group ∧ last.scope = scope

/-- Changing the last group. -/
theorem modify_last {front : List Group} {last : Group} (f : Group → Group) :
    (front ++ [last]).modify front.length f = front ++ [f last] := by
  induction front with
  | nil => rfl
  | cons first front ih => simpa using ih

/-- A document opens a group of its own. -/
theorem Coherent.pushGroup {catalog : Catalog} (h : catalog.Coherent) {source : String}
    (includes : List String) (hnew : catalog.groupsBySource.find? source = none) :
    (catalog.pushGroup source includes).Open (groupScope (groupName source))
      catalog.groups.length := by
  have hsource := h.groupsBySource.insert (h.groupsBySource.find?_eq_none_iff.mp hnew)
  rw [List.length_map] at hsource
  refine ⟨⟨?_, h.enumsByName, h.messagesByName, h.messagesById, h.enums.pushGroup rfl,
    h.messages.pushGroup rfl, h.entries⟩, catalog.groups, _, rfl, rfl, rfl⟩
  show (catalog.groupsBySource.insert source catalog.groups.length).Describes _
  simpa [Catalog.pushGroup] using hsource

/-- Adding an enumeration with a new name to the last group. -/
theorem Open.pushEnum {catalog : Catalog} {scope : Option String} {group : Nat}
    (h : catalog.Open scope group) {enumeration : Enumeration}
    (hnew : catalog.enumsByName.find? (catalog.enumKey enumeration) = none)
    (hscope : enumeration.scope = scope) (hgroup : enumeration.group = group)
    (hentries : enumeration.entryNames.Nodup) :
    (catalog.pushEnum enumeration).Open scope group := by
  obtain ⟨hcoherent, front, last, hgroups, rfl, rfl⟩ := h
  have hname := hcoherent.enumsByName.insert (hcoherent.enumsByName.find?_eq_none_iff.mp hnew)
  -- the enumeration belongs to the last group, so that is the one that lists it
  have hgroups' : (catalog.pushEnum enumeration).groups =
      front ++ [{ last with enums := last.enums ++ [catalog.enums.length] }] := by
    show catalog.groups.modify enumeration.group _ = _
    rw [hgroups, hgroup, modify_last]
  refine ⟨⟨?_, ?_, hcoherent.messagesByName, hcoherent.messagesById, ?_, ?_, ?_⟩,
    front, _, hgroups', rfl, rfl⟩
  · rw [hgroups']
    simpa [hgroups, Catalog.pushEnum] using hcoherent.groupsBySource
  · rw [List.length_map] at hname
    show (catalog.enumsByName.insert _ _).Describes
      ((catalog.enums ++ [enumeration]).map catalog.enumKey)
    simpa using hname
  · rw [hgroups']
    exact (hgroups ▸ hcoherent.enums).pushElement rfl rfl hgroup hscope
  · rw [hgroups']
    exact (hgroups ▸ hcoherent.messages).setLast rfl rfl
  · intro other hother
    rcases List.mem_append.mp hother with hold | hlast
    · exact hcoherent.entries other hold
    · exact List.mem_singleton.mp hlast ▸ hentries

/-- Adding a message with a new name and a new id to the last group. -/
theorem Open.pushMessage {catalog : Catalog} {scope : Option String} {group : Nat}
    (h : catalog.Open scope group) {message : Message}
    (hname : catalog.messagesByName.find? (catalog.messageKey message) = none)
    (hid : catalog.messagesById.find? message.id = none)
    (hscope : message.scope = scope) (hgroup : message.group = group) :
    (catalog.pushMessage message).Open scope group := by
  obtain ⟨hcoherent, front, last, hgroups, rfl, rfl⟩ := h
  have hname' := hcoherent.messagesByName.insert
    (hcoherent.messagesByName.find?_eq_none_iff.mp hname)
  have hid' := hcoherent.messagesById.insert (hcoherent.messagesById.find?_eq_none_iff.mp hid)
  rw [List.length_map] at hname' hid'
  have hgroups' : (catalog.pushMessage message).groups =
      front ++ [{ last with messages := last.messages ++ [catalog.messages.length] }] := by
    show catalog.groups.modify message.group _ = _
    rw [hgroups, hgroup, modify_last]
  refine ⟨⟨?_, hcoherent.enumsByName, ?_, ?_, ?_, ?_, hcoherent.entries⟩,
    front, _, hgroups', rfl, rfl⟩
  · rw [hgroups']
    simpa [hgroups, Catalog.pushMessage] using hcoherent.groupsBySource
  · show (catalog.messagesByName.insert _ _).Describes
      ((catalog.messages ++ [message]).map catalog.messageKey)
    simpa using hname'
  · show (catalog.messagesById.insert _ _).Describes ((catalog.messages ++ [message]).map (·.id))
    simpa using hid'
  · rw [hgroups']
    exact (hgroups ▸ hcoherent.enums).setLast rfl rfl
  · rw [hgroups']
    exact (hgroups ▸ hcoherent.messages).pushElement rfl rfl hgroup hscope

/-- Changing an enumeration but not its name keeps the names. -/
theorem enumKeys_set {catalog : Catalog} {position : Nat} {old new : Enumeration}
    (hold : catalog.enums[position]? = some old)
    (hkey : catalog.enumKey new = catalog.enumKey old) :
    (catalog.enums.set position new).map catalog.enumKey = catalog.enums.map catalog.enumKey := by
  obtain ⟨hlt, rfl⟩ := List.getElem?_eq_some_iff.mp hold
  rw [List.map_set, hkey, ← List.getElem_map catalog.enumKey (h := by simpa using hlt)]
  exact List.set_getElem_self _

/-- Changing an enumeration in what does not say how it is found. -/
theorem Open.setEnum {catalog : Catalog} {scope : Option String} {group : Nat}
    (h : catalog.Open scope group) {position : Nat} {old new : Enumeration}
    (hold : catalog.enums[position]? = some old) (hkey : catalog.enumKey new = catalog.enumKey old)
    (hscope : new.scope = old.scope) (hgroup : new.group = old.group)
    (hentries : new.entryNames.Nodup) :
    ({ catalog with enums := catalog.enums.set position new } : Catalog).Open scope group := by
  obtain ⟨hcoherent, hlast⟩ := h
  refine ⟨⟨hcoherent.groupsBySource, ?_, hcoherent.messagesByName, hcoherent.messagesById,
    hcoherent.enums.setElement hold hgroup hscope, hcoherent.messages, ?_⟩, hlast⟩
  -- keys are unchanged, so the index still describes them
  · show catalog.enumsByName.Describes ((catalog.enums.set position new).map catalog.enumKey)
    rw [enumKeys_set hold hkey]
    exact hcoherent.enumsByName
  · intro other hother
    rcases List.mem_or_eq_of_mem_set hother with hother | rfl
    · exact hcoherent.entries other hother
    · exact hentries

/-! ## What an addition can do -/

/-- A declaration is refused, gives a new enumeration, or is joined to the one with its name. -/
theorem Coherent.addEnum_cases {catalog : Catalog} (h : catalog.Coherent) (scope : Option String)
    (group : Nat) (definition : EnumDefinition) :
    (∃ error, Enumeration.ofDefinition definition scope group = .error error ∧
      addEnum scope group catalog definition = catalog.refuse error) ∨
    (∃ enumeration, Enumeration.ofDefinition definition scope group = .ok enumeration ∧
      catalog.enumsByName.find? (catalog.enumKey enumeration) = none ∧
      addEnum scope group catalog definition = (catalog.pushEnum enumeration).done) ∨
    (∃ enumeration position existing,
      Enumeration.ofDefinition definition scope group = .ok enumeration ∧
      catalog.enums[position]? = some existing ∧
      catalog.enumKey existing = catalog.enumKey enumeration ∧
      addEnum scope group catalog definition =
        ⟨{ catalog with
            enums := catalog.enums.set position (existing.absorb enumeration).1 },
          [.mergedEnumeration (catalog.enumKey enumeration)],
          (existing.absorb enumeration).2⟩) := by
  unfold addEnum
  cases hdefinition : Enumeration.ofDefinition definition scope group with
  | error error => exact .inl ⟨error, rfl, rfl⟩
  | ok enumeration =>
    dsimp only
    unfold addEnumeration
    cases hfound : catalog.enumsByName.find? (catalog.enumKey enumeration) with
    | none => exact .inr (.inl ⟨enumeration, rfl, hfound, rfl⟩)
    | some position =>
      -- the index is right, so an enumeration of this name is at the position
      have hkey := (h.enumsByName _ position).mp hfound
      rw [List.getElem?_map, Option.map_eq_some_iff] at hkey
      obtain ⟨existing, hexisting, hkey⟩ := hkey
      refine .inr (.inr ⟨enumeration, position, existing, rfl, hexisting, hkey, ?_⟩)
      dsimp only
      unfold mergeEnum
      rw [hexisting]

/-- A message is refused, or it is new and added. -/
theorem addMessage_cases (catalog : Catalog) (scope : Option String) (group : Nat)
    (definition : MessageDefinition) :
    (∃ error, addMessage scope group catalog definition = catalog.refuse error) ∨
    (∃ message events, Message.ofDefinition definition scope group = .ok message ∧
      catalog.messagesByName.find? (catalog.messageKey message) = none ∧
      catalog.messagesById.find? message.id = none ∧
      addMessage scope group catalog definition =
        ⟨catalog.pushMessage message, events, none⟩) := by
  unfold addMessage
  cases hdefinition : Message.ofDefinition definition scope group with
  | error error => exact .inl ⟨error, rfl⟩
  | ok message =>
    dsimp only
    unfold addNamedMessage
    dsimp only
    cases hname : catalog.messagesByName.find? (catalog.messageKey message) with
    | some position => exact .inl ⟨_, rfl⟩
    | none =>
      cases hid : catalog.messagesById.find? message.id with
      | some position => exact .inl ⟨_, rfl⟩
      | none => exact .inr ⟨message, _, rfl, hname, hid, rfl⟩

/-- The message of a definition is in the group and the scope that it was declared in. -/
theorem ofDefinition_home {definition : MessageDefinition} {scope : Option String} {group : Nat}
    {message : Message} (h : Message.ofDefinition definition scope group = .ok message) :
    message.scope = scope ∧ message.group = group := by
  obtain ⟨fields, -, hmessage⟩ := Outcome.bind_eq_ok_iff.mp h
  cases hmessage
  exact ⟨rfl, rfl⟩

/-- A joined enumeration keeps its name. -/
theorem enumKey_absorb (catalog : Catalog) (enumeration further : Enumeration) :
    catalog.enumKey (enumeration.absorb further).1 = catalog.enumKey enumeration := by
  obtain ⟨hname, hscope, -, -⟩ := enumeration.absorb_keeps further
  rw [enumKey, enumKey, Enumeration.qualified, Enumeration.qualified, hname, hscope]

/-! ## One document -/

theorem Open.addEnum {catalog : Catalog} {scope : Option String} {group : Nat}
    (h : catalog.Open scope group) (definition : EnumDefinition) :
    (addEnum scope group catalog definition).catalog.Open scope group := by
  obtain ⟨error, -, heq⟩ | ⟨enumeration, hdefinition, hnew, heq⟩ |
    ⟨enumeration, position, existing, hdefinition, hexisting, -, heq⟩ :=
    h.coherent.addEnum_cases scope group definition
  · rw [heq]
    exact h
  · rw [heq]
    obtain ⟨-, hscope, hgroup, -, -, -, hentries⟩ := Enumeration.ofDefinition_eq_ok hdefinition
    exact h.pushEnum hnew hscope hgroup hentries
  · rw [heq]
    obtain ⟨-, hscope, hgroup, hentries⟩ := existing.absorb_keeps enumeration
    exact h.setEnum hexisting (enumKey_absorb catalog existing enumeration) hscope hgroup
      (hentries (h.coherent.entries existing (List.mem_of_getElem? hexisting)))

theorem Open.addMessage {catalog : Catalog} {scope : Option String} {group : Nat}
    (h : catalog.Open scope group) (definition : MessageDefinition) :
    (addMessage scope group catalog definition).catalog.Open scope group := by
  obtain ⟨error, heq⟩ | ⟨message, events, hdefinition, hname, hid, heq⟩ :=
    catalog.addMessage_cases scope group definition
  · rw [heq]
    exact h
  · rw [heq]
    obtain ⟨hscope, hgroup⟩ := ofDefinition_home hdefinition
    exact h.pushMessage hname hid hscope hgroup

/-- What every addition keeps, additions one after the other keep, wherever they stop. -/
theorem addAll_keeps {δ : Type} {add : Catalog → δ → Step} (holds : Catalog → Prop)
    (hadd : ∀ catalog definition, holds catalog → holds (add catalog definition).catalog) :
    ∀ (definitions : List δ) (catalog : Catalog), holds catalog →
      holds (catalog.addAll add definitions).catalog
  | [], _, h => h
  | definition :: rest, catalog, h => by
    have hfirst := hadd catalog definition h
    unfold addAll Step.andThen
    split
    · exact hfirst
    · exact addAll_keeps holds hadd rest _ hfirst

/-- Adding a document keeps a catalog coherent, whether or not the document can be added. -/
theorem Coherent.addSource {catalog : Catalog} (h : catalog.Coherent) (source : String)
    (document : Document) : (catalog.addSource source document).catalog.Coherent := by
  unfold Catalog.addSource
  split
  · exact h
  next hnew =>
  have hopen := h.pushGroup document.includes hnew
  -- the group stays the last one while its enumerations and messages are added
  have henums := addAll_keeps (Open _ _) (fun _ definition h => h.addEnum definition)
    document.enums _ hopen
  unfold addDefinitions Step.andThen
  split
  · exact henums.coherent
  · exact (addAll_keeps (Open _ _) (fun _ definition h => h.addMessage definition)
      document.messages _ henums).coherent

/-! ## The scoping of a catalog -/

theorem scoping_addEnum (scope : Option String) (group : Nat) (catalog : Catalog)
    (definition : EnumDefinition) :
    (Catalog.addEnum scope group catalog definition).catalog.scoping = catalog.scoping := by
  unfold Catalog.addEnum addEnumeration mergeEnum
  split
  · split
    · split <;> rfl
    · rfl
  · rfl

theorem scoping_addMessage (scope : Option String) (group : Nat) (catalog : Catalog)
    (definition : MessageDefinition) :
    (Catalog.addMessage scope group catalog definition).catalog.scoping = catalog.scoping := by
  obtain ⟨error, heq⟩ | ⟨message, events, -, -, -, heq⟩ :=
    catalog.addMessage_cases scope group definition
  · rw [heq]
    rfl
  · rw [heq]
    rfl

/-- Whether scopes count is settled when a catalog is made. -/
theorem scoping_addSource (catalog : Catalog) (source : String) (document : Document) :
    (catalog.addSource source document).catalog.scoping = catalog.scoping := by
  unfold Catalog.addSource
  split
  · rfl
  have henums := addAll_keeps (·.scoping = catalog.scoping)
    (fun c definition h => (scoping_addEnum (groupScope (groupName source)) catalog.groups.length c
      definition).trans h)
    document.enums (catalog.pushGroup source document.includes) rfl
  unfold addDefinitions Step.andThen
  split
  · exact henums
  · exact addAll_keeps (·.scoping = catalog.scoping)
      (fun c definition h => (scoping_addMessage _ _ c definition).trans h) document.messages _
      henums

/-! ## Sessions -/

/-- A catalog after documents were added to it one after the other, each as far as it could be. -/
def session (scoping : Scoping) (documents : List (String × Document)) : Catalog :=
  documents.foldl (fun catalog (source, document) => (catalog.addSource source document).catalog)
    (empty scoping)

/-- What holds of a catalog of no documents and is kept by every addition holds after every
session. -/
theorem session_keeps (holds : Catalog → Prop) {scoping : Scoping} (hempty : holds (empty scoping))
    (hadd : ∀ catalog source document, holds catalog →
      holds (catalog.addSource source document).catalog) (documents : List (String × Document)) :
    holds (session scoping documents) := by
  unfold session
  generalize empty scoping = catalog at hempty
  induction documents generalizing catalog with
  | nil => exact hempty
  | cons first rest ih => exact ih _ (hadd catalog first.1 first.2 hempty)

theorem coherent_session (scoping : Scoping) (documents : List (String × Document)) :
    (session scoping documents).Coherent :=
  session_keeps Coherent (coherent_empty scoping) (fun _ source document h =>
    h.addSource source document) documents

theorem scoping_session (scoping : Scoping) (documents : List (String × Document)) :
    (session scoping documents).scoping = scoping :=
  session_keeps (·.scoping = scoping) rfl (fun catalog source document h =>
    (catalog.scoping_addSource source document).trans h) documents

/-- **Lists and indices stay in step.** After every session, whatever the documents and wherever
their additions stopped: each index has exactly the keys of its list at their positions; the groups
list the enumerations and the messages in order, each in the group and scope that it names; entry
names are distinct. So all keys are distinct, every element is found in the finished model, and the
extension of a message starts within its fields. -/
theorem session_lists_and_indices_agree (scoping : Scoping)
    (documents : List (String × Document)) :
    let catalog := session scoping documents
    let model := catalog.finish
    catalog.Coherent ∧
    (catalog.groups.map (·.source)).Nodup ∧ (catalog.enums.map catalog.enumKey).Nodup ∧
    (catalog.messages.map catalog.messageKey).Nodup ∧ (catalog.messages.map (·.id)).Nodup ∧
    (∀ group ∈ model.groups, model.group? group.source = some group) ∧
    (∀ enumeration ∈ model.enums,
      model.enum? (enumeration.qualified scoping).text = some enumeration) ∧
    (∀ message ∈ model.messages,
      model.message? (message.qualified scoping).text = some message) ∧
    (∀ message ∈ model.messages, message.payload.extensionStart ≤ message.fields.length) := by
  intro catalog model
  have h : catalog.Coherent := coherent_session scoping documents
  have hscoping : catalog.scoping = scoping := scoping_session scoping documents
  refine ⟨h, h.groupsBySource.nodup, h.enumsByName.nodup, h.messagesByName.nodup,
    h.messagesById.nodup, fun group hgroup => h.groupsBySource.find?_bind hgroup,
    fun enumeration henum => ?_, fun message hmessage => ?_, fun message _ => ?_⟩
  · rw [← hscoping]
    exact h.enumsByName.find?_bind henum
  · rw [← hscoping]
    exact h.messagesByName.find?_bind hmessage
  · simp [Payload.extensionStart, Message.fields, Payload.fields]

end Catalog

end MavlinkCompiler
