import MavlinkCompiler.Proofs.Target.Distribution
import MavlinkCompiler.Proofs.Target.Keys
import MavlinkCompiler.Proofs.Text.LetterCase
import MavlinkCompiler.Target.Python

/-!
# Names of generated definitions

A model tells definitions apart by their written names, in which a scope ends with two colons and
capitals are not small letters. Generated code writes an underscore for the colons, and in some
places only small letters. Both can bring different definitions to one name, and here it is said
which.

* `QualifiedName.Meets`: names that an underscore joins to the same text.
* `Catalog.Scoped`: groups have the scope of their name, kept by every addition.
* `generated_names_coincide_iff`: when messages and enumerations of a model share a generated name.
* `crowdedSources_share_names`: files of plain identifiers in which every kind of name is shared.
-/

namespace MavlinkCompiler

open Schema (Document EnumDefinition MessageDefinition)

/-! ## Joined names -/

namespace QualifiedName

/-- The scope of one name is that of the other and more, and what is more begins the other name: the
underscore that ends the scope of the one is within the name of the other. -/
def RunsInto (one other : QualifiedName) : Prop :=
  ∃ between, one.scope = some (joined "_" ⟨other.scope, between⟩) ∧
    other.name = between ++ "_" ++ one.name

/-- One of two names runs into the other. -/
def Meets (one other : QualifiedName) : Prop :=
  one.RunsInto other ∨ other.RunsInto one

/-- Names joined to the same text are the same, or one runs into the other. -/
theorem joined_eq_joined_iff {one other : QualifiedName} :
    one.joined "_" = other.joined "_" ↔ one = other ∨ one.Meets other := by
  obtain ⟨scope, name⟩ := one
  obtain ⟨scope', name'⟩ := other
  -- only a name with a scope has an underscore that can be within the other name
  cases scope with
  | none =>
    cases scope' with
    | none => simp [joined, Meets, RunsInto]
    | some scope' => simp [joined, Meets, RunsInto]
  | some scope =>
    cases scope' with
    | none => simp [joined, Meets, RunsInto, eq_comm]
    | some scope' =>
      simp only [joined, Meets, RunsInto, Lua.joined_eq_iff, mk.injEq, Option.some.injEq]
      exact or_congr_right or_comm

/-- A qualified name with small letters only. -/
def folded (qualified : QualifiedName) : QualifiedName :=
  ⟨qualified.scope.map String.toLower, qualified.name.toLower⟩

theorem toLower_joined (qualified : QualifiedName) :
    (qualified.joined "_").toLower = qualified.folded.joined "_" := by
  have happend : ∀ front back : String,
      (front ++ back).toLower = front.toLower ++ back.toLower := by
    intro front back
    simp [← String.toList_inj, String.toLower, String.toList_map]
  have hmark : "_".toLower = "_" := by decide +kernel
  obtain ⟨_ | scope, name⟩ := qualified
  · rfl
  · show (scope ++ "_" ++ name).toLower = scope.toLower ++ "_" ++ name.toLower
    rw [happend, happend, hmark]

end QualifiedName

/-! ## Scopes of groups -/

namespace Catalog

/-- Every group has the scope of its name. -/
def Scoped (catalog : Catalog) : Prop :=
  ∀ group ∈ catalog.groups, group.scope = groupScope group.name

variable {catalog : Catalog}

/-- Listing a definition in a group changes neither its name nor its scope. -/
theorem Scoped.modify (h : catalog.Scoped) (position : Nat) {f : Group → Group}
    (hname : ∀ group, (f group).name = group.name)
    (hscope : ∀ group, (f group).scope = group.scope) :
    ∀ group ∈ catalog.groups.modify position f, group.scope = groupScope group.name := by
  intro group hgroup
  obtain ⟨at', hat⟩ := List.mem_iff_getElem?.mp hgroup
  rw [List.getElem?_modify, Option.map_eq_map, Option.map_eq_some_iff] at hat
  obtain ⟨before, hbefore, rfl⟩ := hat
  have hscoped := h before (List.mem_of_getElem? hbefore)
  split
  · rw [hname, hscope, hscoped]
  · exact hscoped

theorem Scoped.pushGroup (h : catalog.Scoped) (source : String) (includes : List String) :
    (catalog.pushGroup source includes).Scoped := by
  intro group hgroup
  rcases List.mem_append.mp hgroup with hgroup | hgroup
  · exact h group hgroup
  · obtain rfl := List.mem_singleton.mp hgroup
    rfl

theorem Scoped.addEnum (h : catalog.Scoped) (scope : Option String) (position : Nat)
    (definition : EnumDefinition) : (addEnum scope position catalog definition).catalog.Scoped := by
  unfold Catalog.addEnum addEnumeration mergeEnum
  split
  · split
    · split
      · exact h
      · exact h
    · exact h.modify _ (fun _ => rfl) (fun _ => rfl)
  · exact h

theorem Scoped.addMessage (h : catalog.Scoped) (scope : Option String) (position : Nat)
    (definition : MessageDefinition) :
    (addMessage scope position catalog definition).catalog.Scoped := by
  obtain ⟨error, heq⟩ | ⟨message, events, -, -, -, heq⟩ :=
    catalog.addMessage_cases scope position definition
  · rw [heq]
    exact h
  · rw [heq]
    exact h.modify _ (fun _ => rfl) (fun _ => rfl)

theorem Scoped.addSource (h : catalog.Scoped) (source : String) (document : Document) :
    (catalog.addSource source document).catalog.Scoped := by
  unfold Catalog.addSource
  split
  · exact h
  have henums := addAll_keeps Scoped (fun _ definition h =>
      h.addEnum (groupScope (groupName source)) catalog.groups.length definition)
    document.enums _ (h.pushGroup source document.includes)
  unfold addDefinitions Step.andThen
  split
  · exact henums
  · exact addAll_keeps Scoped (fun _ definition h => h.addMessage _ _ definition)
      document.messages _ henums

end Catalog

/-- Every group of a loaded model has the scope of its name. -/
theorem Model.scoped_of_load {scoping : Scoping} {sources : List Source} {model : Model}
    (h : (Model.load scoping sources).outcome = .ok model) : model.catalog.Scoped := by
  obtain ⟨catalog, hrun, rfl⟩ := Model.load_eq_ok_iff.mp h
  have hempty : (Catalog.empty scoping).Scoped := List.forall_mem_nil _
  refine Outcome.foldlM_keeps Catalog.Scoped (fun hbefore hstep => ?_) hempty hrun
  obtain ⟨document, -, -, rfl⟩ := Catalog.addText_eq_ok_iff.mp hstep
  exact hbefore.addSource _ document

/-! ## Letters of names -/

theorem Lua.IsIdentifier.isAscii {name : String} (h : Lua.IsIdentifier name) :
    Text.IsAscii name := by
  intro c hc
  have hletter := List.all_eq_true.mp h.2 c hc
  simp only [Char.isAlphanum, Char.isAlpha, Char.isUpper, Char.isLower, Char.isDigit,
    Bool.or_eq_true, Bool.and_eq_true, decide_eq_true_eq, UInt32.le_iff_toNat_le, ge_iff_le,
    beq_iff_eq] at hletter
  have hcapitals : 'Z'.val.toNat = 90 := rfl
  have hsmall : 'z'.val.toNat = 122 := rfl
  have hdigits : '9'.val.toNat = 57 := rfl
  rcases hletter with hletter | rfl
  · show c.val.toNat < 128
    omega
  · decide

theorem isAscii_groupScope {name scope : String} (hname : Text.IsAscii name)
    (hscope : groupScope name = some scope) : Text.IsAscii scope := by
  unfold groupScope at hscope
  cases hfound : renamedScopes.lookup name with
  | none =>
    rw [hfound] at hscope
    dsimp only at hscope
    split at hscope
    · cases hscope
    · obtain rfl := Option.some.inj hscope
      exact hname
  | some renamed =>
    rw [hfound] at hscope
    obtain rfl := Option.some.inj hscope
    have hmem : (name, renamed) ∈ renamedScopes := by
      obtain ⟨before, after, heq, -⟩ := List.lookup_eq_some_iff.mp hfound
      rw [heq]
      simp
    have hascii : ∀ scope ∈ renamedScopes, Text.IsAscii scope.2 := by decide +kernel
    exact hascii _ hmem

namespace QualifiedName

variable {one other : QualifiedName}

/-- Every letter of a scope and a name is among the first 128 code points. -/
structure IsAscii (qualified : QualifiedName) : Prop where
  scope : ∀ scope ∈ qualified.scope, Text.IsAscii scope
  name : Text.IsAscii qualified.name

theorem IsAscii.joined (h : one.IsAscii) : Text.IsAscii (one.joined "_") := by
  obtain ⟨_ | scope, name⟩ := one
  · exact h.name
  · have hmark : Text.IsAscii "_" := by decide +kernel
    exact Text.isAscii_append.mpr ⟨Text.isAscii_append.mpr ⟨h.scope scope rfl, hmark⟩, h.name⟩

/-- The types of two messages are called the same exactly if the messages are, but for the case of
letters. -/
theorem IsAscii.typeSuffix_eq_iff (hone : one.IsAscii) (hother : other.IsAscii) :
    Cpp.typeSuffix one = Cpp.typeSuffix other ↔ one.name.toLower = other.name.toLower := by
  unfold Cpp.typeSuffix
  rw [Text.lower_of_ascii hone.name, Text.lower_of_ascii hother.name]

/-- Two classes have one name exactly if small letters alone make the identifiers one. -/
theorem IsAscii.className_eq_iff (hone : one.IsAscii) (hother : other.IsAscii) :
    Python.className (Python.identifier one) = Python.className (Python.identifier other) ↔
      one.folded = other.folded ∨ one.folded.Meets other.folded := by
  unfold Python.className Python.identifier
  rw [Text.capitalize_eq_iff hone.joined hother.joined, toLower_joined, toLower_joined,
    joined_eq_joined_iff]

end QualifiedName

/-- The qualified name of a message of a loaded model has the letters of group and message names. -/
theorem Model.isAscii_qualified {scoping : Scoping} {sources : List Source} {model : Model}
    (hload : (Model.load scoping sources).outcome = .ok model)
    (hgroups : ∀ group ∈ model.groups, Lua.IsIdentifier group.name)
    {message : Message} (hmessage : message ∈ model.messages)
    (hname : Lua.IsIdentifier message.name) : (message.qualified model.scoping).IsAscii := by
  have hscoped := Model.scoped_of_load hload
  obtain ⟨catalog, documents, rfl, -, hcovers⟩ := Model.exists_covers hload
  refine ⟨?_, hname.isAscii⟩
  intro scope hscope
  obtain ⟨group, hgroup, heq⟩ :=
    List.mem_map.mp (hcovers.coherent.effective_mem message hmessage)
  have hgroupScope : catalog.scoping.effective (groupScope group.name) = some scope := by
    rw [← hscoped group hgroup]
    exact heq.trans hscope
  -- only with separate scopes is there a scope, and it is that of the group's name
  cases hscoping : catalog.scoping with
  | merged =>
    rw [hscoping] at hgroupScope
    cases hgroupScope
  | separate =>
    rw [hscoping] at hgroupScope
    exact isAscii_groupScope (hgroups group hgroup).isAscii hgroupScope

/-! ## Names that coincide -/

/-- Different definitions of a model have different qualified names. -/
theorem qualified_ne_of_nodup {α : Type} {elements : List α} {qualified : α → QualifiedName}
    (hnodup : (elements.map fun element => (qualified element).text).Nodup) {one other : α}
    (hone : one ∈ elements) (hother : other ∈ elements) (hne : one ≠ other) :
    qualified one ≠ qualified other := fun heq =>
  hne (List.inj_on_of_nodup_map hnodup hone hother (congrArg QualifiedName.text heq))

/-- **When generated names coincide.** For every model that files are loaded as, if the names of
groups and messages are identifiers: two different messages have types of one name in one scope
exactly if they are in one scope and their names differ in the case of letters only. Their classes
have one name exactly if, in small letters, their qualified names are the same or one runs into the
other, and their identifiers are the same exactly if one runs into the other as it is. Two different
enumerations have one class and one table exactly in this last case too. -/
theorem generated_names_coincide_iff {scoping : Scoping} {sources : List Source} {model : Model}
    (hload : (Model.load scoping sources).outcome = .ok model)
    (hgroups : ∀ group ∈ model.groups, Lua.IsIdentifier group.name)
    (hmessages : ∀ message ∈ model.messages, Lua.IsIdentifier message.name) :
    (∀ one ∈ model.messages, ∀ other ∈ model.messages, one ≠ other →
      let name := one.qualified model.scoping
      let name' := other.qualified model.scoping
      ((name.scope, Cpp.typeSuffix name) = (name'.scope, Cpp.typeSuffix name') ↔
        name.scope = name'.scope ∧ name.name.toLower = name'.name.toLower) ∧
      (Python.className (Python.identifier name) = Python.className (Python.identifier name') ↔
        name.folded = name'.folded ∨ name.folded.Meets name'.folded) ∧
      (Python.identifier name = Python.identifier name' ↔ name.Meets name')) ∧
    (∀ one ∈ model.enums, ∀ other ∈ model.enums, one ≠ other →
      let name := one.qualified model.scoping
      let name' := other.qualified model.scoping
      (Python.identifier name = Python.identifier name' ↔ name.Meets name') ∧
      (Lua.tableName name = Lua.tableName name' ↔ name.Meets name')) := by
  have hascii : ∀ message ∈ model.messages, (message.qualified model.scoping).IsAscii :=
    fun message hmessage =>
      Model.isAscii_qualified hload hgroups hmessage (hmessages message hmessage)
  obtain ⟨catalog, documents, rfl, -, hcovers⟩ := Model.exists_covers hload
  have hjoined : ∀ {name name' : QualifiedName}, name ≠ name' →
      (name.joined "_" = name'.joined "_" ↔ name.Meets name') := by
    intro name name' hne
    rw [QualifiedName.joined_eq_joined_iff, or_iff_right hne]
  refine ⟨fun one hone other hother hne => ⟨?_, ?_, ?_⟩, fun one hone other hother hne => ?_⟩
  · rw [Prod.mk.injEq, (hascii one hone).typeSuffix_eq_iff (hascii other hother)]
  · exact (hascii one hone).className_eq_iff (hascii other hother)
  · exact hjoined (qualified_ne_of_nodup hcovers.coherent.messagesByName.nodup hone hother hne)
  · have hdifferent :=
      qualified_ne_of_nodup hcovers.coherent.enumsByName.nodup hone hother hne
    refine ⟨hjoined hdifferent, ?_⟩
    rw [Lua.tableName, Lua.tableName, String.append_right_inj]
    exact hjoined hdifferent

/-- Two definition files: in the first one, a name in capitals and in small letters, and names that
begin with the scope of the second one. -/
def crowdedSources : List Source :=
  [⟨"common.xml", "<mavlink><enums><enum name='b_E'/></enums><messages>" ++
      "<message name='A' id='1'/><message name='a' id='2'/><message name='b_C' id='3'/>" ++
      "</messages></mavlink>"⟩,
    ⟨"b.xml", "<mavlink><enums><enum name='E'/></enums><messages>" ++
      "<message name='C' id='4'/></messages></mavlink>"⟩]

theorem exists_load_crowdedSources :
    ∃ model, (Model.load .separate crowdedSources).outcome = .ok model ∧
      (∀ group ∈ model.groups, Lua.IsIdentifier group.name) ∧
      (∀ message ∈ model.messages, Lua.IsIdentifier message.name) ∧
      (∀ enumeration ∈ model.enums, Lua.IsIdentifier enumeration.name) ∧
      model.messages.map (·.qualified model.scoping) =
        [⟨none, "A"⟩, ⟨none, "a"⟩, ⟨none, "b_C"⟩, ⟨some "b", "C"⟩] ∧
      model.enums.map (·.qualified model.scoping) = [⟨none, "b_E"⟩, ⟨some "b", "E"⟩] := by
  have hloaded : ∃ model ∈ (Model.load .separate crowdedSources).outcome.toOption,
      (∀ group ∈ model.groups, Lua.IsIdentifier group.name) ∧
      (∀ message ∈ model.messages, Lua.IsIdentifier message.name) ∧
      (∀ enumeration ∈ model.enums, Lua.IsIdentifier enumeration.name) ∧
      model.messages.map (·.qualified model.scoping) =
        [⟨none, "A"⟩, ⟨none, "a"⟩, ⟨none, "b_C"⟩, ⟨some "b", "C"⟩] ∧
      model.enums.map (·.qualified model.scoping) = [⟨none, "b_E"⟩, ⟨some "b", "E"⟩] := by
    decide +kernel
  obtain ⟨model, hsome, hrest⟩ := hloaded
  exact ⟨model, Outcome.eq_ok_of_toOption hsome, hrest⟩

theorem crowdedSources_coincidences :
    ∃ model, (Model.load .separate crowdedSources).outcome = .ok model ∧
      (∀ group ∈ model.groups, Lua.IsIdentifier group.name) ∧
      (∀ message ∈ model.messages, Lua.IsIdentifier message.name) ∧
      ∃ capital ∈ model.messages, ∃ small ∈ model.messages, ∃ long ∈ model.messages,
      ∃ short ∈ model.messages,
        capital ≠ small ∧ long ≠ short ∧
        (capital.qualified model.scoping).name.toLower =
          (small.qualified model.scoping).name.toLower ∧
        ¬ (capital.qualified model.scoping).Meets (small.qualified model.scoping) ∧
        (long.qualified model.scoping).Meets (short.qualified model.scoping) := by
  obtain ⟨model, hload, hgroups, hmessages, -, hqualified, -⟩ := exists_load_crowdedSources
  have hfind : ∀ name ∈ model.messages.map (·.qualified model.scoping),
      ∃ message ∈ model.messages, message.qualified model.scoping = name :=
    fun _ hname => List.mem_map.mp hname
  rw [hqualified] at hfind
  obtain ⟨capital, hcapital, hcapitalName⟩ := hfind ⟨none, "A"⟩ (by decide)
  obtain ⟨small, hsmall, hsmallName⟩ := hfind ⟨none, "a"⟩ (by decide)
  obtain ⟨long, hlong, hlongName⟩ := hfind ⟨none, "b_C"⟩ (by decide)
  obtain ⟨short, hshort, hshortName⟩ := hfind ⟨some "b", "C"⟩ (by decide)
  have hcase : capital ≠ small := by
    rintro rfl
    exact absurd (hcapitalName.symm.trans hsmallName) (by decide)
  have hjoin : long ≠ short := by
    rintro rfl
    exact absurd (hlongName.symm.trans hshortName) (by decide)
  have hcoincide := (generated_names_coincide_iff hload hgroups hmessages).1
  obtain ⟨htypes, -, hidentifiers⟩ := hcoincide capital hcapital small hsmall hcase
  obtain ⟨-, -, hidentifiers'⟩ := hcoincide long hlong short hshort hjoin
  refine ⟨model, hload, hgroups, hmessages, capital, hcapital, small, hsmall, long, hlong, short,
    hshort, hcase, hjoin, (htypes.mp ?_).2, mt hidentifiers.mpr ?_, hidentifiers'.mp ?_⟩
  · rw [hcapitalName, hsmallName]
    decide +kernel
  · rw [hcapitalName, hsmallName]
    decide
  · rw [hlongName, hshortName]
    decide

/-- Every kind of generated name is given twice, although all names are identifiers: types and
classes by the case of letters, identifiers and tables by the underscore. -/
theorem crowdedSources_share_names :
    ∃ model, (Model.load .separate crowdedSources).outcome = .ok model ∧
      (∀ group ∈ model.groups, Lua.IsIdentifier group.name) ∧
      (∀ message ∈ model.messages, Lua.IsIdentifier message.name) ∧
      (∀ enumeration ∈ model.enums, Lua.IsIdentifier enumeration.name) ∧
      model.messages.Nodup ∧ model.enums.Nodup ∧
      ¬ ((model.messages.map (·.qualified model.scoping)).map fun name =>
        (name.scope, Cpp.typeSuffix name)).Nodup ∧
      ¬ ((model.messages.map (·.qualified model.scoping)).map fun name =>
        Python.className (Python.identifier name)).Nodup ∧
      ¬ ((model.messages.map (·.qualified model.scoping)).map Python.identifier).Nodup ∧
      ¬ ((model.enums.map (·.qualified model.scoping)).map Python.identifier).Nodup ∧
      ¬ ((model.enums.map (·.qualified model.scoping)).map Lua.tableName).Nodup := by
  obtain ⟨model, hload, hgroups, hmessages, henums, hqualified, hqualified'⟩ :=
    exists_load_crowdedSources
  refine ⟨model, hload, hgroups, hmessages, henums, .of_map (·.qualified model.scoping) ?_,
    .of_map (·.qualified model.scoping) ?_, ?_⟩
  · rw [hqualified]
    decide
  · rw [hqualified']
    decide
  · rw [hqualified, hqualified']
    decide +kernel

end MavlinkCompiler
