import MavlinkCompiler.Proofs.Model.SourceOrder

/-!
# Enumerations that fields name

A field names its enumeration by an attribute. The attribute is compared, as it is written, with the
names that enumerations are stored under: first with the name in the scope of the message, then with
the global one. Enumerations are stored under their safe names, so an attribute reaches what is
declared with its name exactly as long as the two names are the same.

* `Catalog.Coherent.lookup?_named`: a field that finds an enumeration has it, whatever is known of
  fields with its name.
* `Catalog.Covers.hasEnum_iff`: an enumeration is found if it is declared.
* `attribute_reaches_declaration`: the attribute reaches the enumeration declared in the scope of
  the message, and a global one exactly if nothing else is written like the one in the scope.
* `reservedSource_drops_association`: a declaration with a reserved name is not reached.
-/

namespace MavlinkCompiler

open Schema (Document EnumDefinition)

/-! ## The enumeration of one field -/

namespace Catalog

/-- A field with a name of its own has the enumeration that its attribute finds. -/
theorem Coherent.lookup?_named {catalog : Catalog} (h : catalog.Coherent) {message : Message}
    (hmessage : message ∈ catalog.messages) (hnames : (message.fields.map (·.name)).Nodup)
    {field : Field} (hfield : field ∈ message.fields) {name enumeration : String}
    (hattribute : field.enumName = some name)
    (hfound : catalog.fieldEnum? message name = some enumeration) :
    catalog.finish.associations.lookup? (catalog.messageKey message) field.name =
      some enumeration := by
  have hmessage? : catalog.finish.message? (catalog.messageKey message) = some message :=
    h.messagesByName.find?_bind hmessage
  have hresolved : catalog.resolvedEnum? message field = some enumeration := by
    rw [resolvedEnum?, hattribute, Option.bind_some, hfound]
  have hnamed : catalog.namedEnum? (catalog.messageKey message) field.name = some enumeration := by
    rw [namedEnum?, hmessage?, Option.bind_some, namedEnums,
      filter_key_eq_singleton hnames hfield, List.filterMap_cons_some hresolved]
    rfl
  rw [h.lookup?_associations, hnamed]
  rfl

/-- An enumeration is found if it is declared. -/
theorem Covers.hasEnum_iff {catalog : Catalog} {scoping : Scoping}
    {documents : List (String × Document)} (h : catalog.Covers scoping documents)
    {key : String} :
    catalog.hasEnum key = true ↔
      ∃ declared ∈ declarations (·.enums) documents, declared.enumKey scoping = key := by
  rw [hasEnum, Option.isSome_iff_ne_none, ne_eq, h.coherent.enumsByName.find?_eq_none_iff,
    not_not, h.holds.mem_keys, List.mem_map]

end Catalog

/-! ## From attributes to declarations -/

/-- A field has the enumeration that is stored for a declaration: the one that is joined from this
declaration and those that are written like it. -/
def Model.Reaches (model : Model) (documents : List (String × Document)) (message : Message)
    (field : Field) (declared : Declared EnumDefinition) : Prop :=
  ∃ enumeration ∈ model.enums, ∃ found,
    found = declarationsOf model.scoping (enumeration.qualified model.scoping).text
      (declarations (·.enums) documents) ∧
    declared ∈ found ∧ enumeration.Joins found ∧
    model.associations.lookup? (message.qualified model.scoping).text field.name =
      some (enumeration.qualified model.scoping).text

/-- The written name of the declaration decides. -/
theorem Catalog.Covers.reaches_iff {catalog : Catalog} {scoping : Scoping}
    {documents : List (String × Document)} (h : catalog.Covers scoping documents)
    {message : Message} {field : Field} {declared : Declared EnumDefinition}
    (hdeclared : declared ∈ declarations (·.enums) documents) :
    catalog.finish.Reaches documents message field declared ↔
      catalog.finish.associations.lookup? (catalog.messageKey message) field.name =
        some (declared.enumKey scoping) := by
  obtain rfl := h.holds.settled
  constructor
  · rintro ⟨enumeration, -, found, rfl, hmem, -, hlookup⟩
    have hkey : declared.enumKey catalog.scoping = catalog.enumKey enumeration :=
      of_decide_eq_true (List.mem_filter.mp hmem).2
    rw [hkey]
    exact hlookup
  · intro hlookup
    obtain ⟨enumeration, henum, hkey⟩ :=
      List.mem_map.mp (h.holds.mem_keys.mpr (List.mem_map.mpr ⟨declared, hdeclared, rfl⟩))
    obtain ⟨position, hposition⟩ := List.mem_iff_getElem?.mp henum
    refine ⟨enumeration, henum, _, rfl, ?_, h.holds.joins position enumeration hposition, ?_⟩
    · exact List.mem_filter.mpr ⟨hdeclared, decide_eq_true hkey.symm⟩
    · rw [← hkey] at hlookup
      exact hlookup

/-- **What an attribute reaches.** Let files be loaded, and let a field have a name of its own in
its message and an attribute that names an enumeration. If an enumeration that is stored under this
name is declared in the scope of the message, the field has the enumeration that is stored for the
declaration. If one is declared in the global scope, the field has it exactly if nothing else is
stored under the written form of the name in the scope of the message.

A declaration is stored under the safe form of its name: for every name that is not reserved this is
the name itself. -/
theorem attribute_reaches_declaration {scoping : Scoping} {sources : List Source} {model : Model}
    {documents : List (String × Document)}
    (hload : (Model.load scoping sources).outcome = .ok model) (hreads : Reads sources documents)
    {message : Message} (hmessage : message ∈ model.messages)
    (hnames : (message.fields.map (·.name)).Nodup) {field : Field}
    (hfield : field ∈ message.fields) {name : String} (hattribute : field.enumName = some name) :
    (∀ declared ∈ declarations (·.enums) documents, declared.scope = message.scope →
      safeName declared.definition.name = name →
      model.Reaches documents message field declared) ∧
    ∀ declared ∈ declarations (·.enums) documents, declared.scope = none →
      safeName declared.definition.name = name →
      (model.Reaches documents message field declared ↔
        ∀ other ∈ declarations (·.enums) documents,
          other.enumKey scoping = (scoping.qualify message.scope name).text →
          other.enumKey scoping = declared.enumKey scoping) := by
  obtain ⟨catalog, documents', rfl, hreads', hcovers⟩ := Model.exists_covers hload
  obtain rfl := hreads.unique hreads'
  obtain rfl := hcovers.holds.settled
  have hlookup : ∀ {enumeration}, catalog.fieldEnum? message name = some enumeration →
      catalog.finish.associations.lookup? (catalog.messageKey message) field.name =
        some enumeration :=
    hcovers.coherent.lookup?_named hmessage hnames hfield hattribute
  refine ⟨fun declared hdeclared hscope hname => ?_, fun declared hdeclared hscope hname => ?_⟩
  · have hkey : declared.enumKey catalog.scoping =
        (catalog.scoping.qualify message.scope name).text := by
      rw [Declared.enumKey, hscope, hname]
    rw [hcovers.reaches_iff hdeclared, hkey]
    exact hlookup (Catalog.fieldEnum?_of_own (hcovers.hasEnum_iff.mpr ⟨declared, hdeclared, hkey⟩))
  · have hkey : declared.enumKey catalog.scoping = name := by
      rw [Declared.enumKey, hscope, hname]
      cases catalog.scoping <;> rfl
    rw [hcovers.reaches_iff hdeclared, hkey]
    cases hown : catalog.hasEnum (catalog.scoping.qualify message.scope name).text with
    | false =>
      -- only the global name is there
      have hglobal := Catalog.fieldEnum?_of_global hown
        (hcovers.hasEnum_iff.mpr ⟨declared, hdeclared, hkey⟩)
      refine ⟨fun _ other hother hwritten => ?_, fun _ => hlookup hglobal⟩
      rw [hcovers.hasEnum_iff.mpr ⟨other, hother, hwritten⟩] at hown
      cases hown
    | true =>
      -- the name in the scope comes first, so it has to be the global one
      rw [hlookup (Catalog.fieldEnum?_of_own hown), Option.some.injEq]
      obtain ⟨other, hother, hwritten⟩ := hcovers.hasEnum_iff.mp hown
      constructor
      · intro heq another _ hanother
        exact hanother.trans heq
      · intro hall
        exact hwritten.symm.trans (hall other hother hwritten)

/-- A global definition file with an enumeration. -/
def stateSource : Source :=
  ⟨"common.xml", "<mavlink><enums><enum name='E'/></enums></mavlink>"⟩

/-- A definition file with an enumeration of its own, and a message whose fields name that one and
the global one. -/
def modeSource : Source :=
  ⟨"a.xml", "<mavlink><enums><enum name='M'/></enums><messages><message name='S' id='1'>" ++
    "<field name='f' type='char' enum='M'/><extensions/><field name='g' type='char' enum='E'/>" ++
    "</message></messages></mavlink>"⟩

theorem attributes_reach_stateSource_and_modeSource :
    ∃ model documents message field,
      (Model.load .separate [stateSource, modeSource]).outcome = .ok model ∧
      Reads [stateSource, modeSource] documents ∧
      message ∈ model.messages ∧ (message.fields.map (·.name)).Nodup ∧
      field ∈ message.fields ∧ field.enumName = some "E" ∧
      model.associations.lookup? "a::S" "f" = some "a::M" ∧
      model.associations.lookup? "a::S" "g" = some "E" ∧
      ∀ declared ∈ declarations (·.enums) documents, declared.scope = none →
        safeName declared.definition.name = "E" →
        (model.Reaches documents message field declared ↔
          ∀ other ∈ declarations (·.enums) documents,
            other.enumKey .separate = (Scoping.separate.qualify message.scope "E").text →
            other.enumKey .separate = declared.enumKey .separate) := by
  have hloaded : ∃ model ∈ (Model.load .separate [stateSource, modeSource]).outcome.toOption,
      model.associations.lookup? "a::S" "f" = some "a::M" ∧
      model.associations.lookup? "a::S" "g" = some "E" ∧
      ∃ message ∈ model.messages, (message.fields.map (·.name)).Nodup ∧
        ∃ field ∈ message.fields, field.enumName = some "E" := by
    decide +kernel
  obtain ⟨model, hsome, hmode, hstate, message, hmessage, hnames, field, hfield, hattribute⟩ :=
    hloaded
  have hload := Outcome.eq_ok_of_toOption hsome
  obtain ⟨-, documents, -, hreads, -⟩ := Model.exists_covers hload
  exact ⟨model, documents, message, field, hload, hreads, hmessage, hnames, hfield, hattribute,
    hmode, hstate,
    (attribute_reaches_declaration hload hreads hmessage hnames hfield hattribute).2⟩

/-! ## Reserved names -/

/-- A definition file with an enumeration that has a reserved name, and a field that names it. -/
def reservedSource : Source :=
  ⟨"common.xml", "<mavlink><enums><enum name='DEBUG'/></enums><messages>" ++
    "<message name='M' id='1'><field name='f' type='uint8_t' enum='DEBUG'/></message>" ++
    "</messages></mavlink>"⟩

/-- The enumeration is declared and stored, and the field that names it has none. -/
theorem reservedSource_drops_association :
    ∃ model, (Model.load .separate [reservedSource]).outcome = .ok model ∧
      (∃ document, (Document.parse reservedSource.id reservedSource.text).outcome = .ok document ∧
        document.enums.map (·.name) = ["DEBUG"]) ∧
      model.messages.map (fun message =>
          message.fields.map fun field => (field.name, field.enumName)) =
        [[("f", some "DEBUG")]] ∧
      model.enums.map (fun enumeration => (enumeration.qualified .separate).text) =
        ["DEBUG_VALUE"] ∧
      model.associations.lookup? "M" "f" = none := by
  have hloaded : ∃ model ∈ (Model.load .separate [reservedSource]).outcome.toOption,
      model.messages.map (fun message =>
          message.fields.map fun field => (field.name, field.enumName)) =
        [[("f", some "DEBUG")]] ∧
      model.enums.map (fun enumeration => (enumeration.qualified .separate).text) =
        ["DEBUG_VALUE"] ∧
      model.associations.lookup? "M" "f" = none := by
    decide +kernel
  have hread : ∃ document ∈
      (Document.parse reservedSource.id reservedSource.text).outcome.toOption,
      document.enums.map (·.name) = ["DEBUG"] := by
    decide +kernel
  obtain ⟨model, hsome, hattributes, hkeys, hlookup⟩ := hloaded
  obtain ⟨document, hdocument, henums⟩ := hread
  exact ⟨model, Outcome.eq_ok_of_toOption hsome,
    ⟨document, Outcome.eq_ok_of_toOption hdocument, henums⟩, hattributes, hkeys, hlookup⟩

end MavlinkCompiler
