import MavlinkCompiler.Proofs.Model.Catalog

/-!
# Which enumeration a field has

The associations of a finished model are filled in order: first the known fields, then the fields of
all messages, a later pair before an earlier one. What a look-up finds is said here without that
order. Messages have different names, so the pairs of one message do not meet those of another, and
of the fields of one message with one name the last that names an enumeration counts.

* `Catalog.namedEnums`: the enumerations that the fields of a message with a name name.
* `Catalog.namedEnum?`: the one that counts for a message and a field.
* `Catalog.Coherent.lookup?_associations`: what a look-up finds.
-/

namespace MavlinkCompiler

/-- The latest pair for a key in a list of pairs that is read from its end. -/
theorem lookup_reverse {κ ν : Type} [BEq κ] [LawfulBEq κ] (pairs : List (κ × ν)) (key : κ) :
    pairs.reverse.lookup key =
      ((pairs.filter fun pair => pair.1 == key).map (·.2)).getLast? := by
  induction pairs with
  | nil => rfl
  | cons first pairs ih =>
    obtain ⟨name, value⟩ := first
    rw [List.reverse_cons, List.lookup_append, ih, List.lookup_cons]
    by_cases hname : name = key
    · rw [List.filter_cons_of_pos (by simpa using hname), List.map_cons, List.getLast?_cons,
        beq_iff_eq.mpr hname.symm]
      cases ((pairs.filter fun pair => pair.1 == key).map (·.2)).getLast? <;> rfl
    · rw [List.filter_cons_of_neg (by simpa using hname), beq_false_of_ne (Ne.symm hname)]
      exact Option.or_none

section Keys

variable {α κ : Type} {key : α → κ} {element : α} {elements : List α}

/-- Around an element are elements with other keys, if all keys are different. -/
theorem exists_append_of_key (hdistinct : (elements.map key).Nodup) (hmem : element ∈ elements) :
    ∃ before after, elements = before ++ element :: after ∧
      (∀ other ∈ before, key other ≠ key element) ∧ ∀ other ∈ after, key other ≠ key element := by
  obtain ⟨before, after, rfl⟩ := List.append_of_mem hmem
  rw [List.map_append, List.map_cons, List.nodup_middle, ← List.map_append] at hdistinct
  have hother : ∀ other ∈ before ++ after, key other ≠ key element := fun other hother heq =>
    (List.nodup_cons.mp hdistinct).1 (List.mem_map.mpr ⟨other, hother, heq⟩)
  exact ⟨before, after, rfl, List.forall_mem_append.mp hother⟩

/-- Of elements with different keys, only one has a given key. -/
theorem filter_key_eq_singleton [DecidableEq κ] (hdistinct : (elements.map key).Nodup)
    (hmem : element ∈ elements) :
    elements.filter (fun other => key other == key element) = [element] := by
  obtain ⟨before, after, rfl, hbefore, hafter⟩ := exists_append_of_key hdistinct hmem
  rw [List.filter_append, List.filter_cons_of_pos (by simp),
    List.filter_eq_nil_iff.mpr (by simpa using hbefore),
    List.filter_eq_nil_iff.mpr (by simpa using hafter), List.nil_append]

/-- So only this element has a part in what is collected for its key. -/
theorem flatMap_of_key [DecidableEq κ] {β : Type} (collect : α → List β)
    (hdistinct : (elements.map key).Nodup) (hmem : element ∈ elements) :
    (elements.flatMap fun other => if key other = key element then collect other else []) =
      collect element := by
  obtain ⟨before, after, rfl, hbefore, hafter⟩ := exists_append_of_key hdistinct hmem
  rw [List.flatMap_append, List.flatMap_cons, if_pos rfl,
    List.flatMap_eq_nil_iff.mpr fun other hother => if_neg (hbefore other hother),
    List.flatMap_eq_nil_iff.mpr fun other hother => if_neg (hafter other hother),
    List.nil_append, List.append_nil]

end Keys

namespace Catalog

/-! ## The enumeration that a field names -/

/-- The name in the scope of the message comes first. -/
theorem fieldEnum?_of_own {catalog : Catalog} {message : Message} {name : String}
    (h : catalog.hasEnum (catalog.scoping.qualify message.scope name).text = true) :
    catalog.fieldEnum? message name = some (catalog.scoping.qualify message.scope name).text := by
  rw [fieldEnum?, List.find?_cons_of_pos h]

/-- The global name counts if the one in the scope of the message is not there. -/
theorem fieldEnum?_of_global {catalog : Catalog} {message : Message} {name : String}
    (hown : catalog.hasEnum (catalog.scoping.qualify message.scope name).text = false)
    (h : catalog.hasEnum name = true) : catalog.fieldEnum? message name = some name := by
  rw [fieldEnum?, List.find?_cons_of_neg (by simp [hown]), List.find?_cons_of_pos h]

/-- The enumeration of the catalog that a field of a message names. -/
def resolvedEnum? (catalog : Catalog) (message : Message) (field : Field) : Option String :=
  field.enumName.bind (catalog.fieldEnum? message)

/-! ## The pairs of a catalog -/

/-- The pair that a field of a message adds to the associations. -/
def fieldPair? (catalog : Catalog) (message : Message) (field : Field) :
    Option ((String × String) × String) :=
  (catalog.resolvedEnum? message field).map fun enumeration =>
    ((catalog.messageKey message, field.name), enumeration)

theorem associateField_pairs (catalog : Catalog) (message : Message) (field : Field)
    (associations : Associations) :
    (catalog.associateField message field associations).1.pairs =
      (catalog.fieldPair? message field).toList ++ associations.pairs := by
  unfold associateField fieldPair? resolvedEnum?
  cases field.enumName with
  | none => rfl
  | some name =>
    dsimp only [Option.bind_some]
    cases catalog.fieldEnum? message name <;> rfl

/-- All pairs, latest first. -/
theorem pairs_associations (catalog : Catalog) :
    catalog.associations.1.pairs =
      (catalog.messages.flatMap fun message =>
        message.fields.filterMap (catalog.fieldPair? message)).reverse ++
      catalog.knownFieldAssociations.pairs := by
  -- the step of the fold, with its pairs taken apart
  let step : Associations × List Event → Message × Field → Associations × List Event :=
    fun state field =>
      let added := catalog.associateField field.1 field.2 state.1
      (added.1, state.2 ++ added.2)
  have hfold : ∀ (fields : List (Message × Field)) (start : Associations × List Event),
      (fields.foldl step start).1.pairs =
        (fields.filterMap fun field => catalog.fieldPair? field.1 field.2).reverse ++
          start.1.pairs := by
    intro fields
    induction fields with
    | nil => intro start; rfl
    | cons first fields ih =>
      intro start
      rw [List.foldl_cons, ih]
      show _ ++ (catalog.associateField first.1 first.2 start.1).1.pairs = _
      rw [associateField_pairs]
      cases hpair : catalog.fieldPair? first.1 first.2 with
      | none => simp [hpair]
      | some pair => simp [hpair]
  show (catalog.messageFields.foldl step (catalog.knownFieldAssociations, [])).1.pairs = _
  rw [hfold, messageFields, List.filterMap_flatMap]
  simp only [List.filterMap_map]
  rfl

/-! ## Looking up a field -/

/-- The enumerations that the fields of a message with a name name, in the order of the fields. -/
def namedEnums (catalog : Catalog) (message : Message) (field : String) : List String :=
  (message.fields.filter (·.name == field)).filterMap (catalog.resolvedEnum? message)

/-- The enumeration that the last field with a name names in the message with a written name. -/
def namedEnum? (catalog : Catalog) (message field : String) : Option String :=
  (catalog.finish.message? message).bind fun found => (catalog.namedEnums found field).getLast?

/-- The pairs of a message for a message and a field: none if the message is another one. -/
theorem map_filter_fieldPair? (catalog : Catalog) (message : Message) (key field : String)
    (fields : List Field) :
    (((fields.filterMap (catalog.fieldPair? message)).filter fun pair =>
        pair.1 == (key, field)).map (·.2)) =
      if catalog.messageKey message = key then
        (fields.filter (·.name == field)).filterMap (catalog.resolvedEnum? message)
      else [] := by
  induction fields with
  | nil => simp
  | cons first fields ih =>
    by_cases hkey : catalog.messageKey message = key
    · rw [if_pos hkey] at ih ⊢
      by_cases hname : first.name = field
      · rw [List.filter_cons_of_pos (by simpa using hname)]
        cases hresolved : catalog.resolvedEnum? message first with
        | none => simpa [fieldPair?, hresolved] using ih
        | some enumeration => simpa [fieldPair?, hresolved, hkey, hname] using ih
      · rw [List.filter_cons_of_neg (by simpa using hname)]
        cases hresolved : catalog.resolvedEnum? message first with
        | none => simpa [fieldPair?, hresolved] using ih
        | some enumeration => simpa [fieldPair?, hresolved, hname] using ih
    · rw [if_neg hkey] at ih ⊢
      cases hresolved : catalog.resolvedEnum? message first with
      | none => simpa [fieldPair?, hresolved] using ih
      | some enumeration => simpa [fieldPair?, hresolved, hkey] using ih

/-- The latest pair for a field of a message is that of the last field that names an enumeration. -/
theorem Coherent.lookup_fieldPairs {catalog : Catalog} (h : catalog.Coherent)
    (message field : String) :
    (catalog.messages.flatMap fun found =>
      found.fields.filterMap (catalog.fieldPair? found)).reverse.lookup (message, field) =
      catalog.namedEnum? message field := by
  rw [lookup_reverse, List.filter_flatMap, List.map_flatMap]
  simp only [map_filter_fieldPair?]
  unfold namedEnum?
  cases hfound : catalog.finish.message? message with
  | none =>
    -- no message has this name, so there are no pairs
    have hnil : (catalog.messages.flatMap fun found =>
        if catalog.messageKey found = message then
          (found.fields.filter (·.name == field)).filterMap (catalog.resolvedEnum? found)
        else []) = [] := by
      rw [List.flatMap_eq_nil_iff]
      intro found hmem
      rw [if_neg]
      rintro rfl
      rw [show catalog.finish.message? _ = _ from h.messagesByName.find?_bind hmem] at hfound
      cases hfound
    rw [hnil]
    rfl
  | some found =>
    obtain ⟨hmem, rfl⟩ := h.messagesByName.bind_eq_some_iff.mp hfound
    rw [flatMap_of_key _ h.messagesByName.nodup hmem]
    rfl

/-- What the associations of a finished model have for a field of a message: what the message names,
or else what is known of its field; then what is said of the field in any message. -/
theorem Coherent.lookup?_associations {catalog : Catalog} (h : catalog.Coherent)
    (message field : String) :
    catalog.finish.associations.lookup? message field =
      ((catalog.namedEnum? message field).or
        (catalog.knownFieldAssociations.pairs.lookup (message, field))).or
      ((catalog.namedEnum? "" field).or
        (catalog.knownFieldAssociations.pairs.lookup ("", field))) := by
  unfold Associations.lookup?
  show (catalog.associations.1.pairs.lookup _).or (catalog.associations.1.pairs.lookup _) = _
  rw [pairs_associations, List.lookup_append, List.lookup_append, h.lookup_fieldPairs,
    h.lookup_fieldPairs]

/-- Whether an enumeration is declared can be seen by looking it up. -/
theorem Coherent.hasEnum_eq {catalog : Catalog} (h : catalog.Coherent) (key : String) :
    catalog.hasEnum key = (catalog.finish.enum? key).isSome := by
  unfold hasEnum
  show _ = ((catalog.enumsByName.find? key).bind fun position => catalog.enums[position]?).isSome
  cases hfound : catalog.enumsByName.find? key with
  | none => rfl
  | some position =>
    have hkey := (h.enumsByName key position).mp hfound
    rw [List.getElem?_map, Option.map_eq_some_iff] at hkey
    obtain ⟨enumeration, henum, -⟩ := hkey
    rw [Option.bind_some, henum]
    rfl

end Catalog

end MavlinkCompiler
