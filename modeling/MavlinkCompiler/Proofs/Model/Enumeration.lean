import MavlinkCompiler.Model.Enumeration
import MavlinkCompiler.Proofs.Outcome

/-!
# Declared and joined enumerations

What it takes for an enumeration to be accepted, and what it looks like then.

* `Entry.Declares`: the entry that a definition declares.
* `Enumeration.ofDefinition_eq_ok`, `Enumeration.exists_ofDefinition`: an enumeration is accepted if
  no two of its entries have one name and no entry gives a parameter index twice.
* `Enumeration.addEntries_cases`: joining stops at the first entry whose name is taken.
-/

namespace MavlinkCompiler

open Schema (EntryDefinition EnumDefinition)

/-- What matching elements have in common, matching lists have in common. -/
theorem map_eq_map_of_forall₂ {α β γ : Type} {R : α → β → Prop} {f : α → γ} {g : β → γ}
    (himage : ∀ {a b}, R a b → f a = g b) {left : List α} {right : List β}
    (h : List.Forall₂ R left right) : left.map f = right.map g := by
  induction h with
  | nil => rfl
  | cons hfirst _ ih => rw [List.map_cons, List.map_cons, himage hfirst, ih]

/-! ## Parameters -/

theorem mem_setParam {index : UInt32} {text : String} {param : UInt32 × String} :
    ∀ {params : List (UInt32 × String)}, index ∉ params.map (·.1) →
      (param ∈ setParam index text params ↔ param = (index, text) ∨ param ∈ params)
  | [], _ => by simp [setParam]
  | first :: params, h => by
    rw [List.map_cons, List.mem_cons, not_or] at h
    unfold setParam
    split
    · simp
    · rw [if_neg h.1, List.mem_cons, mem_setParam h.2, List.mem_cons]
      tauto

theorem setParam_perm {index : UInt32} {text : String} :
    ∀ {params : List (UInt32 × String)}, index ∉ params.map (·.1) →
      (setParam index text params).Perm ((index, text) :: params)
  | [], _ => .refl _
  | first :: params, h => by
    rw [List.map_cons, List.mem_cons, not_or] at h
    unfold setParam
    split
    · exact .refl _
    · rw [if_neg h.1]
      exact ((setParam_perm h.2).cons first).trans (.swap _ _ _)

/-- Setting a new parameter keeps the indices ascending. -/
theorem setParam_sorted {index : UInt32} {text : String} :
    ∀ {params : List (UInt32 × String)}, index ∉ params.map (·.1) →
      params.Pairwise (fun a b => a.1 < b.1) →
      (setParam index text params).Pairwise (fun a b => a.1 < b.1)
  | [], _, _ => by simp [setParam]
  | first :: params, h, hsorted => by
    rw [List.map_cons, List.mem_cons, not_or] at h
    obtain ⟨hfirst, hrest⟩ := List.pairwise_cons.mp hsorted
    unfold setParam
    split
    next hlt =>
      -- it goes in front of all that are greater
      refine List.pairwise_cons.mpr ⟨fun param hparam => ?_, hsorted⟩
      rcases List.mem_cons.mp hparam with rfl | hparam
      · exact hlt
      · exact UInt32.lt_trans hlt (hfirst param hparam)
    next hle =>
      rw [if_neg h.1]
      refine List.pairwise_cons.mpr ⟨fun param hparam => ?_, setParam_sorted h.2 hrest⟩
      -- the first stays first: it is below the new index and below the others
      rcases (mem_setParam h.2).mp hparam with rfl | hparam
      · exact UInt32.lt_of_le_of_ne (UInt32.not_lt.mp hle) (Ne.symm h.1)
      · exact hfirst param hparam

/-- A parameter may be set before the others are, or stand in front of them. -/
theorem setParam_append_perm {index : UInt32} {collected : List (UInt32 × String)}
    (h : index ∉ collected.map (·.1)) (text : String) (params : List (UInt32 × String)) :
    (setParam index text collected ++ params).Perm (collected ++ (index, text) :: params) :=
  ((setParam_perm h).append_right params).trans List.perm_middle.symm

/-- Parameters are collected if no index is given twice; they are then in ascending order. -/
theorem collectParams_eq_ok {entry : String} :
    ∀ {params collected found : List (UInt32 × String)},
      collected.Pairwise (fun a b => a.1 < b.1) →
      collectParams entry collected params = .ok found →
      ((collected ++ params).map (·.1)).Nodup ∧ found.Perm (collected ++ params) ∧
        found.Pairwise (fun a b => a.1 < b.1)
  | [], collected, found, hsorted, h => by
    cases h
    rw [List.append_nil]
    refine ⟨?_, .refl _, hsorted⟩
    rw [List.nodup_iff_pairwise_ne, List.pairwise_map]
    exact hsorted.imp fun hlt => UInt32.ne_of_lt hlt
  | (index, text) :: params, collected, found, hsorted, h => by
    unfold collectParams at h
    split at h
    · cases h
    next hnew =>
    have hindex : index ∉ collected.map (·.1) := by
      intro hmem
      refine hnew (List.lookup_isSome_iff.mpr ?_)
      obtain ⟨param, hparam, rfl⟩ := List.mem_map.mp hmem
      exact ⟨param, hparam, by simp⟩
    -- moving a parameter over to the collected ones is a permutation of all of them
    obtain ⟨hdistinct, hperm, hfound⟩ := collectParams_eq_ok (setParam_sorted hindex hsorted) h
    have hmoved := setParam_append_perm hindex text params
    exact ⟨(hmoved.map (·.1)).nodup_iff.mp hdistinct, hperm.trans hmoved, hfound⟩

/-- No index given twice is all it takes. -/
theorem exists_collectParams {entry : String} :
    ∀ {params collected : List (UInt32 × String)}, ((collected ++ params).map (·.1)).Nodup →
      ∃ found, collectParams entry collected params = .ok found
  | [], collected, _ => ⟨collected, rfl⟩
  | (index, text) :: params, collected, h => by
    have hindex : index ∉ collected.map (·.1) := by
      rw [List.map_append, List.nodup_append] at h
      exact fun hmem => h.2.2 index hmem index (by simp) rfl
    have hnone : (collected.lookup index).isSome = false := by
      rw [Bool.eq_false_iff]
      intro hsome
      obtain ⟨param, hparam, heq⟩ := List.lookup_isSome_iff.mp hsome
      exact hindex (List.mem_map.mpr ⟨param, hparam, (beq_iff_eq.mp heq).symm⟩)
    have hmoved := setParam_append_perm hindex text params
    unfold collectParams
    rw [hnone]
    exact exists_collectParams ((hmoved.map (·.1)).nodup_iff.mpr h)

/-! ## Entries -/

/-- What the entry of a definition is: its parameters are those declared, by ascending index. -/
structure Entry.Declares (entry : Entry) (definition : EntryDefinition) : Prop where
  name : entry.name = safeName definition.name
  declared : entry.declared = definition.value
  description : entry.description = definition.description
  params : entry.params.Perm definition.params
  sorted : entry.params.Pairwise fun a b => a.1 < b.1

theorem Entry.ofDefinition_eq_ok {definition : EntryDefinition} {entry : Entry}
    (h : Entry.ofDefinition definition = .ok entry) :
    (definition.params.map (·.1)).Nodup ∧ entry.Declares definition := by
  obtain ⟨params, hparams, hentry⟩ := Outcome.bind_eq_ok_iff.mp h
  cases hentry
  obtain ⟨hdistinct, hperm, hsorted⟩ := collectParams_eq_ok .nil hparams
  exact ⟨hdistinct, rfl, rfl, rfl, hperm, hsorted⟩

theorem Entry.exists_ofDefinition {definition : EntryDefinition}
    (h : (definition.params.map (·.1)).Nodup) :
    ∃ entry, Entry.ofDefinition definition = .ok entry := by
  obtain ⟨params, hparams⟩ :
      ∃ params, collectParams (safeName definition.name) [] definition.params = .ok params :=
    exists_collectParams h
  exact ⟨_, Outcome.bind_eq_ok_iff.mpr ⟨params, hparams, rfl⟩⟩

namespace Enumeration

/-- The names of an enumeration's entries. -/
def entryNames (enumeration : Enumeration) : List String :=
  enumeration.entries.map (·.name)

/-- An enumeration with more entries at its end. -/
def extend (enumeration : Enumeration) (entries : List Entry) : Enumeration :=
  { enumeration with entries := enumeration.entries ++ entries }

theorem extend_extend (enumeration : Enumeration) (first second : List Entry) :
    (enumeration.extend first).extend second = enumeration.extend (first ++ second) := by
  simp [extend]

theorem entryNames_extend (enumeration : Enumeration) (entries : List Entry) :
    (enumeration.extend entries).entryNames =
      enumeration.entryNames ++ entries.map (·.name) := by
  simp [extend, entryNames]

/-- An entry is added unless its name is taken. -/
theorem addEntry_eq (enumeration : Enumeration) (entry : Entry) :
    enumeration.addEntry entry =
      if entry.name ∈ enumeration.entryNames then
        .error (.duplicateEntry enumeration.name entry.name)
      else .ok (enumeration.extend [entry]) := by
  unfold addEntry
  have hiff : enumeration.entries.any (·.name == entry.name) = true ↔
      entry.name ∈ enumeration.entryNames := by
    simp [entryNames]
  by_cases hmem : entry.name ∈ enumeration.entryNames
  · rw [if_pos (hiff.mpr hmem), if_pos hmem]
  · rw [if_neg (fun h => hmem (hiff.mp h)), if_neg hmem]
    rfl

/-- Joining entries: all of them are added, or those before the first whose name is taken. -/
theorem addEntries_cases :
    ∀ (entries : List Entry) (enumeration : Enumeration), ∃ taken left,
      entries = taken ++ left ∧
      (enumeration.addEntries entries).1 = enumeration.extend taken ∧
      (enumeration.entryNames.Nodup → (enumeration.extend taken).entryNames.Nodup) ∧
      (left = [] ∧ (enumeration.addEntries entries).2 = none ∨
        ∃ clash rest, left = clash :: rest ∧
          clash.name ∈ (enumeration.extend taken).entryNames ∧
          (enumeration.addEntries entries).2 =
            some (.duplicateEntry enumeration.name clash.name))
  | [], enumeration => by
    refine ⟨[], [], rfl, ?_, ?_, .inl ⟨rfl, rfl⟩⟩
    · simp [addEntries, extend]
    · simp [extend, entryNames]
  | entry :: entries, enumeration => by
    unfold addEntries
    rw [addEntry_eq]
    by_cases hmem : entry.name ∈ enumeration.entryNames
    · rw [if_pos hmem]
      refine ⟨[], entry :: entries, rfl, ?_, ?_, .inr ⟨entry, entries, rfl, ?_, rfl⟩⟩
      · simp [extend]
      · simp [extend, entryNames]
      · simpa [extend, entryNames] using hmem
    · rw [if_neg hmem]
      -- the entry is added, and the others are joined to what that gives
      obtain ⟨taken, left, hsplit, hjoined, hdistinct, hend⟩ :=
        addEntries_cases entries (enumeration.extend [entry])
      rw [extend_extend] at hjoined hdistinct hend
      refine ⟨entry :: taken, left, by rw [hsplit]; rfl, hjoined, fun h => hdistinct ?_, hend⟩
      rw [entryNames_extend, List.nodup_append]
      refine ⟨h, by simp, ?_⟩
      rintro name hname other hother rfl
      have heq : name = entry.name := by simpa using hother
      exact hmem (heq ▸ hname)

/-- Joining a further declaration keeps what says how an enumeration is found. -/
theorem absorb_keeps (enumeration further : Enumeration) :
    (enumeration.absorb further).1.name = enumeration.name ∧
      (enumeration.absorb further).1.scope = enumeration.scope ∧
      (enumeration.absorb further).1.group = enumeration.group ∧
      (enumeration.entryNames.Nodup → (enumeration.absorb further).1.entryNames.Nodup) := by
  obtain ⟨taken, left, -, hjoined, hdistinct, -⟩ := addEntries_cases further.entries
    { enumeration with description := enumeration.description.or further.description }
  unfold absorb
  rw [hjoined]
  exact ⟨rfl, rfl, rfl, hdistinct⟩

/-- Joining succeeds if no name is taken. -/
theorem absorb_eq_none {enumeration further : Enumeration}
    (h : (enumeration.entryNames ++ further.entryNames).Nodup) :
    (enumeration.absorb further).2 = none := by
  obtain ⟨taken, left, hsplit, -, -, ⟨-, hnone⟩ | ⟨clash, rest, rfl, hclash, -⟩⟩ :=
    addEntries_cases further.entries
      { enumeration with description := enumeration.description.or further.description }
  · exact hnone
  -- a clash would be a repetition in the names of both
  · rw [entryNames_extend] at hclash
    rw [entryNames, entryNames, hsplit, List.map_append, List.map_cons, ← List.append_assoc,
      List.nodup_append] at h
    exact absurd rfl (h.2.2 clash.name hclash clash.name (by simp))

/-- If joining succeeds, all entries of the further declaration are added. -/
theorem absorb_of_eq_none {enumeration further : Enumeration}
    (h : (enumeration.absorb further).2 = none) :
    (enumeration.absorb further).1 =
      { enumeration with
        description := enumeration.description.or further.description
        entries := enumeration.entries ++ further.entries } := by
  obtain ⟨taken, left, hsplit, hjoined, -, ⟨rfl, -⟩ | ⟨clash, rest, -, -, hsome⟩⟩ :=
    addEntries_cases further.entries
      { enumeration with description := enumeration.description.or further.description }
  · rw [List.append_nil] at hsplit
    subst hsplit
    exact hjoined
  · rw [absorb, hsome] at h
    cases h

/-- One entry of a declaration after the other. -/
def declareEntry (enumeration : Enumeration) (definition : EntryDefinition) :
    Except Schema.Error Enumeration := do
  let entry ← Entry.ofDefinition definition
  enumeration.addEntry entry

theorem ofDefinition_eq (definition : EnumDefinition) (scope : Option String) (group : Nat) :
    ofDefinition definition scope group =
      definition.entries.foldlM declareEntry
        ⟨safeName definition.name, scope, group, definition.description, []⟩ := rfl

theorem foldlM_declareEntry_eq_ok :
    ∀ {definitions : List EntryDefinition} {enumeration result : Enumeration},
      enumeration.entryNames.Nodup →
      definitions.foldlM declareEntry enumeration = .ok result →
      ∃ entries, List.Forall₂ Entry.Declares entries definitions ∧
        (∀ definition ∈ definitions, (definition.params.map (·.1)).Nodup) ∧
        result = enumeration.extend entries ∧ result.entryNames.Nodup
  | [], enumeration, result, hdistinct, h => by
    cases h
    exact ⟨[], .nil, by simp, by simp [extend], hdistinct⟩
  | definition :: definitions, enumeration, result, hdistinct, h => by
    rw [List.foldlM_cons] at h
    obtain ⟨next, hnext, hrest⟩ := Outcome.bind_eq_ok_iff.mp h
    obtain ⟨entry, hentry, hadd⟩ := Outcome.bind_eq_ok_iff.mp hnext
    rw [addEntry_eq] at hadd
    split at hadd
    · cases hadd
    next hnew =>
    cases hadd
    have hdistinct' : (enumeration.extend [entry]).entryNames.Nodup := by
      rw [entryNames_extend]
      exact List.Nodup.append hdistinct (by simp) (by simpa using hnew)
    obtain ⟨entries, hdeclares, hparams, rfl, hresult⟩ :=
      foldlM_declareEntry_eq_ok hdistinct' hrest
    obtain ⟨hparam, hdeclare⟩ := Entry.ofDefinition_eq_ok hentry
    exact ⟨entry :: entries, .cons hdeclare hdeclares,
      List.forall_mem_cons.mpr ⟨hparam, hparams⟩, by rw [extend_extend]; rfl, hresult⟩

theorem exists_foldlM_declareEntry :
    ∀ {definitions : List EntryDefinition} {enumeration : Enumeration},
      (enumeration.entryNames ++ definitions.map fun d => safeName d.name).Nodup →
      (∀ definition ∈ definitions, (definition.params.map (·.1)).Nodup) →
      ∃ result, definitions.foldlM declareEntry enumeration = .ok result
  | [], enumeration, _, _ => ⟨enumeration, rfl⟩
  | definition :: definitions, enumeration, hdistinct, hparams => by
    obtain ⟨hparam, hparams⟩ := List.forall_mem_cons.mp hparams
    obtain ⟨entry, hentry⟩ := Entry.exists_ofDefinition hparam
    have hname : entry.name = safeName definition.name := (Entry.ofDefinition_eq_ok hentry).2.name
    have hnew : entry.name ∉ enumeration.entryNames := by
      rw [List.nodup_append] at hdistinct
      exact fun hmem => hdistinct.2.2 _ hmem _ (by simp [hname]) rfl
    have hdistinct' : ((enumeration.extend [entry]).entryNames ++
        definitions.map fun d => safeName d.name).Nodup := by
      rw [entryNames_extend, List.append_assoc]
      simpa [hname] using hdistinct
    obtain ⟨result, hresult⟩ := exists_foldlM_declareEntry hdistinct' hparams
    refine ⟨result, ?_⟩
    rw [List.foldlM_cons]
    refine Outcome.bind_eq_ok_iff.mpr ⟨enumeration.extend [entry], ?_, hresult⟩
    refine Outcome.bind_eq_ok_iff.mpr ⟨entry, hentry, ?_⟩
    rw [addEntry_eq, if_neg hnew]

/-- What an accepted declaration looks like. -/
theorem ofDefinition_eq_ok {definition : EnumDefinition} {scope : Option String} {group : Nat}
    {enumeration : Enumeration} (h : ofDefinition definition scope group = .ok enumeration) :
    enumeration.name = safeName definition.name ∧ enumeration.scope = scope ∧
      enumeration.group = group ∧ enumeration.description = definition.description ∧
      List.Forall₂ Entry.Declares enumeration.entries definition.entries ∧
      (∀ entry ∈ definition.entries, (entry.params.map (·.1)).Nodup) ∧
      enumeration.entryNames.Nodup := by
  rw [ofDefinition_eq] at h
  obtain ⟨entries, hdeclares, hparams, rfl, hdistinct⟩ := foldlM_declareEntry_eq_ok (by
    show ([] : List String).Nodup
    simp) h
  exact ⟨rfl, rfl, rfl, rfl, by simpa [extend] using hdeclares, hparams, hdistinct⟩

/-- What it takes for a declaration to be accepted. -/
theorem exists_ofDefinition {definition : EnumDefinition} (scope : Option String) (group : Nat)
    (hdistinct : (definition.entries.map fun entry => safeName entry.name).Nodup)
    (hparams : ∀ entry ∈ definition.entries, (entry.params.map (·.1)).Nodup) :
    ∃ enumeration, ofDefinition definition scope group = .ok enumeration :=
  exists_foldlM_declareEntry hdistinct hparams

/-- Entries have the names of their definitions. -/
theorem entryNames_of_declares {enumeration : Enumeration} {definitions : List EntryDefinition}
    (h : List.Forall₂ Entry.Declares enumeration.entries definitions) :
    enumeration.entryNames = definitions.map fun entry => safeName entry.name :=
  map_eq_map_of_forall₂ (fun hentry => hentry.name) h

end Enumeration

end MavlinkCompiler
