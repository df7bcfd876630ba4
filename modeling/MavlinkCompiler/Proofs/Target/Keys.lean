import MavlinkCompiler.Proofs.Model.MergedScopes
import MavlinkCompiler.Proofs.Target.Tiling
import MavlinkCompiler.Proofs.Text.Numeral
import MavlinkCompiler.Proofs.Text.Split

/-!
# Keys of the dissector

The dissector declares every item under a key of its own making: the scope, the message, the field
and the number of the element, with underscores between them. Underscores are also in the names, so
the parts of a key cannot be told in general, and two items can have one key. Here it is said
exactly when they do.

* `joined_eq_iff`: what two joined texts say about their parts when they are the same.
* `nodup_itemNames_iff`: within a message only an element and a whole field can have one key.
* `KeysTold`: the three coincidences between names that do not happen.
* `keys_nodup_iff_told`: the keys of a model are distinct exactly then.
* `overlappingSource_repeats_key`: names that are plain identifiers do not rule the coincidences
  out.
-/

namespace MavlinkCompiler.Lua

/-! ## Texts joined by a mark -/

/-- Texts joined by an underscore are the same if their parts are, or if one of the underscores is
within the first part of the one text and within the second part of the other. -/
theorem joined_eq_iff {one other x y : String} :
    one ++ "_" ++ x = other ++ "_" ++ y ↔
      (one = other ∧ x = y) ∨
      (∃ between, other = one ++ "_" ++ between ∧ x = between ++ "_" ++ y) ∨
      ∃ between, one = other ++ "_" ++ between ∧ y = between ++ "_" ++ x := by
  have hlist : ∀ front back : String,
      (front ++ "_" ++ back).toList = front.toList ++ '_' :: back.toList := by
    intro front back
    simp
  -- a list of characters is the list of some text
  have hexists : ∀ holds : List Char → Prop,
      (∃ between, holds between) ↔ ∃ between : String, holds between.toList := by
    intro holds
    refine ⟨fun ⟨between, hbetween⟩ => ⟨String.ofList between, ?_⟩, fun ⟨between, h⟩ => ⟨_, h⟩⟩
    rwa [String.toList_ofList]
  rw [← String.toList_inj, hlist, hlist, Text.append_mark_eq_iff, hexists, hexists]
  simp only [← String.toList_inj, hlist]

theorem toString_nat_injective {i j : Nat} (h : toString i = toString j) : i = j := by
  have hread := Text.natural?_toString i
  rw [h, Text.natural?_toString] at hread
  exact (Option.some.inj hread).symm

/-- The number of an element can be read off the end of its name. -/
theorem element_name_inj {name name' : String} {i j : Nat}
    (h : name ++ "_" ++ toString i = name' ++ "_" ++ toString j) : name = name' ∧ i = j := by
  have hfree : ∀ number : Nat, '_' ∉ (toString number).toList := fun number hmem =>
    absurd (Text.isDigit_of_mem_toString _ hmem) (by decide)
  have hlist := congrArg String.toList h
  rw [String.toList_append, String.toList_append, String.toList_append, String.toList_append,
    List.append_assoc, List.append_assoc] at hlist
  obtain ⟨hname, hnumber⟩ := Text.append_mark_inj_right (hfree i) (hfree j) hlist
  exact ⟨String.toList_inj.mp hname, toString_nat_injective (String.toList_inj.mp hnumber)⟩

/-! ## Names within a message -/

/-- Whether the items of a field are numbered elements, and not the whole field. -/
def isNumbered (type : FieldType) : Bool :=
  type.isArray && !type.isString

/-- What the items of a field add to the key of their message. -/
def fieldItemNames (field : Field) : List String :=
  (items field.type).map fun item => field.name ++ item.keySuffix

/-- What the items of some fields add to the key of their message. -/
def itemNames (fields : List Field) : List String :=
  fields.flatMap fieldItemNames

theorem itemKeys_eq (message : QualifiedName) (fields : List Field) :
    itemKeys message fields = (itemNames fields).map (identifier message ++ "_" ++ ·) := by
  unfold itemKeys itemNames fieldItemNames
  rw [List.map_flatMap]
  simp only [List.map_map]
  refine List.flatMap_congr fun field _ => List.map_congr_left fun item _ => ?_
  show identifier message ++ "_" ++ field.name ++ item.keySuffix = _
  rw [String.append_assoc]
  rfl

theorem fieldItemNames_of_whole {field : Field} (h : isNumbered field.type = false) :
    fieldItemNames field = [field.name] := by
  unfold fieldItemNames items
  rw [if_pos]
  · simp
  · revert h
    unfold isNumbered
    cases field.type.isArray <;> cases field.type.isString <;> simp

theorem fieldItemNames_of_numbered {field : Field} (h : isNumbered field.type = true) :
    fieldItemNames field =
      (List.range field.type.elements).map fun i => field.name ++ "_" ++ toString i := by
  unfold fieldItemNames items
  rw [if_neg]
  · rw [List.map_map]
    refine List.map_congr_left fun i _ => ?_
    show field.name ++ ("_" ++ toString i) = _
    rw [String.append_assoc]
  · revert h
    unfold isNumbered
    cases field.type.isArray <;> cases field.type.isString <;> simp

theorem nodup_fieldItemNames (field : Field) : (fieldItemNames field).Nodup := by
  cases hnumbered : isNumbered field.type with
  | false =>
    rw [fieldItemNames_of_whole hnumbered]
    exact List.nodup_singleton _
  | true =>
    rw [fieldItemNames_of_numbered hnumbered]
    exact List.nodup_range.map fun i j h => (element_name_inj h).2

/-- An element of one field is not called like another field as a whole. -/
def ElementsTold (array whole : Field) : Prop :=
  isNumbered array.type = true → isNumbered whole.type = false →
    ∀ i < array.type.elements, whole.name ≠ array.name ++ "_" ++ toString i

/-- Fields with different names have items with different names, unless one of them is called like
an element of the other. -/
theorem disjoint_fieldItemNames_iff {one other : Field} (hne : one.name ≠ other.name) :
    (fieldItemNames one).Disjoint (fieldItemNames other) ↔
      ElementsTold one other ∧ ElementsTold other one := by
  unfold ElementsTold
  cases hone : isNumbered one.type with
  | false =>
    rw [fieldItemNames_of_whole hone]
    cases hother : isNumbered other.type with
    | false =>
      rw [fieldItemNames_of_whole hother]
      simp [hne.symm]
    | true =>
      rw [fieldItemNames_of_numbered hother]
      simp [eq_comm]
  | true =>
    rw [fieldItemNames_of_numbered hone]
    cases hother : isNumbered other.type with
    | false =>
      rw [fieldItemNames_of_whole hother]
      simp [eq_comm]
    | true =>
      -- elements of two arrays: their numbers are told, and so are the names of the arrays
      rw [fieldItemNames_of_numbered hother]
      refine ⟨fun _ => ⟨nofun, nofun⟩, fun _ => ?_⟩
      rw [List.disjoint_left]
      intro name hname hname'
      obtain ⟨i, -, rfl⟩ := List.mem_map.mp hname
      obtain ⟨j, -, hj⟩ := List.mem_map.mp hname'
      exact hne (element_name_inj hj).1.symm

/-- Lists that are put together from different elements have no repetitions exactly if none of them
has, and no two of them have an element in common. -/
theorem nodup_flatMap_iff {α β : Type} {f : α → List β} {list : List α} (hnodup : list.Nodup) :
    (list.flatMap f).Nodup ↔
      (∀ a ∈ list, (f a).Nodup) ∧ ∀ a ∈ list, ∀ b ∈ list, a ≠ b → (f a).Disjoint (f b) := by
  have hsymm : Std.Symm (Function.onFun List.Disjoint f) := ⟨fun _ _ h => h.symm⟩
  rw [List.nodup_flatMap, ← hnodup.pairwise_coe]
  rfl

/-- The items of a message have different names exactly if no field is called like an element of
another one. -/
theorem nodup_itemNames_iff {fields : List Field} (hnames : (fields.map (·.name)).Nodup) :
    (itemNames fields).Nodup ↔
      ∀ array ∈ fields, ∀ whole ∈ fields, ElementsTold array whole := by
  have hne : ∀ one ∈ fields, ∀ other ∈ fields, one ≠ other → one.name ≠ other.name :=
    fun one hone other hother hne heq =>
      hne (List.inj_on_of_nodup_map hnames hone hother heq)
  unfold itemNames
  rw [nodup_flatMap_iff hnames.of_map]
  constructor
  · rintro ⟨-, hdisjoint⟩ array harray whole hwhole
    by_cases heq : array = whole
    · subst heq
      intro hnumbered hwhole
      rw [hnumbered] at hwhole
      cases hwhole
    · exact ((disjoint_fieldItemNames_iff (hne array harray whole hwhole heq)).mp
        (hdisjoint array harray whole hwhole heq)).1
  · intro htold
    refine ⟨fun field _ => nodup_fieldItemNames field, fun one hone other hother hdistinct => ?_⟩
    exact (disjoint_fieldItemNames_iff (hne one hone other hother hdistinct)).mpr
      ⟨htold one hone other hother, htold other hother one hone⟩

/-! ## Keys of several messages -/

/-- Where a message has the identifier of another one and more, what is more does not begin the name
of an item of the other one. -/
def ContinuationTold (one other : QualifiedName) (fields fields' : List Field) : Prop :=
  ∀ more, identifier other = identifier one ++ "_" ++ more →
    ∀ name ∈ itemNames fields', more ++ "_" ++ name ∉ itemNames fields

/-- The keys of two messages are different exactly if neither identifier continues into the other
one, and there are no common names where the identifiers are the same. -/
theorem disjoint_itemKeys_iff {one other : QualifiedName} {fields fields' : List Field} :
    (itemKeys one fields).Disjoint (itemKeys other fields') ↔
      (identifier one = identifier other → (itemNames fields).Disjoint (itemNames fields')) ∧
      ContinuationTold one other fields fields' ∧ ContinuationTold other one fields' fields := by
  rw [itemKeys_eq, itemKeys_eq]
  constructor
  · intro h
    -- a key of both messages, put together in two ways
    have happart : ∀ {x y}, x ∈ itemNames fields → y ∈ itemNames fields' →
        identifier one ++ "_" ++ x ≠ identifier other ++ "_" ++ y := by
      intro x y hx hy heq
      have hy' : identifier one ++ "_" ++ x ∈
          (itemNames fields').map (identifier other ++ "_" ++ ·) :=
        List.mem_map.mpr ⟨y, hy, heq.symm⟩
      exact h (List.mem_map_of_mem hx) hy'
    refine ⟨fun hsame x hx hx' => ?_, fun more hmore name hname hmem => ?_,
      fun more hmore name hname hmem => ?_⟩
    · exact happart hx hx' (joined_eq_iff.mpr (.inl ⟨hsame, rfl⟩))
    · exact happart hmem hname (joined_eq_iff.mpr (.inr (.inl ⟨more, hmore, rfl⟩)))
    · exact happart hname hmem (joined_eq_iff.mpr (.inr (.inr ⟨more, hmore, rfl⟩)))
  · rintro ⟨hsame, hcontinued, hcontinued'⟩
    rw [List.disjoint_left]
    intro key hkey hkey'
    obtain ⟨x, hx, rfl⟩ := List.mem_map.mp hkey
    obtain ⟨y, hy, heq⟩ := List.mem_map.mp hkey'
    rcases joined_eq_iff.mp heq with ⟨hident, rfl⟩ | ⟨more, hmore, rfl⟩ | ⟨more, hmore, rfl⟩
    · exact hsame hident.symm hx hy
    · exact hcontinued' more hmore x hx hy
    · exact hcontinued more hmore y hy hx

/-- The names of a model do not coincide in a way that gives two items one key. -/
structure KeysTold (model : Model) : Prop where
  /-- Within a message, no scalar and no text is called like an element of an array. -/
  elements : ∀ message ∈ model.messages, ∀ array ∈ message.fields, ∀ whole ∈ message.fields,
    ElementsTold array whole
  /-- Messages with the same identifier have no item name in common. -/
  identifiers : ∀ one ∈ model.messages, ∀ other ∈ model.messages, one ≠ other →
    identifier (one.qualified model.scoping) = identifier (other.qualified model.scoping) →
    (itemNames one.fields).Disjoint (itemNames other.fields)
  /-- What the identifier of a message adds to that of another one does not begin the name of an
  item there. -/
  continuations : ∀ one ∈ model.messages, ∀ other ∈ model.messages,
    ContinuationTold (one.qualified model.scoping) (other.qualified model.scoping) one.fields
      other.fields

/-- No message continues its own identifier. -/
theorem continuationTold_self (message : QualifiedName) (fields fields' : List Field) :
    ContinuationTold message message fields fields' := by
  intro more hmore
  have hlength := congrArg String.length hmore
  simp only [String.length_append] at hlength
  have hmark : "_".length = 1 := rfl
  omega

/-- The messages of a loaded model are different. -/
theorem nodup_messages_of_load {scoping : Scoping} {sources : List Source} {model : Model}
    (h : (Model.load scoping sources).outcome = .ok model) : model.messages.Nodup := by
  obtain ⟨catalog, documents, rfl, -, hcovers⟩ := Model.exists_covers h
  exact hcovers.coherent.messagesByName.nodup.of_map

/-- Of the lines printed for the declarations of all messages, one declares each item, in order. -/
theorem declarationLines_flatMap_declare (model : Model) :
    List.Forall₂ Declares (linesBeginning "f." (model.messages.flatMap (declarationLines model)))
      ((model.messages.flatMap (declarations model)).map (·.key)) := by
  rw [linesBeginning_flatMap, List.map_flatMap]
  have hmessages : List.Forall₂ (· = ·) model.messages model.messages := List.forall₂_refl _
  refine List.rel_flatMap hmessages ?_
  rintro message _ rfl
  dsimp only
  rw [map_key_declarations]
  exact declarationLines_declare model message

/-- **When the keys of the dissector are distinct.** For every model that files are loaded as, if
the fields of each message have different names: the keys of all declarations, of whole fields and
of elements of arrays, are distinct exactly if three coincidences do not happen. Within a message, a
scalar or a text is called like an element of an array; two messages with the same identifier have
items of the same name; the identifier of a message is that of another one continued by an
underscore and more, and an item of the other one is called like this, followed by an underscore and
the name of an item of the first. The declarations are those lines that begin with `f.` out of all
that are printed for the messages, and each of them has its key behind these two characters. -/
theorem keys_nodup_iff_told {scoping : Scoping} {sources : List Source} {model : Model}
    (hload : (Model.load scoping sources).outcome = .ok model)
    (hnames : ∀ message ∈ model.messages, (message.fields.map (·.name)).Nodup) :
    List.Forall₂ Declares (linesBeginning "f." (model.messages.flatMap (declarationLines model)))
      ((model.messages.flatMap (declarations model)).map (·.key)) ∧
    (((model.messages.flatMap (declarations model)).map (·.key)).Nodup ↔ KeysTold model) := by
  refine ⟨declarationLines_flatMap_declare model, ?_⟩
  have hkeys : (model.messages.flatMap (declarations model)).map (·.key) =
      model.messages.flatMap fun message =>
        itemKeys (message.qualified model.scoping) message.fields := by
    rw [List.map_flatMap]
    exact List.flatMap_congr fun message _ => map_key_declarations model message
  -- within one message the identifier is the same, so the rest of the key decides
  have hwithin : ∀ message ∈ model.messages,
      ((itemKeys (message.qualified model.scoping) message.fields).Nodup ↔
        ∀ array ∈ message.fields, ∀ whole ∈ message.fields, ElementsTold array whole) := by
    intro message hmessage
    rw [itemKeys_eq, List.nodup_map_iff fun _ _ h => (String.append_right_inj _).mp h]
    exact nodup_itemNames_iff (hnames message hmessage)
  rw [hkeys, nodup_flatMap_iff (nodup_messages_of_load hload)]
  constructor
  · rintro ⟨hnodup, hdisjoint⟩
    refine ⟨fun message hmessage => (hwithin message hmessage).mp (hnodup message hmessage),
      fun one hone other hother hne => ?_, fun one hone other hother => ?_⟩
    · exact (disjoint_itemKeys_iff.mp (hdisjoint one hone other hother hne)).1
    · by_cases heq : one = other
      · subst heq
        exact continuationTold_self _ _ _
      · exact (disjoint_itemKeys_iff.mp (hdisjoint one hone other hother heq)).2.1
  · rintro ⟨helements, hidentifiers, hcontinuations⟩
    refine ⟨fun message hmessage => (hwithin message hmessage).mpr (helements message hmessage),
      fun one hone other hother hne => disjoint_itemKeys_iff.mpr ?_⟩
    exact ⟨hidentifiers one hone other hother hne, hcontinuations one hone other hother,
      hcontinuations other hother one hone⟩

/-- A definition file with two messages, the second one called like a field of the first. -/
def nestedSource : Source :=
  ⟨"common.xml", "<mavlink><messages><message name='A' id='1'><field name='a' type='int8_t[2]'/>" ++
    "<extensions/><field name='b' type='char'/></message><message name='A_b' id='2'>" ++
    "<field name='c' type='char[9]'/></message></messages></mavlink>"⟩

theorem keysTold_nestedSource :
    ∃ model, (Model.load .separate [nestedSource]).outcome = .ok model ∧
      (∀ message ∈ model.messages, (message.fields.map (·.name)).Nodup) ∧
      (model.messages.flatMap (declarations model)).map (·.key) =
        ["A_a_0", "A_a_1", "A_b", "A_b_c"] ∧
      KeysTold model := by
  have hloaded : ∃ model ∈ (Model.load .separate [nestedSource]).outcome.toOption,
      (∀ message ∈ model.messages, (message.fields.map (·.name)).Nodup) ∧
      (model.messages.flatMap (declarations model)).map (·.key) =
        ["A_a_0", "A_a_1", "A_b", "A_b_c"] := by
    decide +kernel
  obtain ⟨model, hsome, hnames, hkeys⟩ := hloaded
  have hload := Outcome.eq_ok_of_toOption hsome
  refine ⟨model, hload, hnames, hkeys, (keys_nodup_iff_told hload hnames).2.mp ?_⟩
  rw [hkeys]
  decide

/-! ## Identifiers do not rule out coincidences -/

/-- A name is a letter or an underscore, followed by letters, underscores and digits. -/
def IsIdentifier (name : String) : Prop :=
  name.toList.head?.any (fun c => c.isAlpha || c == '_') = true ∧
    name.toList.all (fun c => c.isAlphanum || c == '_') = true

instance (name : String) : Decidable (IsIdentifier name) :=
  inferInstanceAs (Decidable (_ ∧ _))

/-- A definition file with two messages, the second of which is called like the first one with the
front of its field's name. -/
def overlappingSource : Source :=
  ⟨"common.xml", "<mavlink><messages><message name='A' id='1'><field name='B_C' type='char'/>" ++
    "</message><message name='A_B' id='2'><field name='C' type='char'/></message></messages>" ++
    "</mavlink>"⟩

/-- Two declarations are printed for one key, although all names are identifiers and different
within their messages. -/
theorem overlappingSource_repeats_key :
    ∃ model, (Model.load .separate [overlappingSource]).outcome = .ok model ∧
      (∀ group ∈ model.groups, IsIdentifier group.name) ∧
      (∀ message ∈ model.messages, IsIdentifier message.name ∧
        (∀ field ∈ message.fields, IsIdentifier field.name) ∧
        (message.fields.map (·.name)).Nodup) ∧
      linesBeginning "f." (model.messages.flatMap (declarationLines model)) =
        ["f.A_B_C = ProtoField.uint8(\"mavlink_proto.A_B_C\", \"B_C (uint8)\")",
          "f.A_B_C = ProtoField.uint8(\"mavlink_proto.A_B_C\", \"C (uint8)\")"] ∧
      (model.messages.flatMap (declarations model)).map (·.key) = ["A_B_C", "A_B_C"] ∧
      ¬ ((model.messages.flatMap (declarations model)).map (·.key)).Nodup := by
  have hloaded : ∃ model ∈ (Model.load .separate [overlappingSource]).outcome.toOption,
      (∀ group ∈ model.groups, IsIdentifier group.name) ∧
      (∀ message ∈ model.messages, IsIdentifier message.name ∧
        (∀ field ∈ message.fields, IsIdentifier field.name) ∧
        (message.fields.map (·.name)).Nodup) ∧
      linesBeginning "f." (model.messages.flatMap (declarationLines model)) =
        ["f.A_B_C = ProtoField.uint8(\"mavlink_proto.A_B_C\", \"B_C (uint8)\")",
          "f.A_B_C = ProtoField.uint8(\"mavlink_proto.A_B_C\", \"C (uint8)\")"] ∧
      (model.messages.flatMap (declarations model)).map (·.key) = ["A_B_C", "A_B_C"] := by
    decide +kernel
  obtain ⟨model, hsome, hgroups, hmessages, hlines, hkeys⟩ := hloaded
  refine ⟨model, Outcome.eq_ok_of_toOption hsome, hgroups, hmessages, hlines, hkeys, ?_⟩
  rw [hkeys]
  decide

end MavlinkCompiler.Lua
