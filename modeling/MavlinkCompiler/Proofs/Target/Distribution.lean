import MavlinkCompiler.Proofs.Model.Declaration
import MavlinkCompiler.Target.Cpp

/-!
# Every message is emitted once

Several sources can share a scope, so the messages of a scope are gathered from groups that need not
follow one another. The C++ files take the lists that result, once for the enumerations of ids, and
once, with the global list set apart, for the maps of checksum bytes.

* `Model.foldl_extendScope`: the gathered lists, read off the groups.
* `Catalog.Coherent.scopeGroups_eq`: for a coherent catalog the list of a scope is the part of all
  messages that is in the scope.
* `Distributes`: lists that hold each message once, in the list of its effective scope.
* `Cpp.idEnumText`, `Cpp.crcMapText`: how the enumeration of ids and the map of a list are printed.
* `Cpp.opens`: which lines open one of them; no others in the files do.
* `Cpp.Prints`: C++ files with an enumeration for each of some lists and a map for each of others.
* `messages_distributed`: what every session gives, in the model and in the C++ files.
-/

namespace MavlinkCompiler

open Schema (Document)

/-! ## First appearances -/

theorem nodup_eraseDups {α : Type} [BEq α] [LawfulBEq α] (elements : List α) :
    elements.eraseDups.Nodup := by
  induction elements using List.reverseRecOn with
  | nil => exact List.nodup_nil
  | append_singleton front last ih =>
    by_cases hlast : last ∈ front
    · rw [eraseDups_concat_of_mem hlast]
      exact ih
    · rw [eraseDups_concat_of_not_mem hlast]
      refine List.nodup_append.mpr ⟨ih, List.nodup_singleton last, ?_⟩
      rintro first hfirst _ hmem rfl
      exact hlast (List.mem_singleton.mp hmem ▸ List.mem_eraseDups.mp hfirst)

/-! ## Gathering -/

namespace Model

variable {scope : Option String} {messages : List Message} {scopes : List (Option String)}

/-- A new scope comes last. -/
theorem extendScope_of_notMem (found : Option String → List Message) (hscope : scope ∉ scopes) :
    extendScope scope messages (scopes.map fun other => (other, found other)) =
      (scopes.map fun other => (other, found other)) ++ [(scope, messages)] := by
  induction scopes with
  | nil => rfl
  | cons first scopes ih =>
    obtain ⟨hne, hrest⟩ := not_or.mp (mt List.mem_cons.mpr hscope)
    rw [List.map_cons, extendScope, if_neg (Ne.symm hne), ih hrest, List.cons_append]

/-- A known scope has the messages added to its own and stays where it is. -/
theorem extendScope_of_mem (found : Option String → List Message) (hscopes : scopes.Nodup)
    (hscope : scope ∈ scopes) :
    extendScope scope messages (scopes.map fun other => (other, found other)) =
      scopes.map fun other =>
        (other, if other = scope then found other ++ messages else found other) := by
  induction scopes with
  | nil => cases hscope
  | cons first scopes ih =>
    obtain ⟨hfirst, hrest⟩ := List.nodup_cons.mp hscopes
    rw [List.map_cons, List.map_cons, extendScope]
    by_cases heq : first = scope
    · -- the scope has been found, and does not come again
      subst heq
      rw [if_pos rfl, if_pos rfl]
      congr 1
      refine List.map_congr_left fun other hother => ?_
      have hne : other ≠ first := fun heq => hfirst (heq ▸ hother)
      rw [if_neg hne]
    · rw [if_neg heq, if_neg heq, ih hrest ((List.mem_cons.mp hscope).resolve_left (Ne.symm heq))]

/-- Gathering lists the scopes of the groups, as they first appear, each with the messages of its
groups. -/
theorem foldl_extendScope (scopeOf : Group → Option String) (messagesOf : Group → List Message)
    (groups : List Group) :
    groups.foldl (fun scopes group => extendScope (scopeOf group) (messagesOf group) scopes) [] =
      (groups.map scopeOf).eraseDups.map fun scope =>
        (scope, (groups.filter fun group => scopeOf group = scope).flatMap messagesOf) := by
  induction groups using List.reverseRecOn with
  | nil => rfl
  | append_singleton front last ih =>
    rw [List.foldl_append, ih, List.foldl_cons, List.foldl_nil, List.map_append, List.map_singleton]
    by_cases hlast : scopeOf last ∈ front.map scopeOf
    · rw [extendScope_of_mem _ (nodup_eraseDups _) (List.mem_eraseDups.mpr hlast),
        eraseDups_concat_of_mem hlast]
      refine List.map_congr_left fun scope _ => ?_
      by_cases heq : scope = scopeOf last
      · simp [heq]
      · simp [heq, Ne.symm heq]
    · rw [extendScope_of_notMem _ (mt List.mem_eraseDups.mp hlast),
        eraseDups_concat_of_not_mem hlast, List.map_append, List.map_singleton]
      congr 1
      · refine List.map_congr_left fun scope hscope => ?_
        have hne : scopeOf last ≠ scope := fun heq =>
          hlast (heq ▸ List.mem_eraseDups.mp hscope)
        simp [hne]
      · -- no group before the last one is in its scope
        have hnone : (front.filter fun group => scopeOf group = scopeOf last) = [] := by
          refine List.filter_eq_nil_iff.mpr fun group hgroup => ?_
          have hne : scopeOf group ≠ scopeOf last := fun heq =>
            hlast (heq ▸ List.mem_map_of_mem hgroup)
          simpa using hne
        simp [hnone]

end Model

/-- Messages that are listed by groups of their own scope are gathered as the part of all messages
that is in the scope. -/
theorem filter_flatMap_of_scope {scopeOf : Group → Option String}
    {messagesOf : Group → List Message} {messageScope : Message → Option String}
    {groups : List Group}
    (hscope : ∀ group ∈ groups, ∀ message ∈ messagesOf group,
      messageScope message = scopeOf group) (scope : Option String) :
    (groups.filter fun group => scopeOf group = scope).flatMap messagesOf =
      (groups.flatMap messagesOf).filter fun message => messageScope message = scope := by
  induction groups with
  | nil => rfl
  | cons first groups ih =>
    obtain ⟨hfirst, hrest⟩ := List.forall_mem_cons.mp hscope
    rw [List.flatMap_cons, List.filter_append, ← ih hrest]
    by_cases heq : scopeOf first = scope
    · have hall : (messagesOf first).filter (fun message => messageScope message = scope) =
          messagesOf first :=
        List.filter_eq_self.mpr fun message hmessage => by
          simpa [hfirst message hmessage] using heq
      rw [List.filter_cons_of_pos (by simpa using heq), List.flatMap_cons, hall]
    · have hnone : (messagesOf first).filter (fun message => messageScope message = scope) = [] :=
        List.filter_eq_nil_iff.mpr fun message hmessage => by
          simpa [hfirst message hmessage] using heq
      rw [List.filter_cons_of_neg (by simpa using heq), hnone, List.nil_append]

namespace Catalog.Coherent

variable {catalog : Catalog}

/-- The messages of all groups, group by group, are all messages in order. -/
theorem flatMap_messagesOf (h : catalog.Coherent) :
    catalog.groups.flatMap catalog.finish.messagesOf = catalog.messages :=
  h.messages.flatMap_elements

theorem scope_of_mem_messagesOf (h : catalog.Coherent) {group : Group}
    (hgroup : group ∈ catalog.groups) {message : Message}
    (hmessage : message ∈ catalog.finish.messagesOf group) : message.scope = group.scope := by
  obtain ⟨at', hat⟩ := List.mem_iff_getElem?.mp hgroup
  obtain ⟨position, hposition, hfound⟩ := List.mem_filterMap.mp hmessage
  obtain ⟨element, helement, -, hscope⟩ := h.messages.home at' group hat position hposition
  obtain rfl : element = message := Option.some.inj (helement.symm.trans hfound)
  exact hscope

/-- The list of a scope is the part of all messages that is in the scope. -/
theorem scopeGroups_eq (h : catalog.Coherent) :
    catalog.finish.scopeGroups =
      (catalog.groups.map fun group => catalog.scoping.effective group.scope).eraseDups.map
        fun scope => (scope, catalog.messages.filter fun message =>
          catalog.scoping.effective message.scope = scope) := by
  have hscope : ∀ group ∈ catalog.groups, ∀ message ∈ catalog.finish.messagesOf group,
      catalog.scoping.effective message.scope = catalog.scoping.effective group.scope := by
    intro group hgroup message hmessage
    rw [h.scope_of_mem_messagesOf hgroup hmessage]
  rw [Model.scopeGroups, Model.foldl_extendScope]
  refine List.map_congr_left fun scope _ => ?_
  have hlist := filter_flatMap_of_scope hscope scope
  rw [h.flatMap_messagesOf] at hlist
  exact congrArg (Prod.mk scope) hlist

/-- Every message is in the scope of a group. -/
theorem effective_mem (h : catalog.Coherent) : ∀ message ∈ catalog.messages,
    catalog.scoping.effective message.scope ∈
      catalog.groups.map fun group => catalog.scoping.effective group.scope := by
  intro message hmessage
  rw [← h.flatMap_messagesOf] at hmessage
  obtain ⟨group, hgroup, hlisted⟩ := List.mem_flatMap.mp hmessage
  rw [h.scope_of_mem_messagesOf hgroup hlisted]
  exact List.mem_map_of_mem hgroup

theorem nodup_messages (h : catalog.Coherent) : catalog.messages.Nodup :=
  h.messagesById.nodup.of_map

/-- Messages of one effective scope have different names. -/
theorem nodup_names (h : catalog.Coherent) (scope : Option String) :
    ((catalog.messages.filter fun message =>
      catalog.scoping.effective message.scope = scope).map (·.name)).Nodup := by
  refine List.Nodup.of_map (fun name => (QualifiedName.mk scope name).text) ?_
  have hkeys : ((catalog.messages.filter fun message =>
      catalog.scoping.effective message.scope = scope).map catalog.messageKey).Nodup :=
    h.messagesByName.nodup.sublist (List.filter_sublist.map _)
  -- in one scope the written name depends on the name alone
  rw [List.map_map]
  refine (List.map_congr_left fun message hmessage => ?_) ▸ hkeys
  have hscope : catalog.scoping.effective message.scope = scope := by
    simpa using (List.mem_filter.mp hmessage).2
  rw [← hscope]
  rfl

end Catalog.Coherent

/-! ## Distribution -/

/-- Lists by scope that hold each message once, in its own effective scope. -/
structure Distributes (scoping : Scoping) (messages : List Message)
    (lists : List (Option String × List Message)) : Prop where
  /-- No scope has two lists. -/
  distinct : (lists.map (·.1)).Nodup
  /-- The list of a scope has the messages that are in the scope, in their order. -/
  ordered : ∀ list ∈ lists,
    list.2 = messages.filter fun message => scoping.effective message.scope = list.1
  /-- A message is in one list only, that of its effective scope, and there once. -/
  once : ∀ message ∈ messages, ∃ list,
    (lists.filter fun list => message ∈ list.2) = [(scoping.effective message.scope, list)] ∧
      list.count message = 1

/-- A list for each scope of the messages, with the messages that are in the scope. -/
theorem distributes_map {scoping : Scoping} {messages : List Message}
    {scopes : List (Option String)} (hmessages : messages.Nodup) (hscopes : scopes.Nodup)
    (hall : ∀ message ∈ messages, scoping.effective message.scope ∈ scopes) :
    Distributes scoping messages (scopes.map fun scope =>
      (scope, messages.filter fun message => scoping.effective message.scope = scope)) := by
  refine ⟨?_, ?_, fun message hmessage => ?_⟩
  · rw [List.map_map]
    show (scopes.map id).Nodup
    rwa [List.map_id]
  · intro list hlist
    obtain ⟨scope, -, rfl⟩ := List.mem_map.mp hlist
    rfl
  · refine ⟨messages.filter fun other =>
      scoping.effective other.scope = scoping.effective message.scope, ?_, ?_⟩
    · -- a list holds the message exactly if it is the list of its scope
      have hmem : ∀ scope, (message ∈ messages.filter fun other =>
          scoping.effective other.scope = scope) ↔ scope = scoping.effective message.scope := by
        intro scope
        simp [hmessage, eq_comm]
      rw [List.filter_map]
      simp only [Function.comp_def, hmem]
      have hscope : (scopes.filter fun scope => scope = scoping.effective message.scope) =
          [scoping.effective message.scope] := by
        rw [List.filter_eq, List.count_eq_one_of_mem hscopes (hall message hmessage)]
        rfl
      rw [hscope, List.map_singleton]
    · refine List.count_eq_one_of_mem (hmessages.filter _) ?_
      simp [hmessage]

/-! ## The lists of the C++ files -/

namespace Cpp

/-- Setting the global list apart gives the lists of the global scope and of all others. -/
theorem crcMaps_eq {model : Model} {scopes : List (Option String)}
    {found : Option String → List Message} (hscopes : scopes.Nodup)
    (hnone : none ∉ scopes → found none = [])
    (h : model.scopeGroups = scopes.map fun scope => (scope, found scope)) :
    crcMaps model =
      (none :: scopes.filter Option.isSome).map fun scope => (scope, found scope) := by
  have hglobal : ((scopes.map fun scope => (scope, found scope)).filter
      fun group => group.1.isNone).flatMap (·.2) = found none := by
    have hfilter : (scopes.filter fun scope => scope.isNone) =
        List.replicate (scopes.count none) none := by
      rw [← List.filter_eq]
      exact List.filter_congr fun scope _ => by cases scope <;> rfl
    rw [List.filter_map, List.flatMap_map]
    show (scopes.filter fun scope => scope.isNone).flatMap found = found none
    rw [hfilter]
    -- the global scope is there at most once
    by_cases hmem : none ∈ scopes
    · rw [List.count_eq_one_of_mem hscopes hmem]
      exact List.flatMap_singleton found none
    · rw [List.count_eq_zero_of_not_mem hmem, hnone hmem]
      rfl
  unfold crcMaps
  dsimp only
  rw [h, hglobal, List.filter_map, List.map_cons]
  rfl

/-- The enumeration of the ids of some messages in a scope, as it is printed: one constant for each
message, below the message's comment. -/
def idEnumText (list : Option String × List Message) : List String :=
  list.1.elim [] (fun scope => ["namespace " ++ scope ++ " \x7b"]) ++
  ["enum MESSAGE_ID: MESSAGE_ID_TYPE \x7b"] ++
  list.2.flatMap (fun message =>
    message.description.elim [] (blockComment 1) ++
      ["    " ++ message.name ++ " = " ++ toString message.id.toNat ++ ","]) ++
  ["\x7d;"] ++
  list.1.elim [] (fun scope => ["\x7d /* namespace " ++ scope ++ " */"]) ++ [""]

/-- The entry of a message in a map, as it is printed: its id, then the checksum byte and the two
lengths. -/
def crcEntryText (scoping : Scoping) (message : Message) : List String := [
  "\x7b" ++ (scoping.effective message.scope).elim "" (· ++ "::") ++ "MESSAGE_ID::" ++
    message.name ++ ",",
  "    \x7b" ++ toString message.crcExtra.toNat ++ ", " ++ toString message.baseSize ++ ", " ++
    toString message.extendedSize ++ "\x7d\x7d,"]

/-- The class of a scope's map: that of the runtime itself, or an `Extension` under another name. -/
def crcMapClass (scope : Option String) : String :=
  scope.elim "mavlink::Extension" fun scope => "Extension_" ++ scope ++ "_type_helper"

/-- The line that opens a map. -/
def crcMapOpening (scope : Option String) : String :=
  "const std::map<MESSAGE_ID_TYPE, Extra_byte_length_info> " ++ crcMapClass scope ++
    "::crc_extra_bytes_length_map = \x7b"

/-- The map for some messages in a scope, as it is printed. -/
def crcMapText (scoping : Scoping) (list : Option String × List Message) : List String :=
  list.1.elim [] (fun scope =>
    ["using " ++ crcMapClass scope ++ " = ::ugcs::vsm::mavlink::" ++ scope ++ "::Extension;",
      "const " ++ crcMapClass scope ++ " " ++ crcMapClass scope ++ "::instance;"]) ++
  [crcMapOpening list.1] ++ list.2.flatMap (crcEntryText scoping) ++ ["\x7d;", ""]

theorem idLines_eq :
    idLines = fun message => message.description.elim [] (blockComment 1) ++
      ["    " ++ message.name ++ " = " ++ toString message.id.toNat ++ ","] := by
  funext message
  unfold idLines described
  cases message.description <;> rfl

theorem idEnumLines_eq (list : Option String × List Message) :
    idEnumLines list = idEnumText list := by
  obtain ⟨scope, messages⟩ := list
  unfold idEnumLines idEnumText
  rw [idLines_eq]
  cases scope with
  | none => exact (congrArg (· ++ [""]) (List.append_nil _)).symm
  | some scope => simp only [inScope, Option.elim, List.cons_append, List.nil_append,
      List.append_assoc]

theorem crcEntryLines_eq (scoping : Scoping) (message : Message) :
    crcEntryLines scoping message = crcEntryText scoping message := by
  have hqualifier : qualifier (scoping.effective message.scope) =
      (scoping.effective message.scope).elim "" (· ++ "::") := by
    cases scoping.effective message.scope <;> rfl
  unfold crcEntryText
  rw [← hqualifier]
  simp only [crcEntryLines, idConstant, String.append_assoc]
  rfl

theorem crcMapHead_eq (scope : Option String) :
    crcMapHead scope = scope.elim [] (fun scope =>
      ["using " ++ crcMapClass scope ++ " = ::ugcs::vsm::mavlink::" ++ scope ++ "::Extension;",
        "const " ++ crcMapClass scope ++ " " ++ crcMapClass scope ++ "::instance;"]) ++
      [crcMapOpening scope] := by
  have htype : "const " ++ crcMapType ++ " " =
      "const std::map<MESSAGE_ID_TYPE, Extra_byte_length_info> " := by decide
  cases scope with
  | none => decide
  | some scope =>
    unfold crcMapOpening
    rw [← htype]
    rfl

theorem crcMapLines_eq (scoping : Scoping) (list : Option String × List Message) :
    crcMapLines scoping list = crcMapText scoping list := by
  unfold crcMapLines crcMapText
  rw [crcMapHead_eq, show crcEntryLines scoping = crcEntryText scoping from
    funext (crcEntryLines_eq scoping)]

/-! ## Lines that open a list -/

/-- Whether a line opens an enumeration of ids or a map. -/
def opens (line : String) : Bool :=
  "enum MESSAGE_ID: ".toList.isPrefixOf line.toList ||
    "const std::map<".toList.isPrefixOf line.toList

/-- No line of a comment opens anything. -/
theorem filter_opens_blockComment (indent : Nat) (text : String) :
    (blockComment indent text).filter opens = [] := by
  have hmarked : ∀ mark rest : String, mark ∈ ["/**", " *", " */"] →
      opens (padding indent ++ mark ++ rest) = false := by
    intro mark rest hmark
    cases indent with
    | zero =>
      simp only [List.mem_cons, List.not_mem_nil, or_false] at hmark
      rcases hmark with rfl | rfl | rfl <;> simp [opens, padding, List.isPrefixOf]
    | succ indent =>
      simp [opens, padding, Nat.mul_add, List.replicate_succ, List.isPrefixOf]
  rw [List.filter_eq_nil_iff]
  unfold blockComment
  split
  · simp
  next first rest _ =>
    rw [List.forall_mem_append, List.forall_mem_cons, List.forall_mem_map]
    refine ⟨⟨?_, fun line _ => ?_⟩, ?_⟩
    · rw [hmarked _ _ (by simp)]
      simp
    · rw [hmarked _ _ (by simp)]
      simp
    · have hlast := hmarked " */" "" (by simp)
      rw [String.append_empty] at hlast
      simpa using hlast

theorem filter_opens_described (indent : Nat) (description : Option String) :
    (described indent description).filter opens = [] := by
  cases description with
  | none => rfl
  | some text => exact filter_opens_blockComment indent text

/-- A scope around lines opens nothing more. -/
theorem filter_opens_inScope (scope : Option String) (lines : List String) :
    (inScope scope lines).filter opens = lines.filter opens := by
  cases scope with
  | none => rfl
  | some scope => simp [inScope, opens, List.isPrefixOf]

theorem filter_opens_extensionLines (scope : String) :
    (extensionLines scope).filter opens = [] := by
  simp [extensionLines, opens, List.isPrefixOf]

theorem filter_opens_memberLines (field : Field) : (memberLines field).filter opens = [] := by
  simp [memberLines, filter_opens_described, opens, List.isPrefixOf]

theorem filter_opens_structLines (suffix : String) (payload : Payload) :
    (structLines suffix payload).filter opens = [] := by
  have hextension : (extensionMemberLines payload).filter opens = [] := by
    unfold extensionMemberLines
    split
    · simp [filter_opens_blockComment, List.filter_flatMap, filter_opens_memberLines]
    · rfl
  simp [structLines, filter_opens_blockComment, List.filter_flatMap, filter_opens_memberLines,
    hextension, opens, List.isPrefixOf]

theorem filter_opens_messageLines (scoping : Scoping) (message : Message) :
    (messageLines scoping message).filter opens = [] := by
  have htype : ∀ qualified suffix crcExtra,
      (payloadTypeLines qualified suffix crcExtra).filter opens = [] := by
    intro qualified suffix crcExtra
    simp [payloadTypeLines, filter_opens_blockComment, opens, List.isPrefixOf]
  have hmapper : ∀ qualified suffix, (typeMapperLines qualified suffix).filter opens = [] := by
    intro qualified suffix
    simp [typeMapperLines, opens, List.isPrefixOf]
  unfold messageLines
  simp only [List.filter_append, filter_opens_described, filter_opens_inScope,
    filter_opens_structLines, htype, hmapper, List.append_nil]

theorem filter_opens_metadataLines (scoping : Scoping) (message : Message) :
    (metadataLines scoping message).filter opens = [] := by
  have hdescriptors : (message.fields.map descriptorLine).filter opens = [] := by
    rw [List.filter_eq_nil_iff, List.forall_mem_map]
    intro field _
    simp [descriptorLine, opens, List.isPrefixOf]
  have hresets :
      (message.fields.map fun field => "    " ++ field.name ++ ".Reset();").filter opens = [] := by
    rw [List.filter_eq_nil_iff, List.forall_mem_map]
    intro field _
    simp [opens, List.isPrefixOf]
  unfold metadataLines
  simp only [List.filter_append, hdescriptors, hresets]
  simp [opens, List.isPrefixOf]

theorem filter_opens_idEnumText (list : Option String × List Message) :
    (idEnumText list).filter opens = ["enum MESSAGE_ID: MESSAGE_ID_TYPE \x7b"] := by
  have hid : ∀ message : Message, (idLines message).filter opens = [] := by
    intro message
    simp [idLines, filter_opens_described, opens, List.isPrefixOf]
  rw [← idEnumLines_eq, idEnumLines, List.filter_append, filter_opens_inScope, List.filter_append,
    List.filter_append, List.filter_flatMap]
  simp [hid, opens, List.isPrefixOf]

theorem opens_crcMapOpening (scope : Option String) : opens (crcMapOpening scope) = true := by
  show opens ("const std::map<MESSAGE_ID_TYPE, Extra_byte_length_info> " ++ crcMapClass scope ++
    "::crc_extra_bytes_length_map = \x7b") = true
  simp [opens, List.isPrefixOf]

theorem filter_opens_crcMapText (scoping : Scoping) (list : Option String × List Message) :
    (crcMapText scoping list).filter opens = [crcMapOpening list.1] := by
  obtain ⟨scope, messages⟩ := list
  have hentry : ∀ message, (crcEntryText scoping message).filter opens = [] := by
    intro message
    simp [crcEntryText, opens, List.isPrefixOf]
  have halias : ∀ scope : String,
      ["using " ++ crcMapClass (some scope) ++ " = ::ugcs::vsm::mavlink::" ++ scope ++
          "::Extension;",
        "const " ++ crcMapClass (some scope) ++ " " ++ crcMapClass (some scope) ++
          "::instance;"].filter opens = [] := by
    intro scope
    show ["using " ++ ("Extension_" ++ scope ++ "_type_helper") ++ _ ++ scope ++ "::Extension;",
      "const " ++ ("Extension_" ++ scope ++ "_type_helper") ++ " " ++ _ ++ _].filter opens = []
    simp [opens, List.isPrefixOf]
  have hclosing : ["\x7d;", ""].filter opens = [] := by decide
  unfold crcMapText
  simp only [List.filter_append, List.filter_flatMap, hentry, hclosing]
  cases scope with
  | none => simp [opens_crcMapOpening]
  | some scope =>
    dsimp only [Option.elim]
    rw [halias]
    simp [opens_crcMapOpening]

/-- The C++ files of a model have an enumeration of ids for each of some lists of messages, and a
map of checksum bytes for each of others. -/
structure Prints (model : Model) (idEnums crcMaps : List (Option String × List Message)) :
    Prop where
  files : artifacts model = [
    ⟨"include/ugcs/vsm/auto_mavlink_enums.h", String.join ((enumsHeader model).map (· ++ "\n"))⟩,
    ⟨"include/ugcs/vsm/auto_mavlink_messages.h",
      String.join ((messagesHeader model).map (· ++ "\n"))⟩,
    ⟨"auto_mavlink_messages.cpp", String.join ((implementation model).map (· ++ "\n"))⟩]
  /-- The enumerations of ids follow those of the model, to the end of the header. -/
  ids : enumsHeader model =
    blockComment 0 (banner ++ "\n\nEnumerations definitions for MAVLink protocol.") ++
    ["namespace ugcs \x7b", "namespace vsm \x7b", "namespace mavlink \x7b", ""] ++
    model.enums.flatMap (enumLines model.scoping) ++
    blockComment 0 "Mavlink message identifier." ++ idEnums.flatMap idEnumText ++
    ["\x7d /* namespace mavlink */", "\x7d /* namespace vsm */", "\x7d /* namespace ugcs */"]
  /-- The maps come before what is printed message by message. -/
  crcs : implementation model =
    blockComment 0 (banner ++ "\n\nMessages definitions for MAVLink protocol.") ++
    ["", "#include <ugcs/vsm/mavlink.h>", "", "using namespace ugcs::vsm;",
      "using namespace ugcs::vsm::mavlink;", ""] ++
    blockComment 0 "Map values are \x7bcrc_extra, base_length, extended_length\x7d." ++
    crcMaps.flatMap (crcMapText model.scoping) ++
    model.messages.flatMap (metadataLines model.scoping)
  /-- No other line of the files opens an enumeration of ids or a map, unless the model has an
  enumeration that is called like those of ids. -/
  opened : (enumsHeader model ++ messagesHeader model ++ implementation model).filter opens =
    (model.enums.flatMap (enumLines model.scoping)).filter opens ++
    idEnums.map (fun _ => "enum MESSAGE_ID: MESSAGE_ID_TYPE \x7b") ++
    crcMaps.map fun list => crcMapOpening list.1

theorem enumsHeader_eq (model : Model) :
    enumsHeader model =
      blockComment 0 (banner ++ "\n\nEnumerations definitions for MAVLink protocol.") ++
      ["namespace ugcs \x7b", "namespace vsm \x7b", "namespace mavlink \x7b", ""] ++
      model.enums.flatMap (enumLines model.scoping) ++
      blockComment 0 "Mavlink message identifier." ++ model.scopeGroups.flatMap idEnumText ++
      ["\x7d /* namespace mavlink */", "\x7d /* namespace vsm */",
        "\x7d /* namespace ugcs */"] := by
  have hids : model.scopeGroups.flatMap idEnumLines = model.scopeGroups.flatMap idEnumText :=
    List.flatMap_congr fun list _ => idEnumLines_eq list
  unfold enumsHeader inLibrary idEnums
  rw [hids]
  simp only [List.append_assoc]

theorem implementation_eq (model : Model) :
    implementation model =
      blockComment 0 (banner ++ "\n\nMessages definitions for MAVLink protocol.") ++
      ["", "#include <ugcs/vsm/mavlink.h>", "", "using namespace ugcs::vsm;",
        "using namespace ugcs::vsm::mavlink;", ""] ++
      blockComment 0 "Map values are \x7bcrc_extra, base_length, extended_length\x7d." ++
      (crcMaps model).flatMap (crcMapText model.scoping) ++
      model.messages.flatMap (metadataLines model.scoping) := by
  have hcrcs : (crcMaps model).flatMap (crcMapLines model.scoping) =
      (crcMaps model).flatMap (crcMapText model.scoping) :=
    List.flatMap_congr fun list _ => crcMapLines_eq model.scoping list
  unfold implementation
  rw [hcrcs]

theorem filter_opens_messagesHeader (model : Model) : (messagesHeader model).filter opens = [] := by
  unfold messagesHeader inLibrary
  simp [filter_opens_blockComment, List.filter_flatMap, filter_opens_extensionLines,
    filter_opens_messageLines, opens, List.isPrefixOf]

theorem filter_opens_files (model : Model) :
    (enumsHeader model ++ messagesHeader model ++ implementation model).filter opens =
      (model.enums.flatMap (enumLines model.scoping)).filter opens ++
      model.scopeGroups.map (fun _ => "enum MESSAGE_ID: MESSAGE_ID_TYPE \x7b") ++
      (crcMaps model).map fun list => crcMapOpening list.1 := by
  have hids : (model.scopeGroups.flatMap idEnumText).filter opens =
      model.scopeGroups.map fun _ => "enum MESSAGE_ID: MESSAGE_ID_TYPE \x7b" := by
    rw [List.filter_flatMap, List.map_eq_flatMap]
    exact List.flatMap_congr fun list _ => filter_opens_idEnumText list
  have hcrcs : ((crcMaps model).flatMap (crcMapText model.scoping)).filter opens =
      (crcMaps model).map fun list => crcMapOpening list.1 := by
    rw [List.filter_flatMap, List.map_eq_flatMap]
    exact List.flatMap_congr fun list _ => filter_opens_crcMapText model.scoping list
  have hmetadata : (model.messages.flatMap (metadataLines model.scoping)).filter opens = [] := by
    simp [List.filter_flatMap, filter_opens_metadataLines]
  rw [enumsHeader_eq, implementation_eq]
  simp only [List.filter_append, filter_opens_messagesHeader, filter_opens_blockComment, hids,
    hcrcs, hmetadata]
  simp [opens, List.isPrefixOf]

/-- The C++ files have the enumerations of ids and the maps that they should have. -/
theorem prints_artifacts (model : Model) : Prints model model.scopeGroups (crcMaps model) :=
  ⟨by rw [artifacts, unlines, unlines, unlines], enumsHeader_eq model, implementation_eq model,
    filter_opens_files model⟩

end Cpp

/-- **Every message is emitted once, in its own scope.** After every session, whether or not scopes
are merged: the scopes of the groups have one list each, in order of first appearance; every message
is in the list of its effective scope, once, and in no other. The C++ files have an enumeration of
ids for each of these lists, where the constants have different names, and a map of checksum bytes
for each list of another division: the global list comes first, and every other one is that of a
scope. -/
theorem messages_distributed (scoping : Scoping) (documents : List (String × Document)) :
    let model := (Catalog.session scoping documents).finish
    model.scopeGroups.map (·.1) =
      (model.groups.map fun group => scoping.effective group.scope).eraseDups ∧
    Distributes scoping model.messages model.scopeGroups ∧
    (∀ list ∈ model.scopeGroups, (list.2.map (·.name)).Nodup) ∧
    Distributes scoping model.messages (Cpp.crcMaps model) ∧
    (∃ globals others, Cpp.crcMaps model = (none, globals) :: others ∧
      ∀ other ∈ others, other.1.isSome) ∧
    Cpp.Prints model model.scopeGroups (Cpp.crcMaps model) := by
  intro model
  have hcoherent := Catalog.coherent_session scoping documents
  have hgroups := hcoherent.scopeGroups_eq
  have hnames := hcoherent.nodup_names
  have hmem := hcoherent.effective_mem
  rw [Catalog.scoping_session] at hgroups hnames hmem
  have hall : ∀ message ∈ model.messages, scoping.effective message.scope ∈
      (model.groups.map fun group => scoping.effective group.scope).eraseDups :=
    fun message hmessage => List.mem_eraseDups.mpr (hmem message hmessage)
  have hscopes := nodup_eraseDups (model.groups.map fun group => scoping.effective group.scope)
  have hlists : Distributes scoping model.messages model.scopeGroups := by
    rw [hgroups]
    exact distributes_map hcoherent.nodup_messages hscopes hall
  refine ⟨?_, hlists, fun list hlist => ?_, ?_, ⟨_, _, rfl, ?_⟩, Cpp.prints_artifacts model⟩
  · rw [hgroups, List.map_map]
    exact List.map_id _
  · rw [hlists.ordered list hlist]
    exact hnames list.1
  · rw [Cpp.crcMaps_eq hscopes ?_ hgroups]
    · refine distributes_map hcoherent.nodup_messages ?_ fun message hmessage => ?_
      · exact List.nodup_cons.mpr ⟨by simp, hscopes.filter _⟩
      · cases hscope : scoping.effective message.scope with
        | none => exact List.mem_cons_self
        | some scope =>
          have hlisted := hscope ▸ hall message hmessage
          exact List.mem_cons_of_mem _ (List.mem_filter.mpr ⟨hlisted, rfl⟩)
    · intro hnone
      refine List.filter_eq_nil_iff.mpr fun message hmessage => ?_
      have hne : scoping.effective message.scope ≠ none := fun heq =>
        hnone (heq ▸ hall message hmessage)
      simpa using hne
  · intro other hother
    exact (List.mem_filter.mp hother).2

end MavlinkCompiler
