import MavlinkCompiler.Proofs.Wire.Payload
import MavlinkCompiler.Target.Lua.Dissector

/-!
# The dissector covers the payload

A dissector declares the items of a message in one place and reads them from the payload in another,
with offsets that it counts up item by item. The sizes of the payload come from the layout of the
fields. Here the three are brought together, on the lines that are printed.

* `linesBeginning`: the lines that begin with a text, out of those that are printed.
* `Tiles`: ranges that lie end to end without gaps, from one offset to another.
* `sum_items`, `totalSize_keyedSizes`: the items of a field, and of several, take the bytes of the
  fields.
* `declarationLines_declare`: the lines that declare items, one for each.
* `Dissected`: what is read is what is declared, and the ranges tile the payload.
* `message_dissected`: so it is for every message of every model, and it is all printed.
-/

namespace MavlinkCompiler.Lua

/-! ## Ranges end to end -/

/-- Ranges from one offset to another: none is empty, and each begins where the one before it
ends. -/
def Tiles : Nat → List Range → Nat → Prop
  | start, [], stop => start = stop
  | start, range :: rest, stop =>
    range.offset = start ∧ 0 < range.size ∧ Tiles (range.offset + range.size) rest stop

theorem Tiles.append {start middle stop : Nat} {front back : List Range}
    (hfront : Tiles start front middle) (hback : Tiles middle back stop) :
    Tiles start (front ++ back) stop := by
  induction front generalizing start with
  | nil =>
    obtain rfl : start = middle := hfront
    exact hback
  | cons range front ih =>
    obtain ⟨hoffset, hsize, hrest⟩ := hfront
    exact ⟨hoffset, hsize, ih hrest⟩

/-- Bytes of keyed sizes. -/
def totalSize (sizes : List (String × Nat)) : Nat :=
  (sizes.map (·.2)).sum

theorem totalSize_cons (key : String) (size : Nat) (rest : List (String × Nat)) :
    totalSize ((key, size) :: rest) = size + totalSize rest := by
  rw [totalSize, List.map_cons, List.sum_cons, totalSize]

theorem layRanges_append (offset : Nat) (front back : List (String × Nat)) :
    layRanges offset (front ++ back) =
      layRanges offset front ++ layRanges (offset + totalSize front) back := by
  induction front generalizing offset with
  | nil => rfl
  | cons first front ih =>
    obtain ⟨key, size⟩ := first
    rw [totalSize_cons, ← Nat.add_assoc, List.cons_append, layRanges, layRanges, ih,
      List.cons_append]

theorem map_key_layRanges (offset : Nat) (sizes : List (String × Nat)) :
    (layRanges offset sizes).map (·.key) = sizes.map (·.1) := by
  induction sizes generalizing offset with
  | nil => rfl
  | cons first sizes ih =>
    rw [layRanges, List.map_cons, List.map_cons, ih]

/-- Ranges that are laid end to end tile the bytes that they take together. -/
theorem tiles_layRanges {sizes : List (String × Nat)} (hpos : ∀ keyed ∈ sizes, 0 < keyed.2)
    (offset : Nat) : Tiles offset (layRanges offset sizes) (offset + totalSize sizes) := by
  induction sizes generalizing offset with
  | nil => rfl
  | cons first sizes ih =>
    obtain ⟨key, size⟩ := first
    obtain ⟨hfirst, hrest⟩ := List.forall_mem_cons.mp hpos
    rw [totalSize_cons, ← Nat.add_assoc]
    exact ⟨rfl, hfirst, ih hrest (offset + size)⟩

/-! ## Items -/

/-- The items of a field take its bytes. -/
theorem sum_items (type : FieldType) : ((items type).map (·.size)).sum = type.wireSize := by
  unfold items
  split
  · exact List.sum_singleton
  · -- one item for each element
    rw [List.map_map, FieldType.wireSize, Nat.mul_comm]
    show ((List.range type.elements).map fun _ => type.scalar.size).sum = _
    rw [List.map_const', List.length_range, List.sum_replicate, smul_eq_mul]

theorem size_pos_of_mem_items {type : FieldType} {item : Item} (h : item ∈ items type) :
    0 < item.size := by
  unfold items at h
  split at h
  · rw [List.mem_singleton.mp h]
    exact type.wireSize_pos
  · obtain ⟨i, -, rfl⟩ := List.mem_map.mp h
    exact type.scalar.size_pos

theorem size_pos_of_mem_keyedSizes (message : QualifiedName) (fields : List Field) :
    ∀ keyed ∈ keyedSizes message fields, 0 < keyed.2 := by
  intro keyed hkeyed
  obtain ⟨field, -, hfield⟩ := List.mem_flatMap.mp hkeyed
  obtain ⟨item, hitem, rfl⟩ := List.mem_map.mp hfield
  exact size_pos_of_mem_items hitem

/-- The items of fields take the bytes of the fields. -/
theorem totalSize_keyedSizes (message : QualifiedName) (fields : List Field) :
    totalSize (keyedSizes message fields) = fieldsSize fields := by
  induction fields with
  | nil => rfl
  | cons field fields ih =>
    have hfield : totalSize ((items field.type).map fun item =>
        (itemKey message field item, item.size)) = field.type.wireSize := by
      rw [totalSize, List.map_map]
      exact sum_items field.type
    rw [fieldsSize, ← ih, ← hfield, totalSize, totalSize, totalSize, keyedSizes,
      List.flatMap_cons, List.map_append, List.sum_append]
    rfl

/-- The keys of the items of some fields of a message. -/
def itemKeys (message : QualifiedName) (fields : List Field) : List String :=
  fields.flatMap fun field => (items field.type).map (itemKey message field)

theorem map_fst_keyedSizes (message : QualifiedName) (fields : List Field) :
    (keyedSizes message fields).map (·.1) = itemKeys message fields := by
  unfold keyedSizes itemKeys
  rw [List.map_flatMap]
  simp only [List.map_map]
  rfl

theorem map_key_declarations (model : Model) (message : Message) :
    (declarations model message).map (·.key) =
      itemKeys (message.qualified model.scoping) message.fields := by
  unfold declarations fieldDeclarations itemKeys
  rw [List.map_flatMap]
  simp only [List.map_map]
  rfl

/-! ## Printed lines -/

/-- The lines that begin with a text. -/
def linesBeginning (start : String) (lines : List String) : List String :=
  lines.filter fun line => start.toList.isPrefixOf line.toList

/-- A line that declares an item under a key. -/
def Declares (line key : String) : Prop :=
  ∃ rest, line = "f." ++ key ++ " = ProtoField." ++ rest

/-- A line that reads the bytes of a range under its key. -/
def Reads (line : String) (range : Range) : Prop :=
  line = "    tree:add_le(f." ++ range.key ++ ", payload(" ++ toString range.offset ++ ", " ++
    toString range.size ++ "))"

theorem linesBeginning_append (start : String) (front back : List String) :
    linesBeginning start (front ++ back) =
      linesBeginning start front ++ linesBeginning start back :=
  List.filter_append ..

theorem linesBeginning_flatMap {α : Type} (start : String) (list : List α)
    (lines : α → List String) :
    linesBeginning start (list.flatMap lines) =
      list.flatMap fun a => linesBeginning start (lines a) :=
  List.filter_flatMap ..

/-- No line of a comment is taken for a declaration. -/
theorem linesBeginning_markedComment (text : String) :
    linesBeginning "f." (markedComment "--" 0 text) = [] := by
  rw [linesBeginning, List.filter_eq_nil_iff]
  intro line hline
  obtain ⟨body, -, rfl⟩ := List.mem_map.mp hline
  simp [padding]

theorem Declaration.declares_line (declaration : Declaration) :
    Declares declaration.line declaration.key := by
  unfold Declares line
  simp only [String.append_assoc]
  exact ⟨_, rfl⟩

theorem linesBeginning_declarations (declarations : List Declaration) :
    linesBeginning "f." (declarations.map Declaration.line) =
      declarations.map Declaration.line := by
  rw [linesBeginning, List.filter_eq_self]
  intro line hline
  obtain ⟨declaration, -, rfl⟩ := List.mem_map.mp hline
  obtain ⟨rest, hdeclares⟩ := declaration.declares_line
  rw [hdeclares]
  simp

theorem linesBeginning_ranges (ranges : List Range) :
    linesBeginning "    tree:add_le(" (ranges.map Range.line) = ranges.map Range.line := by
  rw [linesBeginning, List.filter_eq_self]
  intro line hline
  obtain ⟨range, -, rfl⟩ := List.mem_map.mp hline
  show "    tree:add_le(".toList.isPrefixOf ("    tree:add_le(f." ++ range.key ++ ", payload(" ++
    toString range.offset ++ ", " ++ toString range.size ++ "))").toList = true
  simp

theorem linesBeginning_declarationLines (model : Model) (message : Message) :
    linesBeginning "f." (declarationLines model message) =
      (declarations model message).map Declaration.line := by
  unfold declarationLines
  rw [linesBeginning_append, linesBeginning_append, linesBeginning_declarations]
  cases message.description with
  | none => exact List.append_nil _
  | some text =>
    dsimp only
    rw [linesBeginning_markedComment]
    exact List.append_nil _

/-- Of the lines printed for the declarations of a message, one declares each item, in order. -/
theorem declarationLines_declare (model : Model) (message : Message) :
    List.Forall₂ Declares (linesBeginning "f." (declarationLines model message))
      (itemKeys (message.qualified model.scoping) message.fields) := by
  rw [linesBeginning_declarationLines, ← map_key_declarations, List.forall₂_map_left_iff,
    List.forall₂_map_right_iff, List.forall₂_same]
  exact fun declaration _ => declaration.declares_line

/-! ## Messages -/

/-- What a dissector reads of a message is what it declares, and covers the payload. -/
structure Dissected (model : Model) (message : Message) : Prop where
  /-- The lines that declare items are as many as the ranges, and the n-th one has the key of the
  n-th range. -/
  declared : List.Forall₂ Declares (linesBeginning "f." (declarationLines model message))
    ((ranges model.scoping message).map (·.key))
  /-- Items are read in the order of their declarations, all of them and no others. -/
  keys : (ranges model.scoping message).map (·.key) = (declarations model message).map (·.key)
  /-- The ranges lie end to end, from the first byte of the payload to its last. -/
  tiled : Tiles 0 (ranges model.scoping message) message.extendedSize
  /-- Those of the base fields come first, and end where the base segment does. -/
  base : ∃ base extension, ranges model.scoping message = base ++ extension ∧
    base.map (·.key) = itemKeys (message.qualified model.scoping) message.payload.base ∧
    Tiles 0 base message.baseSize ∧ Tiles message.baseSize extension message.extendedSize
  /-- What is printed to read the payload. Each range has a line, after a line that takes the bytes
  of the payload; if there is nothing to read, there are none. -/
  lines : dissectorLines model.scoping message =
    ["-- dissect payload of message type " ++ (message.qualified model.scoping).text,
      "payload_dissectors[" ++ toString message.id.toNat ++
        "] = function(buffer, tree, offset, len)",
      "    check_payload_length(tree, len, " ++ toString message.baseSize ++ ", " ++
        toString message.extendedSize ++ ")"] ++
    (if message.fields = [] then [] else
      ["    local payload = payload_tvb(buffer, offset, len, " ++
        toString message.extendedSize ++ ")"]) ++
    (ranges model.scoping message).map Range.line ++ ["end", ""]
  /-- So the lines that read are as many as the ranges, and the n-th one reads the n-th range. -/
  read : List.Forall₂ Reads
    (linesBeginning "    tree:add_le(" (dissectorLines model.scoping message))
    (ranges model.scoping message)
  /-- A payload without bytes is that of a message without fields. -/
  empty : message.extendedSize = 0 → message.fields = []

theorem ranges_eq (scoping : Scoping) (message : Message) :
    ranges scoping message =
      layRanges 0 (keyedSizes (message.qualified scoping) message.payload.base) ++
        layRanges message.baseSize
          (keyedSizes (message.qualified scoping) message.payload.extension) := by
  have hsizes : keyedSizes (message.qualified scoping) message.fields =
      keyedSizes (message.qualified scoping) message.payload.base ++
        keyedSizes (message.qualified scoping) message.payload.extension :=
    List.flatMap_append
  rw [ranges, hsizes, layRanges_append, totalSize_keyedSizes, Nat.zero_add]
  rfl

theorem extendedSize_eq_zero_iff {message : Message} :
    message.extendedSize = 0 ↔ message.fields = [] := by
  rw [Message.extendedSize, Payload.extendedSize_eq_fieldsSize, fieldsSize_eq_zero_iff]
  rfl

/-- What is printed to read a payload. -/
theorem dissectorLines_eq (scoping : Scoping) (message : Message) :
    dissectorLines scoping message =
      ["-- dissect payload of message type " ++ (message.qualified scoping).text,
        "payload_dissectors[" ++ toString message.id.toNat ++
          "] = function(buffer, tree, offset, len)",
        "    check_payload_length(tree, len, " ++ toString message.baseSize ++ ", " ++
          toString message.extendedSize ++ ")"] ++
      (if message.fields = [] then [] else
        ["    local payload = payload_tvb(buffer, offset, len, " ++
          toString message.extendedSize ++ ")"]) ++
      (ranges scoping message).map Range.line ++ ["end", ""] := by
  unfold dissectorLines readingLines
  by_cases hfields : message.fields = []
  · -- without fields there are neither bytes nor ranges
    have hsize : message.extendedSize = 0 := extendedSize_eq_zero_iff.mpr hfields
    rw [if_pos hfields, if_neg (by omega), ranges, hfields]
    rfl
  · have hsize : message.extendedSize ≠ 0 := fun hzero =>
      hfields (extendedSize_eq_zero_iff.mp hzero)
    rw [if_neg hfields, if_pos (Nat.pos_of_ne_zero hsize)]
    rfl

/-- Of the lines printed for a payload, one reads each range, in order. -/
theorem dissectorLines_read (scoping : Scoping) (message : Message) :
    List.Forall₂ Reads (linesBeginning "    tree:add_le(" (dissectorLines scoping message))
      (ranges scoping message) := by
  have hlines : linesBeginning "    tree:add_le(" (dissectorLines scoping message) =
      (ranges scoping message).map Range.line := by
    rw [dissectorLines_eq, linesBeginning_append, linesBeginning_append, linesBeginning_append,
      linesBeginning_ranges]
    -- none of the lines around them begins like this
    split <;> simp [linesBeginning]
  rw [hlines, List.forall₂_map_left_iff, List.forall₂_same]
  exact fun range _ => rfl

/-- **The dissector tiles the payload.** For every message of every model: the items are read in the
order in which they are declared; their ranges start at the first byte, each begins where the one
before it ends, those of the base fields end with the base segment, and the last one ends with the
payload. Nothing is read only if the message has no fields. All declarations and then all readings
are printed in the file. -/
theorem message_dissected (model : Model) :
    (∀ message, Dissected model message) ∧
    artifacts model = [⟨"auto_mavlink_dissector.lua", String.join
      ((markedComment "--" 0 introduction ++ protocolLines ++ nameTableLines model ++
        model.enums.flatMap (enumTableLines model.scoping) ++ headerLines ++ [""] ++
        model.messages.flatMap (declarationLines model) ++
        ["local payload_dissectors = \x7b\x7d", ""] ++
        model.messages.flatMap (dissectorLines model.scoping) ++
        dispatcherLines ++ portLines).map (· ++ "\n"))⟩] := by
  refine ⟨fun message => ?_, by rw [artifacts, unlines, fileLines]⟩
  have hbase : Tiles 0 (layRanges 0 (keyedSizes (message.qualified model.scoping)
      message.payload.base)) message.baseSize := by
    have htiles := tiles_layRanges (size_pos_of_mem_keyedSizes
      (message.qualified model.scoping) message.payload.base) 0
    rwa [totalSize_keyedSizes, Nat.zero_add] at htiles
  have hextension : Tiles message.baseSize (layRanges message.baseSize
      (keyedSizes (message.qualified model.scoping) message.payload.extension))
      message.extendedSize := by
    have htiles := tiles_layRanges (size_pos_of_mem_keyedSizes
      (message.qualified model.scoping) message.payload.extension) message.baseSize
    rwa [totalSize_keyedSizes] at htiles
  have hkeys : (ranges model.scoping message).map (·.key) =
      itemKeys (message.qualified model.scoping) message.fields := by
    rw [ranges, map_key_layRanges, map_fst_keyedSizes]
  refine ⟨?_, ?_, ?_, ?_, dissectorLines_eq _ _, dissectorLines_read _ _,
    extendedSize_eq_zero_iff.mp⟩
  · rw [hkeys]
    exact declarationLines_declare model message
  · rw [hkeys, map_key_declarations]
  · rw [ranges_eq]
    exact hbase.append hextension
  · refine ⟨_, _, ranges_eq model.scoping message, ?_, hbase, hextension⟩
    rw [map_key_layRanges, map_fst_keyedSizes]

end MavlinkCompiler.Lua
