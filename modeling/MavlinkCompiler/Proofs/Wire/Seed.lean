import MavlinkCompiler.Proofs.Text.Split
import MavlinkCompiler.Proofs.Wire.Checksum
import MavlinkCompiler.Wire.Payload

/-!
# Checksum seeds

The checksum byte of a message is that of one sequence of bytes: the message's name, and for each
base field its type, its name and the count of an array, with a blank after each word but not after
the count. The sequence tells the base segment almost always. A count that happens to be the letter
`u` runs into the type that follows it, and a signed type then reads as the unsigned one; where no
such count stands before a signed type, names and fields can be read off.

* `seed`, `crcExtra_eq_folded_seed`: the sequence, and the byte that comes of it.
* `Legible`: no blank in names, no such count before a signed type.
* `count_runs_into_next`: the only way for a count to be taken for a letter.
* `seed_tells_base_segment`: legible names and fields with the same seed are alike.
-/

namespace MavlinkCompiler

/-! ## Bytes of texts -/

/-- The byte of a blank. -/
def blank : UInt8 := 0x20

theorem toList_loop_eq (bytes : ByteArray) (i : Nat) (read : List UInt8) :
    ByteArray.toList.loop bytes i read = read.reverse ++ bytes.data.toList.drop i := by
  fun_induction ByteArray.toList.loop bytes i read with
  | case1 i read hlt ih =>
    have hi : i < bytes.data.toList.length := by simpa using hlt
    have hget : bytes.get! i = bytes.data.toList[i] := by
      simp [ByteArray.get!, hlt]
    rw [ih, List.drop_eq_getElem_cons hi, hget]
    simp
  | case2 i read hge =>
    have hi : bytes.data.toList.length ≤ i := by simpa using hge
    rw [List.drop_eq_nil_of_le hi, List.append_nil]

theorem textBytes_eq_data (text : String) : textBytes text = text.toByteArray.data.toList := by
  rw [textBytes, String.toUTF8_eq_toByteArray, ByteArray.toList, toList_loop_eq]
  rfl

theorem textBytes_injective {one other : String} (h : textBytes one = textBytes other) :
    one = other := by
  rw [textBytes_eq_data, textBytes_eq_data] at h
  exact String.toByteArray_inj.mp (ByteArray.ext (Array.toList_inj.mp h))

/-- The bytes of a text are those of its characters. -/
theorem textBytes_eq_flatMap (text : String) :
    textBytes text = text.toList.flatMap String.utf8EncodeChar := by
  rw [textBytes_eq_data, ← String.utf8Encode_toList, List.utf8Encode,
    List.toList_data_toByteArray]

theorem blank_ne_ofNat {n : Nat} (hn : n < 256) (hne : n ≠ 32) : blank ≠ UInt8.ofNat n := by
  intro h
  have hnat : blank.toNat = n % 256 := (congrArg UInt8.toNat h).trans UInt8.toNat_ofNat'
  have hblank : blank.toNat = 32 := rfl
  omega

/-- The byte of a blank stands for a blank only. -/
theorem eq_of_blank_mem {c : Char} (h : blank ∈ String.utf8EncodeChar c) : c = ' ' := by
  apply Char.ext
  apply UInt32.toNat_inj.mp
  show c.val.toNat = 32
  by_contra hcode
  unfold String.utf8EncodeChar at h
  generalize c.val.toNat = code at h hcode
  dsimp only at h
  -- a single byte is the code itself, and each of several is above all single ones
  split_ifs at h <;> simp only [List.mem_cons, List.not_mem_nil, or_false] at h
  · exact blank_ne_ofNat (by omega) hcode h
  · rcases h with h | h <;> exact blank_ne_ofNat (by omega) (by omega) h
  · rcases h with h | h | h <;> exact blank_ne_ofNat (by omega) (by omega) h
  · rcases h with h | h | h | h <;> exact blank_ne_ofNat (by omega) (by omega) h

theorem blank_not_mem_textBytes {text : String} (h : ' ' ∉ text.toList) :
    blank ∉ textBytes text := by
  rw [textBytes_eq_flatMap, List.mem_flatMap]
  rintro ⟨c, hc, hblank⟩
  rw [eq_of_blank_mem hblank] at hc
  exact h hc

/-! ## Names of types -/

namespace Scalar

/-- The signed integer types. -/
def isSigned : Scalar → Bool
  | int8 | int16 | int32 | int64 => true
  | _ => false

/-- The type without the mark that makes a byte the protocol version. -/
def unmarked : Scalar → Scalar
  | version => uint8
  | s => s

theorem unmarked_eq_of_hashedName_eq {s t : Scalar} (h : s.hashedName = t.hashedName) :
    s.unmarked = t.unmarked := by
  revert h
  cases s <;> cases t <;> decide

theorem blank_not_mem_hashedName (s : Scalar) : blank ∉ textBytes s.hashedName := by
  have hall : ∀ s ∈ all, blank ∉ textBytes s.hashedName := by decide +kernel
  exact hall s s.mem_all

theorem hashedName_bytes_ne_nil (s : Scalar) : textBytes s.hashedName ≠ [] := by
  have hall : ∀ s ∈ all, textBytes s.hashedName ≠ [] := by decide +kernel
  exact hall s s.mem_all

/-- A type's name without its first letter is a type's name only if an unsigned type loses its
`u`. -/
theorem signed_of_hashedName_eq_cons {s t : Scalar} {byte : UInt8}
    (h : textBytes s.hashedName = byte :: textBytes t.hashedName) :
    byte = 117 ∧ t.isSigned = true := by
  have hall : ∀ s ∈ all, ∀ t ∈ all, (textBytes s.hashedName).tail = textBytes t.hashedName →
      (textBytes s.hashedName).head? = some 117 ∧ t.isSigned = true := by
    decide +kernel
  obtain ⟨hbyte, hsigned⟩ := hall s s.mem_all t t.mem_all (by rw [h, List.tail_cons])
  rw [h, List.head?_cons] at hbyte
  exact ⟨Option.some.inj hbyte, hsigned⟩

end Scalar

/-! ## Seeds -/

/-- What a field adds to the seed. -/
def Field.seed (field : Field) : List UInt8 :=
  textBytes field.type.scalar.hashedName ++ blank ::
    (textBytes field.wireName ++ blank :: (field.type.count.map Count.byte).toList)

/-- The seed of a message's name and some of its fields. -/
def seed (wireName : String) (fields : List Field) : List UInt8 :=
  textBytes wireName ++ blank :: fields.flatMap Field.seed

theorem textBytes_blank : textBytes " " = [blank] := by
  decide +kernel

theorem feedField_eq_feedAll (register : Register) (field : Field) :
    register.feedField field = register.feedAll field.seed := by
  have hwords : field.seed = textBytes field.type.scalar.hashedName ++ textBytes " " ++
      textBytes field.wireName ++ textBytes " " ++ (field.type.count.map Count.byte).toList := by
    simp [Field.seed, textBytes_blank]
  simp only [hwords, Register.feedAll_append]
  unfold Register.feedField Register.feedText
  cases field.type.count with
  | none => rfl
  | some count => rfl

theorem foldl_feedField (register : Register) (fields : List Field) :
    fields.foldl Register.feedField register = register.feedAll (fields.flatMap Field.seed) := by
  induction fields generalizing register with
  | nil => rfl
  | cons field fields ih =>
    rw [List.foldl_cons, ih, feedField_eq_feedAll, List.flatMap_cons, Register.feedAll_append]

theorem crcExtra_eq_folded_seed (wireName : String) (fields : List Field) :
    crcExtra wireName fields = (Register.initial.feedAll (seed wireName fields)).folded := by
  have hseed : seed wireName fields =
      textBytes wireName ++ textBytes " " ++ fields.flatMap Field.seed := by
    simp [seed, textBytes_blank]
  rw [crcExtra, foldl_feedField, hseed, Register.feedAll_append, Register.feedAll_append]
  rfl

/-! ## Reading seeds -/

/-- An array whose count is the letter `u`, and a signed type after it. -/
def RunsInto (field next : Field) : Prop :=
  field.type.count.map Count.val = some 117 ∧ next.type.scalar.isSigned = true

/-- No name has a blank in it, and no count runs into the type after it. -/
structure Legible (fields : List Field) : Prop where
  names : ∀ field ∈ fields, ' ' ∉ field.wireName.toList
  counts : fields.IsChain fun field next => ¬ RunsInto field next

instance (field next : Field) : Decidable (RunsInto field next) :=
  inferInstanceAs (Decidable (_ ∧ _))

instance (fields : List Field) : Decidable (Legible fields) :=
  decidable_of_iff (_ ∧ _) ⟨fun h => ⟨h.1, h.2⟩, fun h => ⟨h.names, h.counts⟩⟩

/-- Two fields are the same in a seed. -/
structure Field.Alike (one other : Field) : Prop where
  hashedName : one.type.scalar.hashedName = other.type.scalar.hashedName
  wireName : one.wireName = other.wireName
  count : one.type.count = other.type.count

theorem Legible.tail {field : Field} {fields : List Field} (h : Legible (field :: fields)) :
    Legible fields :=
  ⟨fun other hother => h.names other (List.mem_cons_of_mem _ hother), h.counts.tail⟩

theorem Legible.blank_not_mem {field : Field} {fields : List Field}
    (h : Legible (field :: fields)) : blank ∉ textBytes field.wireName :=
  blank_not_mem_textBytes (h.names field List.mem_cons_self)

theorem Count.toNat_byte (count : Count) : count.byte.toNat = count.val := by
  rw [Count.byte, UInt8.toNat_ofNat']
  exact Nat.mod_eq_of_lt count.lt

theorem Count.byte_injective {one other : Count} (h : one.byte = other.byte) : one = other := by
  have hval : one.val = other.val := by
    rw [← one.toNat_byte, ← other.toNat_byte, h]
  cases one
  cases other
  cases hval
  rfl

theorem flatMap_seed_cons (field : Field) (fields : List Field) :
    (field :: fields).flatMap Field.seed =
      textBytes field.type.scalar.hashedName ++ blank ::
        (textBytes field.wireName ++ blank ::
          ((field.type.count.map Count.byte).toList ++ fields.flatMap Field.seed)) := by
  simp [Field.seed]

/-- A count is taken for the first letter of a type only if it is the letter `u` before a signed
type. -/
theorem count_runs_into_next {count : Count} {fields others : List Field}
    (h : count.byte :: fields.flatMap Field.seed = others.flatMap Field.seed) :
    ∃ next rest, fields = next :: rest ∧ count.val = 117 ∧ next.type.scalar.isSigned = true := by
  cases others with
  | nil => cases h
  | cons other others =>
    rw [flatMap_seed_cons other] at h
    cases hname : textBytes other.type.scalar.hashedName with
    | nil => exact absurd hname other.type.scalar.hashedName_bytes_ne_nil
    | cons letter word =>
      rw [hname] at h
      obtain ⟨hletter, hrest⟩ := List.cons_eq_cons.mp h
      have hword : blank ∉ word := by
        intro hmem
        refine other.type.scalar.blank_not_mem_hashedName ?_
        rw [hname]
        exact List.mem_cons_of_mem letter hmem
      cases fields with
      | nil => simp at hrest
      | cons next rest =>
        -- what follows the letter in the one type is all of the other
        rw [flatMap_seed_cons next] at hrest
        obtain ⟨rfl, -⟩ := Text.append_mark_inj_left
          next.type.scalar.blank_not_mem_hashedName hword hrest
        obtain ⟨hbyte, hsigned⟩ := Scalar.signed_of_hashedName_eq_cons hname
        have hval : count.val = 117 := by
          rw [← count.toNat_byte, hletter, hbyte]
          rfl
        exact ⟨next, rest, rfl, hval, hsigned⟩

/-- No count of legible fields is taken for a letter. -/
theorem Legible.not_count_eq {field : Field} {fields others : List Field} {count : Count}
    (h : Legible (field :: fields)) (hcount : field.type.count = some count) :
    count.byte :: fields.flatMap Field.seed ≠ others.flatMap Field.seed := by
  intro heq
  obtain ⟨next, rest, rfl, hval, hsigned⟩ := count_runs_into_next heq
  refine (List.isChain_cons_cons.mp h.counts).1 ⟨?_, hsigned⟩
  rw [hcount, Option.map_some, hval]

/-- Counts have nothing that ends them, and still can be read off. -/
theorem Legible.counts_eq {field other : Field} {fields others : List Field}
    (hfields : Legible (field :: fields)) (hothers : Legible (other :: others))
    (h : (field.type.count.map Count.byte).toList ++ fields.flatMap Field.seed =
      (other.type.count.map Count.byte).toList ++ others.flatMap Field.seed) :
    field.type.count = other.type.count ∧
      fields.flatMap Field.seed = others.flatMap Field.seed := by
  cases hone : field.type.count with
  | none =>
    cases hother : other.type.count with
    | none =>
      rw [hone, hother] at h
      exact ⟨rfl, h⟩
    | some count =>
      rw [hone, hother] at h
      exact absurd h.symm (hothers.not_count_eq hother)
  | some count =>
    cases hother : other.type.count with
    | none =>
      rw [hone, hother] at h
      exact absurd h (hfields.not_count_eq hone)
    | some count' =>
      rw [hone, hother] at h
      obtain ⟨hbyte, hrest⟩ := List.cons_eq_cons.mp h
      exact ⟨congrArg some (Count.byte_injective hbyte), hrest⟩

/-- Fields after each other can be read off. -/
theorem Legible.alike {fields others : List Field} (hfields : Legible fields)
    (hothers : Legible others) (h : fields.flatMap Field.seed = others.flatMap Field.seed) :
    List.Forall₂ Field.Alike fields others := by
  induction fields generalizing others with
  | nil =>
    cases others with
    | nil => exact .nil
    | cons other others =>
      rw [flatMap_seed_cons] at h
      simp at h
  | cons field fields ih =>
    cases others with
    | nil =>
      rw [flatMap_seed_cons] at h
      simp at h
    | cons other others =>
      rw [flatMap_seed_cons, flatMap_seed_cons] at h
      obtain ⟨htype, hnamed⟩ :=
        Text.append_mark_inj_left field.type.scalar.blank_not_mem_hashedName
          other.type.scalar.blank_not_mem_hashedName h
      obtain ⟨hname, hcounted⟩ :=
        Text.append_mark_inj_left hfields.blank_not_mem hothers.blank_not_mem hnamed
      obtain ⟨hcount, hrest⟩ := hfields.counts_eq hothers hcounted
      exact .cons ⟨textBytes_injective htype, textBytes_injective hname, hcount⟩
        (ih hfields.tail hothers.tail hrest)

/-- The name and the type of a field on the wire, where the version mark does not show. -/
def Field.onWire (field : Field) : String × FieldType :=
  (field.wireName, ⟨field.type.scalar.unmarked, field.type.count⟩)

theorem Field.Alike.onWire_eq {one other : Field} (h : one.Alike other) :
    one.onWire = other.onWire := by
  rw [Field.onWire, Field.onWire, h.wireName, h.count,
    Scalar.unmarked_eq_of_hashedName_eq h.hashedName]

theorem map_onWire_eq {fields others : List Field} (h : List.Forall₂ Field.Alike fields others) :
    fields.map Field.onWire = others.map Field.onWire := by
  rw [← List.forall₂_eq_eq_eq, List.forall₂_map_left_iff, List.forall₂_map_right_iff]
  exact h.imp fun _ _ hfield => hfield.onWire_eq

/-- **The seed tells the base segment.** The checksum byte of a name and fields is that of their
seed, the two bytes of the register in one; and if names without blanks and legible fields have the
same seed, the names are the same and the fields agree one by one on the name of the type, on the
name and on the count, and so on all that the wire shows of them. -/
theorem seed_tells_base_segment :
    (∀ wireName fields,
      crcExtra wireName fields =
        ((⟨0xFFFF⟩ : Register).feedAll (seed wireName fields)).folded) ∧
    (∀ register : Register,
      register.folded.toNat = register.value.toNat % 256 ^^^ register.value.toNat / 256) ∧
    ∀ wireName wireName' fields fields', ' ' ∉ wireName.toList → ' ' ∉ wireName'.toList →
      Legible fields → Legible fields' → seed wireName fields = seed wireName' fields' →
      wireName = wireName' ∧ List.Forall₂ Field.Alike fields fields' ∧
        fields.map Field.onWire = fields'.map Field.onWire := by
  refine ⟨crcExtra_eq_folded_seed, Register.toNat_folded, ?_⟩
  intro wireName wireName' fields fields' hname hname' hfields hfields' hseed
  obtain ⟨hbytes, hrest⟩ := Text.append_mark_inj_left (blank_not_mem_textBytes hname)
    (blank_not_mem_textBytes hname') hseed
  have halike := hfields.alike hfields' hrest
  exact ⟨textBytes_injective hbytes, halike, map_onWire_eq halike⟩

/-- A field with a name and a type only. -/
def Field.plain (name : String) (scalar : Scalar) (count : Option Count) : Field :=
  ⟨name, name, ⟨scalar, count⟩, none, none, none⟩

/-- The checksum byte of a command's acknowledgement. -/
example :
    crcExtra "COMMAND_ACK" [.plain "command" .uint16 none, .plain "result" .uint8 none] = 143 := by
  decide +kernel

/-- The count of an array that is the letter `u`. -/
def letterCount : Count := ⟨117, by decide, by decide⟩

/-- A count that is the letter `u` does no harm before an unsigned type, be it marked or not. -/
theorem letterCount_before_unsigned_tells_base_segment :
    let marked := [Field.plain "data" .uint32 (some letterCount), .plain "number" .version none]
    let unmarked := [Field.plain "data" .uint32 (some letterCount), .plain "number" .uint8 none]
    marked ≠ unmarked ∧ Legible marked ∧ Legible unmarked ∧
      seed "HEARTBEAT" marked = seed "HEARTBEAT" unmarked ∧
      List.Forall₂ Field.Alike marked unmarked ∧
      marked.map Field.onWire = unmarked.map Field.onWire := by
  intro marked unmarked
  have hname : ' ' ∉ "HEARTBEAT".toList := by decide
  have hmarked : Legible marked := by decide
  have hunmarked : Legible unmarked := by decide
  have hseed : seed "HEARTBEAT" marked = seed "HEARTBEAT" unmarked := by decide +kernel
  exact ⟨by decide, hmarked, hunmarked, hseed,
    (seed_tells_base_segment.2.2 _ _ _ _ hname hname hmarked hunmarked hseed).2⟩

/-- Before a signed type it does. -/
example :
    seed "M" [.plain "x" .uint8 (some letterCount), .plain "y" .int8 none] =
      seed "M" [.plain "x" .uint8 none, .plain "y" .uint8 none] := by
  decide +kernel

end MavlinkCompiler
