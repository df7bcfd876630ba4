import MavlinkCompiler.Proofs.StableSort
import MavlinkCompiler.Wire.Payload

/-!
# Packed payloads

Packing moves the fields of the base segment and nothing else: no field is lost, no size changes,
and the extension stays where it is.

* `Payload.fields_packed_perm`, `Payload.packed_arranges`: the order of the fields.
* `Payload.baseSize_packed_declared`, `Payload.extendedSize_packed_declared`: the sizes.
* `Payload.baseSize_eq_extendedSize_iff`: an extension takes bytes, because every field does.
-/

namespace MavlinkCompiler

/-! ## Sizes of fields -/

theorem fieldsSize_eq_sum (fields : List Field) :
    fieldsSize fields =
      (fields.map fun field => field.type.scalar.size * field.type.elements).sum := by
  induction fields with
  | nil => rfl
  | cons field fields ih =>
    rw [fieldsSize, ih, List.map_cons, List.sum_cons]
    rfl

theorem fieldsSize_append (front back : List Field) :
    fieldsSize (front ++ back) = fieldsSize front + fieldsSize back := by
  simp only [fieldsSize_eq_sum, List.map_append, List.sum_append]

/-- The order of fields does not count for their size. -/
theorem fieldsSize_perm {one other : List Field} (h : one.Perm other) :
    fieldsSize one = fieldsSize other := by
  rw [fieldsSize_eq_sum, fieldsSize_eq_sum]
  exact (h.map _).sum_eq

theorem fieldsSize_eq_zero_iff {fields : List Field} : fieldsSize fields = 0 ↔ fields = [] := by
  cases fields with
  | nil => exact ⟨fun _ => rfl, fun _ => rfl⟩
  | cons field fields =>
    have hpos : 0 < field.type.wireSize := field.type.wireSize_pos
    constructor
    · intro h
      rw [fieldsSize] at h
      omega
    · nofun

namespace Payload

/-! ## Segments -/

@[simp]
theorem take_fields (payload : Payload) :
    payload.fields.take payload.extensionStart = payload.base :=
  List.take_left

@[simp]
theorem drop_fields (payload : Payload) :
    payload.fields.drop payload.extensionStart = payload.extension :=
  List.drop_left

theorem fields_declared (fields : List Field) (start : Nat) :
    (declared fields start).fields = fields :=
  List.take_append_drop start fields

theorem hasExtension_eq_false_iff {payload : Payload} :
    payload.hasExtension = false ↔ payload.extension = [] := by
  simp [hasExtension]

theorem hasExtension_iff {payload : Payload} :
    payload.hasExtension = true ↔ payload.extensionStart < payload.fields.length := by
  rw [← Bool.not_eq_false, hasExtension_eq_false_iff, ← ne_eq, ← List.length_pos_iff,
    extensionStart, fields, List.length_append]
  omega

/-! ## Packing -/

theorem base_packed_perm (payload : Payload) : payload.packed.base.Perm payload.base :=
  payload.base.mergeSort_perm _

/-- The base segment by descending widths, fields of one width as they were. -/
theorem packed_arranges (payload : Payload) :
    Arranges (·.type.scalar.size) payload.packed.base payload.base :=
  mergeSort_arranges (fun field : Field => field.type.scalar.size) payload.base

/-- A narrow field goes behind a wide one. -/
theorem packed_pair {narrow wide : Field} (extension : List Field)
    (h : narrow.type.scalar.size < wide.type.scalar.size) :
    packed ⟨[narrow, wide], extension⟩ = ⟨[wide, narrow], extension⟩ := by
  simp [packed, List.mergeSort, Nat.not_le.mpr h]

theorem fields_packed_perm (payload : Payload) : payload.packed.fields.Perm payload.fields :=
  payload.base_packed_perm.append_right payload.extension

@[simp]
theorem extensionStart_packed (payload : Payload) :
    payload.packed.extensionStart = payload.extensionStart :=
  payload.base_packed_perm.length_eq

/-! ## Sizes of payloads -/

theorem extendedSize_eq_fieldsSize (payload : Payload) :
    payload.extendedSize = fieldsSize payload.fields :=
  (fieldsSize_append payload.base payload.extension).symm

theorem baseSize_packed_declared (fields : List Field) (start : Nat) :
    (declared fields start).packed.baseSize = fieldsSize (fields.take start) :=
  fieldsSize_perm (declared fields start).base_packed_perm

theorem extendedSize_packed_declared (fields : List Field) (start : Nat) :
    (declared fields start).packed.extendedSize = fieldsSize fields := by
  rw [extendedSize_eq_fieldsSize, fieldsSize_perm (fields_packed_perm _), fields_declared]

theorem baseSize_le_extendedSize (payload : Payload) : payload.baseSize ≤ payload.extendedSize :=
  Nat.le_add_right _ _

theorem baseSize_eq_extendedSize_iff {payload : Payload} :
    payload.baseSize = payload.extendedSize ↔ payload.hasExtension = false := by
  rw [hasExtension_eq_false_iff, ← fieldsSize_eq_zero_iff, extendedSize]
  omega

end Payload

end MavlinkCompiler
