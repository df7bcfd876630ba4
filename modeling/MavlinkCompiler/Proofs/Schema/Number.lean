import MavlinkCompiler.Proofs.Schema.EntryValue
import MavlinkCompiler.Proofs.Text.Trim
import MavlinkCompiler.Schema.Reader

/-!
# Numbers in definition documents

Numbers of a document are read with blanks around them, and the value of an entry in four notations.
Decimal notation goes through all of this unchanged.

* `number_toString`, `entryValue?_toString`: a number in decimal is read again, up to the limits of
  its type.
-/

namespace MavlinkCompiler

namespace Schema

/-- A 32-bit number in decimal is read again. -/
theorem number_toString (quantity : Quantity) (value : UInt32) :
    number quantity (toString value.toNat) = .ok value := by
  unfold number
  rw [Text.trim_toString, Text.unsigned?_toString value.toNat_lt]
  simp

/-- Without the marks of the other notations a number is decimal. -/
theorem entryNumber?_eq_signed64? {cs : List Char}
    (h : ∀ c ∈ cs, c = '-' ∨ c.isDigit = true) : entryNumber? cs = signed64? 10 cs := by
  have hcut : Text.cutAt? powerMark cs = none :=
    Text.cutAt?_eq_none_iff.mpr fun hmark =>
      absurd (h '*' (hmark.subset List.mem_cons_self)) (by decide)
  -- the letter of another notation is neither a sign nor a digit
  have hplain : Unmarked cs := by
    have hletter : ∀ mark ∈ radixMarks, ∃ c ∈ mark.1, ¬ (c = '-' ∨ c.isDigit = true) := by
      simp [radixMarks]
    intro mark hmark hfront
    obtain ⟨c, hc, hother⟩ := hletter mark hmark
    exact hother (h c (hfront.subset hc))
  rw [entryNumber?_of_unmarked hplain, hcut]

/-- A signed 64-bit number in decimal is read again. -/
theorem entryValue?_toString (value : Int64) : entryValue? (toString value.toInt) = some value := by
  have hrange : -(signBound : Int) ≤ value.toInt ∧ value.toInt < signBound :=
    ⟨value.le_toInt, value.toInt_lt⟩
  have hblank : Text.trim (toString value.toInt).toList = (toString value.toInt).toList := by
    refine Text.trim_eq_self fun c hc => ?_
    rcases Text.isDigit_of_mem_toString_int c hc with rfl | hdigit
    · rfl
    · exact Text.isBlank_of_isDigit hdigit
  unfold entryValue?
  rw [hblank, entryNumber?_eq_signed64? Text.isDigit_of_mem_toString_int, signed64?,
    Text.signed?_toString hrange.1 hrange.2, Option.bind_some, int64?, if_pos hrange,
    Int64.ofInt_toInt]

end Schema

end MavlinkCompiler
