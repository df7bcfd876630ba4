import Mathlib
import MavlinkCompiler.Text.LetterCase

/-!
# Letter case of identifiers

Within the first 128 code points no character becomes several and none looks at its neighbours, so
case conversion works letter by letter. On such texts lower case and capitalization forget the same
thing: which letters were small and which were capitals.

* `lower_of_ascii`: lower case is the letterwise one.
* `capitalize_eq_iff`: capitalized texts are the same exactly if the texts are, but for the case of
  letters.
-/

namespace MavlinkCompiler.Text

/-- Every character of a text is among the first 128 code points. -/
def IsAscii (s : String) : Prop :=
  ∀ c ∈ s.toList, c.toNat < 128

instance (s : String) : Decidable (IsAscii s) :=
  List.decidableBAll (fun c : Char => c.toNat < 128) s.toList

variable {s t : String}

theorem isAscii_append : IsAscii (s ++ t) ↔ IsAscii s ∧ IsAscii t := by
  unfold IsAscii
  rw [String.toList_append]
  exact List.forall_mem_append

theorem lowerFrom_of_ascii {cs : List Char} (h : ∀ c ∈ cs, c.toNat < 128) (before : List Char) :
    lowerFrom before cs = cs.map Char.toLower := by
  induction cs generalizing before with
  | nil => rfl
  | cons c cs ih =>
    obtain ⟨hc, hcs⟩ := List.forall_mem_cons.mp h
    have hsigma : c ≠ 'Σ' := by
      rintro rfl
      exact absurd hc (by decide)
    rw [lowerFrom, if_neg hsigma, lowerChar, if_pos hc, ih hcs, List.map_cons,
      List.singleton_append]

theorem lowerFrom_toList (h : IsAscii s) : lowerFrom [] s.toList = s.toLower.toList :=
  (lowerFrom_of_ascii h []).trans String.toList_map.symm

theorem lower_of_ascii (h : IsAscii s) : lower s = s.toLower := by
  rw [lower, lowerFrom_toList h, String.ofList_toList]

theorem toNat_toLower_lt {c : Char} (h : c.toNat < 128) : c.toLower.toNat < 128 := by
  have hcodes : ∀ code < 128, (Char.ofNat code).toLower.toNat < 128 := by decide
  simpa using hcodes c.toNat h

/-- Lower case undoes that the first letter is raised. -/
theorem toLower_capitalize (h : IsAscii s) : (capitalize s).toLower = s.toLower := by
  rw [← String.toList_inj, String.toLower, String.toLower, String.toList_map, String.toList_map,
    capitalize, lowerFrom_of_ascii h]
  cases hletters : s.toList with
  | nil => simp
  | cons c cs =>
    have hc : c.toNat < 128 := h c (hletters ▸ List.mem_cons_self)
    simp [upperChar, toNat_toLower_lt hc]

theorem capitalize_eq_iff (hs : IsAscii s) (ht : IsAscii t) :
    capitalize s = capitalize t ↔ s.toLower = t.toLower := by
  constructor
  · intro h
    rw [← toLower_capitalize hs, h, toLower_capitalize ht]
  · intro h
    rw [capitalize, lowerFrom_toList hs, h, ← lowerFrom_toList ht]
    rfl

end MavlinkCompiler.Text
