/-!
# Splitting text

Texts are cut at separator characters in several places: a path at its slashes, a description at its
line feeds, a line at its blanks. All of them are instances of `splitWhere`, which keeps empty
pieces; a caller that does not want them filters them out.

* `splitWhere`: the pieces between the separators, always at least one.
* `intercalate_splitWhere`: with a single separator character nothing else is lost.
* `cutAt?`: the text before and after the first occurrence of a fixed sequence.
-/

namespace MavlinkCompiler.Text

/-! ## Cutting at every separator -/

/-- The pieces of a text between the characters that satisfy `sep`; `n` separators give `n + 1`
pieces. -/
def splitWhere (sep : Char → Bool) : List Char → List (List Char)
  | [] => [[]]
  | c :: cs =>
    if sep c then
      [] :: splitWhere sep cs
    else
      match splitWhere sep cs with
      | [] => [[c]]
      | piece :: pieces => (c :: piece) :: pieces

theorem splitWhere_ne_nil (sep : Char → Bool) : ∀ cs, splitWhere sep cs ≠ []
  | [] => by simp [splitWhere]
  | c :: cs => by
    rw [splitWhere]
    split
    · simp
    · split <;> simp

/-- No piece holds a separator. -/
theorem of_mem_splitWhere {sep : Char → Bool} :
    ∀ {cs piece}, piece ∈ splitWhere sep cs → ∀ c ∈ piece, sep c = false
  | [], piece, h, c, hc => by simp_all [splitWhere]
  | a :: cs, piece, h, c, hc => by
    rw [splitWhere] at h
    split at h
    · rcases List.mem_cons.1 h with rfl | h
      · simp at hc
      · exact of_mem_splitWhere h c hc
    · next ha =>
      have ih : ∀ p ∈ splitWhere sep cs, ∀ c ∈ p, sep c = false :=
        fun p hp => of_mem_splitWhere hp
      cases hs : splitWhere sep cs with
      | nil => exact absurd hs (splitWhere_ne_nil sep cs)
      | cons q qs =>
        rw [hs] at h ih
        rcases List.mem_cons.1 h with rfl | h
        · rcases List.mem_cons.1 hc with rfl | hc
          · simpa using ha
          · exact ih q (by simp) c hc
        · exact ih piece (by simp [h]) c hc

/-- Pieces cut at one character and joined by it give the text back. -/
theorem intercalate_splitWhere (s : Char) :
    ∀ cs, [s].intercalate (splitWhere (· == s) cs) = cs
  | [] => by simp [splitWhere]
  | c :: cs => by
    have ih := intercalate_splitWhere s cs
    rw [splitWhere]
    cases hs : splitWhere (· == s) cs with
    | nil => exact absurd hs (splitWhere_ne_nil _ cs)
    | cons q qs =>
      rw [hs] at ih
      by_cases hc : c = s
      · simp_all [List.intercalate]
      · simp only [beq_iff_eq, hc, if_false]
        cases qs with
        | nil => simp_all [List.intercalate]
        | cons r rs => simp_all [List.intercalate]

/-! ## Cutting at a fixed sequence -/

/-- The text before the first occurrence of `stop` and the text after it. -/
def cutAt? (stop : List Char) : List Char → Option (List Char × List Char)
  | [] => if stop.isEmpty then some ([], []) else none
  | c :: cs =>
    if stop.isPrefixOf (c :: cs) then
      some ([], (c :: cs).drop stop.length)
    else
      match cutAt? stop cs with
      | some (before, after) => some (c :: before, after)
      | none => none

/-- A cut only removes the sequence it was made at. -/
theorem eq_append_of_cutAt? {stop : List Char} :
    ∀ {cs before after}, cutAt? stop cs = some (before, after) → cs = before ++ stop ++ after
  | [], before, after, h => by
    rw [cutAt?] at h
    split at h <;> simp_all
  | c :: cs, before, after, h => by
    rw [cutAt?] at h
    split at h
    · next hp =>
      obtain ⟨t, ht⟩ := List.isPrefixOf_iff_prefix.1 hp
      simp only [Option.some.injEq, Prod.mk.injEq] at h
      obtain ⟨rfl, rfl⟩ := h
      rw [← ht]
      simp
    · split at h
      · next heq =>
        simp only [Option.some.injEq, Prod.mk.injEq] at h
        obtain ⟨rfl, rfl⟩ := h
        simpa using eq_append_of_cutAt? heq
      · simp at h

theorem length_le_of_cutAt? {stop cs before after : List Char}
    (h : cutAt? stop cs = some (before, after)) : after.length ≤ cs.length := by
  rw [eq_append_of_cutAt? h]
  simp only [List.length_append]
  omega

end MavlinkCompiler.Text
