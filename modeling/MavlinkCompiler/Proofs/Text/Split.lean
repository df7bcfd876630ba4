import Mathlib
import MavlinkCompiler.Text.Split

/-!
# Where texts are cut

Two ways to take a piece off the front of a text, each said as an equivalence: what the piece and
the rest are, and no mention of how they are found. Before them, what can be told of two lists that
are joined by a mark.

* `append_mark_eq_iff`: what two joined lists say about their parts when they are the same.
* `append_mark_inj_left`, `append_mark_inj_right`: the parts can be told if the mark is in none of
  the first ones, or in none of the second ones.
* `takeWhile_dropWhile_iff`: the longest piece of characters of one kind.
* `cutAt?_eq_some_iff`: the piece before the first occurrence of a mark.
* `cutAt?_eq_some_iff_first`: the same for a mark that may overlap itself, where the piece before a
  later occurrence may be free of the mark too.
-/

namespace MavlinkCompiler.Text

/-! ## Lists joined by a mark -/

section Marks

variable {α : Type} {mark : α} {one other x y : List α}

/-- Joined lists are the same if their parts are, or if one of the marks is within the first part of
the one list and within the second part of the other. -/
theorem append_mark_eq_iff :
    one ++ mark :: x = other ++ mark :: y ↔
      (one = other ∧ x = y) ∨
      (∃ between, other = one ++ mark :: between ∧ x = between ++ mark :: y) ∨
      ∃ between, one = other ++ mark :: between ∧ y = between ++ mark :: x := by
  constructor
  · intro h
    rcases List.append_eq_append_iff.mp h with ⟨between, rfl, hrest⟩ | ⟨between, rfl, hrest⟩
    · cases between with
      | nil => exact .inl ⟨(List.append_nil one).symm, List.tail_eq_of_cons_eq hrest⟩
      | cons first between =>
        obtain ⟨rfl, rfl⟩ := List.cons_eq_cons.mp hrest
        exact .inr (.inl ⟨between, rfl, rfl⟩)
    · cases between with
      | nil => exact .inl ⟨List.append_nil other, (List.tail_eq_of_cons_eq hrest).symm⟩
      | cons first between =>
        obtain ⟨rfl, rfl⟩ := List.cons_eq_cons.mp hrest
        exact .inr (.inr ⟨between, rfl, rfl⟩)
  · rintro (⟨rfl, rfl⟩ | ⟨between, rfl, rfl⟩ | ⟨between, rfl, rfl⟩)
    · rfl
    · rw [List.append_assoc, List.cons_append]
    · rw [List.append_assoc, List.cons_append]

/-- What is in front of the first mark can be read off. -/
theorem append_mark_inj_left (hone : mark ∉ one) (hother : mark ∉ other)
    (h : one ++ mark :: x = other ++ mark :: y) : one = other ∧ x = y := by
  rcases append_mark_eq_iff.mp h with hparts | ⟨between, rfl, -⟩ | ⟨between, rfl, -⟩
  · exact hparts
  · exact absurd (List.mem_append_right _ List.mem_cons_self) hother
  · exact absurd (List.mem_append_right _ List.mem_cons_self) hone

/-- What follows the last mark can be read off. -/
theorem append_mark_inj_right (hx : mark ∉ x) (hy : mark ∉ y)
    (h : one ++ mark :: x = other ++ mark :: y) : one = other ∧ x = y := by
  rcases append_mark_eq_iff.mp h with hparts | ⟨between, -, rfl⟩ | ⟨between, -, rfl⟩
  · exact hparts
  · exact absurd (List.mem_append_right _ List.mem_cons_self) hx
  · exact absurd (List.mem_append_right _ List.mem_cons_self) hy

end Marks

/-! ## Pieces of a text -/

/-- What holds of a first character, said of the first character if there is one. -/
theorem head?_cons_holds {holds : Char → Prop} {c : Char} {cs : List Char} (h : holds c) :
    ∀ d ∈ (c :: cs).head?, holds d := by
  simpa using h

/-- The longest piece of characters of one kind is followed by another character, or by nothing. -/
theorem takeWhile_dropWhile_iff {p : Char → Bool} {cs front rest : List Char} :
    (cs.takeWhile p = front ∧ cs.dropWhile p = rest) ↔
      cs = front ++ rest ∧ (∀ c ∈ front, p c) ∧ ∀ c ∈ rest.head?, p c = false := by
  constructor
  · rintro ⟨rfl, rfl⟩
    refine ⟨List.takeWhile_append_dropWhile.symm, fun c hc => List.mem_takeWhile_imp hc, ?_⟩
    intro c hc
    have hnot := List.head?_dropWhile_not p cs
    rw [Option.mem_def.mp hc] at hnot
    simpa using hnot
  · rintro ⟨rfl, hfront, hrest⟩
    rw [List.takeWhile_append_of_pos hfront, List.dropWhile_append_of_pos hfront]
    cases rest with
    | nil => simp
    | cons c rest => simp [hrest c rfl]

theorem dropWhile_append {p : Char → Bool} {front rest : List Char} (hfront : ∀ c ∈ front, p c)
    (hrest : ∀ c ∈ rest.head?, p c = false) : (front ++ rest).dropWhile p = rest :=
  (takeWhile_dropWhile_iff.mpr ⟨rfl, hfront, hrest⟩).2

theorem takeWhile_append {p : Char → Bool} {front rest : List Char} (hfront : ∀ c ∈ front, p c)
    (hrest : ∀ c ∈ rest.head?, p c = false) : (front ++ rest).takeWhile p = front :=
  (takeWhile_dropWhile_iff.mpr ⟨rfl, hfront, hrest⟩).1

/-! ## Marks -/

/-- A mark that ends in a character found nowhere else in it cannot begin before itself: if it is
at the front of `piece ++ mark ++ rest`, it is at the front of `piece`, or `piece` is empty. -/
theorem mark_prefix_of_append {body : List Char} {last : Char} (hlast : last ∉ body)
    {piece rest : List Char} (hpiece : piece ≠ [])
    (h : body ++ [last] <+: piece ++ (body ++ [last]) ++ rest) : body ++ [last] <+: piece := by
  rw [List.append_assoc] at h
  rcases Nat.lt_or_ge piece.length (body ++ [last]).length with hlt | hge
  · -- the mark would reach into itself, with its last character in its body
    exfalso
    obtain ⟨beyond, hbeyond⟩ : piece <+: body ++ [last] :=
      List.prefix_of_prefix_length_le (List.prefix_append _ _) h (Nat.le_of_lt hlt)
    have hlength : beyond.length ≤ body.length := by
      have := congrArg List.length hbeyond
      have hpos := List.length_pos_iff.mpr hpiece
      simp only [List.length_append, List.length_singleton] at this
      omega
    have hfront : beyond <+: body := by
      rw [← hbeyond] at h
      have hsame := (List.prefix_append_right_inj piece).mp h
      rw [hbeyond, List.append_assoc] at hsame
      exact List.prefix_of_prefix_length_le hsame (List.prefix_append _ _) hlength
    have hend : last ∈ beyond := by
      have hbeyond' : beyond ≠ [] := by
        rintro rfl
        rw [List.append_nil] at hbeyond
        rw [hbeyond] at hlt
        exact Nat.lt_irrefl _ hlt
      have hgetLast := congrArg List.getLast? hbeyond
      rw [List.getLast?_append_of_ne_nil _ hbeyond', List.getLast?_concat] at hgetLast
      exact List.mem_of_getLast? hgetLast
    exact hlast (hfront.subset hend)
  · exact List.prefix_of_prefix_length_le h (List.prefix_append _ _) hge

/-- A text is cut at the first place where the mark is. -/
theorem cutAt?_eq_some_iff {body : List Char} {last : Char} (hlast : last ∉ body)
    {cs before after : List Char} :
    cutAt? (body ++ [last]) cs = some (before, after) ↔
      cs = before ++ (body ++ [last]) ++ after ∧ ¬ body ++ [last] <:+: before := by
  constructor
  · intro h
    -- no earlier place: each one passed over was tested and did not have the mark
    refine ⟨eq_append_of_cutAt? h, ?_⟩
    induction cs generalizing before with
    | nil =>
      rw [cutAt?] at h
      simp at h
    | cons c cs ih =>
      rw [cutAt?] at h
      split at h
      · cases h
        simp
      next hnot =>
      split at h
      · next first rest hrest =>
        cases h
        rw [List.infix_cons_iff]
        rintro (hfront | hinside)
        · refine hnot (List.isPrefixOf_iff_prefix.mpr (hfront.trans ?_))
          rw [eq_append_of_cutAt? hrest]
          simp
        · exact ih hrest hinside
      · cases h
  · rintro ⟨rfl, hfree⟩
    induction before with
    | nil =>
      have hfront : (body ++ [last]).isPrefixOf ([] ++ (body ++ [last]) ++ after) = true :=
        List.isPrefixOf_iff_prefix.mpr (by simp)
      cases hcs : [] ++ (body ++ [last]) ++ after with
      | nil => simp at hcs
      | cons c cs =>
        rw [cutAt?, ← hcs, if_pos hfront]
        simp
    | cons c before ih =>
      rw [List.infix_cons_iff, not_or] at hfree
      -- the mark is not found early, not even with its front part inside the piece
      have hnot : ¬ (body ++ [last]).isPrefixOf (c :: before ++ (body ++ [last]) ++ after) = true :=
        fun h => hfree.1 (mark_prefix_of_append hlast (List.cons_ne_nil _ _)
          (List.isPrefixOf_iff_prefix.mp h))
      simp only [List.cons_append] at hnot ⊢
      rw [cutAt?, if_neg hnot, ih hfree.2]

/-- A text is not cut if the mark is nowhere in it. -/
theorem cutAt?_eq_none_iff {mark cs : List Char} : cutAt? mark cs = none ↔ ¬ mark <:+: cs := by
  induction cs with
  | nil => simp [cutAt?]
  | cons c cs ih =>
    rw [cutAt?, List.infix_cons_iff, not_or, ← ih, ← List.isPrefixOf_iff_prefix]
    by_cases hfront : mark.isPrefixOf (c :: cs) = true
    · simp [hfront]
    · cases hrest : cutAt? mark cs <;> simp [hfront]

/-- No occurrence of the mark comes before the one that a text is cut at. -/
theorem length_le_of_cutAt?_eq_some {mark cs before after : List Char}
    (h : cutAt? mark cs = some (before, after)) :
    ∀ earlier rest, cs = earlier ++ mark ++ rest → before.length ≤ earlier.length := by
  induction cs generalizing before with
  | nil =>
    intro earlier rest _
    have hbefore := eq_append_of_cutAt? h
    simp only [List.nil_eq, List.append_eq_nil_iff] at hbefore
    simp [hbefore.1.1]
  | cons c cs ih =>
    intro earlier rest hearlier
    rw [cutAt?] at h
    split at h
    · cases h
      exact Nat.zero_le _
    next hnot =>
    split at h
    · next first found hfound =>
      cases h
      cases earlier with
      | nil =>
        -- the mark at the very front was tested for
        refine absurd (List.isPrefixOf_iff_prefix.mpr ?_) hnot
        rw [hearlier, List.nil_append]
        exact List.prefix_append _ _
      | cons d earlier =>
        obtain ⟨-, hcs⟩ := List.cons_eq_cons.mp hearlier
        exact Nat.succ_le_succ (ih hfound earlier rest hcs)
    · cases h

/-- A text is cut at the first occurrence of the mark, also if occurrences overlap. -/
theorem cutAt?_eq_some_iff_first {mark cs before after : List Char} :
    cutAt? mark cs = some (before, after) ↔
      cs = before ++ mark ++ after ∧
        ∀ earlier rest, cs = earlier ++ mark ++ rest → before.length ≤ earlier.length := by
  constructor
  · exact fun h => ⟨eq_append_of_cutAt? h, length_le_of_cutAt?_eq_some h⟩
  · rintro ⟨hcs, hfirst⟩
    cases hcut : cutAt? mark cs with
    | none => exact absurd ⟨before, after, hcs.symm⟩ (cutAt?_eq_none_iff.mp hcut)
    | some parts =>
      -- two first occurrences are at one place
      obtain ⟨before', after'⟩ := parts
      have hcs' := eq_append_of_cutAt? hcut
      have hlength : before'.length = before.length :=
        Nat.le_antisymm (length_le_of_cutAt?_eq_some hcut before after hcs)
          (hfirst before' after' hcs')
      rw [hcs', List.append_assoc, List.append_assoc] at hcs
      obtain ⟨rfl, hrest⟩ := List.append_inj hcs hlength
      rw [List.append_cancel_left hrest]

end MavlinkCompiler.Text
