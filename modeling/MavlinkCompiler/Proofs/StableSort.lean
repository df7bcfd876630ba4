import Mathlib

/-!
# What stable sorting gives

A list sorted by descending keys in which the elements of each key stand as they stood. There is
only one such list, so this says all about the result.

* `Arranges`: a list is the other one, sorted so.
* `mergeSort_arranges`: the list that is sorted by merging is.
* `Arranges.unique`: no other one is.
-/

namespace MavlinkCompiler

variable {α : Type}

/-- The elements of a list by descending keys, those of each key in the order given. -/
structure Arranges (key : α → Nat) (arranged given : List α) : Prop where
  descending : arranged.Pairwise fun a b => key b ≤ key a
  stable : ∀ k, arranged.filter (key · = k) = given.filter (key · = k)

theorem mergeSort_arranges (key : α → Nat) (as : List α) :
    Arranges key (as.mergeSort fun a b => key b ≤ key a) as := by
  have htrans : ∀ a b c, decide (key b ≤ key a) = true → decide (key c ≤ key b) = true →
      decide (key c ≤ key a) = true := by
    simp only [decide_eq_true_eq]
    omega
  have htotal : ∀ a b, (decide (key b ≤ key a) || decide (key a ≤ key b)) = true := by
    simp only [Bool.or_eq_true, decide_eq_true_eq]
    omega
  refine ⟨(List.pairwise_mergeSort htrans htotal as).imp of_decide_eq_true, fun k => ?_⟩
  -- the elements of one key are in order before the sort, which keeps such elements in order
  have hordered : (as.filter (key · = k)).Pairwise fun a b => decide (key b ≤ key a) = true := by
    refine List.pairwise_filter.mpr (List.pairwise_of_forall fun a b ha hb => ?_)
    simp only [decide_eq_true_eq] at ha hb ⊢
    omega
  have hsublist : (as.filter (key · = k)).Sublist
      ((as.mergeSort fun a b => key b ≤ key a).filter (key · = k)) := by
    simpa using (List.sublist_mergeSort htrans htotal hordered List.filter_sublist).filter
      (key · = k)
  exact (hsublist.eq_of_length ((List.mergeSort_perm as _).filter _).length_eq.symm).symm

/-! ## Only one list -/

/-- The first element of a descending list has the largest key. -/
theorem key_le_head {key : α → Nat} {b : α} {bs : List α}
    (h : (b :: bs).Pairwise fun a b => key b ≤ key a) {a : α} (ha : a ∈ b :: bs) :
    key a ≤ key b := by
  rcases List.mem_cons.mp ha with rfl | ha
  · exact Nat.le_refl _
  · exact (List.pairwise_cons.mp h).1 a ha

theorem mem_of_filter_eq {key : α → Nat} {as bs : List α}
    (h : ∀ k, as.filter (key · = k) = bs.filter (key · = k)) {a : α} (ha : a ∈ as) : a ∈ bs := by
  have hmem : a ∈ as.filter (key · = key a) := List.mem_filter.mpr ⟨ha, decide_eq_true rfl⟩
  rw [h (key a)] at hmem
  exact List.mem_of_mem_filter hmem

/-- Descending lists with the same elements of each key are the same. -/
theorem eq_of_filter_eq {key : α → Nat} {as bs : List α}
    (has : as.Pairwise fun a b => key b ≤ key a) (hbs : bs.Pairwise fun a b => key b ≤ key a)
    (h : ∀ k, as.filter (key · = k) = bs.filter (key · = k)) : as = bs := by
  induction as generalizing bs with
  | nil =>
    cases bs with
    | nil => rfl
    | cons b bs => cases mem_of_filter_eq (fun k => (h k).symm) (List.mem_cons_self (a := b))
  | cons a as ih =>
    cases bs with
    | nil => cases mem_of_filter_eq h (List.mem_cons_self (a := a))
    | cons b bs =>
      -- both first elements have the largest key there is, and the first of that key is the same
      have hle : key a ≤ key b := key_le_head hbs (mem_of_filter_eq h List.mem_cons_self)
      have hge : key b ≤ key a :=
        key_le_head has (mem_of_filter_eq (fun k => (h k).symm) List.mem_cons_self)
      have hkey : key b = key a := Nat.le_antisymm hge hle
      have hfirst := h (key a)
      simp only [List.filter_cons, hkey, decide_true, if_true, List.cons.injEq] at hfirst
      obtain rfl := hfirst.1
      have hrest : ∀ k, as.filter (key · = k) = bs.filter (key · = k) := by
        intro k
        have hk := h k
        simp only [List.filter_cons] at hk
        split at hk
        · exact List.tail_eq_of_cons_eq hk
        · exact hk
      rw [ih (List.pairwise_cons.mp has).2 (List.pairwise_cons.mp hbs).2 hrest]

theorem Arranges.unique {key : α → Nat} {one other given : List α} (hone : Arranges key one given)
    (hother : Arranges key other given) : one = other :=
  eq_of_filter_eq hone.descending hother.descending fun k =>
    (hone.stable k).trans (hother.stable k).symm

end MavlinkCompiler
