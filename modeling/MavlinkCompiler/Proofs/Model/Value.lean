import MavlinkCompiler.Proofs.Model.Growth
import MavlinkCompiler.Proofs.Model.SourceOrder

/-!
# The values of entries

Values are resolved by going through the entries once, with the value that the next entry would get.
Said here is the value of each entry by itself: it is declared, or it is counted from the last
declared value before it, or from zero if there is none. Counting wraps around at the ends of the
signed range of 64 bits.

* `ValueAt`: the value at a position, from the declared values alone.
* `getElem?_resolveValues_succ`: from one entry to the next.
* `resolveValues_run`: over any number of entries without a declared value.
* `getElem?_resolveValues_iff`: so a value is what `ValueAt` says, at every position.
* `values_have_closed_form`: and in a model the positions are those of all declarations of an
  enumeration together.
-/

namespace MavlinkCompiler

open Schema (EntryDefinition EnumDefinition)

/-- The value at a position among declared values: the one declared there; else the last one that is
declared before it, and as much more as the position is further on; else, with nothing declared up
to it, the position itself. The last two are reduced to the signed range of 64 bits. -/
inductive ValueAt (declared : List (Option Int64)) (position : Nat) : Int → Prop
  | given {value : Int64} (here : declared[position]? = some (some value)) :
    ValueAt declared position value.toInt
  | continued {last : Nat} {value : Int64} (before : last < position)
    (there : declared[last]? = some (some value))
    (since : ∀ between, last < between → between ≤ position → declared[between]? = some none) :
    ValueAt declared position ((value.toInt + ((position : Int) - last)).bmod (2 ^ 64))
  | counted (never : ∀ before ≤ position, declared[before]? = some none) :
    ValueAt declared position ((position : Int).bmod (2 ^ 64))

/-! ## One entry after the other -/

theorem getElem?_resolveValues_zero (declared : List (Option Int64)) :
    (resolveValues declared)[0]? = declared[0]?.map (·.getD 0) := by
  cases declared with
  | nil => rfl
  | cons first rest => rfl

theorem getElem?_valuesFrom_succ {next value : Int64} {declared : List (Option Int64)}
    {position : Nat} (h : (valuesFrom next declared)[position]? = some value) :
    (valuesFrom next declared)[position + 1]? =
      declared[position + 1]?.map (·.getD (value + 1)) := by
  induction declared generalizing next position with
  | nil => cases h
  | cons first rest ih =>
    cases position with
    | zero =>
      obtain rfl : first.getD next = value := by simpa [valuesFrom] using h
      cases rest with
      | nil => rfl
      | cons second rest => rfl
    | succ position => exact ih h

/-- An entry is one more than the entry before it, unless it declares a value. -/
theorem getElem?_resolveValues_succ {value : Int64} {declared : List (Option Int64)}
    {position : Nat} (h : (resolveValues declared)[position]? = some value) :
    (resolveValues declared)[position + 1]? = declared[position + 1]?.map (·.getD (value + 1)) :=
  getElem?_valuesFrom_succ h

theorem getElem?_resolveValues_of_declared {value : Int64} {declared : List (Option Int64)}
    {position : Nat} (h : declared[position]? = some (some value)) :
    (resolveValues declared)[position]? = some value := by
  cases position with
  | zero =>
    rw [getElem?_resolveValues_zero, h]
    rfl
  | succ position =>
    have hlt : position + 1 < declared.length := (List.getElem?_eq_some_iff.mp h).1
    have hbefore : position < (resolveValues declared).length := by
      rw [length_resolveValues]
      omega
    rw [getElem?_resolveValues_succ (List.getElem?_eq_getElem hbefore), h]
    rfl

/-- Over entries without a declared value, values go up one by one, and wrap around. -/
theorem resolveValues_run {value : Int64} {declared : List (Option Int64)} {position : Nat}
    (h : (resolveValues declared)[position]? = some value) (count : Nat)
    (hnone : ∀ between, position < between → between ≤ position + count →
      declared[between]? = some none) :
    ∃ reached, (resolveValues declared)[position + count]? = some reached ∧
      reached.toInt = (value.toInt + count).bmod (2 ^ 64) := by
  induction count with
  | zero =>
    refine ⟨value, h, ?_⟩
    rw [Nat.cast_zero, Int.add_zero]
    exact (Int64.toInt_bmod value).symm
  | succ count ih =>
    obtain ⟨reached, hreached, hvalue⟩ := ih fun between hlt hle => hnone between hlt (by omega)
    have hnext : declared[position + count + 1]? = some none := hnone _ (by omega) (by omega)
    refine ⟨reached + 1, ?_, ?_⟩
    · rw [← Nat.add_assoc, getElem?_resolveValues_succ hreached, hnext]
      rfl
    · have hone : (1 : Int64).toInt = 1 := by decide
      rw [Int64.toInt_add, hvalue, hone, Int.bmod_add_bmod, Nat.cast_succ, Int.add_assoc]

/-! ## Every position by itself -/

/-- What is said of a position is its value. -/
theorem ValueAt.exists_value {declared : List (Option Int64)} {position : Nat} {number : Int}
    (h : ValueAt declared position number) :
    ∃ value, (resolveValues declared)[position]? = some value ∧ value.toInt = number := by
  cases h with
  | given here => exact ⟨_, getElem?_resolveValues_of_declared here, rfl⟩
  | @continued last value before there since =>
    obtain ⟨count, rfl⟩ := Nat.exists_eq_add_of_le before.le
    obtain ⟨reached, hreached, hvalue⟩ :=
      resolveValues_run (getElem?_resolveValues_of_declared there) count since
    refine ⟨reached, hreached, ?_⟩
    rw [hvalue, Nat.cast_add, add_sub_cancel_left]
  | counted never =>
    have hfirst : (resolveValues declared)[0]? = some 0 := by
      rw [getElem?_resolveValues_zero, never 0 (Nat.zero_le _)]
      rfl
    obtain ⟨reached, hreached, hvalue⟩ := resolveValues_run hfirst position
      fun between _ hle => never between (by omega)
    have hzero : (0 : Int64).toInt = 0 := by decide
    rw [Nat.zero_add] at hreached
    rw [hzero, Int.zero_add] at hvalue
    exact ⟨reached, hreached, hvalue⟩

/-- Where nothing is declared, what is said of the position before is carried on. -/
theorem ValueAt.next {declared : List (Option Int64)} {position : Nat} {number : Int}
    (h : ValueAt declared position number) (hnone : declared[position + 1]? = some none) :
    ∃ number', ValueAt declared (position + 1) number' := by
  cases h with
  | given here =>
    refine ⟨_, .continued (Nat.lt_succ_self position) here fun between hlt hle => ?_⟩
    rwa [show between = position + 1 by omega]
  | continued before there since =>
    refine ⟨_, .continued (Nat.lt_succ_of_lt before) there fun between hlt hle => ?_⟩
    rcases Nat.le_succ_iff.mp hle with hle | rfl
    · exact since between hlt hle
    · exact hnone
  | counted never =>
    refine ⟨_, .counted fun before hle => ?_⟩
    rcases Nat.le_succ_iff.mp hle with hle | rfl
    · exact never before hle
    · exact hnone

/-- Something is said of every position. -/
theorem exists_valueAt {declared : List (Option Int64)} {position : Nat}
    (h : position < declared.length) : ∃ number, ValueAt declared position number := by
  induction position with
  | zero =>
    obtain ⟨first, hfirst⟩ : ∃ first, declared[0]? = some first :=
      ⟨_, List.getElem?_eq_getElem h⟩
    cases first with
    | some value => exact ⟨_, .given hfirst⟩
    | none =>
      refine ⟨_, .counted fun before hle => ?_⟩
      rwa [Nat.le_zero.mp hle]
  | succ position ih =>
    obtain ⟨here, hhere⟩ : ∃ here, declared[position + 1]? = some here :=
      ⟨_, List.getElem?_eq_getElem h⟩
    cases here with
    | some value => exact ⟨_, .given hhere⟩
    | none =>
      obtain ⟨number, hbefore⟩ := ih (by omega)
      exact hbefore.next hhere

/-- The value at a position is what is said of the position, and there is no other. -/
theorem getElem?_resolveValues_iff {declared : List (Option Int64)} {position : Nat}
    {value : Int64} :
    (resolveValues declared)[position]? = some value ↔ ValueAt declared position value.toInt := by
  constructor
  · intro h
    have hlt : position < declared.length := by
      rw [← length_resolveValues]
      exact (List.getElem?_eq_some_iff.mp h).1
    obtain ⟨number, hnumber⟩ := exists_valueAt hlt
    obtain ⟨value', hvalue', rfl⟩ := hnumber.exists_value
    obtain rfl : value = value' := Option.some.inj (h.symm.trans hvalue')
    exact hnumber
  · intro h
    obtain ⟨value', hvalue', hsame⟩ := h.exists_value
    rwa [Int64.toInt_inj.mp hsame] at hvalue'

/-! ## Enumerations -/

theorem Enumeration.getElem?_valuedEntries_iff {enumeration : Enumeration} {position : Nat}
    {entry : Entry} {value : Int64} :
    enumeration.valuedEntries[position]? = some (entry, value) ↔
      enumeration.entries[position]? = some entry ∧
        enumeration.values[position]? = some value :=
  List.getElem?_zip_eq_some

/-- Matching lists match position by position. -/
theorem exists_getElem?_of_forall₂ {α β : Type} {R : α → β → Prop} {left : List α}
    {right : List β} (h : List.Forall₂ R left right) {position : Nat} {b : β}
    (hb : right[position]? = some b) : ∃ a, left[position]? = some a ∧ R a b := by
  obtain ⟨hlt, rfl⟩ := List.getElem?_eq_some_iff.mp hb
  have hlt' : position < left.length := h.length_eq ▸ hlt
  exact ⟨_, List.getElem?_eq_getElem hlt', h.get hlt' hlt⟩

/-- The values of an enumeration that is joined from declarations: each entry comes from the entry
that is declared at its position, and has the value that all declared entries together give to this
position. So an entry without a value that comes first in some of the declarations is one more than
the last entry of those before them. -/
structure Enumeration.ValuedBy (enumeration : Enumeration)
    (found : List (Declared EnumDefinition)) : Prop where
  declares : List.Forall₂ Entry.Declares enumeration.entries (declaredEntries found)
  values : ∀ position entry value,
    enumeration.valuedEntries[position]? = some (entry, value) ↔
      enumeration.entries[position]? = some entry ∧
        ValueAt ((declaredEntries found).map (·.value)) position value.toInt
  continues : ∀ earlier later, found = earlier ++ later → ∀ last first,
    (declaredEntries earlier).getLast? = some last → (declaredEntries later).head? = some first →
    first.value = none →
    ∃ before after value, before.Declares last ∧ after.Declares first ∧
      enumeration.valuedEntries[(declaredEntries earlier).length - 1]? = some (before, value) ∧
      enumeration.valuedEntries[(declaredEntries earlier).length]? = some (after, value + 1)

namespace Enumeration.Joins

variable {enumeration : Enumeration} {found : List (Declared EnumDefinition)}

theorem getElem?_values_iff (h : enumeration.Joins found) {position : Nat} {value : Int64} :
    enumeration.values[position]? = some value ↔
      ValueAt ((declaredEntries found).map (·.value)) position value.toInt := by
  rw [h.values, getElem?_resolveValues_iff]

/-- The first entry of later declarations follows the last one of earlier declarations. -/
theorem continues (h : enumeration.Joins found) {earlier later : List (Declared EnumDefinition)}
    (hfound : found = earlier ++ later) {last first : EntryDefinition}
    (hlast : (declaredEntries earlier).getLast? = some last)
    (hfirst : (declaredEntries later).head? = some first) (hnone : first.value = none) :
    ∃ before after value, before.Declares last ∧ after.Declares first ∧
      enumeration.valuedEntries[(declaredEntries earlier).length - 1]? = some (before, value) ∧
      enumeration.valuedEntries[(declaredEntries earlier).length]? = some (after, value + 1) := by
  obtain ⟨front, hfront⟩ := List.getLast?_eq_some_iff.mp hlast
  obtain ⟨back, hback⟩ := List.head?_eq_some_iff.mp hfirst
  -- the two entries are neighbours in what all declarations declare
  have hall : declaredEntries found = front ++ last :: first :: back := by
    rw [hfound, declaredEntries_append, hfront, hback, List.append_assoc]
    rfl
  have hlength : (declaredEntries earlier).length = front.length + 1 := by
    rw [hfront, List.length_append]
    rfl
  have hentries := h.entries
  have hvalues := h.values
  rw [hall] at hentries hvalues
  have hposition : (front ++ last :: first :: back)[front.length]? = some last := by simp
  have hposition' : (front ++ last :: first :: back)[front.length + 1]? = some first := by simp
  obtain ⟨before, hbefore, hdeclares⟩ := exists_getElem?_of_forall₂ hentries hposition
  obtain ⟨after, hafter, hdeclares'⟩ := exists_getElem?_of_forall₂ hentries hposition'
  obtain ⟨value, hvalue⟩ : ∃ value, enumeration.values[front.length]? = some value := by
    refine ⟨_, List.getElem?_eq_getElem ?_⟩
    rw [enumeration.length_values]
    exact (List.getElem?_eq_some_iff.mp hbefore).1
  have hnext : enumeration.values[front.length + 1]? = some (value + 1) := by
    rw [hvalues] at hvalue ⊢
    rw [getElem?_resolveValues_succ hvalue]
    simp [hnone]
  rw [hlength, Nat.add_sub_cancel]
  exact ⟨before, after, value, hdeclares, hdeclares',
    getElem?_valuedEntries_iff.mpr ⟨hbefore, hvalue⟩,
    getElem?_valuedEntries_iff.mpr ⟨hafter, hnext⟩⟩

theorem valuedBy (h : enumeration.Joins found) : enumeration.ValuedBy found := by
  refine ⟨h.entries, fun position entry value => ?_, fun earlier later hfound last first hlast
    hfirst hnone => h.continues hfound hlast hfirst hnone⟩
  rw [getElem?_valuedEntries_iff, h.getElem?_values_iff]

end Enumeration.Joins

/-- **The values of entries in closed form.** Resolving gives as many values as there are entries,
and the value at a position is the declared one, or as far from the last declared value before it as
its position is, or its position if there is none, reduced to the signed range of 64 bits. In every
finished model, each entry of an enumeration has the value that all its entries give to its
position. In a model of files these are the entries of all declarations of the enumeration in order,
whatever file they are in; so the first entry of a later declaration goes on from the last entry
before it if it has no value of its own. -/
theorem values_have_closed_form :
    (∀ declared : List (Option Int64),
      (resolveValues declared).length = declared.length ∧
      ∀ position value, (resolveValues declared)[position]? = some value ↔
        ValueAt declared position value.toInt) ∧
    (∀ catalog : Catalog, ∀ enumeration ∈ catalog.finish.enums, ∀ position entry value,
      enumeration.valuedEntries[position]? = some (entry, value) ↔
        enumeration.entries[position]? = some entry ∧
          ValueAt (enumeration.entries.map (·.declared)) position value.toInt) ∧
    ∀ scoping sources model, (Model.load scoping sources).outcome = .ok model →
      ∃ documents, Reads sources documents ∧ ∀ enumeration ∈ model.enums,
        enumeration.ValuedBy (declarationsOf scoping (enumeration.qualified scoping).text
          (declarations (·.enums) documents)) := by
  refine ⟨fun declared => ⟨length_resolveValues declared, fun position value =>
    getElem?_resolveValues_iff⟩, fun catalog enumeration _ position entry value => ?_,
    fun scoping sources model hload => ?_⟩
  · rw [Enumeration.getElem?_valuedEntries_iff, Enumeration.values, getElem?_resolveValues_iff]
  · obtain ⟨catalog, documents, rfl, hreads, hcovers⟩ := Model.exists_covers hload
    refine ⟨documents, hreads, fun enumeration henum => ?_⟩
    obtain ⟨found, rfl, hjoins, -⟩ := hcovers.describes.enums enumeration henum
    exact hjoins.valuedBy

/-- A definition file with an entry that has the greatest value. -/
def limitSource : Source :=
  ⟨"limit.xml", "<mavlink><enums><enum name='M'><entry name='ON'/>" ++
    "<entry name='ALWAYS' value='9223372036854775807'/></enum></enums></mavlink>"⟩

/-- The entry of the further file goes on from the greatest value, and so it has the least. -/
theorem limitSource_continued_by_furtherSource :
    ∃ model documents, (Model.load .merged [limitSource, furtherSource]).outcome = .ok model ∧
      Reads [limitSource, furtherSource] documents ∧
      model.enums.map (fun enumeration =>
        enumeration.valuedEntries.map fun (entry, value) => (entry.name, value)) =
          [[("ON", 0), ("ALWAYS", 9223372036854775807), ("OFF", -9223372036854775808)]] ∧
      ∀ enumeration ∈ model.enums,
        enumeration.ValuedBy (declarationsOf .merged (enumeration.qualified .merged).text
          (declarations (·.enums) documents)) := by
  have hloaded : (Model.load .merged [limitSource, furtherSource]).outcome.toOption.map
      (fun model => model.enums.map fun enumeration =>
        enumeration.valuedEntries.map fun (entry, value) => (entry.name, value)) =
      some [[("ON", 0), ("ALWAYS", 9223372036854775807), ("OFF", -9223372036854775808)]] := by
    decide +kernel
  obtain ⟨model, hsome, hvalues⟩ := Option.map_eq_some_iff.mp hloaded
  have hload := Outcome.eq_ok_of_toOption hsome
  obtain ⟨documents, hreads, hvalued⟩ := values_have_closed_form.2.2 _ _ model hload
  exact ⟨model, documents, hload, hreads, hvalues, hvalued⟩

end MavlinkCompiler
