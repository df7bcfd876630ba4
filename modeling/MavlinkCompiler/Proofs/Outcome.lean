import Mathlib
import MavlinkCompiler.Log

/-!
# Outcomes of computations in steps

A computation in steps succeeds if every step does, and fails with the first that does not. These
lemmas take an outcome apart into the outcomes of its steps: two steps in a row, one step for each
element of a list, and steps along a list. Reports do not take part in outcomes.
-/

namespace MavlinkCompiler.Outcome

variable {ε ε' α β : Type}

/-- Two steps in a row. -/
theorem bind_eq_ok_iff {first : Except ε α} {next : α → Except ε β} {result : β} :
    (first >>= next) = .ok result ↔ ∃ value, first = .ok value ∧ next value = .ok result := by
  cases first with
  | error cause =>
    constructor
    · nofun
    · rintro ⟨_, h, -⟩
      cases h
  | ok value =>
    constructor
    · exact fun h => ⟨value, rfl, h⟩
    · rintro ⟨_, h, hnext⟩
      cases h
      exact hnext

/-- Restating errors does not touch results. -/
theorem mapError_eq_ok_iff {f : ε → ε'} {outcome : Except ε α} {result : α} :
    outcome.mapError f = .ok result ↔ outcome = .ok result := by
  cases outcome with
  | error cause => exact ⟨nofun, nofun⟩
  | ok value => exact ⟨fun h => by cases h; rfl, fun h => by cases h; rfl⟩

theorem eq_ok_of_toOption {outcome : Except ε α} {result : α}
    (h : outcome.toOption = some result) : outcome = .ok result := by
  cases outcome with
  | error cause => cases h
  | ok value =>
    cases h
    rfl

/-- One step for each element of a list, results in order. -/
theorem mapM_eq_ok_iff {step : α → Except ε β} :
    ∀ {inputs : List α} {results : List β},
      inputs.mapM step = .ok results ↔
        List.Forall₂ (fun input result => step input = .ok result) inputs results
  | [], results => by
    rw [List.mapM_nil, List.forall₂_nil_left_iff]
    exact ⟨fun h => by cases h; rfl, fun h => h ▸ rfl⟩
  | input :: inputs, results => by
    rw [List.mapM_cons, bind_eq_ok_iff, List.forall₂_cons_left_iff]
    constructor
    · rintro ⟨result, hresult, h⟩
      obtain ⟨rest, hrest, hall⟩ := bind_eq_ok_iff.mp h
      cases hall
      exact ⟨result, rest, hresult, mapM_eq_ok_iff.mp hrest, rfl⟩
    · rintro ⟨result, rest, hresult, hrest, rfl⟩
      exact ⟨result, hresult, bind_eq_ok_iff.mpr ⟨rest, mapM_eq_ok_iff.mpr hrest, rfl⟩⟩

/-- Every result comes from some element. -/
theorem exists_of_mem_mapM {step : α → Except ε β} {inputs : List α} {results : List β}
    (h : inputs.mapM step = .ok results) {result : β} (hresult : result ∈ results) :
    ∃ input ∈ inputs, step input = .ok result := by
  rw [mapM_eq_ok_iff] at h
  induction h with
  | nil => cases hresult
  | cons hstep _ ih =>
    rcases List.mem_cons.mp hresult with rfl | hrest
    · exact ⟨_, List.mem_cons_self, hstep⟩
    · obtain ⟨input, hinput, hok⟩ := ih hrest
      exact ⟨input, List.mem_cons_of_mem _ hinput, hok⟩

/-- If there is a result for each element, there are all results. -/
theorem exists_mapM {step : α → Except ε β} :
    ∀ {inputs : List α}, (∀ input ∈ inputs, ∃ result, step input = .ok result) →
      ∃ results, inputs.mapM step = .ok results
  | [], _ => ⟨[], rfl⟩
  | _ :: _, h => by
    obtain ⟨⟨result, hresult⟩, hrest⟩ := List.forall_mem_cons.mp h
    obtain ⟨results, hresults⟩ := exists_mapM hrest
    exact ⟨result :: results, mapM_eq_ok_iff.mpr (.cons hresult (mapM_eq_ok_iff.mp hresults))⟩

/-- Another step that gives the same result for each element gives the same results. -/
theorem mapM_of_step {step step' : α → Except ε β} {inputs : List α} {results : List β}
    (h : inputs.mapM step = .ok results)
    (hstep : ∀ input ∈ inputs, ∀ result, step input = .ok result → step' input = .ok result) :
    inputs.mapM step' = .ok results := by
  rw [mapM_eq_ok_iff] at h ⊢
  induction h with
  | nil => exact .nil
  | cons hfirst _ ih =>
    obtain ⟨hinput, hinputs⟩ := List.forall_mem_cons.mp hstep
    exact .cons (hinput _ hfirst) (ih hinputs)

/-- What every step along a list keeps, the whole run keeps. -/
theorem foldlM_keeps {step : β → α → Except ε β} (holds : β → Prop)
    (hstep : ∀ {before input after}, holds before → step before input = .ok after → holds after) :
    ∀ {inputs : List α} {before after : β}, holds before →
      inputs.foldlM step before = .ok after → holds after
  | [], _, _, hbefore, h => by
    cases h
    exact hbefore
  | _ :: _, _, _, hbefore, h => by
    rw [List.foldlM_cons] at h
    obtain ⟨middle, hmiddle, hrest⟩ := bind_eq_ok_iff.mp h
    exact foldlM_keeps holds hstep (hstep hbefore hmiddle) hrest

/-- Two steps in a row fail with the first or, if that succeeds, with the second. -/
theorem bind_eq_error_iff {first : Except ε α} {next : α → Except ε β} {cause : ε} :
    (first >>= next) = .error cause ↔
      first = .error cause ∨ ∃ value, first = .ok value ∧ next value = .error cause := by
  cases first with
  | error other =>
    constructor
    · intro h
      cases h
      exact .inl rfl
    · rintro (h | ⟨_, h, -⟩)
      · cases h
        rfl
      · cases h
  | ok value =>
    constructor
    · exact fun h => .inr ⟨value, rfl, h⟩
    · rintro (h | ⟨_, h, hnext⟩)
      · cases h
      · cases h
        exact hnext

/-- One step for each element fails with some step. -/
theorem exists_of_mapM_eq_error {step : α → Except ε β} {cause : ε} :
    ∀ {inputs : List α}, inputs.mapM step = .error cause →
      ∃ input ∈ inputs, step input = .error cause
  | [], h => by cases h
  | input :: inputs, h => by
    rw [List.mapM_cons, bind_eq_error_iff] at h
    rcases h with hfirst | ⟨result, -, h⟩
    · exact ⟨input, List.mem_cons_self, hfirst⟩
    rcases bind_eq_error_iff.mp h with hrest | ⟨results, -, h⟩
    · obtain ⟨other, hother, hfails⟩ := exists_of_mapM_eq_error hrest
      exact ⟨other, List.mem_cons_of_mem _ hother, hfails⟩
    · cases h

/-- Steps along a list fail with some step. -/
theorem exists_of_foldlM_eq_error {step : β → α → Except ε β} {cause : ε} :
    ∀ {inputs : List α} {before : β}, inputs.foldlM step before = .error cause →
      ∃ middle, ∃ input ∈ inputs, step middle input = .error cause
  | [], _, h => by cases h
  | input :: inputs, before, h => by
    rw [List.foldlM_cons, bind_eq_error_iff] at h
    rcases h with hfirst | ⟨middle, -, hrest⟩
    · exact ⟨before, input, List.mem_cons_self, hfirst⟩
    · obtain ⟨middle, other, hother, hfails⟩ := exists_of_foldlM_eq_error hrest
      exact ⟨middle, other, List.mem_cons_of_mem _ hother, hfails⟩

/-- The outcome of steps that report is that of the steps without their reports. -/
theorem outcome_foldlM {step : β → α → Logged ε β} :
    ∀ {inputs : List α} {before : β},
      (inputs.foldlM step before).outcome =
        inputs.foldlM (fun before input => (step before input).outcome) before
  | [], _ => rfl
  | input :: inputs, before => by
    rw [List.foldlM_cons, List.foldlM_cons, Logged.outcome_bind]
    congr 1
    funext middle
    exact outcome_foldlM

/-- Going on twice is going on once with both. -/
theorem bind_assoc_logged {γ : Type} (first : Logged ε α) (second : α → Logged ε β)
    (third : β → Logged ε γ) :
    first >>= second >>= third = first >>= fun a => second a >>= third := by
  show (first.bind second).bind third = first.bind fun a => (second a).bind third
  unfold Logged.bind
  cases first.outcome with
  | error cause => rfl
  | ok a =>
    dsimp only
    cases (second a).outcome with
    | error cause => rfl
    | ok b =>
      dsimp only
      rw [List.append_assoc]

instance : LawfulMonad (Logged ε) :=
  LawfulMonad.mk' (Logged ε)
    (by
      rintro α ⟨events, outcome⟩
      cases outcome with
      | error cause => rfl
      | ok a => exact congrArg (Logged.mk · _) (List.append_nil events))
    (fun _ _ => rfl)
    bind_assoc_logged

/-- Steps along a list that add one element each add all elements. -/
theorem foldlM_adds {m : Type → Type} [Monad m] [LawfulMonad m] {σ : Type} {step : σ → β → m σ}
    {input : α → β} (add : σ → List α → σ) (hnil : ∀ state, add state [] = state)
    (hcons : ∀ state first rest, add (add state [first]) rest = add state (first :: rest)) :
    ∀ {elements : List α}, (∀ element ∈ elements, ∀ state,
        step state (input element) = pure (add state [element])) →
      ∀ state, (elements.map input).foldlM step state = pure (add state elements)
  | [], _, state => by
    rw [hnil]
    rfl
  | first :: rest, hstep, state => by
    obtain ⟨hfirst, hrest⟩ := List.forall_mem_cons.mp hstep
    rw [List.map_cons, List.foldlM_cons, hfirst, pure_bind, foldlM_adds add hnil hcons hrest, hcons]

end MavlinkCompiler.Outcome
