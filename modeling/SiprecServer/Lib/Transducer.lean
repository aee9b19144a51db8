import Mathlib.Data.List.Perm.Basic

/-!
# Runs of a step function with outputs

A component is a step function that consumes one input and hands out a list of
outputs.  Runs, conditions that every step of a run meets, and the induction
rules for them are stated once here.
-/

namespace SiprecServer.Lib.Transducer

open List

variable {σ ι ο : Type}

def run (step : σ → ι → σ × List ο) : σ → List ι → σ × List ο
  | state, [] => (state, [])
  | state, input :: inputs =>
    let first := step state input
    let rest := run step first.1 inputs
    (rest.1, first.2 ++ rest.2)

def Along (step : σ → ι → σ × List ο) (condition : σ → ι → Prop) : σ → List ι → Prop
  | _, [] => True
  | state, input :: inputs =>
    condition state input ∧ Along step condition (step state input).1 inputs

instance decidableAlong (step : σ → ι → σ × List ο) (condition : σ → ι → Prop)
    [∀ state input, Decidable (condition state input)] :
    ∀ state inputs, Decidable (Along step condition state inputs)
  | _, [] => isTrue True.intro
  | state, input :: inputs =>
    have : Decidable (Along step condition (step state input).1 inputs) :=
      decidableAlong step condition (step state input).1 inputs
    inferInstanceAs (Decidable (condition state input ∧ _))

def collect {β : Type} (step : σ → ι → σ × List ο) (observe : σ → ι → List β) : σ → List ι → List β
  | _, [] => []
  | state, input :: inputs =>
    observe state input ++ collect step observe (step state input).1 inputs

def tracked {η : Type} (step : σ → ι → σ × List ο) (note : σ → η → ι → η) :
    σ × η → ι → (σ × η) × List ο
  | (state, history), input =>
    (((step state input).1, note state history input), (step state input).2)

section Laws

variable {step : σ → ι → σ × List ο} {condition : σ → ι → Prop}

section

variable (state : σ) (first second : List ι) (input : ι) (inputs : List ι)

@[simp]
theorem run_nil : run step state [] = (state, []) := rfl

@[simp]
theorem run_cons_state :
    (run step state (input :: inputs)).1 = (run step (step state input).1 inputs).1 := rfl

@[simp]
theorem run_cons_output :
    (run step state (input :: inputs)).2 =
      (step state input).2 ++ (run step (step state input).1 inputs).2 := rfl

theorem run_append_state :
    (run step state (first ++ second)).1 = (run step (run step state first).1 second).1 := by
  induction first generalizing state with
  | nil => rfl
  | cons input inputs ih => exact ih _

theorem run_append_output :
    (run step state (first ++ second)).2 =
      (run step state first).2 ++ (run step (run step state first).1 second).2 := by
  induction first generalizing state with
  | nil => rfl
  | cons input inputs ih =>
    rw [cons_append, run_cons_output, run_cons_output, ih, append_assoc]
    rfl

end

variable {state : σ} {inputs : List ι} {other : σ → ι → Prop}

theorem run_invariant (Invariant : σ → Prop)
    (preserved : ∀ state input, Invariant state → Invariant (step state input).1)
    (start : Invariant state) : Invariant (run step state inputs).1 := by
  induction inputs generalizing state with
  | nil => exact start
  | cons input inputs ih => exact ih (preserved state input start)

section Invariant

variable (Invariant : σ → Prop) (preserved : ∀ state input, Invariant state →
  condition state input → Invariant (step state input).1)

include preserved

theorem Along.invariant (start : Invariant state) (along : Along step condition state inputs) :
    Invariant (run step state inputs).1 := by
  induction inputs generalizing state with
  | nil => exact start
  | cons input inputs ih => exact ih (preserved state input start along.1) along.2

theorem Along.outputs {Good : ο → Prop} (good : ∀ state input, Invariant state →
      condition state input → ∀ output ∈ (step state input).2, Good output) (start : Invariant state)
    (along : Along step condition state inputs) :
    ∀ output ∈ (run step state inputs).2, Good output := by
  induction inputs generalizing state with
  | nil => exact fun output mem => absurd mem not_mem_nil
  | cons input inputs ih =>
    intro output mem
    rcases mem_append.mp mem with here | later
    · exact good state input start along.1 output here
    · exact ih (preserved state input start along.1) along.2 output later

theorem Along.atMostOnce [DecidableEq ο] {Spent : σ → Prop} {output : ο}
    (spent : ∀ state input, Invariant state → Spent state →
      Spent (step state input).1 ∧ output ∉ (step state input).2)
    (spends : ∀ state input, Invariant state → output ∈ (step state input).2 →
      Spent (step state input).1 ∧ (step state input).2.count output ≤ 1) (start : Invariant state)
    (along : Along step condition state inputs) : (run step state inputs).2.count output ≤ 1 ∧
      (Spent state → (run step state inputs).2.count output = 0) := by
  induction inputs generalizing state with
  | nil => exact ⟨Nat.zero_le _, fun _ => rfl⟩
  | cons input inputs ih =>
    obtain ⟨once, never⟩ := ih (preserved state input start along.1) along.2
    rw [run_cons_output, count_append]
    constructor
    · by_cases here : output ∈ (step state input).2
      · obtain ⟨exhausted, single⟩ := spends state input start here
        rw [never exhausted]
        exact single
      · rw [count_eq_zero_of_not_mem here, Nat.zero_add]
        exact once
    · intro exhausted
      obtain ⟨still, absent⟩ := spent state input start exhausted
      rw [never still, count_eq_zero_of_not_mem absent]

theorem Along.imp {conclusion : σ → ι → Prop} (concludes : ∀ state input, Invariant state →
      condition state input → conclusion state input) (start : Invariant state)
    (along : Along step condition state inputs) : Along step conclusion state inputs := by
  induction inputs generalizing state with
  | nil => exact True.intro
  | cons input inputs ih =>
    exact ⟨concludes state input start along.1, ih (preserved state input start along.1) along.2⟩

theorem along_iff_of_invariant
    (same : ∀ state input, Invariant state → (other state input ↔ condition state input))
    (start : Invariant state) :
    Along step other state inputs ↔ Along step condition state inputs := by
  constructor
  · refine Along.imp Invariant ?_ (fun state input holds => (same state input holds).mp) start
    exact fun state input holds met => preserved state input holds ((same state input holds).mp met)
  · exact Along.imp Invariant preserved (fun state input holds => (same state input holds).mpr)
      start

end Invariant

theorem Along.and (first : Along step condition state inputs)
    (second : Along step other state inputs) :
    Along step (fun state input => condition state input ∧ other state input) state inputs := by
  induction inputs generalizing state with
  | nil => exact True.intro
  | cons input inputs ih => exact ⟨⟨first.1, second.1⟩, ih first.2 second.2⟩

theorem Along.always (holds : ∀ state input, condition state input) :
    Along step condition state inputs := by
  induction inputs generalizing state with
  | nil => exact True.intro
  | cons input inputs ih => exact ⟨holds state input, ih⟩

theorem ite_keeps {Invariant : σ → Prop} (holds : Invariant state) {condition : Prop}
    [Decidable condition] {result : σ × List ο}
    (keeps : condition → Invariant result.1 ∧ result.2 = []) :
    Invariant (if condition then result else (state, [])).1 ∧
      (if condition then result else (state, [])).2 = [] := by
  split
  · exact keeps ‹_›
  · exact ⟨holds, rfl⟩

theorem Along.of_inputs {good : ι → Prop} (holds : ∀ input ∈ inputs, good input) :
    Along step (fun _ input => good input) state inputs := by
  induction inputs generalizing state with
  | nil => exact True.intro
  | cons input inputs ih =>
    exact ⟨holds input mem_cons_self, ih fun other later => holds other (mem_cons_of_mem _ later)⟩

theorem collect_eq_nil_iff {β : Type} {observe : σ → ι → List β} :
    collect step observe state inputs = [] ↔
      Along step (fun state input => observe state input = []) state inputs := by
  induction inputs generalizing state with
  | nil => exact ⟨fun _ => True.intro, fun _ => rfl⟩
  | cons input inputs ih =>
    unfold collect Along
    rw [append_eq_nil_iff, ih]

theorem forall_mem_collect_iff {β : Type} {observe : σ → ι → List β} {Good : β → Prop} :
    (∀ item ∈ collect step observe state inputs, Good item) ↔
      Along step (fun state input => ∀ item ∈ observe state input, Good item) state inputs := by
  induction inputs generalizing state with
  | nil => exact ⟨fun _ => True.intro, fun _ _ mem => absurd mem not_mem_nil⟩
  | cons input inputs ih =>
    unfold collect Along
    rw [forall_mem_append, ih]

theorem along_congr (same : ∀ state input, condition state input ↔ other state input) :
    Along step condition state inputs ↔ Along step other state inputs := by
  have equal : condition = other :=
    funext fun state => funext fun input => propext (same state input)
  rw [equal]

theorem along_append {first second : List ι} : Along step condition state (first ++ second) ↔
      Along step condition state first ∧ Along step condition (run step state first).1 second := by
  induction first generalizing state with
  | nil => exact (and_iff_right True.intro).symm
  | cons input inputs ih =>
    rw [cons_append, Along, Along, run_cons_state, ih, and_assoc]

/-- Under an invariant between state and history, a condition that reads the history and one
that does without it hold along the same runs. -/
theorem along_tracked_iff {η : Type} {note : σ → η → ι → η} {other : σ × η → ι → Prop}
    (Invariant : σ → η → Prop) (preserved : ∀ state history input, Invariant state history →
      Invariant (step state input).1 (note state history input))
    (same : ∀ state history input, Invariant state history →
      (other (state, history) input ↔ condition state input)) {history : η}
    (start : Invariant state history) : Along (tracked step note) other (state, history) inputs ↔
      Along step condition state inputs := by
  induction inputs generalizing state history with
  | nil => exact Iff.rfl
  | cons input inputs ih =>
    exact and_congr (same state history input start) (ih (preserved state history input start))

end Laws

/-- If every step accounts for what it takes in, as output, as a loss or as
contents of the next state, then so does every run.  Outputs count by their keys. -/
theorem run_conserves_keys {κ : Type} {step : σ → ι → σ × List ο} (key : ο → κ)
    (contents : σ → List κ) {taken lost : σ → ι → List κ} (conserved : ∀ state input,
      ((step state input).2.map key ++ lost state input ++ contents (step state input).1).Perm
        (contents state ++ taken state input)) (state : σ) (inputs : List ι) :
    ((run step state inputs).2.map key ++ collect step lost state inputs ++
        contents (run step state inputs).1).Perm
      (contents state ++ collect step taken state inputs) := by
  classical
  induction inputs generalizing state with
  | nil =>
    simp only [run_nil, collect, map_nil, append_nil, nil_append]
    exact List.Perm.refl _
  | cons input inputs ih =>
    rw [perm_iff_count]
    intro item
    have here := (perm_iff_count.mp (conserved state input)) item
    have later := (perm_iff_count.mp (ih (step state input).1)) item
    simp only [run_cons_state, run_cons_output, collect, map_append, count_append]
      at here later ⊢
    omega

end SiprecServer.Lib.Transducer
