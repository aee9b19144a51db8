import Mathlib.Algebra.BigOperators.Group.List.Basic
import Mathlib.Algebra.Order.Group.Defs
import Mathlib.Tactic.Abel
import SiprecServer.Lib.Transducer

/-!
# Allowances that accrue with time

A component hands out amounts at times.  If a potential pays for every amount, never
exceeds a capacity and grows by no more than what accrues, then the amounts of any
interval of time are bounded by the capacity and what accrues in the interval.
-/

namespace SiprecServer.Lib.Allowance

open Lib.Transducer List

variable {σ ι ο T K : Type} [LinearOrder T] [AddCommGroup K]

/-- The amounts that are handed out from one time to another, both included. -/
def spent (stamp : ο → T) (amount : ο → K) (start finish : T) (outputs : List ο) : K :=
  ((outputs.filter fun output => start ≤ stamp output ∧ stamp output ≤ finish).map amount).sum

section Spent

variable {stamp : ο → T} {amount : ο → K} {start finish t : T}

theorem spent_append (first second : List ο) :
    spent stamp amount start finish (first ++ second) =
      spent stamp amount start finish first + spent stamp amount start finish second := by
  unfold spent
  rw [filter_append, map_append, sum_append]

theorem spent_stamped {outputs : List ο} (stamped : ∀ output ∈ outputs, stamp output = t) :
    spent stamp amount start finish outputs =
      if start ≤ t ∧ t ≤ finish then (outputs.map amount).sum else 0 := by
  unfold spent
  split
  case isTrue inside =>
    rw [filter_eq_self.mpr fun output mem => by simpa [stamped output mem] using inside]
  case isFalse outside =>
    rw [filter_eq_nil_iff.mpr fun output mem => by
      simpa [stamped output mem] using outside]
    rfl

theorem spent_late {outputs : List ο} (late : ∀ output ∈ outputs, finish < stamp output) :
    spent stamp amount start finish outputs = 0 := by
  unfold spent
  rw [filter_eq_nil_iff.mpr fun output mem => by
    simpa using fun _ => late output mem]
  rfl

end Spent

variable [LinearOrder K]

structure Accrual (T K : Type) [LinearOrder T] [AddCommGroup K] [LinearOrder K] where
  accrued : T → T → K
  add : ∀ a b c, accrued a b + accrued b c = accrued a c
  nonneg : ∀ {a b}, a ≤ b → 0 ≤ accrued a b

/-- A potential that pays for all that a component hands out.  `Inv` is what holds of a state
from some time on. -/
structure Potential (step : σ → ι → σ × List ο) (time : ι → T) (stamp : ο → T) (amount : ο → K)
    (accrual : Accrual T K) (capacity : K) (Inv : σ → T → Prop) where
  potential : σ → T → K
  later : ∀ {state t t'}, Inv state t → t ≤ t' → Inv state t'
  keeps : ∀ {state input}, Inv state (time input) → Inv (step state input).1 (time input)
  stamped : ∀ {state input output}, output ∈ (step state input).2 → stamp output = time input
  nonneg : ∀ {state t}, Inv state t → 0 ≤ potential state t
  capped : ∀ {state t}, Inv state t → potential state t ≤ capacity
  grows : ∀ {state t t'}, Inv state t → t ≤ t' →
    potential state t' ≤ potential state t + accrual.accrued t t'
  pays : ∀ {state input}, Inv state (time input) →
    potential (step state input).1 (time input) + ((step state input).2.map amount).sum ≤
      potential state (time input)

namespace Potential

variable {step : σ → ι → σ × List ο} {time : ι → T} {stamp : ο → T} {amount : ο → K}
  {accrual : Accrual T K} {capacity : K} {Inv : σ → T → Prop}

variable {start finish : T} {inputs : List ι} {state : σ}

variable (meter : Potential step time stamp amount accrual capacity Inv)

include meter

theorem spent_run_late (late : ∀ input ∈ inputs, finish < time input) :
    spent stamp amount start finish (run step state inputs).2 = 0 :=
  spent_late (Along.outputs (fun _ => True) (fun _ _ _ _ => True.intro)
    (fun _ _ _ isLate _ mem => meter.stamped mem ▸ isLate) True.intro (Along.of_inputs late))

variable [IsOrderedAddMonoid K]

theorem spent_le_potential (ordered : inputs.Pairwise (time · ≤ time ·)) {t : T}
    (inv : Inv state t) (from_t : ∀ input ∈ inputs, t ≤ time input) (started : start ≤ t)
    (unfinished : t ≤ finish) :
    spent stamp amount start finish (run step state inputs).2 ≤
      meter.potential state t + accrual.accrued t finish := by
  induction inputs generalizing state t with
  | nil => exact add_nonneg (meter.nonneg inv) (accrual.nonneg unfinished)
  | cons input inputs ih =>
    have reached := from_t input mem_cons_self
    have inv_here := meter.later inv reached
    obtain ⟨later, ordered⟩ := pairwise_cons.mp ordered
    rw [run_cons_output, spent_append, spent_stamped fun output => meter.stamped]
    by_cases inside : time input ≤ finish
    · have rest := ih ordered (meter.keeps inv_here) later (started.trans reached) inside
      have paid := (meter.pays inv_here).trans (meter.grows inv reached)
      rw [if_pos ⟨started.trans reached, inside⟩]
      calc ((step state input).2.map amount).sum +
            spent stamp amount start finish (run step (step state input).1 inputs).2
          ≤ ((step state input).2.map amount).sum +
              (meter.potential (step state input).1 (time input) +
                accrual.accrued (time input) finish) := by gcongr
        _ = (meter.potential (step state input).1 (time input) +
              ((step state input).2.map amount).sum) + accrual.accrued (time input) finish := by
            abel
        _ ≤ (meter.potential state t + accrual.accrued t (time input)) +
              accrual.accrued (time input) finish := by gcongr
        _ = meter.potential state t + accrual.accrued t finish := by rw [add_assoc, accrual.add]
    · -- the inputs that are left come after the interval too
      have after : finish < time input := lt_of_not_ge inside
      rw [if_neg fun both => inside both.2, zero_add,
        meter.spent_run_late fun other mem => after.trans_le (later other mem)]
      exact add_nonneg (meter.nonneg inv) (accrual.nonneg unfinished)

theorem spent_le (proper : start ≤ finish) (ordered : inputs.Pairwise (time · ≤ time ·)) {t : T}
    (inv : Inv state t) (from_t : ∀ input ∈ inputs, t ≤ time input) :
    spent stamp amount start finish (run step state inputs).2 ≤
      capacity + accrual.accrued start finish := by
  have room {state : σ} {t : T} (inv : Inv state t) : 0 ≤ capacity :=
    (meter.nonneg inv).trans (meter.capped inv)
  induction inputs generalizing state t with
  | nil => exact add_nonneg (room inv) (accrual.nonneg proper)
  | cons input inputs ih =>
    have reached := from_t input mem_cons_self
    have inv_here := meter.later inv reached
    have ⟨later, rest_ordered⟩ := pairwise_cons.mp ordered
    by_cases early : time input < start
    · -- this input is before the interval
      rw [run_cons_output, spent_append, spent_stamped fun output => meter.stamped,
        if_neg fun both => (not_le.mpr early) both.1, zero_add]
      exact ih rest_ordered (meter.keeps inv_here) later
    · have started := le_of_not_gt early
      by_cases inside : time input ≤ finish
      · have all_from : ∀ other ∈ input :: inputs, time input ≤ time other :=
          forall_mem_cons.mpr ⟨le_rfl, later⟩
        calc spent stamp amount start finish (run step state (input :: inputs)).2
            ≤ meter.potential state (time input) + accrual.accrued (time input) finish :=
              meter.spent_le_potential ordered inv_here all_from started inside
          _ ≤ capacity + (accrual.accrued start (time input) +
                accrual.accrued (time input) finish) :=
              add_le_add (meter.capped inv_here)
                (le_add_of_nonneg_left (accrual.nonneg started))
          _ = capacity + accrual.accrued start finish := by rw [accrual.add]
      · have after : finish < time input := lt_of_not_ge inside
        rw [meter.spent_run_late (forall_mem_cons.mpr
          ⟨after, fun other mem => after.trans_le (later other mem)⟩)]
        exact add_nonneg (room inv) (accrual.nonneg proper)

end Potential

end SiprecServer.Lib.Allowance
