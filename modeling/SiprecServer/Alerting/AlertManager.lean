import SiprecServer.Lib.Transducer

/-!
# The alerts of a rule

`alerting.go`: every evaluation of a rule may start a round of notifications, and every resolution
starts a removal that runs an hour later, whatever has become of the alert by then.  Rules have
their own keys, so that one rule is followed.
-/

namespace SiprecServer.Alerting

open Lib.Transducer List

inductive Status where
  | firing
  | resolved
  deriving DecidableEq

structure AlertRule (Value : Type) where
  condition : String
  threshold : Value

structure AlertManager where
  activeAlert : Option Status
  removals : Nat

inductive Event (Value : Type) where
  /-- The result of the query, and how many removals run between the look-up of the alert and its
  use. -/
  | evaluate (result : Option Value) (meanwhile : Nat)
  | remove

variable {Value : Type} [LT Value] [LE Value] [BEq Value] [DecidableLT Value] [DecidableLE Value]
  (rule : AlertRule Value)

/-- The comparisons are those of the type of the values; no law is assumed of them. -/
def shouldTriggerAlert (value : Value) : Bool :=
  match rule.condition with
  | "gt" => rule.threshold < value
  | "lt" => value < rule.threshold
  | "eq" => value == rule.threshold
  | "ne" => value != rule.threshold
  | "gte" => rule.threshold ≤ value
  | "lte" => value ≤ rule.threshold
  | _ => false

def newAlertManager : AlertManager := ⟨none, 0⟩

namespace AlertManager

variable (am : AlertManager)

/-- There are removals to run. -/
def hit (count : Nat) : Bool := 0 < min count am.removals

def remove (count : Nat) : AlertManager :=
  if am.hit count then ⟨none, am.removals - count⟩ else am

/-- An alert that was looked up and then removed is changed all the same, but nobody sees it. -/
def setStatus (status : Status) : AlertManager :=
  { am with activeAlert := am.activeAlert.map fun _ => status }

def evaluateRule (result : Option Value) (meanwhile : Nat) : AlertManager × List Status :=
  match result with
  | none => (am, [])
  | some value =>
    let removed := am.remove meanwhile
    match shouldTriggerAlert rule value, am.activeAlert with
    | true, none => ({ removed with activeAlert := some .firing }, [.firing])
    | true, some .resolved => (removed.setStatus .firing, [.firing])
    | true, some .firing => (removed, [])
    | false, some .firing =>
      ({ removed.setStatus .resolved with removals := removed.removals + 1 }, [.resolved])
    | false, some .resolved => (removed, [])
    | false, none => (removed, [])

def step : Event Value → AlertManager × List Status
  | .evaluate result meanwhile => am.evaluateRule rule result meanwhile
  | .remove => (am.remove 1, [])

end AlertManager

open AlertManager

/-! ## Alternation -/

/-- What the last successful evaluation says of the rule. -/
def verdict (_ : AlertManager) (before : Status) : Event Value → Status
  | .evaluate (some value) _ => if shouldTriggerAlert rule value then .firing else .resolved
  | .evaluate none _ => before
  | .remove => before

/-- Firing and resolved take turns, firing first. -/
def Alternating (rounds : List Status) : Prop := IsChain (· ≠ ·) (.resolved :: rounds)

def FiresIfHeld (state : AlertManager × Status) (event : Event Value) : Prop :=
  verdict rule state.1 state.2 event = .firing →
    (state.1.step rule event).1.activeAlert = some .firing

structure NotifiesProperly (events : List (Event Value)) : Prop where
  rounds : Alternating (run (step rule) newAlertManager events).2
  fires : Along (tracked (step rule) (verdict rule)) (FiresIfHeld rule)
    (newAlertManager, .resolved) events

/-- A removal takes no firing alert, and none that the evaluation under way is to leave firing. -/
def Spares (am : AlertManager) : Event Value → Prop
  | .evaluate none _ => True
  | .evaluate (some value) meanwhile =>
    am.hit meanwhile = true → shouldTriggerAlert rule value = true → am.activeAlert = none
  | .remove => am.hit 1 = true → am.activeAlert ≠ some .firing

/-- The alert is firing if and only if the last successful evaluation said so. -/
def Faithful (state : AlertManager × Status) : Prop :=
  state.1.activeAlert = some .firing ↔ state.2 = .firing

variable {rule} {am : AlertManager} {before : Status}

section

variable (am) {value : Value} (meanwhile : Nat)

theorem evaluateRule_triggered (triggers : shouldTriggerAlert rule value = true) :
    (am.evaluateRule rule (some value) meanwhile).1.activeAlert =
        (if am.hit meanwhile = true ∧ am.activeAlert ≠ none then none else some .firing) ∧
      (am.evaluateRule rule (some value) meanwhile).2 =
        if am.activeAlert = some .firing then [] else [.firing] := by
  obtain ⟨active, removals⟩ := am
  simp only [evaluateRule, triggers]
  rcases active with _ | _ | _
  · exact ⟨by simp, rfl⟩
  all_goals
    refine ⟨?_, rfl⟩
    simp only [AlertManager.remove, setStatus]
    split <;> simp [*]

theorem evaluateRule_quiet (quiet : shouldTriggerAlert rule value = false) :
    (am.evaluateRule rule (some value) meanwhile).1.activeAlert ≠ some .firing ∧
      (am.evaluateRule rule (some value) meanwhile).2 =
        if am.activeAlert = some .firing then [.resolved] else [] := by
  obtain ⟨active, removals⟩ := am
  simp only [evaluateRule, quiet]
  rcases active with _ | _ | _
  all_goals
    refine ⟨?_, rfl⟩
    simp only [AlertManager.remove, setStatus]
    split <;> simp

end

/-- What one step does to an alert that follows the rule. -/
theorem step_spec (faithful : Faithful (am, before)) (event : Event Value) :
    (FiresIfHeld rule (am, before) event ↔ Spares rule am event) ∧
      (Spares rule am event →
        Faithful ((am.step rule event).1, verdict rule am before event) ∧
          (am.step rule event).2 = if verdict rule am before event = before then []
            else [verdict rule am before event]) := by
  unfold Faithful at faithful ⊢
  unfold FiresIfHeld
  dsimp only at faithful ⊢
  cases event with
  | remove =>
    simp only [verdict, step, AlertManager.remove, Spares, ← faithful]
    by_cases hit : am.hit 1 = true
    · -- the alert is gone, which is right unless it was firing
      rw [if_pos hit]
      refine ⟨by simp [hit], fun spares => ⟨iff_of_false ?_ (spares hit), (if_pos trivial).symm⟩⟩
      exact Option.some_ne_none _ ∘ Eq.symm
    · rw [if_neg hit]
      exact ⟨iff_of_true id fun isHit => absurd isHit hit, fun _ => ⟨.rfl, (if_pos trivial).symm⟩⟩
  | evaluate result meanwhile =>
    cases result with
    | none => exact ⟨iff_of_true faithful.mpr True.intro, fun _ => ⟨faithful, (if_pos rfl).symm⟩⟩
    | some value =>
      cases triggers : shouldTriggerAlert rule value with
      | true =>
        obtain ⟨alert, round⟩ := evaluateRule_triggered am meanwhile triggers
        have fires : (if am.hit meanwhile = true ∧ am.activeAlert ≠ none then none
            else some Status.firing) = some .firing ↔
              (am.hit meanwhile = true → am.activeAlert = none) := by
          rw [ite_eq_right_iff]
          simp
        simp only [verdict, step, Spares, triggers, if_true, alert, round, fires, true_imp_iff,
          iff_true, true_and, faithful]
        exact fun spares => ⟨spares, by simp only [eq_comm]⟩
      | false =>
        obtain ⟨alert, round⟩ := evaluateRule_quiet am meanwhile triggers
        simp only [verdict, step, Spares, triggers, Bool.false_eq_true, if_false, alert, round,
          reduceCtorEq, false_imp_iff, imp_true_iff, true_and, faithful]
        cases before <;> simp

theorem alternating_of_spares {events : List (Event Value)} (faithful : Faithful (am, before))
    (spares : Along (step rule) (Spares rule) am events) :
    IsChain (· ≠ ·) (before :: (run (step rule) am events).2) := by
  induction events generalizing am before with
  | nil => exact .singleton _
  | cons event events ih =>
    obtain ⟨kept, round⟩ := (step_spec faithful event).2 spares.1
    have later := ih kept spares.2
    rw [run_cons_output, round]
    split
    case isTrue same => rwa [same] at later
    case isFalse other => exact .cons_cons (Ne.symm other) later

/-- The notifications are in order exactly if no removal takes an alert that is firing or about
to. -/
theorem notifiesProperly_iff (rule : AlertRule Value) (events : List (Event Value)) :
    NotifiesProperly rule events ↔ Along (step rule) (Spares rule) newAlertManager events := by
  have start : Faithful (newAlertManager, .resolved) := by simp [Faithful, newAlertManager]
  have fires : Along (tracked (step rule) (verdict rule)) (FiresIfHeld rule)
      (newAlertManager, .resolved) events ↔ _ :=
    (along_iff_of_invariant Faithful
      (fun _ event faithful spares => ((step_spec faithful event).2 spares).1)
      (fun _ event faithful => (step_spec faithful event).1) start).trans
        (along_tracked_iff (fun _ _ => True) (fun _ _ _ _ => True.intro)
          (fun _ _ _ _ => Iff.rfl) True.intro)
  exact ⟨fun proper => fires.mp proper.fires,
    fun spares => ⟨alternating_of_spares start spares, fires.mpr spares⟩⟩

/-- The removal that the first resolution started takes the alert that fires again. -/
theorem refired_alert_removed :
    let rule : AlertRule Int := ⟨"gt", 0⟩
    let events : List (Event Int) := [.evaluate (some 1) 0, .evaluate (some 0) 0,
      .evaluate (some 1) 0, .remove, .evaluate (some 1) 0]
    (run (step rule) newAlertManager events).2 = [.firing, .resolved, .firing, .firing] ∧
      ¬ NotifiesProperly rule events := by
  refine ⟨by decide, fun proper => ?_⟩
  exact absurd proper.rounds (by unfold Alternating; decide)

end SiprecServer.Alerting
