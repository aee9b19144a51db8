import Mathlib.Algebra.Group.Int.Defs
import Mathlib.Algebra.Group.Nat.Defs
import SiprecServer.Lib.Transducer

/-!
# The split-brain detector

`split_brain.go`: a check that fails is passed over, so that only a check without quorum begins
the grace period, and the fencing key is set once and expires after an hour.  Times are
nanoseconds.
-/

namespace SiprecServer.Cluster

open Lib.Transducer

structure SplitBrainConfig where
  minQuorum : Int
  gracePeriod : Int
  enableFencing : Bool

structure Detector where
  now : Int := 0
  inGracePeriod : Bool := false
  partitionStartTime : Int := 0
  partitionDetected : Bool := false
  /-- When the fencing key in Redis expires, if it was set and not deleted. -/
  fencedUntil : Option Int := none

inductive Input where
  | wait (nanoseconds : Nat)
  /-- A check that reaches so many nodes, or that fails. -/
  | check (reachable : Option Nat)

section

variable (config : SplitBrainConfig) (s : Detector)

/-- The configuration that `NewSplitBrainDetector` keeps. -/
def withDefaults : SplitBrainConfig where
  minQuorum := if config.minQuorum = 0 then 2 else config.minQuorum
  gracePeriod := if config.gracePeriod = 0 then 15 * 10 ^ 9 else config.gracePeriod
  enableFencing := config.enableFencing

def isFenced : Bool := s.fencedUntil.any (s.now < ·)

def handlePartition (detected : Bool) : Detector :=
  if config.enableFencing then
    { s with fencedUntil := if detected then some (s.now + 3600 * 10 ^ 9) else none }
  else s

def checked : Option Nat → Detector
  | none => s
  | some reachable =>
    if reachable < config.minQuorum then
      if s.inGracePeriod then
        if config.gracePeriod < s.now - s.partitionStartTime ∧ !s.partitionDetected then
          handlePartition config { s with partitionDetected := true } true
        else s
      else { s with inGracePeriod := true, partitionStartTime := s.now }
    else if s.partitionDetected then
      handlePartition config { s with inGracePeriod := false, partitionDetected := false } false
    else { s with inGracePeriod := false }

def step : Input → Detector × List Unit
  | .wait nanoseconds => ({ s with now := s.now + nanoseconds }, [])
  | .check reachable => (checked config s reachable, [])

/-- When the current run of checks that failed or found no quorum began. -/
def began (s : Detector) (before : Option Int) : Input → Option Int
  | .wait _ => before
  | .check none => before.or s.now
  | .check (some reachable) => if reachable < config.minQuorum then before.or s.now else none

def overdue (began : Option Int) : Bool := began.any (config.gracePeriod < s.now - ·)

/-- A check leaves a partition reported exactly if the run began more than the grace period ago,
and the node is fenced exactly while one is reported. -/
def Reports (state : Detector × Option Int) (input : Input) : Prop :=
  let after := (step config state.1 input).1
  (∀ reachable, input = .check reachable →
      after.partitionDetected = overdue config after (began config state.1 state.2 input)) ∧
    isFenced after = after.partitionDetected

/-- The fencing key does not expire, and a check that comes more than the grace period after the
run began finds the partition reported, or no quorum and the grace period over. -/
def InTime (state : Detector × Option Int) : Input → Prop
  | .wait nanoseconds =>
    ∀ expires, state.1.fencedUntil = some expires → state.1.now + nanoseconds < expires
  | .check reachable => overdue config state.1 (began config state.1 state.2 (.check reachable)) →
      state.1.partitionDetected = true ∨ reachable.isSome ∧ state.1.inGracePeriod = true ∧
        config.gracePeriod < state.1.now - state.1.partitionStartTime

/-- The grace period begins within the run, and a partition is reported after it and fenced. -/
structure Sound (state : Detector × Option Int) : Prop where
  past : ∀ start, state.2 = some start → start ≤ state.1.now
  grace : state.1.inGracePeriod = true → ∃ start, state.2 = some start ∧
    start ≤ state.1.partitionStartTime
  detected : state.1.partitionDetected = true →
    state.1.inGracePeriod = true ∧ config.gracePeriod < state.1.now - state.1.partitionStartTime
  fenced : state.1.partitionDetected = true →
    ∃ expires, state.1.fencedUntil = some expires ∧ state.1.now < expires
  free : state.1.partitionDetected = false → state.1.fencedUntil = none

end

variable {config : SplitBrainConfig} {s : Detector} {before : Option Int}
  {state : Detector × Option Int} {input : Input}

theorem Sound.isFenced (sound : Sound config state) :
    isFenced state.1 = state.1.partitionDetected := by
  unfold Cluster.isFenced
  cases detected : state.1.partitionDetected with
  | false => rw [sound.free detected, Option.any_none]
  | true =>
    obtain ⟨expires, isSet, later⟩ := sound.fenced detected
    rw [isSet, Option.any_some, decide_eq_true later]

theorem Sound.overdue (sound : Sound config state) (reported : state.1.partitionDetected = true) :
    overdue config state.1 state.2 = true := by
  obtain ⟨inGrace, elapsed⟩ := sound.detected reported
  obtain ⟨start, isStart, early⟩ := sound.grace inGrace
  rw [Cluster.overdue, isStart, Option.any_some, decide_eq_true_iff]
  omega

theorem Sound.goesOn (sound : Sound config (s, before)) :
    Sound config (s, before.or (some s.now)) := by
  refine { sound with past := fun start isStart => ?_, grace := fun inGrace => ?_ }
  · cases before with
    | none =>
      cases isStart
      exact Int.le_refl _
    | some first => exact sound.past start isStart
  · obtain ⟨start, isStart, early⟩ := sound.grace inGrace
    exact ⟨start, congrArg (Option.or · _) isStart, early⟩

theorem Sound.wait (sound : Sound config (s, before)) {nanoseconds : Nat}
    (inTime : InTime config (s, before) (.wait nanoseconds)) :
    Sound config ({ s with now := s.now + nanoseconds }, before) := by
  refine { sound with past := ?_, detected := ?_, fenced := ?_ }
  · intro start isStart
    exact Int.le_trans (sound.past start isStart) (Int.le_add_of_nonneg_right (by omega))
  · intro reported
    obtain ⟨inGrace, elapsed⟩ := sound.detected reported
    exact ⟨inGrace, by dsimp only at elapsed ⊢; omega⟩
  · intro reported
    obtain ⟨expires, isSet, -⟩ := sound.fenced reported
    exact ⟨expires, isSet, inTime expires isSet⟩

theorem Sound.check (fencing : config.enableFencing = true) (sound : Sound config (s, before))
    (reachable : Option Nat) :
    Sound config (checked config s reachable, began config s before (.check reachable)) := by
  cases reachable with
  | none => exact sound.goesOn
  | some reachable =>
    have running := sound.goesOn
    simp only [checked, began]
    by_cases missing : reachable < config.minQuorum
    · rw [if_pos missing, if_pos missing]
      by_cases inGrace : s.inGracePeriod = true
      · rw [if_pos inGrace]
        split
        case isTrue elapsed =>
          rw [handlePartition, if_pos fencing, if_pos rfl]
          exact { running with
            detected := fun _ => ⟨inGrace, elapsed.1⟩
            fenced := fun _ => ⟨_, rfl, Int.lt_add_of_pos_right _ (by decide)⟩
            free := Bool.noConfusion }
        case isFalse => exact running
      · rw [if_neg inGrace]
        have unreported : s.partitionDetected ≠ true := fun reported =>
          inGrace (sound.detected reported).1
        obtain ⟨start, isStart⟩ : ∃ start, before.or (some s.now) = some start := by
          cases before <;> exact ⟨_, rfl⟩
        exact { running with
          grace := fun _ => ⟨start, isStart, running.past start isStart⟩
          detected := fun reported => absurd reported unreported }
    · -- the run is over, and with it the grace period and the fence
      rw [if_neg missing, if_neg missing]
      have noRun : ∀ start : Int, none = some start → start ≤ s.now := fun _ none_ => by
        cases none_
      split
      case isTrue reported =>
        rw [handlePartition, if_pos fencing]
        exact ⟨noRun, Bool.noConfusion, Bool.noConfusion, Bool.noConfusion, fun _ => rfl⟩
      case isFalse unreported =>
        exact ⟨noRun, Bool.noConfusion, fun reported => absurd reported unreported,
          sound.fenced, sound.free⟩

theorem Sound.step (fencing : config.enableFencing = true) (sound : Sound config state)
    (inTime : InTime config state input) :
    Sound config (tracked (step config) (began config) state input).1 := by
  cases input with
  | wait nanoseconds => exact sound.wait inTime
  | check reachable => exact sound.check fencing reachable

theorem checked_now (reachable : Option Nat) : (checked config s reachable).now = s.now := by
  unfold checked handlePartition
  split
  · rfl
  · split_ifs <;> rfl

/-- While a run goes on, a report stands, and one is made when the grace period is over. -/
theorem checked_detected {reachable : Option Nat}
    (running : began config s before (.check reachable) ≠ none) :
    (checked config s reachable).partitionDetected = true ↔
      s.partitionDetected = true ∨ reachable.isSome ∧ s.inGracePeriod = true ∧
        config.gracePeriod < s.now - s.partitionStartTime := by
  cases reachable with
  | none => simp [checked]
  | some reachable =>
    have missing : reachable < config.minQuorum := by
      by_contra quorum
      exact running (if_neg quorum)
    simp only [checked, if_pos missing, Option.isSome_some, true_and]
    by_cases inGrace : s.inGracePeriod = true
    · rw [if_pos inGrace, and_iff_right inGrace]
      split
      case isTrue elapsed =>
        refine iff_of_true ?_ (.inr elapsed.1)
        unfold handlePartition
        split <;> rfl
      case isFalse kept =>
        rw [or_iff_left_of_imp]
        intro elapsed
        simpa [elapsed] using kept
    · rw [if_neg inGrace, or_iff_left fun elapsed => inGrace elapsed.1]

theorem Sound.reports_iff (fencing : config.enableFencing = true) (sound : Sound config state) :
    Reports config state input ↔ InTime config state input := by
  obtain ⟨s, before⟩ := state
  cases input with
  | wait nanoseconds =>
    simp only [Reports, Cluster.step, InTime, reduceCtorEq, false_imp_iff, implies_true, true_and,
      Cluster.isFenced]
    cases reported : s.partitionDetected with
    | false =>
      have free : s.fencedUntil = none := sound.free reported
      simp [free]
    | true =>
      obtain ⟨expires, isSet, -⟩ := sound.fenced reported
      have isSet : s.fencedUntil = some expires := isSet
      simp only [isSet, Option.any_some, Option.some.injEq, forall_eq']
      exact decide_eq_true_iff
  | check reachable =>
    have after := sound.check fencing reachable
    have soon : Cluster.overdue config (checked config s reachable) =
        Cluster.overdue config s := by
      funext start
      rw [Cluster.overdue, checked_now, Cluster.overdue]
    have told := after.overdue
    rw [soon] at told
    have late : Reports config (s, before) (.check reachable) ↔
        (Cluster.overdue config s (began config s before (.check reachable)) = true →
          (checked config s reachable).partitionDetected = true) := by
      simp only [Reports, Cluster.step, soon, after.isFenced, and_true, Input.check.injEq,
        forall_eq']
      rw [Bool.eq_iff_iff]
      exact ⟨Iff.mpr, fun reports => ⟨told, reports⟩⟩
    rw [late]
    refine imp_congr_right fun isOverdue => ?_
    have running : began config s before (.check reachable) ≠ none := by
      intro elapsed
      rw [elapsed] at isOverdue
      cases isOverdue
    exact checked_detected running

/-- The reports and the fence are right exactly if no partition outlasts the fencing key and no
run outlasts the grace period by checks that fail or before a second one finds no quorum. -/
theorem partition_reports_iff (minQuorum gracePeriod : Int) (inputs : List Input) :
    let config := withDefaults ⟨minQuorum, gracePeriod, true⟩
    Along (tracked (step config) (began config)) (Reports config) ({}, none) inputs ↔
      Along (tracked (step config) (began config)) (InTime config) ({}, none) inputs := by
  intro config
  refine along_iff_of_invariant (Sound config) (fun _ _ sound inTime => sound.step rfl inTime)
    (fun _ _ sound => sound.reports_iff rfl) ?_
  constructor <;> simp

/-- After an hour and a minute of partition the node still reports it but is no longer fenced. -/
theorem fence_expires :
    let config := withDefaults ⟨2, 0, true⟩
    ¬ Along (tracked (step config) (began config)) (Reports config) ({}, none)
      [.check (some 1), .wait (20 * 10 ^ 9), .check (some 1), .wait (3660 * 10 ^ 9)] := by
  intro config reports
  exact absurd reports.2.2.2.1.2 (by decide)

end SiprecServer.Cluster
