import SiprecServer.Lib.Transducer

/-!
# Reads that pause

`Read` tests the flag under the lock and waits outside it.  `Pause` and `Resume` change the flag
and then signal under the lock.  The channels have no buffer, so a signal reaches the first call
that waits already, or nobody.
-/

namespace SiprecServer.Media

open Lib.Transducer

/-- The calls of `Read` that have not begun to read, by where they stand. -/
structure PausableReader where
  paused : Bool
  /-- `Pause` or `Resume` has changed the flag and is about to signal. -/
  signalling : Bool
  testing : List Nat
  /-- Calls that have found the flag set and do not wait yet. -/
  stopped : List Nat
  /-- Calls in the select, in the order in which they have come there. -/
  waiting : List Nat

inductive PauseEvent where
  | read (call : Nat)
  | test (call : Nat)
  | wait (call : Nat)
  | pause
  | resume
  | signal

namespace PausableReader

def newPausableReader : PausableReader := ⟨false, false, [], [], []⟩

section

variable (reader : PausableReader)

def signal : PausableReader :=
  match reader.waiting with
  | [] => { reader with signalling := false }
  | call :: later =>
    { reader with signalling := false, testing := reader.testing ++ [call], waiting := later }

def step : PauseEvent → PausableReader × List Nat
  | .read call => ({ reader with testing := reader.testing ++ [call] }, [])
  | .test call =>
    if call ∈ reader.testing ∧ reader.signalling = false then
      let tested := { reader with testing := reader.testing.erase call }
      if reader.paused then ({ tested with stopped := reader.stopped ++ [call] }, [])
      else (tested, [call])
    else (reader, [])
  | .wait call =>
    if call ∈ reader.stopped then
      ({ reader with
          stopped := reader.stopped.erase call
          waiting := reader.waiting ++ [call] }, [])
    else (reader, [])
  | .pause =>
    if reader.signalling = false ∧ reader.paused = false then
      ({ reader with paused := true, signalling := true }, [])
    else (reader, [])
  | .resume =>
    if reader.signalling = false ∧ reader.paused = true then
      ({ reader with paused := false, signalling := true }, [])
    else (reader, [])
  | .signal => (if reader.signalling then reader.signal else reader, [])

def NoneAsleep : Prop :=
  reader.paused = false → reader.signalling = false → reader.waiting = []

/-- A call that has found the reader paused begins to wait before the signal of `Resume`, and no
other call waits when that signal is sent. -/
def Awakened : PauseEvent → Prop
  | .wait call => call ∈ reader.stopped → reader.paused = true ∨ reader.signalling = true
  | .signal => reader.signalling = true → reader.paused = false → reader.waiting.length ≤ 1
  | _ => True

end

variable {reader : PausableReader}

theorem step_noneAsleep_iff (awake : reader.NoneAsleep) (event : PauseEvent) :
    (reader.step event).1.NoneAsleep ↔ reader.Awakened event := by
  cases event with
  | read call => exact iff_of_true awake True.intro
  | test call =>
    refine iff_of_true ?_ True.intro
    dsimp only [step]
    split
    · split
      · exact awake
      · exact awake
    · exact awake
  | wait call =>
    dsimp only [step, Awakened]
    by_cases stopped : call ∈ reader.stopped
    · rw [if_pos stopped]
      cases reader.paused <;> cases reader.signalling <;> simp [NoneAsleep, stopped]
    · rw [if_neg stopped]
      exact iff_of_true awake fun mem => absurd mem stopped
  | pause =>
    refine iff_of_true ?_ True.intro
    dsimp only [step]
    split
    · exact fun unpaused => nomatch unpaused
    · exact awake
  | resume =>
    refine iff_of_true ?_ True.intro
    dsimp only [step]
    split
    · exact fun _ quiet => nomatch quiet
    · exact awake
  | signal =>
    dsimp only [step, Awakened]
    cases signalling : reader.signalling with
    | true =>
      rw [if_pos rfl]
      unfold signal NoneAsleep
      cases reader.waiting <;> simp
    | false => exact iff_of_true awake fun wrong => nomatch wrong

/-- Over every interleaving, no call is left asleep exactly if every call is awakened in time. -/
theorem noneAsleep_along_iff (events : List PauseEvent) :
    Along step (fun reader event => (reader.step event).1.NoneAsleep) newPausableReader events ↔
      Along step Awakened newPausableReader events :=
  along_iff_of_invariant NoneAsleep
    (fun _ event awake awakened => (step_noneAsleep_iff awake event).mpr awakened)
    (fun _ event awake => step_noneAsleep_iff awake event) fun _ _ => rfl

/-- `Resume` comes between the test and the wait: the call sleeps and no signal is to come. -/
theorem resume_before_wait_unnoticed :
    let events := [.pause, .signal, .read 0, .test 0, .resume, .signal, .wait 0]
    (run step newPausableReader events).1 = ⟨false, false, [], [], [0]⟩ ∧
      ¬ Along step (fun reader event => (reader.step event).1.NoneAsleep) newPausableReader
        events := by
  refine ⟨rfl, fun awake => ?_⟩
  have asleep := awake.2.2.2.2.2.2.1 rfl rfl
  cases asleep

end PausableReader

end SiprecServer.Media
