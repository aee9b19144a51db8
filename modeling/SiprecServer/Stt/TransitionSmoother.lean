import SiprecServer.Lib.Transducer

/-!
# The locks of the language transition smoother

`StartTransition` takes `bufferMutex` and then the lock of a buffer; a segment that finalizes a
transition takes them the other way round.
-/

namespace SiprecServer.Stt.Transition

open Lib.Transducer List

inductive Lock where
  | bufferMutex
  | mutex (buffer : Nat)
deriving DecidableEq

/-- Where a goroutine waits for a lock; the first two are in `StartTransition`. -/
inductive Point where
  | starting (callUUID : String)
  | located (buffer : Nat)
  | adding (callUUID : String)
  | found (callUUID : String) (buffer : Nat)
  | finalizing (callUUID : String) (buffer : Nat)
deriving DecidableEq

def Point.wants : Point → Lock
  | .starting _ | .adding _ | .finalizing _ _ => .bufferMutex
  | .located buffer | .found _ buffer => .mutex buffer

def Point.holds : Point → Option Lock
  | .located _ => some .bufferMutex
  | .finalizing _ buffer => some (.mutex buffer)
  | _ => none

/-- Buffers are numbered as they are made: a goroutine may still have one that the map lost. -/
structure Smoother where
  transitionBuffers : String → Option Nat := fun _ => none
  nextBuffer : Nat := 0
  transitionStartTime : Nat → Int := fun _ => 0
  goroutines : List Point := []

inductive Input where
  | startTransition (callUUID : String)
  | addTranscriptionSegment (callUUID : String)
  /-- A goroutine runs from one wait to the next; `stable` is what `isTransitionStable` finds. -/
  | proceed (point : Point) (now : Int) (stable : Bool)

variable (smoother : Smoother)

def Smoother.isFree (lock : Lock) : Bool :=
  smoother.goroutines.all (·.holds ≠ some lock)

def blendingDuration : Int := 10000000000

def stabilizationPeriod : Int := 5000000000

/-- Times are in nanoseconds. -/
def Smoother.finalizes (buffer : Nat) (now : Int) (stable : Bool) : Bool :=
  let timeSinceTransition := now - smoother.transitionStartTime buffer
  if timeSinceTransition < blendingDuration then false
  else if timeSinceTransition < blendingDuration + stabilizationPeriod then stable
  else true

def Smoother.bufferOf (callUUID : String) : Nat :=
  (smoother.transitionBuffers callUUID).getD smoother.nextBuffer

/-- The next wait of a goroutine that got its lock, if it does not return. -/
def Smoother.next (now : Int) (stable : Bool) : Point → Option Point
  | .starting callUUID => some (.located (smoother.bufferOf callUUID))
  | .adding callUUID => (smoother.transitionBuffers callUUID).map (.found callUUID)
  | .found callUUID buffer =>
    if smoother.finalizes buffer now stable then some (.finalizing callUUID buffer) else none
  | _ => none

open Function in
def Smoother.written (now : Int) : Point → Smoother
  | .starting callUUID =>
    if (smoother.transitionBuffers callUUID).isSome then smoother
    else
      { smoother with
        transitionBuffers := update smoother.transitionBuffers callUUID smoother.nextBuffer
        nextBuffer := smoother.nextBuffer + 1 }
  | .located buffer =>
    { smoother with transitionStartTime := update smoother.transitionStartTime buffer now }
  | .finalizing callUUID _ =>
    { smoother with transitionBuffers := update smoother.transitionBuffers callUUID none }
  | _ => smoother

def step : Input → Smoother × List Unit
  | .startTransition callUUID =>
    ({ smoother with goroutines := .starting callUUID :: smoother.goroutines }, [])
  | .addTranscriptionSegment callUUID =>
    ({ smoother with goroutines := .adding callUUID :: smoother.goroutines }, [])
  | .proceed point now stable =>
    if point ∈ smoother.goroutines ∧ smoother.isFree point.wants then
      ({ smoother.written now point with
        goroutines := (smoother.next now stable point).toList ++ smoother.goroutines.erase point },
        [])
    else (smoother, [])

/-- Some goroutines wait, each for a lock that one of them holds. -/
def Deadlock : Prop :=
  ∃ waiting ⊆ smoother.goroutines, waiting ≠ [] ∧
    ∀ point ∈ waiting, ∃ other ∈ waiting, other.holds = some point.wants

/-- `StartTransition` gets `bufferMutex` while its buffer is being finalized, or a segment sets
out to finalize a buffer that `StartTransition` waits for. -/
def Crosses : Input → Prop
  | .proceed point now stable =>
    point ∈ smoother.goroutines ∧ smoother.isFree point.wants ∧
      match point with
      | .starting callUUID =>
        ∃ other, .finalizing other (smoother.bufferOf callUUID) ∈ smoother.goroutines
      | .found _ buffer =>
        smoother.finalizes buffer now stable ∧ .located buffer ∈ smoother.goroutines
      | _ => False
  | _ => False

variable {smoother}

section

variable {point : Point}

theorem holds_bufferMutex (holds : point.holds = some .bufferMutex) :
    ∃ buffer, point = .located buffer := by
  cases point with
  | located buffer => exact ⟨buffer, rfl⟩
  | _ => cases holds

theorem holds_mutex {buffer : Nat} (holds : point.holds = some (.mutex buffer)) :
    ∃ callUUID, point = .finalizing callUUID buffer := by
  cases point with
  | finalizing callUUID buffer =>
    cases holds
    exact ⟨callUUID, rfl⟩
  | _ => cases holds

end

/-- The only circle is a `StartTransition` and a finalization of one buffer. -/
theorem deadlock_iff : Deadlock smoother ↔ ∃ callUUID buffer,
    .located buffer ∈ smoother.goroutines ∧ .finalizing callUUID buffer ∈ smoother.goroutines := by
  constructor
  · rintro ⟨waiting, running, nonempty, waits⟩
    -- a `StartTransition` that waits for its buffer is in a circle with the one that has it
    have closes : ∀ buffer, .located buffer ∈ waiting → ∃ callUUID buffer,
        .located buffer ∈ smoother.goroutines ∧
          .finalizing callUUID buffer ∈ smoother.goroutines := by
      intro buffer located
      obtain ⟨other, mem, holds⟩ := waits _ located
      obtain ⟨callUUID, rfl⟩ := holds_mutex holds
      exact ⟨callUUID, buffer, running located, running mem⟩
    obtain ⟨point, mem⟩ := exists_mem_of_ne_nil _ nonempty
    obtain ⟨first, holder, holds⟩ := waits _ mem
    cases first with
    | located buffer => exact closes buffer holder
    | finalizing callUUID buffer =>
      obtain ⟨second, mem, holds⟩ := waits _ holder
      obtain ⟨other, rfl⟩ := holds_bufferMutex holds
      exact closes other mem
    | _ => cases holds
  · rintro ⟨callUUID, buffer, locating, finalizing⟩
    refine ⟨[.located buffer, .finalizing callUUID buffer], ?_, cons_ne_nil _ _, ?_⟩
    · exact cons_subset.mpr ⟨locating, cons_subset.mpr ⟨finalizing, nil_subset _⟩⟩
    · simp [Point.holds, Point.wants]

theorem deadlock_step (free : ¬ Deadlock smoother) (input : Input) :
    Deadlock (step smoother input).1 ↔ Crosses smoother input := by
  rw [deadlock_iff] at *
  cases input with
  | proceed point now stable =>
    cases point with
    | adding callUUID =>
      -- a segment that has read the map holds nothing
      cases read : smoother.transitionBuffers callUUID <;> grind [step, Crosses, Smoother.next]
    | _ => grind [step, Crosses, Smoother.next]
  | _ => simpa [step, Crosses] using free

theorem deadlockFree_iff (inputs : List Input) :
    Along step (fun smoother input => ¬ Deadlock (step smoother input).1) {} inputs ↔
      Along step (fun smoother input => ¬ Crosses smoother input) {} inputs := by
  refine along_iff_of_invariant (¬ Deadlock ·) ?_ ?_ (by simp [deadlock_iff])
  · intro smoother input free apart
    rwa [deadlock_step free]
  · intro smoother input free
    rw [deadlock_step free]

/-- The transition of a call is 20 seconds old when a segment and a new `StartTransition` meet. -/
theorem inverted_locks :
    Deadlock (run step {} [.startTransition "c", .proceed (.starting "c") 0 false,
      .proceed (.located 0) 0 false, .addTranscriptionSegment "c", .startTransition "c",
      .proceed (.adding "c") 20000000000 false, .proceed (.found "c" 0) 20000000000 false,
      .proceed (.starting "c") 20000000000 false]).1 :=
  ⟨[.located 0, .finalizing "c" 0], by decide, by decide, by decide⟩

end SiprecServer.Stt.Transition
