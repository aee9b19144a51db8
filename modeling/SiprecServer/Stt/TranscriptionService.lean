import SiprecServer.Lib.FileSystem
import SiprecServer.Lib.Transducer

/-!
# The transcription service

`PublishTranscription` puts an event into a buffered channel, a pool of workers takes events out
of it, and the worker of an event calls the listeners one after another.  A worker recovers from
a panic around all listeners of its event.  After `Shutdown` the workers return, each at some
time at which it waits for an event or a stop.

Whether a listener panics, which worker goes on and which way a worker takes when both an event
and the stop are ready is left open: the inputs of a run say it.
-/

namespace SiprecServer.Stt.TranscriptionService

open Lib.FileSystem (Store write remove)
open Lib.Transducer
open List hiding isEmpty_iff

abbrev Metadata (Value : Type) := List (String × Value)

/-- A `transcriptionEvent` that was accepted.  Which event it is in the order of acceptance, and
whether that was before `Shutdown`, only serves the specification. -/
structure Event (Value : Type) where
  number : Nat
  inTime : Bool
  callUUID : String
  transcription : String
  isFinal : Bool
  metadata : Metadata Value
deriving DecidableEq

/-- A listener, by its place among the registered ones, and an event for it. -/
abbrev Item (Value : Type) := Nat × Event Value

structure Delivery (Value : Type) where
  item : Item Value
  metadata : Metadata Value
deriving DecidableEq

/-- A worker has calls to make while it processes an event, and none while it waits. -/
structure Worker (Value : Type) where
  pending : List (Item Value) := []
  metadata : Metadata Value := []
  exited : Bool := false

structure Service (Value : Type) where
  listeners : Nat
  workers : List (Worker Value)
  eventChan : List (Event Value) := []
  stopped : Bool := false
  accepted : Nat := 0
  sessionMetadata : Store String (Metadata Value) := fun _ => none

inductive Input (Value : Type) where
  | publishTranscription (callUUID transcription : String) (isFinal : Bool)
      (metadata : Metadata Value)
  | setSessionMetadata (callUUID : String) (metadata : Metadata Value)
  | clearSessionMetadata (callUUID : String)
  /-- A worker receives from the channel. -/
  | take (worker : Nat)
  /-- A worker calls the next listener, which may panic. -/
  | call (worker : Nat) (panics : Bool)
  /-- A worker receives from `stopChan`. -/
  | exit (worker : Nat)
  | shutdown

variable {Value : Type}

def transcriptionChannelSize : Nat := 10000

def newTranscriptionService (workers listeners : Nat) : Service Value :=
  { listeners, workers := List.replicate workers {} }

section

variable (s : Service Value) (callUUID : String)

/-- The event that a call of `PublishTranscription` makes, if the channel has room for it. -/
def publishedEvent (transcription : String) (isFinal : Bool)
    (metadata : Metadata Value) : Option (Event Value) :=
  if transcription ≠ "" ∧ s.eventChan.length < transcriptionChannelSize then
    some { number := s.accepted, inTime := !s.stopped, callUUID, transcription, isFinal, metadata }
  else none

def publishTranscription (transcription : String) (isFinal : Bool)
    (metadata : Metadata Value) : Service Value :=
  match publishedEvent s callUUID transcription isFinal metadata with
  | some event => { s with eventChan := s.eventChan ++ [event], accepted := s.accepted + 1 }
  | none => s

def setSessionMetadata (metadata : Metadata Value) : Service Value :=
  if callUUID = "" ∨ metadata = [] then s
  else { s with sessionMetadata := write s.sessionMetadata callUUID metadata }

def clearSessionMetadata : Service Value :=
  if callUUID = "" then s else { s with sessionMetadata := remove s.sessionMetadata callUUID }

end

/-- The metadata of an event and of its session; those of the event count. -/
def mergeMetadata (session event : Metadata Value) : Metadata Value :=
  event ++ session.filter fun entry => entry.1 ∉ event.map Prod.fst

def itemsOf (listeners : Nat) (event : Event Value) : List (Item Value) :=
  (List.range listeners).map fun listener => (listener, event)

/-- The beginning of `processEvent`: session metadata and listeners are read. -/
def startEvent (s : Service Value) (event : Event Value) : Worker Value :=
  { pending := itemsOf s.listeners event
    metadata := mergeMetadata ((s.sessionMetadata event.callUUID).getD []) event.metadata }

def Waits (worker : Worker Value) : Prop := worker.pending = [] ∧ worker.exited = false

instance (worker : Worker Value) : Decidable (Waits worker) :=
  decidable_of_iff (worker.pending.isEmpty = true ∧ worker.exited = false) (by
    unfold Waits
    rw [List.isEmpty_iff])

def step (s : Service Value) : Input Value → Service Value × List (Delivery Value)
  | .publishTranscription callUUID transcription isFinal metadata =>
    (publishTranscription s callUUID transcription isFinal metadata, [])
  | .setSessionMetadata callUUID metadata => (setSessionMetadata s callUUID metadata, [])
  | .clearSessionMetadata callUUID => (clearSessionMetadata s callUUID, [])
  | .take w =>
    match s.workers[w]?, s.eventChan with
    | some worker, event :: rest =>
      if Waits worker then
        ({ s with workers := s.workers.set w (startEvent s event), eventChan := rest }, [])
      else (s, [])
    | _, _ => (s, [])
  | .call w panics =>
    match s.workers[w]? with
    | some worker =>
      match worker.pending with
      | [] => (s, [])
      | item :: rest =>
        -- The recovery stands outside of the loop over the listeners.
        let pending := if panics then [] else rest
        ({ s with workers := s.workers.set w { worker with pending } },
          [⟨item, worker.metadata⟩])
    | none => (s, [])
  | .exit w =>
    match s.workers[w]? with
    | some worker =>
      if s.stopped ∧ Waits worker then
        ({ s with workers := s.workers.set w { worker with exited := true } }, [])
      else (s, [])
    | none => (s, [])
  | .shutdown => ({ s with stopped := true }, [])

/-! ## The specification -/

def acceptedAt (s : Service Value) : Input Value → List (Event Value)
  | .publishTranscription callUUID transcription isFinal metadata =>
    (publishedEvent s callUUID transcription isFinal metadata).toList
  | _ => []

/-- Every event accepted before `Shutdown` is delivered once to each listener. -/
def ExactlyOnce [DecidableEq Value] (listeners : Nat) (accepted : List (Event Value))
    (deliveries : List (Delivery Value)) : Prop :=
  ∀ event ∈ accepted, event.inTime = true → ∀ listener < listeners,
    (deliveries.map Delivery.item).count (listener, event) = 1

def NotAfter (first second : Item Value) : Prop :=
  first.1 = second.1 → first.2.callUUID = second.2.callUUID → first.2.inTime = true →
    second.2.inTime = true → first.2.number ≤ second.2.number

/-- Each listener receives the events of a call in the order in which they were accepted. -/
def InOrder (deliveries : List (Delivery Value)) : Prop :=
  deliveries.Pairwise fun first second => NotAfter first.item second.item

section

variable (s : Service Value)

/-- The calls that workers have still to make and those that events in the channel ask for. -/
def owed : List (Item Value) :=
  s.workers.flatMap Worker.pending ++ s.eventChan.flatMap (itemsOf s.listeners)

def nextCalls : Input Value → List (Item Value)
  | .call w _ => ((s.workers[w]?).map Worker.pending).getD []
  | _ => []

def skipped : Input Value → List (Item Value)
  | .call w true => (nextCalls s (.call w true)).tail
  | _ => []

/-- No listener after the one that panics is left out. -/
def NotSkipping (input : Input Value) : Prop :=
  ∀ item ∈ skipped s input, item.2.inTime = false

/-- A listener is not called for an event while an earlier one of the same call is owed to it. -/
def NotOvertaking (input : Input Value) : Prop :=
  ∀ item ∈ (nextCalls s input).head?, ∀ other ∈ owed s, NotAfter item other

/-- No event that was accepted before `Shutdown` is left. -/
def NothingOwed : Prop := ∀ item ∈ owed s, item.2.inTime = false

end

/-- A run that has come to rest: no worker is within an event, and either the channel is empty
or the service was shut down and all workers returned. -/
structure SettledRun (Value : Type) where
  workers : Nat
  listeners : Nat
  inputs : List (Input Value)
  idle : ∀ worker ∈ (run step (newTranscriptionService workers listeners) inputs).1.workers,
    worker.pending = []
  rest : (run step (newTranscriptionService workers listeners) inputs).1.eventChan = [] ∨
    ((run step (newTranscriptionService workers listeners) inputs).1.stopped = true ∧
      ∀ worker ∈ (run step (newTranscriptionService workers listeners) inputs).1.workers,
        worker.exited = true)

namespace SettledRun

variable (r : SettledRun Value)

def start : Service Value := newTranscriptionService r.workers r.listeners

def final : Service Value := (run step r.start r.inputs).1

def deliveries : List (Delivery Value) := (run step r.start r.inputs).2

def accepted : List (Event Value) :=
  collect step acceptedAt r.start r.inputs

end SettledRun

/-! ## One step -/

def taken (s : Service Value) (input : Input Value) : List (Item Value) :=
  (acceptedAt s input).flatMap (itemsOf s.listeners)

variable {workers : List (Worker Value)} {w : Nat} {old : Worker Value}

section

variable (found : workers[w]? = some old)

include found

theorem exists_set (new : Worker Value) :
    ∃ front back, workers = front ++ old :: back ∧ workers.set w new = front ++ new :: back := by
  obtain ⟨inside, rfl⟩ := List.getElem?_eq_some_iff.mp found
  obtain ⟨front, back, whole, _, changed⟩ := @List.exists_of_set _ w new workers inside
  exact ⟨front, back, whole, changed⟩

theorem pending_set (new : Worker Value) :
    ((workers.set w new).flatMap Worker.pending ++ old.pending).Perm
      (workers.flatMap Worker.pending ++ new.pending) := by
  classical
  obtain ⟨front, back, whole, changed⟩ := exists_set found new
  rw [changed, whole, perm_iff_count]
  simp only [flatMap_append, flatMap_cons, count_append]
  omega

theorem pending_set_same {new : Worker Value} (same : new.pending = old.pending) :
    (workers.set w new).flatMap Worker.pending = workers.flatMap Worker.pending := by
  obtain ⟨front, back, whole, changed⟩ := exists_set found new
  rw [changed, whole, flatMap_append, flatMap_append, flatMap_cons, flatMap_cons, same]

end

structure Unmoved (s s' : Service Value) : Prop where
  owed : owed s' = owed s
  listeners : s'.listeners = s.listeners
  accepted : s'.accepted = s.accepted

theorem Unmoved.refl (s : Service Value) : Unmoved s s := ⟨rfl, rfl, rfl⟩

inductive StepCase (s : Service Value) :
    Input Value → Service Value × List (Delivery Value) → Prop where
  | quiet {input : Input Value} {s' : Service Value} (unmoved : Unmoved s s')
      (accepts : acceptedAt s input = []) (calls : nextCalls s input = []) :
      StepCase s input (s', [])
  | publish {input : Input Value} {event : Event Value} (accepts : acceptedAt s input = [event])
      (number : event.number = s.accepted) (calls : nextCalls s input = []) :
      StepCase s input
        ({ s with eventChan := s.eventChan ++ [event], accepted := s.accepted + 1 }, [])
  | take {w : Nat} {worker : Worker Value} {event : Event Value} {rest : List (Event Value)}
      (found : s.workers[w]? = some worker) (waits : worker.pending = [])
      (first : s.eventChan = event :: rest) :
      StepCase s (.take w)
        ({ s with workers := s.workers.set w (startEvent s event), eventChan := rest }, [])
  | call {w : Nat} {panics : Bool} {worker : Worker Value} {item : Item Value}
      {rest : List (Item Value)} (found : s.workers[w]? = some worker)
      (next : worker.pending = item :: rest) :
      StepCase s (.call w panics)
        ({ s with workers :=
            s.workers.set w { worker with pending := if panics then [] else rest } },
          [⟨item, worker.metadata⟩])

section

variable (s : Service Value) (input : Input Value) (inputs : List (Input Value))

theorem publish_cases (callUUID transcription : String) (isFinal : Bool)
    (metadata : Metadata Value) :
    StepCase s (.publishTranscription callUUID transcription isFinal metadata)
      (publishTranscription s callUUID transcription isFinal metadata, []) := by
  cases published : publishedEvent s callUUID transcription isFinal metadata with
  | none =>
    simp only [publishTranscription, published]
    refine .quiet (.refl s) ?_ rfl
    rw [acceptedAt, published, Option.toList_none]
  | some event =>
    simp only [publishTranscription, published]
    refine .publish ?_ ?_ rfl
    · rw [acceptedAt, published, Option.toList_some]
    · unfold publishedEvent at published
      split at published
      · obtain rfl := Option.some.inj published
        rfl
      · cases published

theorem call_cases (w : Nat) (panics : Bool) :
    StepCase s (.call w panics) (step s (.call w panics)) := by
  cases found : s.workers[w]? with
  | none =>
    simp only [step, found]
    refine .quiet (.refl s) rfl ?_
    simp only [nextCalls, found, Option.map_none, Option.getD_none]
  | some worker =>
    cases next : worker.pending with
    | nil =>
      simp only [step, found, next]
      refine .quiet (.refl s) rfl ?_
      simp only [nextCalls, found, next, Option.map_some, Option.getD_some]
    | cons item rest =>
      simp only [step, found, next]
      exact .call found next

theorem step_cases : StepCase s input (step s input) := by
  cases input with
  | publishTranscription callUUID transcription isFinal metadata =>
    exact publish_cases s callUUID transcription isFinal metadata
  | setSessionMetadata callUUID metadata =>
    refine .quiet ?_ rfl rfl
    unfold setSessionMetadata
    split
    · exact .refl s
    · exact ⟨rfl, rfl, rfl⟩
  | clearSessionMetadata callUUID =>
    refine .quiet ?_ rfl rfl
    unfold clearSessionMetadata
    split
    · exact .refl s
    · exact ⟨rfl, rfl, rfl⟩
  | take w =>
    unfold step
    dsimp only
    split
    · rename_i worker event rest found first
      by_cases waits : Waits worker
      · rw [if_pos waits]
        exact .take found waits.1 first
      · rw [if_neg waits]
        exact .quiet (.refl s) rfl rfl
    · exact .quiet (.refl s) rfl rfl
  | call w panics => exact call_cases s w panics
  | exit w =>
    unfold step
    dsimp only
    split
    · rename_i worker found
      split
      · refine .quiet ⟨?_, rfl, rfl⟩ rfl rfl
        have same : ({ worker with exited := true } : Worker Value).pending = worker.pending :=
          rfl
        simp only [owed, pending_set_same found same]
      · exact .quiet (.refl s) rfl rfl
    · exact .quiet (.refl s) rfl rfl
  | shutdown => exact .quiet ⟨rfl, rfl, rfl⟩ rfl rfl

theorem nextCalls_call {s : Service Value} {panics : Bool} {worker : Worker Value}
    (found : s.workers[w]? = some worker) : nextCalls s (.call w panics) = worker.pending := by
  rw [nextCalls, found, Option.map_some, Option.getD_some]

theorem listeners_step :
    (step s input).1.listeners = s.listeners := by
  have summary := step_cases s input
  generalize step s input = after at summary ⊢
  cases summary with
  | quiet unmoved accepts calls => exact unmoved.listeners
  | _ => rfl

theorem accepted_step :
    (step s input).1.accepted = s.accepted + (acceptedAt s input).length ∧
      ∀ event ∈ acceptedAt s input, event.number = s.accepted ∧ acceptedAt s input = [event] := by
  have summary := step_cases s input
  generalize step s input = after at summary ⊢
  cases summary with
  | quiet unmoved accepts calls =>
    rw [accepts]
    exact ⟨unmoved.accepted, fun event mem => absurd mem not_mem_nil⟩
  | publish accepts number calls =>
    rw [accepts]
    refine ⟨rfl, fun event mem => ?_⟩
    obtain rfl := mem_singleton.mp mem
    exact ⟨number, rfl⟩
  | take found waits first =>
    exact ⟨rfl, fun event mem => absurd mem not_mem_nil⟩
  | call found next => exact ⟨rfl, fun event mem => absurd mem not_mem_nil⟩

theorem delivered_step :
    (step s input).2.map Delivery.item = (nextCalls s input).head?.toList := by
  have summary := step_cases s input
  generalize step s input = after at summary ⊢
  cases summary with
  | quiet unmoved accepts calls =>
    rw [calls]
    rfl
  | publish accepts number calls =>
    rw [calls]
    rfl
  | take found waits first => rfl
  | call found next =>
    rw [nextCalls_call found, next]
    rfl

theorem skipped_eq_nil {s : Service Value} {input : Input Value} (calls : nextCalls s input = []) :
    skipped s input = [] := by
  cases input with
  | call w panics =>
    cases panics with
    | false => rfl
    | true => rw [skipped, calls, tail_nil]
  | _ => rfl

theorem step_accounts :
    ((step s input).2.map Delivery.item ++ skipped s input ++ owed (step s input).1).Perm
      (owed s ++ taken s input) := by
  classical
  have summary := step_cases s input
  rw [perm_iff_count]
  intro item
  generalize step s input = after at summary ⊢
  cases summary with
  | quiet unmoved accepts calls =>
    simp [skipped_eq_nil calls, taken, accepts, unmoved.owed]
  | publish accepts number calls =>
    rw [skipped_eq_nil calls, taken, accepts]
    simp [owed]
  | @take w worker event rest found waits first =>
    have exchanged := (perm_iff_count.mp (pending_set found (startEvent s event))) item
    rw [waits] at exchanged
    simp only [owed, taken, skipped, acceptedAt, first, startEvent, map_nil,
      flatMap_cons, flatMap_nil, append_nil, nil_append,
      count_append] at exchanged ⊢
    omega
  | @call w panics worker called rest found next =>
    have exchanged := (perm_iff_count.mp
      (pending_set found { worker with pending := if panics then [] else rest })) item
    rw [next] at exchanged
    cases panics with
    | false =>
      simp only [owed, taken, skipped, acceptedAt, map_cons, map_nil,
        flatMap_nil, append_nil, count_append, count_cons,
        count_nil, Bool.false_eq_true, if_false] at exchanged ⊢
      omega
    | true =>
      simp only [owed, taken, skipped, nextCalls_call found, next, acceptedAt, map_cons,
        map_nil, tail_cons, flatMap_nil, append_nil,
        count_append, count_cons, count_nil, if_true] at exchanged ⊢
      omega

theorem taken_run :
    collect step taken s inputs =
      (collect step acceptedAt s inputs).flatMap (itemsOf s.listeners) := by
  induction inputs generalizing s with
  | nil => rfl
  | cons input inputs ih =>
    rw [collect, ih, listeners_step, collect, flatMap_append]
    rfl

theorem accepted_ascending :
    (∀ event ∈ collect step acceptedAt s inputs, s.accepted ≤ event.number) ∧
      (collect step acceptedAt s inputs).Pairwise fun first second =>
        first.number < second.number := by
  induction inputs generalizing s with
  | nil => exact ⟨fun event mem => absurd mem not_mem_nil, .nil⟩
  | cons input inputs ih =>
    obtain ⟨counted, numbered⟩ := accepted_step s input
    obtain ⟨above, ascending⟩ := ih (step s input).1
    rw [collect, pairwise_append]
    constructor
    · intro event mem
      rcases mem_append.mp mem with here | later
      · exact Nat.le_of_eq (numbered event here).1.symm
      · have := above event later
        omega
    · refine ⟨?_, ascending, ?_⟩
      · cases accepts : acceptedAt s input with
        | nil => exact .nil
        | cons event rest =>
          obtain ⟨_, single⟩ := numbered event (accepts ▸ mem_cons_self)
          rw [← accepts, single]
          exact pairwise_singleton _ _
      · intro first here second later
        obtain ⟨number, single⟩ := numbered first here
        have := above second later
        rw [counted, single, length_singleton] at this
        omega

theorem itemsOf_nodup (listeners : Nat) (event : Event Value) :
    (itemsOf listeners event).Nodup := by
  refine List.Nodup.map ?_ nodup_range
  intro first second same
  exact congrArg Prod.fst same

theorem mem_itemsOf {listeners : Nat} {event : Event Value} {item : Item Value} :
    item ∈ itemsOf listeners event ↔ item.1 < listeners ∧ item.2 = event := by
  unfold itemsOf
  rw [mem_map]
  constructor
  · rintro ⟨listener, inside, rfl⟩
    exact ⟨mem_range.mp inside, rfl⟩
  · rintro ⟨inside, rfl⟩
    exact ⟨item.1, mem_range.mpr inside, rfl⟩

theorem taken_nodup :
    (collect step taken s inputs).Nodup := by
  rw [taken_run, nodup_flatMap]
  refine ⟨fun event _ => itemsOf_nodup _ event, ?_⟩
  refine (accepted_ascending s inputs).2.imp ?_
  intro first second less item here there
  rw [(mem_itemsOf.mp here).2.symm.trans (mem_itemsOf.mp there).2] at less
  exact absurd less (Nat.lt_irrefl _)

end

section Runs

variable {s : Service Value} {inputs : List (Input Value)}

variable (fresh : owed s = [])

include fresh

theorem run_accounts (inputs : List (Input Value)) :
    ((run step s inputs).2.map Delivery.item ++ collect step skipped s inputs ++
      owed (run step s inputs).1).Perm (collect step taken s inputs) := by
  have conserved := run_conserves_keys Delivery.item owed step_accounts s inputs
  rw [fresh, nil_append] at conserved
  exact conserved

theorem asked_of_mem {item : Item Value}
    (mem : item ∈ collect step skipped s inputs ∨ item ∈ owed (run step s inputs).1) :
    item.2 ∈ collect step acceptedAt s inputs ∧ item.1 < s.listeners := by
  have conserved := run_accounts fresh inputs
  rw [taken_run] at conserved
  have asked := conserved.mem_iff.mp (by
    rw [mem_append, mem_append, or_assoc]
    exact Or.inr mem)
  obtain ⟨event, accepted, inside⟩ := mem_flatMap.mp asked
  obtain ⟨registered, rfl⟩ := mem_itemsOf.mp inside
  exact ⟨accepted, registered⟩

variable [DecidableEq Value]

theorem count_run {listener : Nat} {event : Event Value}
    (accepted : event ∈ collect step acceptedAt s inputs) (registered : listener < s.listeners) :
    ((run step s inputs).2.map Delivery.item).count (listener, event) +
      (collect step skipped s inputs).count (listener, event) +
      (owed (run step s inputs).1).count (listener, event) = 1 := by
  have counted := (perm_iff_count.mp (run_accounts fresh inputs)) (listener, event)
  have mem : (listener, event) ∈ collect step taken s inputs := by
    rw [taken_run, mem_flatMap]
    exact ⟨event, accepted, mem_itemsOf.mpr ⟨registered, rfl⟩⟩
  rw [count_append, count_append, count_eq_one_of_mem (taken_nodup _ _) mem]
    at counted
  exact counted

theorem exactlyOnce_iff :
    ExactlyOnce s.listeners (collect step acceptedAt s inputs) (run step s inputs).2 ↔
      Along step NotSkipping s inputs ∧ NothingOwed (run step s inputs).1 := by
  have skips : Along step NotSkipping s inputs ↔
      ∀ item ∈ collect step skipped s inputs, item.2.inTime = false := forall_mem_collect_iff.symm
  rw [skips]
  constructor
  · intro once
    -- An item that was left out or is owed has no delivery left for it.
    have late : ∀ item : Item Value,
        (item ∈ collect step skipped s inputs ∨ item ∈ owed (run step s inputs).1) →
        item.2.inTime = false := by
      rintro ⟨listener, event⟩ mem
      by_contra inTime
      obtain ⟨accepted, registered⟩ := asked_of_mem fresh mem
      dsimp only at inTime accepted registered
      have counted := count_run fresh accepted registered
      rw [once event accepted (by simpa using inTime) listener registered] at counted
      have noneLeft : (collect step skipped s inputs).count (listener, event) = 0 := by omega
      have noneOwed : (owed (run step s inputs).1).count (listener, event) = 0 := by omega
      rcases mem with left | still
      · exact count_eq_zero.mp noneLeft left
      · exact count_eq_zero.mp noneOwed still
    exact ⟨fun item left => late item (.inl left), fun item still => late item (.inr still)⟩
  · rintro ⟨noSkip, noOwed⟩ event accepted inTime listener registered
    have counted := count_run fresh accepted registered
    have notLeft : (listener, event) ∉ collect step skipped s inputs := by
      intro left
      rw [noSkip _ left] at inTime
      cases inTime
    have notOwed : (listener, event) ∉ owed (run step s inputs).1 := by
      intro still
      rw [noOwed _ still] at inTime
      cases inTime
    rw [count_eq_zero_of_not_mem notLeft, count_eq_zero_of_not_mem notOwed] at counted
    exact counted

end Runs

variable {s : Service Value} {input : Input Value} {item : Item Value}

theorem nextCalls_owed (next : item ∈ nextCalls s input) : item ∈ owed s := by
  cases input with
  | call w panics =>
    cases found : s.workers[w]? with
    | none =>
      rw [nextCalls, found] at next
      exact absurd next not_mem_nil
    | some worker =>
      rw [nextCalls_call found] at next
      refine mem_append_left _ (mem_flatMap.mpr ⟨worker, ?_, next⟩)
      exact mem_of_getElem? found
  | _ => exact absurd next not_mem_nil

theorem delivery_next {delivery : Delivery Value} (delivered : delivery ∈ (step s input).2) :
    delivery.item ∈ (nextCalls s input).head? := by
  have mapped := mem_map_of_mem (f := Delivery.item) delivered
  rw [delivered_step, Option.mem_toList] at mapped
  exact mapped

theorem owed_step (still : item ∈ owed (step s input).1) :
    item ∈ owed s ∨ (item.2.number = s.accepted ∧ (step s input).1.accepted = s.accepted + 1) := by
  have before := (step_accounts s input).mem_iff.mp (mem_append_right _ still)
  rcases mem_append.mp before with already | new
  · exact .inl already
  · obtain ⟨event, accepts, inside⟩ := mem_flatMap.mp new
    obtain ⟨counted, numbered⟩ := accepted_step s input
    obtain ⟨number, single⟩ := numbered event accepts
    rw [single] at counted
    obtain ⟨_, rfl⟩ := mem_itemsOf.mp inside
    exact .inr ⟨number, counted⟩

/-- The deliveries so far are in order, and nothing owed belongs before one of them. -/
structure Orderly (s : Service Value) (past : List (Delivery Value)) : Prop where
  inOrder : InOrder past
  ahead : ∀ delivery ∈ past, ∀ item ∈ owed s, NotAfter delivery.item item
  delivered : ∀ delivery ∈ past, delivery.item.2.number < s.accepted
  numbered : ∀ item ∈ owed s, item.2.number < s.accepted

theorem step_inOrder (s : Service Value) (input : Input Value) : InOrder (step s input).2 := by
  have single := delivered_step s input
  cases list : (step s input).2 with
  | nil => exact .nil
  | cons first rest =>
    rw [list] at single
    cases head : (nextCalls s input).head? with
    | none =>
      rw [head] at single
      cases single
    | some item =>
      rw [head, Option.toList_some, map_cons] at single
      have none : rest = [] := map_eq_nil_iff.mp (List.cons.inj single).2
      rw [none]
      exact pairwise_singleton _ _

section

variable {past : List (Delivery Value)} {inputs : List (Input Value)}

theorem Orderly.after_step (orderly : Orderly s past) (follows : NotOvertaking s input) :
    Orderly (step s input).1 (past ++ (step s input).2) := by
  have grows : s.accepted ≤ (step s input).1.accepted := by
    rw [(accepted_step s input).1]
    exact Nat.le_add_right _ _
  -- A delivery was owed before the step, as were all others that remain, new ones apart.
  have wasOwed : ∀ delivery ∈ (step s input).2,
      delivery.item ∈ owed s := fun delivery here =>
    nextCalls_owed (mem_of_mem_head? (delivery_next here))
  constructor
  · refine pairwise_append.mpr ⟨orderly.inOrder, step_inOrder s input, ?_⟩
    intro before earlier delivery here
    exact orderly.ahead before earlier _ (wasOwed delivery here)
  · intro delivery mem item still
    rcases owed_step still with already | ⟨number, _⟩
    · rcases mem_append.mp mem with earlier | here
      · exact orderly.ahead delivery earlier item already
      · exact follows _ (delivery_next here) item already
    · intro _ _ _ _
      rcases mem_append.mp mem with earlier | here
      · have := orderly.delivered delivery earlier
        omega
      · have := orderly.numbered _ (wasOwed delivery here)
        omega
  · intro delivery mem
    rcases mem_append.mp mem with earlier | here
    · exact Nat.lt_of_lt_of_le (orderly.delivered delivery earlier) grows
    · exact Nat.lt_of_lt_of_le (orderly.numbered _ (wasOwed delivery here)) grows
  · intro item still
    rcases owed_step still with already | ⟨number, counted⟩
    · exact Nat.lt_of_lt_of_le (orderly.numbered item already) grows
    · omega

theorem Orderly.after_run (orderly : Orderly s past) (follows : Along step NotOvertaking s inputs) :
    InOrder (past ++ (run step s inputs).2) := by
  induction inputs generalizing s past with
  | nil =>
    rw [run_nil, append_nil]
    exact orderly.inOrder
  | cons input inputs ih =>
    rw [run_cons_output, ← append_assoc]
    exact ih (orderly.after_step follows.1) follows.2

theorem notOvertaking_of_inOrder (ordered : InOrder (run step s inputs).2)
    (noSkip : Along step NotSkipping s inputs) (noOwed : NothingOwed (run step s inputs).1) :
    Along step NotOvertaking s inputs := by
  induction inputs generalizing s with
  | nil => exact True.intro
  | cons input inputs ih =>
    obtain ⟨_, laterOrdered, across⟩ := pairwise_append.mp ordered
    refine ⟨?_, ih laterOrdered noSkip.2 noOwed⟩
    intro item next other isOwed sameListener sameCall inTime otherInTime
    have here : item ∈ (step s input).2.map Delivery.item := by
      rw [delivered_step, Option.mem_toList]
      exact next
    obtain ⟨delivery, delivered, isItem⟩ := mem_map.mp here
    have goes := (step_accounts s input).mem_iff.mpr (mem_append_left _ isOwed)
    rw [mem_append, mem_append, delivered_step, Option.mem_toList] at goes
    rcases goes with (now | left) | still
    · obtain rfl := Option.mem_unique now next
      exact Nat.le_refl _
    · rw [noSkip.1 other left] at otherInTime
      cases otherInTime
    · -- The rest of the run delivers the other item.
      have later := (run_conserves_keys Delivery.item owed step_accounts (step s input).1
        inputs).mem_iff.mpr (mem_append_left _ still)
      rw [mem_append, mem_append] at later
      rcases later with (comes | left) | stays
      · obtain ⟨second, deliveredLater, isOther⟩ := mem_map.mp comes
        have after := across delivery delivered second deliveredLater
        rw [isItem, isOther] at after
        exact after sameListener sameCall inTime otherInTime
      · rw [forall_mem_collect_iff.mpr noSkip.2 other left] at otherInTime
        cases otherInTime
      · rw [noOwed other stays] at otherInTime
        cases otherInTime

end

/-- A run that has come to rest delivered every event that was accepted before `Shutdown` exactly
once to each listener, and in the order of its call, exactly if no panic left out a listener, no
listener was called while an earlier event of the call was owed to it, and no such event is left
in the channel. -/
theorem delivered_exactlyOnce_inOrder_iff [DecidableEq Value] (r : SettledRun Value) :
    (ExactlyOnce r.listeners r.accepted r.deliveries ∧ InOrder r.deliveries) ↔
      Along step NotSkipping r.start r.inputs ∧ Along step NotOvertaking r.start r.inputs ∧
        NothingOwed r.final := by
  have fresh : owed r.start = [] := by
    unfold owed SettledRun.start newTranscriptionService
    rw [flatMap_nil, append_nil, flatMap_eq_nil_iff]
    intro worker member
    rw [eq_of_mem_replicate member]
  have once : ExactlyOnce r.listeners r.accepted r.deliveries ↔
      Along step NotSkipping r.start r.inputs ∧ NothingOwed r.final := exactlyOnce_iff fresh
  rw [once]
  constructor
  · rintro ⟨⟨noSkip, noOwed⟩, ordered⟩
    exact ⟨noSkip, notOvertaking_of_inOrder ordered noSkip noOwed, noOwed⟩
  · rintro ⟨noSkip, follows, noOwed⟩
    refine ⟨⟨noSkip, noOwed⟩, ?_⟩
    have orderly : Orderly r.start [] := by
      refine ⟨.nil, ?_, ?_, ?_⟩
      · exact fun delivery member => absurd member not_mem_nil
      · exact fun delivery member => absurd member not_mem_nil
      · rw [fresh]
        exact fun item member => absurd member not_mem_nil
    have ordered := orderly.after_run follows
    exact ordered

def panickingRun : SettledRun Unit where
  workers := 1
  listeners := 2
  inputs := [.publishTranscription "call" "hello" true [], .take 0, .call 0 true]
  idle := by decide
  rest := by decide

/-- The second listener never gets the event. -/
theorem panic_leaves_out_listener :
    ¬ ExactlyOnce panickingRun.listeners panickingRun.accepted panickingRun.deliveries := by
  intro once
  have delivered := once ⟨0, true, "call", "hello", true, []⟩ (by decide) rfl 1 (by decide)
  exact absurd delivered (by decide)

/-- Two workers deliver two events of a call to the only listener the other way round. -/
example : ((run step (newTranscriptionService 2 1 : Service Unit)
      [.publishTranscription "call" "one" false [], .publishTranscription "call" "two" true [],
        .take 0, .take 1, .call 1 false, .call 0 false]).2.map fun delivery =>
          delivery.item.2.transcription) = ["two", "one"] := by
  decide

/-- The only worker takes the stop rather than the event. -/
example : (run step (newTranscriptionService 1 1 : Service Unit)
    [.publishTranscription "call" "one" true [], .shutdown, .exit 0]).2 = [] := by
  decide

end SiprecServer.Stt.TranscriptionService
