import Mathlib.Data.Finset.Basic
import SiprecServer.Lib.Channel
import SiprecServer.Lib.Text
import SiprecServer.Lib.Transducer

/-!
# The transcription hub

The goroutine of the hub registers and unregisters clients and broadcasts to snapshots of its
indexes; the reading goroutine of each client subscribes, unsubscribes and answers through the
same channel that the hub closes.  A step is what one goroutine does under the lock of the hub
or at one channel; the order of map iterations is open.
-/

namespace SiprecServer.Http.TranscriptionHub

open Lib.Channel
open Lib.Text (isSpace)
open Lib.Transducer

def maxProtocolViolations : Nat := 3

def maxCallUUIDLength : Nat := 128

def sendBuffer : Nat := 256

inductive Stage where
  | absent
  /-- `ServeWs` waits for the hub to take the client. -/
  | connecting
  | reading
  /-- A message was handled and its answer is to be sent. -/
  | answering
  /-- `readPump` waits for the hub to unregister the client. -/
  | leaving
  | gone
deriving DecidableEq

structure Client where
  callUUID : String := ""
  send : Chan := {}
  stage : Stage := .absent
  violations : Nat := 0

inductive Phase where
  | selecting
  | registering (client : Nat)
  | received (callUUID : String)
  | listed (callSubscribers : Finset Nat)
  /-- Clients that this broadcast removed are kept for the specification. -/
  | sending (callSubscribers clients removed : Finset Nat)
  | finished

structure Hub where
  client : Nat → Client := fun _ => {}
  clients : Finset Nat := ∅
  callSubscribers : String → Finset Nat := fun _ => ∅
  phase : Phase := .selecting

/-- What makes a Go program panic here. -/
inductive Fault where
  | sendOnClosed (client : Nat)
  | closeOfClosed (client : Nat)
deriving DecidableEq

inductive Inbound where
  | notText
  | badJSON
  | message (type callUUID : String)
deriving DecidableEq

inductive Input where
  | serveWs (client : Nat) (callUUID : String)
  /-- `Run` receives from one of its channels or from its context. -/
  | register (client : Nat)
  | broadcast (callUUID : String)
  | unregister (client : Nat)
  | cancel
  /-- `Run` goes on; a loop over a map goes on with the given client. -/
  | hub (client : Nat)
  | inbound (client : Nat) (message : Inbound)
  | answer (client : Nat)
  | hangUp (client : Nat)
  /-- `writePump` receives a message. -/
  | drain (client : Nat)

/-! ## The code -/

section Code

variable (h : Hub)

section

variable (c : Nat)

def Hub.put (client : Client) : Hub :=
  { h with client := Function.update h.client c client }

def removeSubscriptionLocked : Hub :=
  let callUUID := (h.client c).callUUID
  if callUUID = "" then h
  else
    { h with callSubscribers :=
        Function.update h.callSubscribers callUUID ((h.callSubscribers callUUID).erase c) }

variable (callUUID : String)

def addSubscription : Hub :=
  { h with callSubscribers :=
      Function.update h.callSubscribers callUUID (insert c (h.callSubscribers callUUID)) }

def closeClient : Hub :=
  { h.put c { h.client c with send := close (h.client c).send } with
    clients := h.clients.erase c }

/-- `removeClient`, and the same lines in the case `h.unregister` of `Run`. -/
def removeClient : Hub × List Fault :=
  if c ∈ h.clients then
    (removeSubscriptionLocked (closeClient h c) c,
      if (h.client c).send.closed then [.closeOfClosed c] else [])
  else (h, [])

def subscribeToCall : Hub :=
  if (h.client c).callUUID = callUUID then h
  else
    addSubscription
      ((removeSubscriptionLocked h c).put c { h.client c with callUUID }) c callUUID

def unsubscribeFromCall : Hub :=
  if (h.client c).callUUID ≠ callUUID then h
  else (removeSubscriptionLocked h c).put c { h.client c with callUUID := "" }

def enqueueControlMessage : Hub × List Fault :=
  match trySend sendBuffer (h.client c).send with
  | .sent send => (h.put c { h.client c with send }, [])
  | .full => (h, [])
  | .panics => (h, [.sendOnClosed c])

def sendToClient : Hub × List Fault :=
  match trySend sendBuffer (h.client c).send with
  | .sent send => (h.put c { h.client c with send }, [])
  | .full => removeClient h c
  | .panics => (h, [.sendOnClosed c])

end

def isControl (c : Char) : Bool := c.toNat < 32 || (127 ≤ c.toNat && c.toNat < 160)

def validateCallUUID (callUUID : String) : Option String :=
  if callUUID = "" then some "call_uuid is required"
  else if maxCallUUIDLength < callUUID.utf8ByteSize then
    some "call_uuid exceeds maximum length of 128"
  else if callUUID.toList.any (fun c => isControl c || isSpace c) then
    some "call_uuid contains invalid characters"
  else none

/-- What `handleInboundMessage` does before it answers, whether it answers and whether it
returns an error. -/
structure Handled where
  hub : Hub
  answers : Bool
  violates : Bool

def handleInboundMessage (c : Nat) : Inbound → Handled
  | .notText => ⟨h, false, true⟩
  | .badJSON => ⟨h, false, true⟩
  | .message type callUUID =>
    if type = "ping" then ⟨h, true, false⟩
    else if type = "subscribe" then
      match validateCallUUID callUUID with
      | some _ => ⟨h, true, true⟩
      | none => ⟨subscribeToCall h c callUUID, true, false⟩
    else if type = "unsubscribe" then
      match validateCallUUID callUUID with
      | some _ => ⟨h, true, true⟩
      | none => ⟨unsubscribeFromCall h c callUUID, true, false⟩
    else ⟨h, false, true⟩

/-- `readPump` goes on to the next message unless there were too many violations. -/
def nextStage (violations : Nat) : Stage :=
  if maxProtocolViolations ≤ violations then .leaving else .reading

def inbound (c : Nat) (message : Inbound) : Hub :=
  let handled := handleInboundMessage h c message
  let client := handled.hub.client c
  let violations := client.violations + if handled.violates then 1 else 0
  let stage := if handled.answers then .answering else nextStage violations
  handled.hub.put c { client with violations, stage }

def answer (c : Nat) : Hub × List Fault :=
  let sent := enqueueControlMessage h c
  let client := sent.1.client c
  (sent.1.put c { client with stage := nextStage client.violations }, sent.2)

def goOn (c : Nat) : Hub × List Fault :=
  match h.phase with
  | .selecting => (h, [])
  | .finished => (h, [])
  | .registering d =>
    let entered : Hub := { h with clients := insert d h.clients, phase := .selecting }
    if (h.client d).callUUID ≠ "" then (addSubscription entered d (h.client d).callUUID, [])
    else (entered, [])
  | .received callUUID => ({ h with phase := .listed (h.callSubscribers callUUID) }, [])
  | .listed callSubscribers =>
    let clients := h.clients.filter fun d => (h.client d).callUUID = ""
    ({ h with phase := .sending callSubscribers clients ∅ }, [])
  | .sending callSubscribers clients removed =>
    if c ∈ callSubscribers then
      let sent := sendToClient h c
      let removed := if c ∈ h.clients ∧ c ∉ sent.1.clients then insert c removed else removed
      ({ sent.1 with phase := .sending (callSubscribers.erase c) clients removed }, sent.2)
    else if callSubscribers = ∅ ∧ c ∈ clients then
      let sent := sendToClient h c
      ({ sent.1 with phase := .sending ∅ (clients.erase c) removed }, sent.2)
    else if callSubscribers = ∅ ∧ clients = ∅ then ({ h with phase := .selecting }, [])
    else (h, [])

def Phase.isSelecting : Phase → Bool
  | .selecting => true
  | _ => false

def step : Input → Hub × List Fault
  | .serveWs c callUUID =>
    if (h.client c).stage = .absent then
      (h.put c { callUUID, stage := .connecting }, [])
    else (h, [])
  | .register c =>
    if h.phase.isSelecting ∧ (h.client c).stage = .connecting then
      ({ h.put c { h.client c with stage := .reading } with phase := .registering c }, [])
    else (h, [])
  | .broadcast callUUID =>
    if h.phase.isSelecting then ({ h with phase := .received callUUID }, []) else (h, [])
  | .unregister c =>
    if h.phase.isSelecting ∧ (h.client c).stage = .leaving then
      removeClient (h.put c { h.client c with stage := .gone }) c
    else (h, [])
  | .cancel => if h.phase.isSelecting then ({ h with phase := .finished }, []) else (h, [])
  | .hub c => goOn h c
  | .inbound c message =>
    if (h.client c).stage = .reading then (inbound h c message, []) else (h, [])
  | .answer c => if (h.client c).stage = .answering then answer h c else (h, [])
  | .hangUp c =>
    if (h.client c).stage = .reading then
      (h.put c { h.client c with stage := .leaving }, [])
    else (h, [])
  | .drain c => (h.put c { h.client c with send := receive (h.client c).send }, [])

end Code

section

variable (h : Hub) (c : Nat)

def Removed : Prop := (h.client c).send.closed = true

def Clean : Prop :=
  ∀ c, Removed h c → c ∉ h.clients ∧ ∀ callUUID, c ∉ h.callSubscribers callUUID

/-- The step sends on no closed channel, closes none twice and leaves the indexes clean. -/
def Safe (input : Input) : Prop := (step h input).2 = [] ∧ Clean (step h input).1

def Resubscribes (message : Inbound) : Prop :=
  ∃ callUUID, message = .message "subscribe" callUUID ∧ validateCallUUID callUUID = none ∧
    (h.client c).callUUID ≠ callUUID

/-- A client that was removed neither subscribes nor is answered, and a broadcast does not come
back to a client that it removed. -/
def Guarded : Input → Prop
  | .inbound c message =>
    (h.client c).stage = .reading → Resubscribes h c message → ¬ Removed h c
  | .answer c => (h.client c).stage = .answering → ¬ Removed h c
  | .hub c => ∀ clients removed, h.phase = .sending ∅ clients removed → c ∈ clients → c ∉ removed
  | _ => True

/-! ## The invariant -/

def Early : Prop :=
  (h.client c).stage = .absent ∨ (h.client c).stage = .connecting

def Phase.Sound : Phase → Prop
  | .registering c => ¬ Removed h c ∧ ¬ Early h c
  | .listed callSubscribers => ∀ c ∈ callSubscribers, ¬ Removed h c
  | .sending callSubscribers clients removed =>
    (∀ c ∈ callSubscribers, ¬ Removed h c) ∧ (∀ c ∈ clients, Removed h c → c ∈ removed) ∧
      ∀ c ∈ removed, Removed h c
  | _ => True

def Names (callUUID : String) : Prop :=
  callUUID ≠ "" ∧ (h.client c).callUUID = callUUID ∧ ¬ Early h c

def Indexed : Prop := ∀ callUUID, ∀ c ∈ h.callSubscribers callUUID, Names h c callUUID

end

structure Kept (h : Hub) : Prop where
  clean : Clean h
  indexed : Indexed h
  early : ∀ c, Early h c → ¬ Removed h c
  registered : ∀ c ∈ h.clients, ¬ Early h c

structure Sound (h : Hub) : Prop extends Kept h where
  phase : h.phase.Sound h

variable {phase : Phase} {d : Nat}

theorem Phase.Sound.congr {h h' : Hub} (same : ∀ c, Removed h' c ↔ Removed h c)
    (early : ∀ c, Early h' c → Early h c) (sound : phase.Sound h) : phase.Sound h' := by
  cases phase with
  | registering c =>
    exact ⟨fun removed => sound.1 ((same c).mp removed), fun isEarly => sound.2 (early c isEarly)⟩
  | listed callSubscribers => exact fun c mem removed => sound c mem ((same c).mp removed)
  | sending callSubscribers clients removed =>
    obtain ⟨first, second, known⟩ := sound
    exact ⟨fun c mem isRemoved => first c mem ((same c).mp isRemoved),
      fun c mem isRemoved => second c mem ((same c).mp isRemoved),
      fun c mem => (same c).mpr (known c mem)⟩
  | _ => exact True.intro

theorem Kept.withPhase {h : Hub} (kept : Kept h) (holds : phase.Sound h) : Sound { h with phase } :=
  ⟨{ kept with },
    holds.congr (fun _ => Iff.rfl) fun _ => id⟩

section Put

variable {h : Hub} {c : Nat} {client : Client}

@[simp]
theorem put_same : (h.put c client).client c = client := Function.update_self ..

theorem put_other (different : d ≠ c) : (h.put c client).client d = h.client d :=
  Function.update_of_ne different ..

variable
  (call : ∀ callUUID, c ∈ h.callSubscribers callUUID → client.callUUID = (h.client c).callUUID)
  (closed : client.send.closed = (h.client c).send.closed)
  (early : client.stage = .absent ∨ client.stage = .connecting → Early h c)

include closed in
theorem removed_put (d : Nat) : Removed (h.put c client) d ↔ Removed h d := by
  refine (Function.forall_update_iff h.client fun d client =>
    client.send.closed = true ↔ Removed h d).mpr ⟨?_, fun d _ => Iff.rfl⟩ d
  rw [closed]
  rfl

include early in
theorem early_put (d : Nat) : Early (h.put c client) d → Early h d :=
  (Function.forall_update_iff h.client fun d client =>
    client.stage = .absent ∨ client.stage = .connecting → Early h d).mpr ⟨early, fun _ _ => id⟩ d

include call closed early

theorem Kept.put (kept : Kept h) : Kept (h.put c client) := by
  constructor
  · intro d removed
    exact kept.clean d ((removed_put closed d).mp removed)
  · intro callUUID d mem
    obtain ⟨nonempty, names, late⟩ := kept.indexed callUUID d mem
    refine ⟨nonempty, ?_, fun isEarly => late (early_put early d isEarly)⟩
    by_cases same : d = c
    · rw [same] at mem names ⊢
      rw [put_same, call callUUID mem]
      exact names
    · rw [put_other same]
      exact names
  · intro d isEarly removed
    exact kept.early d (early_put early d isEarly) ((removed_put closed d).mp removed)
  · intro d mem isEarly
    exact kept.registered d mem (early_put early d isEarly)

theorem Sound.put (sound : Sound h) : Sound (h.put c client) :=
  ⟨sound.toKept.put call closed early, sound.phase.congr (removed_put closed) (early_put early)⟩

end Put

open Finset

section Subscriptions

variable {h : Hub} {c : Nat}

section

variable {index : String → Finset Nat} (entries : ∀ callUUID, ∀ d ∈ index callUUID,
  d ∈ h.callSubscribers callUUID ∨ (¬ Removed h d ∧ Names h d callUUID))

include entries

theorem Kept.reindex (kept : Kept h) : Kept { h with callSubscribers := index } := by
  refine ⟨?_, ?_, kept.early, kept.registered⟩
  · intro d removed
    obtain ⟨out, unlisted⟩ := kept.clean d removed
    refine ⟨out, fun callUUID mem => ?_⟩
    rcases entries callUUID d mem with old | new
    · exact unlisted callUUID old
    · exact new.1 removed
  · intro callUUID d mem
    rcases entries callUUID d mem with old | new
    · exact kept.indexed callUUID d old
    · exact new.2

theorem Sound.reindex (sound : Sound h) : Sound { h with callSubscribers := index } :=
  ⟨sound.toKept.reindex entries, sound.phase.congr (fun _ => Iff.rfl) fun _ => id⟩

end

def without (h : Hub) (c : Nat) : String → Finset Nat :=
  (removeSubscriptionLocked h c).callSubscribers

theorem removeSubscription_eq :
    removeSubscriptionLocked h c = { h with callSubscribers := without h c } := by
  unfold without removeSubscriptionLocked
  dsimp only
  split <;> rfl

variable {callUUID : String}

theorem mem_without (indexed : Indexed h) :
    d ∈ without h c callUUID ↔ d ∈ h.callSubscribers callUUID ∧ d ≠ c := by
  have named : d ∈ h.callSubscribers callUUID → d = c → Names h c callUUID := by
    intro mem same
    rw [← same]
    exact indexed callUUID d mem
  unfold without removeSubscriptionLocked
  by_cases none : (h.client c).callUUID = ""
  · rw [if_pos none]
    refine ⟨fun mem => ⟨mem, fun same => ?_⟩, And.left⟩
    obtain ⟨nonempty, names, _⟩ := named mem same
    exact nonempty (names.symm.trans none)
  · rw [if_neg none]
    dsimp only
    by_cases isCall : callUUID = (h.client c).callUUID
    · rw [isCall, Function.update_self, mem_erase, and_comm]
    · rw [Function.update_of_ne isCall]
      refine ⟨fun mem => ⟨mem, fun same => ?_⟩, And.left⟩
      exact isCall (named mem same).2.1.symm

theorem mem_addSubscription {other : String} :
    d ∈ (addSubscription h c callUUID).callSubscribers other ↔
      (d = c ∧ other = callUUID) ∨ d ∈ h.callSubscribers other := by
  unfold addSubscription
  by_cases same : other = callUUID
  · simp [same]
  · simp [same]

theorem Sound.rename (sound : Sound h) :
    Sound ((removeSubscriptionLocked h c).put c { h.client c with callUUID }) := by
  rw [removeSubscription_eq]
  have unlisted : Sound { h with callSubscribers := without h c } :=
    sound.reindex fun other d mem => .inl ((mem_without sound.indexed).mp mem).1
  refine unlisted.put ?_ rfl id
  intro other mem
  exact absurd rfl ((mem_without sound.indexed).mp mem).2

theorem Sound.addSubscription (sound : Sound h) (names : Names h c callUUID)
    (present : ¬ Removed h c) : Sound (addSubscription h c callUUID) := by
  refine sound.reindex fun other d mem => ?_
  rcases mem_addSubscription.mp mem with ⟨rfl, rfl⟩ | already
  · exact .inr ⟨present, names⟩
  · exact .inl already

theorem validate_nonempty (valid : validateCallUUID callUUID = none) : callUUID ≠ "" := by
  intro empty
  unfold validateCallUUID at valid
  rw [if_pos empty] at valid
  cases valid

theorem Sound.subscribe (sound : Sound h) (nonempty : callUUID ≠ "") (late : ¬ Early h c)
    (present : (h.client c).callUUID ≠ callUUID → ¬ Removed h c) :
    Sound (subscribeToCall h c callUUID) := by
  unfold subscribeToCall
  by_cases already : (h.client c).callUUID = callUUID
  · rw [if_pos already]
    exact sound
  · rw [if_neg already]
    refine sound.rename.addSubscription ⟨nonempty, ?_, ?_⟩ ?_
    · rw [put_same]
    · unfold Early
      rw [put_same]
      exact late
    · unfold Removed
      rw [put_same]
      exact present already

theorem Sound.unsubscribe (sound : Sound h) : Sound (unsubscribeFromCall h c callUUID) := by
  unfold unsubscribeFromCall
  split
  · exact sound
  · exact sound.rename

end Subscriptions

/-! ## Sends and removals -/

section Sends

variable {h : Hub} {c : Nat}

/-- What a send or a removal comes to: no fault, and a registered client may be removed. -/
structure Outcome (h : Hub) (c : Nat) (result : Hub × List Fault) : Prop where
  faultless : result.2 = []
  kept : Kept result.1
  removed : ∀ d, Removed result.1 d ↔
    Removed h d ∨ (d = c ∧ c ∈ h.clients ∧ c ∉ result.1.clients)

theorem Outcome.nothing (kept : Kept h) : Outcome h c (h, []) :=
  ⟨rfl, kept, fun _ => ⟨.inl, fun either => either.resolve_right fun both => both.2.2 both.2.1⟩⟩

theorem removed_close (d : Nat) : Removed (closeClient h c) d ↔ Removed h d ∨ d = c := by
  refine (Function.forall_update_iff h.client fun d client =>
    client.send.closed = true ↔ Removed h d ∨ d = c).mpr ⟨?_, ?_⟩ d
  · exact ⟨fun _ => .inr rfl, fun _ => rfl⟩
  · exact fun d different => ⟨.inl, fun either => either.resolve_right different⟩

theorem early_close (d : Nat) : Early (closeClient h c) d ↔ Early h d := by
  refine (Function.forall_update_iff h.client fun d client =>
    client.stage = .absent ∨ client.stage = .connecting ↔ Early h d).mpr ⟨?_, ?_⟩ d
  · exact Iff.rfl
  · exact fun d _ => Iff.rfl

theorem indexed_close (indexed : Indexed h) : Indexed (closeClient h c) := by
  intro callUUID d mem
  obtain ⟨nonempty, names, late⟩ := indexed callUUID d mem
  refine ⟨nonempty, ?_, fun isEarly => late ((early_close d).mp isEarly)⟩
  by_cases same : d = c
  · rw [same] at names ⊢
    rw [closeClient]
    rw [put_same]
    exact names
  · rw [closeClient]
    rw [put_other same]
    exact names

theorem removeClient_outcome (kept : Kept h) : Outcome h c (removeClient h c) := by
  unfold removeClient
  by_cases registered : c ∈ h.clients
  · rw [if_pos registered]
    have isOpen : ¬ Removed h c := fun removed => (kept.clean c removed).1 registered
    have indexed := indexed_close (c := c) kept.indexed
    rw [removeSubscription_eq]
    refine ⟨if_neg isOpen, ⟨?_, ?_, ?_, ?_⟩, ?_⟩
    · intro d removed
      rcases (removed_close d).mp removed with before | rfl
      · obtain ⟨out, unlisted⟩ := kept.clean d before
        exact ⟨fun mem => out (mem_of_mem_erase mem),
          fun callUUID mem => unlisted callUUID ((mem_without indexed).mp mem).1⟩
      · exact ⟨notMem_erase d h.clients,
          fun callUUID mem => ((mem_without indexed).mp mem).2 rfl⟩
    · intro callUUID d mem
      exact indexed callUUID d ((mem_without indexed).mp mem).1
    · intro d isEarly removed
      have before := (early_close d).mp isEarly
      rcases (removed_close d).mp removed with already | rfl
      · exact kept.early d before already
      · exact kept.registered d registered before
    · intro d mem isEarly
      exact kept.registered d (mem_of_mem_erase mem) ((early_close d).mp isEarly)
    · intro d
      refine (removed_close d).trans (or_congr_right ?_)
      exact ⟨fun same => ⟨same, registered, notMem_erase c h.clients⟩, And.left⟩
  · rw [if_neg registered]
    exact .nothing kept

theorem removeClient_phase : (removeClient h c).1.phase = h.phase := by
  unfold removeClient
  split
  · rw [removeSubscription_eq]
    rfl
  · rfl

theorem not_removed (isOpen : (h.client c).send.closed = false) : ¬ Removed h c := by
  rw [Removed, isOpen]
  exact Bool.false_ne_true

theorem sendToClient_outcome (kept : Kept h) (present : ¬ Removed h c) :
    Outcome h c (sendToClient h c) := by
  unfold sendToClient
  rcases trySend_cases sendBuffer (h.client c).send with ⟨closed, _⟩ | ⟨isOpen, full | sent⟩
  · exact absurd closed present
  · rw [full]
    exact removeClient_outcome kept
  · rw [sent]
    refine ⟨rfl, kept.put (fun _ _ => rfl) rfl id, fun d => ?_⟩
    refine Iff.trans (removed_put (by rfl) d) ?_
    exact ⟨.inl, fun either => either.resolve_right fun both => both.2.2 both.2.1⟩

theorem sendToClient_removed (removed : Removed h c) :
    (sendToClient h c).2 = [.sendOnClosed c] := by
  unfold sendToClient
  rcases trySend_cases sendBuffer (h.client c).send with ⟨_, panics⟩ | ⟨isOpen, _⟩
  · rw [panics]
  · exact absurd removed (not_removed isOpen)

theorem enqueue_outcome (sound : Sound h) :
    Sound (enqueueControlMessage h c).1 ∧
      ((enqueueControlMessage h c).2 = [] ↔ ¬ Removed h c) := by
  unfold enqueueControlMessage
  rcases trySend_cases sendBuffer (h.client c).send with ⟨closed, panics⟩ | ⟨isOpen, full | sent⟩
  · rw [panics]
    exact ⟨sound, iff_of_false (List.cons_ne_nil _ _) (not_not_intro closed)⟩
  · rw [full]
    exact ⟨sound, iff_of_true rfl (not_removed isOpen)⟩
  · rw [sent]
    exact ⟨sound.put (fun _ _ => rfl) rfl id, iff_of_true rfl (not_removed isOpen)⟩

end Sends

section Run

variable {h : Hub} {c : Nat}

variable (sound : Sound h)

include sound

theorem Sound.register (phase : h.phase = .registering d) :
    Sound (goOn h c).1 ∧ (goOn h c).2 = [] := by
  have holds := sound.phase
  rw [phase] at holds
  obtain ⟨present, notEarly⟩ := holds
  have entered : Sound { h with clients := insert d h.clients, phase := .selecting } := by
    refine ⟨⟨?_, sound.indexed, sound.early, ?_⟩, True.intro⟩
    · intro e removed
      obtain ⟨out, unlisted⟩ := sound.clean e removed
      refine ⟨fun mem => ?_, unlisted⟩
      rcases mem_insert.mp mem with rfl | already
      · exact present removed
      · exact out already
    · intro e mem
      rcases mem_insert.mp mem with rfl | already
      · exact notEarly
      · exact sound.registered e already
  unfold goOn
  rw [phase]
  dsimp only
  by_cases subscribes : (h.client d).callUUID ≠ ""
  · rw [if_pos subscribes]
    exact ⟨entered.addSubscription ⟨subscribes, rfl, notEarly⟩ present, rfl⟩
  · rw [if_neg subscribes]
    exact ⟨entered, rfl⟩

variable {clients removed : Finset Nat}

theorem Sound.sendFirst {callSubscribers : Finset Nat}
    (phase : h.phase = .sending callSubscribers clients removed) (mem : c ∈ callSubscribers) :
    Sound (goOn h c).1 ∧ (goOn h c).2 = [] := by
  have holds := sound.phase
  rw [phase] at holds
  obtain ⟨first, second, known⟩ := holds
  have outcome := sendToClient_outcome sound.toKept (first c mem)
  unfold goOn
  rw [phase]
  dsimp only
  rw [if_pos mem]
  refine ⟨outcome.kept.withPhase ⟨?_, ?_, ?_⟩, outcome.faultless⟩
  · intro d inFirst isRemoved
    obtain ⟨different, before⟩ := mem_erase.mp inFirst
    rcases (outcome.removed d).mp isRemoved with already | now
    · exact first d before already
    · exact different now.1
  · intro d inSecond isRemoved
    rcases (outcome.removed d).mp isRemoved with already | ⟨rfl, now⟩
    · have noted := second d inSecond already
      split
      · exact mem_insert_of_mem noted
      · exact noted
    · rw [if_pos now]
      exact mem_insert_self d removed
  · intro d noted
    rw [outcome.removed d]
    split at noted
    · rename_i now
      rcases mem_insert.mp noted with rfl | before
      · exact .inr ⟨rfl, now⟩
      · exact .inl (known d before)
    · exact .inl (known d noted)

theorem Sound.sendSecond (phase : h.phase = .sending ∅ clients removed) (mem : c ∈ clients)
    (fresh : c ∉ removed) : Sound (goOn h c).1 ∧ (goOn h c).2 = [] := by
  have holds := sound.phase
  rw [phase] at holds
  obtain ⟨first, second, known⟩ := holds
  have outcome := sendToClient_outcome sound.toKept fun gone => fresh (second c mem gone)
  unfold goOn
  rw [phase]
  dsimp only
  rw [if_neg (notMem_empty c), if_pos ⟨rfl, mem⟩]
  refine ⟨outcome.kept.withPhase ⟨?_, ?_, ?_⟩, outcome.faultless⟩
  · exact fun d none => absurd none (notMem_empty d)
  · intro d inSecond isRemoved
    obtain ⟨different, before⟩ := mem_erase.mp inSecond
    rcases (outcome.removed d).mp isRemoved with already | now
    · exact second d before already
    · exact absurd now.1 different
  · intro d noted
    exact (outcome.removed d).mpr (.inl (known d noted))

theorem Sound.goOn (guarded : Guarded h (.hub c)) : Sound (goOn h c).1 ∧ (goOn h c).2 = [] := by
  cases phase : h.phase with
  | registering d => exact sound.register phase
  | sending callSubscribers clients removed =>
    by_cases inFirst : c ∈ callSubscribers
    · exact sound.sendFirst phase inFirst
    · by_cases inSecond : callSubscribers = ∅ ∧ c ∈ clients
      · obtain ⟨rfl, mem⟩ := inSecond
        exact sound.sendSecond phase mem (guarded clients removed phase mem)
      · simp only [TranscriptionHub.goOn, phase, if_neg inFirst, if_neg inSecond]
        exact ite_keeps sound fun _ => ⟨sound.toKept.withPhase True.intro, rfl⟩
  | selecting =>
    simp only [TranscriptionHub.goOn, phase]
    exact ⟨sound, True.intro⟩
  | finished =>
    simp only [TranscriptionHub.goOn, phase]
    exact ⟨sound, True.intro⟩
  | received callUUID =>
    simp only [TranscriptionHub.goOn, phase]
    refine ⟨sound.toKept.withPhase ?_, True.intro⟩
    exact fun d mem removed => (sound.clean d removed).2 callUUID mem
  | listed callSubscribers =>
    have holds := sound.phase
    rw [phase] at holds
    simp only [TranscriptionHub.goOn, phase]
    refine ⟨sound.toKept.withPhase ⟨holds, ?_, ?_⟩, True.intro⟩
    · intro d mem removed
      exact absurd (mem_filter.mp mem).1 (sound.clean d removed).1
    · exact fun d none => absurd none (notMem_empty d)

end Run

section Clients

variable {h : Hub} {c : Nat}

theorem nextStage_late (violations : Nat) :
    ¬ (nextStage violations = .absent ∨ nextStage violations = .connecting) := by
  unfold nextStage
  split <;> decide

variable {message : Inbound}

section

variable (sound : Sound h) (late : ¬ Early h c) (guarded : Resubscribes h c message → ¬ Removed h c)

include sound late guarded

theorem Sound.handled : Sound (handleInboundMessage h c message).hub := by
  cases message with
  | notText => exact sound
  | badJSON => exact sound
  | message type callUUID =>
    unfold handleInboundMessage
    dsimp only
    split
    · exact sound
    · split
      · rename_i isSubscribe
        split
        · exact sound
        · rename_i valid
          refine sound.subscribe (validate_nonempty valid) late fun moves => ?_
          exact guarded ⟨callUUID, by rw [isSubscribe], valid, moves⟩
      · split
        · split
          · exact sound
          · exact sound.unsubscribe
        · exact sound

theorem Sound.inbound : Sound (inbound h c message) := by
  refine (sound.handled late guarded).put (fun _ _ => rfl) rfl ?_
  dsimp only
  split
  · exact fun early => absurd early (by decide)
  · exact fun early => absurd early (nextStage_late _)

end

open TranscriptionHub

theorem inbound_dirty (moves : Resubscribes h c message) (removed : Removed h c) :
    ¬ Clean (inbound h c message) := by
  obtain ⟨callUUID, rfl, valid, different⟩ := moves
  have handled : handleInboundMessage h c (.message "subscribe" callUUID) =
      ⟨subscribeToCall h c callUUID, true, false⟩ := by
    unfold handleInboundMessage
    dsimp only
    rw [if_neg (by decide), if_pos rfl, valid]
  intro clean
  have listed : c ∈ (inbound h c
      (.message "subscribe" callUUID)).callSubscribers callUUID := by
    unfold inbound
    rw [handled]
    unfold subscribeToCall
    rw [if_neg different]
    exact mem_addSubscription.mpr (.inl ⟨rfl, rfl⟩)
  have still : Removed (inbound h c (.message "subscribe" callUUID)) c := by
    unfold inbound
    rw [handled]
    unfold Removed subscribeToCall
    rw [if_neg different, put_same]
    unfold addSubscription
    rw [put_same]
    exact removed
  exact (clean c still).2 callUUID listed

theorem Sound.answer (sound : Sound h) :
    Sound (answer h c).1 ∧ ((answer h c).2 = [] ↔ ¬ Removed h c) := by
  obtain ⟨queued, faultless⟩ := enqueue_outcome (c := c) sound
  refine ⟨queued.put (fun _ _ => rfl) rfl ?_, faultless⟩
  exact fun early => absurd early (nextStage_late _)

end Clients

section Runs

variable {h : Hub}

variable {c : Nat}

variable (sound : Sound h)

include sound

theorem Sound.serveWs (fresh : (h.client c).stage = .absent) (callUUID : String) :
    Sound (h.put c { callUUID, stage := .connecting }) := by
  have isEarly : Early h c := .inl fresh
  refine sound.put ?_ ?_ fun _ => isEarly
  · intro call mem
    exact absurd isEarly (sound.indexed call c mem).2.2
  · exact (Bool.eq_false_iff.mpr (sound.early c isEarly)).symm

theorem Sound.stage {stage : Stage} (late : ¬ (stage = .absent ∨ stage = .connecting)) :
    Sound (h.put c { h.client c with stage }) :=
  sound.put (fun _ _ => rfl) rfl fun isEarly => absurd isEarly late

omit sound in
theorem isSelecting_sound (selecting : phase.isSelecting = true) : phase.Sound h := by
  cases phase with
  | selecting => exact True.intro
  | _ => cases selecting

theorem Sound.take (waits : (h.client c).stage = .connecting) :
    Sound { h.put c { h.client c with stage := .reading } with phase := .registering c } := by
  have late : ¬ (Stage.reading = .absent ∨ Stage.reading = .connecting) := by decide
  refine (sound.stage late).toKept.withPhase ⟨?_, ?_⟩
  · intro removed
    exact sound.early c (.inr waits) ((removed_put (by rfl) c).mp removed)
  · rw [Early, put_same]
    exact late

theorem Sound.unregister (selecting : h.phase.isSelecting = true) :
    Sound (removeClient (h.put c { h.client c with stage := .gone }) c).1 ∧
      (removeClient (h.put c { h.client c with stage := .gone }) c).2 = [] := by
  have gone : Sound (h.put c { h.client c with stage := .gone }) := sound.stage (by decide)
  have outcome := removeClient_outcome (c := c) gone.toKept
  refine ⟨⟨outcome.kept, isSelecting_sound ?_⟩, outcome.faultless⟩
  rw [removeClient_phase]
  exact selecting

theorem Sound.step {input : Input} (guarded : Guarded h input) :
    Sound (step h input).1 ∧ (step h input).2 = [] := by
  cases input with
  | serveWs c callUUID => exact ite_keeps sound fun fresh => ⟨sound.serveWs fresh callUUID, rfl⟩
  | register c => exact ite_keeps sound fun waits => ⟨sound.take waits.2, rfl⟩
  | broadcast callUUID => exact ite_keeps sound fun _ => ⟨sound.toKept.withPhase True.intro, rfl⟩
  | unregister c => exact ite_keeps sound fun waits => sound.unregister waits.1
  | cancel => exact ite_keeps sound fun _ => ⟨sound.toKept.withPhase True.intro, rfl⟩
  | hub c => exact sound.goOn guarded
  | inbound c message =>
    refine ite_keeps sound fun reading => ⟨sound.inbound ?_ (guarded reading), rfl⟩
    rw [Early, reading]
    decide
  | answer c =>
    refine ite_keeps sound fun answering => ?_
    obtain ⟨answered, faultless⟩ := sound.answer (c := c)
    exact ⟨answered, faultless.mpr (guarded answering)⟩
  | hangUp c => exact ite_keeps sound fun _ => ⟨sound.stage (by decide), rfl⟩
  | drain c => exact ⟨sound.put (fun _ _ => rfl) rfl id, rfl⟩

theorem Sound.safe_iff (input : Input) : Safe h input ↔ Guarded h input := by
  constructor
  · rintro ⟨faultless, clean⟩
    cases input with
    | hub c =>
      intro clients removed phase mem again
      have holds := sound.phase
      rw [phase] at holds
      have faults : (TranscriptionHub.goOn h c).2 = [] := faultless
      unfold TranscriptionHub.goOn at faults
      rw [phase] at faults
      dsimp only at faults
      rw [if_neg (notMem_empty c), if_pos ⟨rfl, mem⟩,
        sendToClient_removed (holds.2.2 c again)] at faults
      exact List.cons_ne_nil _ _ faults
    | inbound c message =>
      intro reading moves removed
      rw [TranscriptionHub.step, if_pos reading] at clean
      exact inbound_dirty moves removed clean
    | answer c =>
      intro answering
      rw [TranscriptionHub.step, if_pos answering] at faultless
      exact sound.answer.2.mp faultless
    | _ => exact True.intro
  · intro guarded
    obtain ⟨after, faultless⟩ := sound.step guarded
    exact ⟨faultless, after.clean⟩

theorem run_safe_iff (inputs : List Input) :
    Along step Safe h inputs ↔ Along step Guarded h inputs :=
  along_iff_of_invariant Sound (fun _ _ sound guarded => (sound.step guarded).1)
    (fun _ input sound => sound.safe_iff input) sound

end Runs

def newTranscriptionHub : Hub := {}

theorem newTranscriptionHub_sound : Sound newTranscriptionHub := by
  refine ⟨⟨?_, ?_, ?_, ?_⟩, True.intro⟩
  · exact fun c removed => absurd removed Bool.false_ne_true
  · exact fun callUUID c mem => absurd mem (notMem_empty c)
  · exact fun c _ => Bool.false_ne_true
  · exact fun c mem => absurd mem (notMem_empty c)

def oneClient (queued : Nat) : Hub :=
  { client := Function.update (fun _ => {}) 0 { send := { queued }, stage := .reading }
    clients := {0} }

def ping : List Input := [.inbound 0 (.message "ping" ""), .answer 0]

theorem run_connect :
    (run step newTranscriptionHub [.serveWs 0 "", .register 0, .hub 0]).1 = oneClient 0 := by
  simp [run, step, newTranscriptionHub, oneClient, goOn, Hub.put, Phase.isSelecting]

theorem run_ping {queued : Nat} (room : queued < sendBuffer) :
    (run step (oneClient queued) ping).1 = oneClient (queued + 1) := by
  simp [run, ping, step, oneClient, inbound, handleInboundMessage, answer, enqueueControlMessage,
    Hub.put, trySend, nextStage, maxProtocolViolations, room]

theorem run_pings {queued count : Nat} (room : queued + count ≤ sendBuffer) :
    (run step (oneClient queued) (List.replicate count ping).flatten).1 =
      oneClient (queued + count) := by
  induction count generalizing queued with
  | zero => rfl
  | succ count ih =>
    rw [List.replicate_succ, List.flatten_cons, run_append_state, run_ping (by omega),
      ih (by omega)]
    congr 1
    omega

/-- The connection of a client that does not read what it is sent. -/
def slowClient : List Input :=
  [.serveWs 0 "", .register 0, .hub 0] ++ (List.replicate sendBuffer ping).flatten

/-- A broadcast removes the slow client, and the next ping of the client is answered on the
closed channel. -/
theorem removed_client_answered :
    ¬ Along step Safe newTranscriptionHub
      (slowClient ++ [.broadcast "call", .hub 0, .hub 0, .hub 0,
        .inbound 0 (.message "ping" ""), .answer 0]) := by
  intro safe
  have connected : (run step newTranscriptionHub slowClient).1 = oneClient sendBuffer := by
    have room : 0 + sendBuffer ≤ sendBuffer := Nat.le_of_eq (Nat.zero_add _)
    rw [slowClient, run_append_state, run_connect, run_pings room, Nat.zero_add]
  rw [along_append, connected] at safe
  obtain ⟨_, _, _, _, _, _, ⟨faultless, _⟩, _⟩ := safe
  exact absurd faultless (by decide)

end SiprecServer.Http.TranscriptionHub
