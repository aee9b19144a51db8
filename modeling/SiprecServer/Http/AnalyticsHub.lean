import SiprecServer.Http.TranscriptionHub

/-!
# The analytics hub

The goroutine of `AnalyticsWebSocketHandler` sends to its clients under its lock or from a
snapshot, collects the slow ones and closes their channels afterwards.  The request that brings
a client sends a welcome, and the reading goroutine of the client answers pings.
-/

namespace SiprecServer.Http.AnalyticsHub

open Lib.Channel Lib.Transducer
open Http.TranscriptionHub (Fault sendBuffer)

inductive Stage where
  | absent
  /-- `ServeHTTP` waits for the hub to take the client. -/
  | connecting
  /-- `ServeHTTP` has the welcome to send. -/
  | greeting
  | reading
  /-- A ping was read and the pong is to be sent. -/
  | answering
  /-- `readPump` waits for the hub to unregister the client. -/
  | leaving
  | gone
deriving DecidableEq

structure Client where
  callID : String := ""
  send : Chan := {}
  stage : Stage := .absent

inductive Phase where
  | selecting
  | registering (client : Nat)
  /-- A message for a call, or a ping for everyone. -/
  | sending (callID : Option String) (remaining stale : Finset Nat)
  | cleaning (stale : Finset Nat)
  /-- The stop closes the channels of all clients. -/
  | stopping
  | finished

structure Hub where
  client : Nat → Client := fun _ => {}
  clients : Finset Nat := ∅
  phase : Phase := .selecting

inductive Inbound where
  | badJSON
  | message (type : String) (callID : Option String)
deriving DecidableEq

inductive Input where
  | serveHTTP (client : Nat) (callID : String)
  /-- `run` receives from one of its channels. -/
  | register (client : Nat)
  | unregister (client : Nat)
  | broadcast (callID : String)
  | tick
  | stop
  /-- `run` goes on; a loop over a map goes on with the given client. -/
  | hub (client : Nat)
  | welcome (client : Nat)
  | inbound (client : Nat) (message : Inbound)
  | answer (client : Nat)
  | hangUp (client : Nat)
  /-- `writePump` receives a message. -/
  | drain (client : Nat)

section Code

variable (h : Hub) (c : Nat)

def Hub.put (client : Client) : Hub :=
  { h with client := Function.update h.client c client }

def cleanupClient : Hub × List Fault :=
  if c ∈ h.clients then
    ({ h.put c { h.client c with send := close (h.client c).send } with
        clients := h.clients.erase c },
      if (h.client c).send.closed then [.closeOfClosed c] else [])
  else (h, [])

/-- One round of `broadcastMessage` or `sendPingToAll`: a client with a filter for another call
is passed over, and one without room becomes stale. -/
def sendTo (callID : Option String) (stale : Finset Nat) (c : Nat) :
    Hub × Finset Nat × List Fault :=
  let client := h.client c
  if client.callID ≠ "" ∧ callID.any (fun call => client.callID ≠ call) then (h, stale, [])
  else
    match trySend sendBuffer client.send with
    | .sent send => (h.put c { client with send }, stale, [])
    | .full => (h, insert c stale, [])
    | .panics => (h, stale, [.sendOnClosed c])

def welcome : Hub × List Fault :=
  match trySend sendBuffer (h.client c).send with
  | .sent send => (h.put c { h.client c with send, stage := .reading }, [])
  | .full => (h, [])
  | .panics => (h, [.sendOnClosed c])

/-- `handleMessage` up to the pong. -/
def inbound : Inbound → Hub
  | .badJSON => h
  | .message type callID =>
    if type = "subscribe" then
      match callID with
      | some callID => h.put c { h.client c with callID }
      | none => h
    else if type = "unsubscribe" then h.put c { h.client c with callID := "" }
    else if type = "ping" then h.put c { h.client c with stage := .answering }
    else h

def answer : Hub × List Fault :=
  match trySend sendBuffer (h.client c).send with
  | .sent send => (h.put c { h.client c with send, stage := .reading }, [])
  | .full => (h.put c { h.client c with stage := .reading }, [])
  | .panics => (h, [.sendOnClosed c])

def goOn : Hub × List Fault :=
  match h.phase with
  | .selecting => (h, [])
  | .finished => (h, [])
  | .registering d => ({ h with clients := insert d h.clients, phase := .selecting }, [])
  | .sending callID remaining stale =>
    if c ∈ remaining then
      let sent := sendTo h callID stale c
      ({ sent.1 with phase := .sending callID (remaining.erase c) sent.2.1 }, sent.2.2)
    else if remaining = ∅ then ({ h with phase := .cleaning stale }, [])
    else (h, [])
  | .cleaning stale =>
    if c ∈ stale then
      let cleaned := cleanupClient h c
      ({ cleaned.1 with phase := .cleaning (stale.erase c) }, cleaned.2)
    else if stale = ∅ then ({ h with phase := .selecting }, [])
    else (h, [])
  | .stopping =>
    if c ∈ h.clients then
      let cleaned := cleanupClient h c
      ({ cleaned.1 with phase := .stopping }, cleaned.2)
    else if h.clients = ∅ then ({ h with phase := .finished }, [])
    else (h, [])

def Phase.isSelecting : Phase → Bool
  | .selecting => true
  | _ => false

def step : Input → Hub × List Fault
  | .serveHTTP c callID =>
    if (h.client c).stage = .absent then (h.put c { callID, stage := .connecting }, [])
    else (h, [])
  | .register c =>
    if h.phase.isSelecting ∧ (h.client c).stage = .connecting then
      ({ h.put c { h.client c with stage := .greeting } with phase := .registering c }, [])
    else (h, [])
  | .unregister c =>
    if h.phase.isSelecting ∧ (h.client c).stage = .leaving then
      ({ h.put c { h.client c with stage := .gone } with phase := .cleaning {c} }, [])
    else (h, [])
  | .broadcast callID =>
    if h.phase.isSelecting then ({ h with phase := .sending (some callID) h.clients ∅ }, [])
    else (h, [])
  | .tick =>
    if h.phase.isSelecting then ({ h with phase := .sending none h.clients ∅ }, []) else (h, [])
  | .stop => if h.phase.isSelecting then ({ h with phase := .stopping }, []) else (h, [])
  | .hub c => goOn h c
  | .welcome c => if (h.client c).stage = .greeting then welcome h c else (h, [])
  | .inbound c message =>
    if (h.client c).stage = .reading then (inbound h c message, []) else (h, [])
  | .answer c => if (h.client c).stage = .answering then answer h c else (h, [])
  | .hangUp c =>
    if (h.client c).stage = .reading then (h.put c { h.client c with stage := .leaving }, [])
    else (h, [])
  | .drain c => (h.put c { h.client c with send := receive (h.client c).send }, [])

end Code

variable (h : Hub)

def Removed (c : Nat) : Prop := (h.client c).send.closed = true

def Clean : Prop := ∀ c, Removed h c → c ∉ h.clients

/-- The step sends on no closed channel, closes none twice and leaves the index clean. -/
def Safe (input : Input) : Prop := (step h input).2 = [] ∧ Clean (step h input).1

def Guarded : Input → Prop
  | .welcome c => (h.client c).stage = .greeting → ¬ Removed h c
  | .answer c => (h.client c).stage = .answering → ¬ Removed h c
  | _ => True

/-! ## The invariant -/

def Early (c : Nat) : Prop :=
  (h.client c).stage = .absent ∨ (h.client c).stage = .connecting

def Phase.Sound : Phase → Prop
  | .registering c => ¬ Removed h c ∧ ¬ Early h c
  | .sending _ remaining _ => remaining ⊆ h.clients
  | _ => True

structure Sound (h : Hub) : Prop where
  clean : Clean h
  early : ∀ c, Early h c → ¬ Removed h c
  registered : ∀ c ∈ h.clients, ¬ Early h c
  phase : h.phase.Sound h

variable {phase : Phase}

section Put

variable {h : Hub} {c : Nat} {client : Client}

@[simp]
theorem put_same : (h.put c client).client c = client := Function.update_self ..

variable (closed : client.send.closed = (h.client c).send.closed)

include closed in
theorem removed_put (d : Nat) : Removed (h.put c client) d ↔ Removed h d := by
  refine (Function.forall_update_iff h.client fun d client =>
    client.send.closed = true ↔ Removed h d).mpr ⟨?_, fun d _ => Iff.rfl⟩ d
  rw [closed]
  rfl

variable (early : client.stage = .absent ∨ client.stage = .connecting → Early h c)

include early in
theorem early_put (d : Nat) : Early (h.put c client) d → Early h d :=
  (Function.forall_update_iff h.client fun d client =>
    client.stage = .absent ∨ client.stage = .connecting → Early h d).mpr ⟨early, fun _ _ => id⟩ d

include closed early

theorem Phase.Sound.put (sound : phase.Sound h) : phase.Sound (h.put c client) := by
  cases phase with
  | registering d =>
    exact ⟨fun removed => sound.1 ((removed_put closed d).mp removed),
      fun isEarly => sound.2 (early_put early d isEarly)⟩
  | sending callID remaining stale => exact sound
  | _ => exact True.intro

theorem Sound.put (sound : Sound h) : Sound (h.put c client) := by
  refine ⟨?_, ?_, ?_, sound.phase.put closed early⟩
  · intro d removed
    exact sound.clean d ((removed_put closed d).mp removed)
  · intro d isEarly removed
    exact sound.early d (early_put early d isEarly) ((removed_put closed d).mp removed)
  · intro d mem isEarly
    exact sound.registered d mem (early_put early d isEarly)

omit closed early

theorem Sound.stage (sound : Sound h) {stage : Stage}
    (late : ¬ (stage = .absent ∨ stage = .connecting)) :
    Sound (h.put c { h.client c with stage }) :=
  sound.put rfl fun isEarly => absurd isEarly late

end Put

section Steps

variable {h : Hub} {c : Nat}

section

variable (sound : Sound h)

include sound

theorem Sound.withPhase (holds : phase.Sound h) : Sound { h with phase } := by
  refine { sound with phase := ?_ }
  cases phase with
  | registering d => exact holds
  | sending callID remaining stale => exact holds
  | _ => exact True.intro

omit sound in
theorem not_removed (isOpen : (h.client c).send.closed = false) : ¬ Removed h c := by
  rw [Removed, isOpen]
  exact Bool.false_ne_true

theorem cleanup_outcome (c : Nat) (free : ∀ h', phase.Sound h') :
    Sound { (cleanupClient h c).1 with phase } ∧ (cleanupClient h c).2 = [] := by
  unfold cleanupClient
  by_cases registered : c ∈ h.clients
  · rw [if_pos registered]
    have isOpen : ¬ Removed h c := fun removed => sound.clean c removed registered
    have removed : ∀ d, Removed (h.put c
        { h.client c with send := close (h.client c).send }) d → Removed h d ∨ d = c :=
      (Function.forall_update_iff h.client fun d client =>
        client.send.closed = true → Removed h d ∨ d = c).mpr ⟨fun _ => .inr rfl, fun _ _ => .inl⟩
    refine ⟨⟨?_, ?_, ?_, free _⟩, if_neg isOpen⟩
    · intro d isRemoved mem
      obtain ⟨different, before⟩ := Finset.mem_erase.mp mem
      exact sound.clean d ((removed d isRemoved).resolve_right different) before
    · intro d isEarly isRemoved
      have before := early_put (by exact id) d isEarly
      rcases removed d isRemoved with already | rfl
      · exact sound.early d before already
      · exact sound.registered d registered before
    · intro d mem isEarly
      exact sound.registered d (Finset.mem_of_mem_erase mem) (early_put (by exact id) d isEarly)
  · rw [if_neg registered]
    exact ⟨sound.withPhase (free h), rfl⟩

theorem sendTo_outcome {callID : Option String} {stale : Finset Nat} (registered : c ∈ h.clients) :
    Sound (sendTo h callID stale c).1 ∧ (sendTo h callID stale c).1.clients = h.clients ∧
      (sendTo h callID stale c).2.2 = [] := by
  have present : ¬ Removed h c := fun removed => sound.clean c removed registered
  unfold sendTo
  dsimp only
  split
  · exact ⟨sound, rfl, rfl⟩
  · rcases trySend_cases sendBuffer (h.client c).send with ⟨closed, _⟩ | ⟨_, full | sent⟩
    · exact absurd closed present
    · rw [full]
      exact ⟨sound, rfl, rfl⟩
    · rw [sent]
      exact ⟨sound.put rfl id, rfl, rfl⟩

theorem Sound.register {d : Nat} (present : ¬ Removed h d) (late : ¬ Early h d) :
    Sound { h with clients := insert d h.clients, phase := .selecting } := by
  refine ⟨?_, sound.early, ?_, True.intro⟩
  · intro e removed mem
    rcases Finset.mem_insert.mp mem with rfl | already
    · exact present removed
    · exact sound.clean e removed already
  · intro e mem
    rcases Finset.mem_insert.mp mem with rfl | already
    · exact late
    · exact sound.registered e already

theorem Sound.goOn (c : Nat) : Sound (goOn h c).1 ∧ (goOn h c).2 = [] := by
  have holds := sound.phase
  unfold AnalyticsHub.goOn
  cases phase : h.phase with
  | selecting => exact ⟨sound, rfl⟩
  | finished => exact ⟨sound, rfl⟩
  | registering d =>
    rw [phase] at holds
    exact ⟨sound.register holds.1 holds.2, rfl⟩
  | sending callID remaining stale =>
    rw [phase] at holds
    dsimp only
    split
    · rename_i inHand
      obtain ⟨sent, clients, faultless⟩ := sendTo_outcome sound (holds inHand)
      refine ⟨sent.withPhase ?_, faultless⟩
      intro d mem
      rw [clients]
      exact holds (Finset.mem_of_mem_erase mem)
    · exact ite_keeps sound fun _ => ⟨sound.withPhase True.intro, rfl⟩
  | cleaning stale =>
    dsimp only
    split
    · exact cleanup_outcome sound c fun _ => True.intro
    · exact ite_keeps sound fun _ => ⟨sound.withPhase True.intro, rfl⟩
  | stopping =>
    dsimp only
    split
    · exact cleanup_outcome sound c fun _ => True.intro
    · exact ite_keeps sound fun _ => ⟨sound.withPhase True.intro, rfl⟩

end

theorem reading_late : ¬ (Stage.reading = .absent ∨ Stage.reading = .connecting) := by decide

section

variable (sound : Sound h)

include sound

/-- A welcome or a pong: `full` is what a full channel leaves. -/
theorem Sound.trySend {full : Hub} (fullSound : Sound full) :
    let result : Hub × List Fault :=
      match Lib.Channel.trySend sendBuffer (h.client c).send with
      | .sent send => (h.put c { h.client c with send, stage := .reading }, [])
      | .full => (full, [])
      | .panics => (h, [.sendOnClosed c])
    Sound result.1 ∧ (result.2 = [] ↔ ¬ Removed h c) := by
  rcases trySend_cases sendBuffer (h.client c).send with ⟨closed, panics⟩ | ⟨isOpen, full | sent⟩
  · rw [panics]
    exact ⟨sound, iff_of_false (List.cons_ne_nil _ _) (not_not_intro closed)⟩
  · rw [full]
    exact ⟨fullSound, iff_of_true rfl (not_removed isOpen)⟩
  · rw [sent]
    exact ⟨sound.put rfl fun early => absurd early reading_late,
      iff_of_true rfl (not_removed isOpen)⟩

theorem Sound.welcome : Sound (welcome h c).1 ∧ ((welcome h c).2 = [] ↔ ¬ Removed h c) :=
  sound.trySend sound

theorem Sound.answer : Sound (answer h c).1 ∧ ((answer h c).2 = [] ↔ ¬ Removed h c) :=
  sound.trySend (sound.stage reading_late)

theorem Sound.inbound (message : Inbound) : Sound (inbound h c message) := by
  cases message with
  | badJSON => exact sound
  | message type callID =>
    unfold AnalyticsHub.inbound
    dsimp only
    split
    · cases callID with
      | none => exact sound
      | some callID => exact sound.put rfl id
    · split
      · exact sound.put rfl id
      · split
        · exact sound.stage (by decide)
        · exact sound

theorem Sound.serveHTTP (fresh : (h.client c).stage = .absent)
    (callID : String) : Sound (h.put c { callID, stage := .connecting }) := by
  have isEarly : Early h c := .inl fresh
  refine sound.put ?_ fun _ => isEarly
  exact (Bool.eq_false_iff.mpr (sound.early c isEarly)).symm

theorem Sound.take (waits : (h.client c).stage = .connecting) :
    Sound { h.put c { h.client c with stage := .greeting } with phase := .registering c } := by
  have late : ¬ (Stage.greeting = .absent ∨ Stage.greeting = .connecting) := by decide
  refine (sound.stage late).withPhase ⟨?_, ?_⟩
  · intro removed
    exact sound.early c (.inr waits) ((removed_put (by rfl) c).mp removed)
  · rw [Early, put_same]
    exact late

theorem Sound.step {input : Input} (guarded : Guarded h input) :
    Sound (step h input).1 ∧ (step h input).2 = [] := by
  cases input with
  | serveHTTP c callID => exact ite_keeps sound fun fresh => ⟨sound.serveHTTP fresh callID, rfl⟩
  | register c => exact ite_keeps sound fun waits => ⟨sound.take waits.2, rfl⟩
  | unregister c =>
    exact ite_keeps sound fun _ => ⟨(sound.stage (by decide)).withPhase True.intro, rfl⟩
  | broadcast callID => exact ite_keeps sound fun _ => ⟨sound.withPhase (Finset.Subset.refl _), rfl⟩
  | tick => exact ite_keeps sound fun _ => ⟨sound.withPhase (Finset.Subset.refl _), rfl⟩
  | stop => exact ite_keeps sound fun _ => ⟨sound.withPhase True.intro, rfl⟩
  | hub c => exact sound.goOn c
  | welcome c =>
    refine ite_keeps sound fun greeting => ?_
    obtain ⟨greeted, faultless⟩ := sound.welcome (c := c)
    exact ⟨greeted, faultless.mpr (guarded greeting)⟩
  | inbound c message => exact ite_keeps sound fun _ => ⟨sound.inbound message, rfl⟩
  | answer c =>
    refine ite_keeps sound fun answering => ?_
    obtain ⟨answered, faultless⟩ := sound.answer (c := c)
    exact ⟨answered, faultless.mpr (guarded answering)⟩
  | hangUp c => exact ite_keeps sound fun _ => ⟨sound.stage (by decide), rfl⟩
  | drain c => exact ⟨sound.put rfl id, rfl⟩

theorem Sound.safe_iff (input : Input) : Safe h input ↔ Guarded h input := by
  constructor
  · rintro ⟨faultless, _⟩
    cases input with
    | welcome c =>
      intro greeting
      rw [AnalyticsHub.step, if_pos greeting] at faultless
      exact sound.welcome.2.mp faultless
    | answer c =>
      intro answering
      rw [AnalyticsHub.step, if_pos answering] at faultless
      exact sound.answer.2.mp faultless
    | _ => exact True.intro
  · intro guarded
    obtain ⟨after, faultless⟩ := sound.step guarded
    exact ⟨faultless, after.clean⟩

theorem run_safe_iff (inputs : List Input) :
    Along step Safe h inputs ↔ Along step Guarded h inputs :=
  along_iff_of_invariant Sound (fun _ _ sound guarded => (sound.step guarded).1)
    (fun _ input sound => sound.safe_iff input) sound

end

end Steps

def newAnalyticsWebSocketHandler : Hub := {}

theorem newAnalyticsWebSocketHandler_sound : Sound newAnalyticsWebSocketHandler := by
  refine ⟨?_, ?_, ?_, True.intro⟩
  · exact fun c removed => absurd removed Bool.false_ne_true
  · exact fun c _ => Bool.false_ne_true
  · exact fun c mem => absurd mem (Finset.notMem_empty c)

/-- Whatever the goroutines of the two hubs do and in which order, no channel is used after it
was closed or closed twice and no removed client stays in an index, exactly as long as no
removed client subscribes or is answered, welcomed or sent the same broadcast once more. -/
theorem hubs_safe_iff (transcriptions : List TranscriptionHub.Input) (analytics : List Input) :
    (Along TranscriptionHub.step TranscriptionHub.Safe TranscriptionHub.newTranscriptionHub
        transcriptions ∧
      Along step Safe newAnalyticsWebSocketHandler analytics) ↔
      (Along TranscriptionHub.step TranscriptionHub.Guarded TranscriptionHub.newTranscriptionHub
          transcriptions ∧
        Along step Guarded newAnalyticsWebSocketHandler analytics) :=
  and_congr
    (TranscriptionHub.run_safe_iff TranscriptionHub.newTranscriptionHub_sound transcriptions)
    (run_safe_iff newAnalyticsWebSocketHandler_sound analytics)

end SiprecServer.Http.AnalyticsHub
