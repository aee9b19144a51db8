import SiprecServer.Sip.SignallingSteps

/-!
# The reaper and the media

The reaper looks at the time of the last SIP request of a call and at the age of the call.
Packets change neither, so whether a call with media is spared depends on the requests
alone.  All times are of one clock and in one unit.
-/

namespace SiprecServer.Sip.Signalling

open Lib.FileSystem Lib.Transducer

variable {G O : Type}

structure Contact where
  -- the INVITE that created the call
  invited : Nat
  -- the last request that counts as activity
  requested : Nat
  -- the last packet at each forwarder
  packets : Store Nat Int

def countsAsActivity (env : Circumstances) (message : Message) : Bool :=
  match message.request with
  | .invite content _ => !refusedAtOnce env content
  | .subscribe callback => callback = .accepted
  | .bye | .cancel | .options | .other => false
  | _ => true

def Server.isRunning (server : Server G O) (f : Nat) : Bool :=
  (server.media.get f).allocated && !(server.media.get f).stream.stopped

def noteContact (server : Server G O) (contact : Contact) : Event → Contact
  | .request message env =>
    match server.callStates with
    | none =>
      if (Event.request message env).isInvite then
        { contact with invited := env.now, requested := env.now }
      else contact
    | some _ =>
      if countsAsActivity env message then
        { contact with requested := env.now }
      else contact
  | .rtp f _ _ now _ =>
    if server.isRunning f then { contact with packets := write contact.packets f now }
    else contact
  | _ => contact

variable (config : Config G O)

def HasMedia (contact : Contact) (call : CallState) (now : Nat) : Prop :=
  ∃ f ∈ call.forwarders, ∃ arrival ∈ contact.packets f,
    (now : Int) ≤ arrival + config.sessionIdleTimeout

def Spared (state : Server G O × Contact) (event : Event) : Prop :=
  ∀ now, event = .reap now → ∀ call ∈ state.1.callStates,
    (state.1.calls call).state = .connected → HasMedia config state.2 (state.1.calls call) now →
      ∀ reason, .finalised call reason ∉ (step config state.1 event).2

/-- A tick finds a connected call that has media not too old, and a request within the
idle timeout. -/
def Attended (state : Server G O × Contact) (event : Event) : Prop :=
  ∀ now, event = .reap now → ∀ call ∈ state.1.callStates,
    (state.1.calls call).state = .connected → HasMedia config state.2 (state.1.calls call) now →
      now ≤ state.2.requested + config.sessionIdleTimeout ∧
        now ≤ state.2.invited + config.maxSessionDuration

structure Timed (created active : Nat) (call : CallState) : Prop where
  createdAt : call.createdAt = created
  lastActivity : call.lastActivity = active

variable {event : Event}

section Times

variable {config : Config G O} {server : Server G O} {env : Circumstances}
  {message : Message} {call created active : Nat}

theorem touch_timed (timed : Timed created active (server.calls call)) :
    Timed created env.now ((touch env call server).calls call) := by
  unfold touch
  rw [updateCall_same]
  exact ⟨timed.createdAt, rfl⟩

section

variable (isCall : server.callStates = some call) (timed : Timed created active (server.calls call))

include isCall timed

theorem handleUpdateMessage_timed {metadata : Option (Option ReInvite.RSMetadata)} {isSDP : Bool} :
    Timed created env.now
      ((handleUpdateMessage config env message metadata isSDP server).1.calls call) := by
  have touched : Timed created env.now ((touch env call server).calls call) :=
    touch_timed timed
  unfold handleUpdateMessage
  rw [isCall]
  dsimp only
  split
  · exact touched
  · split
    · split
      · rw [updateCall_same]
        exact ⟨touched.createdAt, touched.lastActivity⟩
      · dsimp only
        rw [updateCall_same, updateCall_same]
        exact ⟨touched.createdAt, touched.lastActivity⟩
    · rw [updateCall_same]
      exact ⟨touched.createdAt, touched.lastActivity⟩

theorem handleInDialog_timed {response : ReInvite.Response} :
    Timed created env.now
      ((handleInDialog env response server).1.calls call) := by
  unfold handleInDialog
  rw [isCall]
  exact touch_timed timed

theorem handleInviteMessage_timed {content : ReInvite.Request} {sessionID : String} :
    Timed created (if !refusedAtOnce env content then env.now else active)
      ((handleInviteMessage config env message content sessionID server).1.calls
        call) := by
  by_cases refused : refusedAtOnce env content
  · obtain ⟨refusal, -, unchanged⟩ := handleInviteMessage_refusedAtOnce isCall refused
    rw [refused, unchanged]
    exact timed
  · rw [Bool.not_eq_true] at refused
    obtain ⟨reInvites, merges⟩ := handleInviteMessage_reInvites isCall refused
    have spec : ReInvited config env message content sessionID call server _ :=
      handleSiprecReInvite_spec
    simp only [refused, Bool.not_false, if_true]
    rw [reInvites, spec.answered, reInvitedCall, if_pos merges]
    dsimp only
    split
    · exact ⟨timed.createdAt, rfl⟩
    · exact ⟨timed.createdAt, rfl⟩

end

theorem handleRequest_timed (settled : Settled server) (isCall : server.callStates = some call)
    (timed : Timed created active (server.calls call))
    (still : (handleRequest config env message server).1.callStates = some call) :
    Timed created (if countsAsActivity env message then env.now else active)
      ((handleRequest config env message server).1.calls call) := by
  have ended {after : Server G O × List Observation} (outcome : EndOutcome config server after)
      (still : after.1.callStates = some call) : Timed created active (after.1.calls call) := by
    rcases outcome.unregisters settled with ended | unchanged
    · cases ended.symm.trans still
    · rw [unchanged]
      exact timed
  obtain ⟨request, fromTag, toTag, cseq, body⟩ := message
  cases request with
  | invite content sessionID => exact handleInviteMessage_timed isCall timed
  | ack =>
    simp only [handleRequest, handleAckMessage, isCall]
    rw [updateCall_same]
    exact ⟨timed.createdAt, rfl⟩
  | bye => exact ended handleByeMessage_outcome still
  | cancel => exact ended handleCancelMessage_outcome still
  | prack =>
    simp only [handleRequest, handlePrackMessage, isCall]
    rw [updateCall_same]
    exact ⟨timed.createdAt, rfl⟩
  | update metadata isSDP => exact handleUpdateMessage_timed isCall timed
  | subscribe callback =>
    simp only [handleRequest, handleSubscribeMessage, isCall]
    cases callback with
    | missing => exact timed
    | rejected => exact timed
    | accepted => exact touch_timed timed
  | message =>
    simp only [handleRequest, handleMessageMessage, isCall]
    exact touch_timed timed
  | options => exact timed
  | other => exact timed
  | _ => exact handleInDialog_timed isCall timed

def Event.isRequest : Event → Bool
  | .request _ _ => true
  | _ => false

theorem step_calls (light : event.isLight) (notRequest : event.isRequest = false) :
    (step config server event).1.calls = server.calls := by
  have onStreams : ∀ f streamEvent,
      (onStream config.stream server f streamEvent).1.calls = server.calls := by
    intro f streamEvent
    unfold onStream
    dsimp only
    split <;> rfl
  have onActive : ∀ id change, (onActiveCall server id change).calls = server.calls := by
    intro id change
    unfold onActiveCall
    split <;> rfl
  cases event with
  | request message env => cases notRequest
  | reap now => cases light
  | pauseSession sessionID pauseRecording pauseTranscription => exact onActive _ _
  | resumeSession sessionID => exact onActive _ _
  | staleSession sessionID => rfl
  | rtp f packet arrival now writable => exact onStreams _ _
  | drain f now writable => exact onStreams _ _
  | monitorTick f now => exact onStreams _ _
  | _ => rfl

end Times

/-- The history agrees with what the registered call remembers. -/
structure Recalled (server : Server G O) (contact : Contact) : Prop where
  settled : Settled server
  times : ∀ call ∈ server.callStates, Timed contact.invited contact.requested (server.calls call)

section Runs

variable {config : Config G O} {server : Server G O} {contact : Contact}

theorem idleServer_recalled (contact : Contact) : Recalled (idleServer : Server G O) contact :=
  ⟨idleServer_settled, fun _ isCall => absurd isCall (Option.not_mem_none _)⟩

section

variable {env : Circumstances} {message : Message} (recalled : Recalled server contact)

include recalled

omit recalled in
theorem noteContact_registered {call : Nat} (isCall : server.callStates = some call) :
    noteContact server contact (.request message env) =
      { contact with
        requested :=
          if countsAsActivity env message then env.now
          else contact.requested } := by
  simp only [noteContact, isCall]
  split <;> rfl

theorem request_recalled :
    Recalled (step config server (.request message env)).1
      (noteContact server contact (.request message env)) := by
  refine ⟨step_settled recalled.settled, fun call registered => ?_⟩
  cases step_continues recalled.settled registered with
  | same isCall forwarders next refused =>
    rw [noteContact_registered isCall]
    exact handleRequest_timed recalled.settled isCall (recalled.times call isCall) registered
  | reInvited isCall isInvite spec =>
    rw [noteContact_registered isCall]
    exact handleRequest_timed recalled.settled isCall (recalled.times call isCall) registered
  | invited none_ isNew isInvite success spec =>
    have invited : (Event.request message env).isInvite := by
      simp [Event.isInvite, Event.inviteContent, isInvite]
    subst isNew
    rw [spec.answered, storeCall_same]
    simp only [noteContact, none_, invited, if_true]
    exact ⟨rfl, rfl⟩

theorem Recalled.same {after : Server G O} {later : Contact} (settled : Settled after)
    (callStates : after.callStates = server.callStates) (calls : after.calls = server.calls)
    (invited : later.invited = contact.invited) (requested : later.requested = contact.requested) :
    Recalled after later := by
  refine ⟨settled, fun call isCall => ?_⟩
  rw [calls, invited, requested]
  exact recalled.times call (callStates ▸ isCall)

omit recalled in
theorem noteContact_rest (notRequest : event.isRequest = false) :
    (noteContact server contact event).invited = contact.invited ∧
      (noteContact server contact event).requested = contact.requested := by
  cases event with
  | request message env => cases notRequest
  | rtp f packet arrival now writable =>
    unfold noteContact
    dsimp only
    split <;> exact ⟨rfl, rfl⟩
  | _ => exact ⟨rfl, rfl⟩

omit recalled in
theorem media_recalled (light : event.isLight) (notRequest : event.isRequest = false)
    (recalled : Recalled server contact) :
    Recalled (step config server event).1 (noteContact server contact event) := by
  have kept : Light server (step config server event).1 := step_light light
  obtain ⟨invited, requested⟩ := noteContact_rest notRequest
  exact recalled.same (step_settled recalled.settled) kept.callStates (step_calls light notRequest)
    invited requested

theorem step_recalled :
    Recalled (step config server event).1 (noteContact server contact event) := by
  cases event with
  | request message env => exact request_recalled recalled
  | reap now =>
    rcases reapStaleDialogs_outcome.unregisters recalled.settled with ended | unchanged
    · refine ⟨step_settled recalled.settled, fun call isCall => ?_⟩
      exact absurd (ended.symm.trans isCall) nofun
    · exact recalled.same (step_settled recalled.settled)
        (congrArg Server.callStates unchanged) (congrArg Server.calls unchanged) rfl rfl
  | _ => exact media_recalled rfl rfl recalled

omit recalled in
theorem staleReason_eq_none_iff {now : Nat} {call : CallState} (connected : call.state = .connected) :
    staleReason config now call = none ↔
      now ≤ call.lastActivity + config.sessionIdleTimeout ∧
        now ≤ call.createdAt + config.maxSessionDuration := by
  have open_ : call.state ≠ .terminated ∧ call.state ≠ .terminating := by
    rw [connected]
    exact ⟨by decide, by decide⟩
  unfold staleReason
  rw [if_neg (by simp [connected]), if_neg (by simp [connected])]
  split
  case isTrue idle => exact ⟨nofun, fun recent => absurd idle.1 (Nat.not_lt_of_le recent.1)⟩
  case isFalse active =>
    have recent : now ≤ call.lastActivity + config.sessionIdleTimeout :=
      Nat.le_of_not_lt fun idle => active ⟨idle, open_⟩
    split
    case isTrue old => exact ⟨nofun, fun young => absurd old.1 (Nat.not_lt_of_le young.2)⟩
    case isFalse young =>
      exact ⟨fun _ => ⟨recent, Nat.le_of_not_lt fun old => young ⟨old, open_⟩⟩, fun _ => rfl⟩

theorem spared_iff_attended :
    Spared config (server, contact) event ↔ Attended config (server, contact) event := by
  refine forall_congr' fun now => forall_congr' fun isReap => forall_congr' fun call =>
    forall_congr' fun isCall => forall_congr' fun connected => forall_congr' fun hasMedia => ?_
  subst isReap
  have timed := recalled.times call isCall
  rw [← timed.createdAt, ← timed.lastActivity, ← staleReason_eq_none_iff connected]
  have registered : server.callStates = some call := isCall
  simp only [step, reapStaleDialogs, registered]
  cases staleReason config now (server.calls call) with
  | none => exact ⟨fun _ => rfl, fun _ _ => List.not_mem_nil⟩
  | some reason =>
    dsimp only
    rw [finalizeCall_first (recalled.settled.registered isCall).2.finalized]
    exact iff_of_false (fun spares => spares reason (List.mem_singleton.mpr rfl))
      (Option.some_ne_none reason)

end

/-- The reaper spares the connected calls that have media in exactly the runs in which every
tick that finds such a call finds it with a request within the idle timeout and created
within the maximum duration of a session. -/
theorem reaper_spares_media_iff (config : Config G O) (contact : Contact) (events : List Event) :
    Along (tracked (step config) noteContact) (Spared config) (idleServer, contact) events ↔
      Along (tracked (step config) noteContact) (Attended config) (idleServer, contact)
        events := by
  constructor
  · intro spared
    exact spared.imp (fun state : Server G O × Contact => Recalled state.1 state.2)
      (fun _ _ recalled _ => step_recalled recalled)
      (fun _ _ recalled => (spared_iff_attended recalled).mp) (idleServer_recalled contact)
  · intro attended
    exact attended.imp (fun state : Server G O × Contact => Recalled state.1 state.2)
      (fun _ _ recalled _ => step_recalled recalled)
      (fun _ _ recalled => (spared_iff_attended recalled).mpr) (idleServer_recalled contact)

/-- After 300 seconds without a SIP request the call is reaped, one second after its last
packet. -/
theorem call_with_media_reaped :
    let before := (run (step plainServer) idleServer
      [invite [1] 1 0, send .ack 1 1, packetFor 0 301]).1
    (before.calls 0).state = .connected ∧ (before.media.get 0).stream.recording.length = 2 ∧
      .finalised 0 "idle_timeout" ∈ (step plainServer before (.reap 302)).2 ∧
      ¬ Along (tracked (step plainServer) noteContact) (Spared plainServer)
        (idleServer, ⟨0, 0, empty⟩)
        [invite [1] 1 0, send .ack 1 1, packetFor 0 301, .reap 302] := by
  refine ⟨by decide, by decide, by decide, fun spared => ?_⟩
  refine spared.2.2.2.1 302 rfl 0 (by decide) (by decide) ?_ "idle_timeout" (by decide)
  exact ⟨0, by decide, 301, by decide, by decide⟩

end Runs

end SiprecServer.Sip.Signalling
