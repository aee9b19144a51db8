import SiprecServer.Media.RecordingPause
import SiprecServer.Sip.DialogStates
import SiprecServer.Sip.StreamMapping

/-!
# A pause of the recording and what may end it

The pause service reaches the one forwarder that the call had first when it was
answered, and sets a flag of this forwarder.  Other forwarders of the call go on, a
re-INVITE adds forwarders that are not paused, and the end of a hold resumes them all.
-/

namespace SiprecServer.Sip.ReInvite

open Lib.FileSystem Media

variable {G O : Type}

inductive Call.Uses (call : Call) (f : Nat) : Prop where
  | listed (member : f ∈ call.rtpForwarders)
  | single (isSingle : call.rtpForwarder = some f)
  | stream {label : String} (mapped : call.streamForwarders label = some f)

theorem Call.uses_primary {call : Call} {f : Nat} (mem : f ∈ call.primary) : call.Uses f := by
  unfold Call.primary at mem
  split at mem
  · exact .listed mem
  · exact .single (Option.mem_toList.mp mem)

/-! ## A re-INVITE that creates no forwarder -/

structure Retains (dialog after : Dialog G O) : Prop where
  uses : ∀ f, after.call.Uses f → dialog.call.Uses f
  flags : ∀ f, (after.media.get f).stream.recordingPaused =
    (dialog.media.get f).stream.recordingPaused

section Retains

variable {config : Config} {mediaConfig : MediaConfig} {env : Circumstances}
  {dialog : Dialog G O} {parsed : Option (List MediaDescription)} {sdp : Option Bytes}
  {granted : Nat}

theorem Retains.trans {middle after : Dialog G O} (one : Retains dialog middle)
    (two : Retains middle after) : Retains dialog after :=
  ⟨fun f uses => one.uses f (two.uses f uses), fun f => (two.flags f).trans (one.flags f)⟩

theorem Retains.same {after : Dialog G O}
    (rtpForwarders : after.call.rtpForwarders = dialog.call.rtpForwarders)
    (rtpForwarder : after.call.rtpForwarder = dialog.call.rtpForwarder)
    (streamForwarders : after.call.streamForwarders = dialog.call.streamForwarders)
    (flags : ∀ f, (after.media.get f).stream.recordingPaused =
      (dialog.media.get f).stream.recordingPaused) : Retains dialog after := by
  refine ⟨fun f uses => ?_, flags⟩
  cases uses with
  | listed mem => exact .listed (rtpForwarders ▸ mem)
  | single isSingle => exact .single (rtpForwarder ▸ isSingle)
  | stream mapped => exact .stream (streamForwarders ▸ mapped)

theorem Retains.refl : Retains dialog dialog := .same rfl rfl rfl fun _ => rfl

theorem storeSDP_retains : Retains dialog (storeSDP sdp dialog) := by
  cases sdp with
  | none => exact .refl
  | some sdp =>
    have reset : ∀ f, ((dialog.media.resetRemoteSSRC dialog.call.primary).get
        f).stream.recordingPaused = (dialog.media.get f).stream.recordingPaused :=
      Forwarders.update_keeps _ (·.stream.recordingPaused) fun _ => by rfl
    exact .same rfl rfl rfl reset

theorem dropDead_retains : Retains dialog (dropDead dialog) := by
  refine ⟨fun f uses => ?_, fun _ => rfl⟩
  cases uses with
  | listed mem => exact .listed (List.mem_of_mem_filter mem)
  | single isSingle => exact .single (Option.filter_eq_some_iff.mp isSingle).1
  | stream mapped => exact .stream (Option.filter_eq_some_iff.mp mapped).1

theorem assignForwarders_retains {forwarders : List Nat}
    (uses : ∀ f ∈ forwarders, dialog.call.Uses f) :
    Retains dialog (assignForwarders mediaConfig parsed forwarders dialog).2 := by
  have taken : ∀ f ∈ forwarders.take (audioStreams parsed).length, dialog.call.Uses f :=
    fun f mem => uses f (List.mem_of_mem_take mem)
  have torn : ∀ f, ((dialog.media.tearDown (forwarders.drop (audioStreams parsed).length)).get
      f).stream.recordingPaused = (dialog.media.get f).stream.recordingPaused :=
    Forwarders.update_keeps _ (·.stream.recordingPaused) (fun _ => by rfl)
  constructor
  · intro f isUsed
    cases isUsed with
    | listed mem =>
      rw [assignForwarders_rtpForwarders] at mem
      exact taken f mem
    | single isSingle =>
      rw [assignForwarders_rtpForwarder] at isSingle
      rcases Option.or_eq_some_iff.mp isSingle with first | ⟨-, before⟩
      · exact taken f (List.mem_of_head? first)
      · exact .single before
    | stream mapped =>
      cases parsed with
      | none => exact taken f (assignLegs_mem mapped)
      | some descriptions =>
        simp only [assignForwarders] at mapped
        rw [configureStreams_reached.1] at mapped
        exact taken f (assigned_mem mapped)
  · intro f
    cases parsed with
    | none => exact torn f
    | some descriptions =>
      exact (Forwarders.configureStreams_keeps (·.stream.recordingPaused)
        (fun _ _ => rfl)).trans (torn f)

theorem matchStreams_retains
    (none_ : granted = 0 ∨ (audioStreams parsed).length ≤ dialog.call.primary.length) :
    Retains dialog (matchStreams mediaConfig parsed granted dialog).2 := by
  have unchanged : (allocate ((audioStreams parsed).length - dialog.call.primary.length) granted
      dialog.media dialog.call.primary).2 = (dialog.media, dialog.call.primary) := by
    rcases none_ with rfl | enough
    · cases (audioStreams parsed).length - dialog.call.primary.length <;> rfl
    · rw [Nat.sub_eq_zero_of_le enough]
      rfl
  simp only [matchStreams]
  rw [unchanged]
  split
  · exact assignForwarders_retains fun f mem => Call.uses_primary mem
  · exact .refl

/-- A re-INVITE creates no forwarder: no port can be had, there is no media configuration or
nothing to match, or the call has a forwarder for every audio stream of the offer. -/
def CreatesNone (config : Config) (granted : Nat) (sdp : Option Bytes) (dialog : Dialog G O) :
    Prop :=
  granted = 0 ∨ config.mediaConfig = none ∨
    (dialog.call.rtpForwarder = none ∧ sdp.getD [] = []) ∨
    (audioStreams (parsedSDP config sdp)).length ≤ dialog.call.primary.length

theorem updateMedia_retains (createsNone : CreatesNone config granted sdp dialog) :
    Retains dialog (updateMedia config granted sdp dialog).2 := by
  unfold updateMedia
  split
  · exact .refl
  case isFalse offered =>
    split
    · exact .refl
    case h_2 mediaConfig isMediaConfig =>
      refine matchStreams_retains ?_
      rcases createsNone with none_ | absent | nothing | enough
      · exact .inl none_
      · cases absent.symm.trans isMediaConfig
      · exact absurd nothing offered
      · exact .inr enough

theorem dropDead_createsNone {session : Option RecordingSession}
    (createsNone : CreatesNone config granted sdp (dropDead dialog)) :
    CreatesNone config granted sdp
      (dropDead (storeSDP sdp { dialog with call := { dialog.call with session } })) := by
  cases sdp with
  | none => exact createsNone
  | some offer =>
    have live : (storeSDP (some offer)
        { dialog with call := { dialog.call with session } }).live = dialog.live :=
      funext fun f => congrArg Bool.not (Forwarders.resetRemoteSSRC_rest _ f).1
    unfold dropDead
    rw [live]
    exact createsNone

/-- The forwarders that have stopped do not count. -/
theorem reInvite_retains {request : Request}
    (createsNone : CreatesNone config env.granted request.sdp (dropDead dialog)) :
    Retains dialog (handleSiprecReInvite config env request dialog).2 := by
  unfold handleSiprecReInvite
  split
  · exact .refl
  case h_2 refreshed succeeds =>
    obtain ⟨session, rfl⟩ := refreshSession_rest succeeds
    have started : Retains dialog { dialog with call := { dialog.call with session } } :=
      .same rfl rfl rfl fun _ => rfl
    have updated := ((started.trans storeSDP_retains).trans dropDead_retains).trans
      (updateMedia_retains (dropDead_createsNone createsNone))
    split
    case h_1 refusal after isRefused =>
      rw [isRefused] at updated
      exact updated
    case h_2 after isMatched =>
      rw [isMatched] at updated
      obtain ⟨media, rtpForwarders, rtpForwarder, streamForwarders⟩ :=
        answer_rest config env after
      exact updated.trans
        (.same rtpForwarders rtpForwarder streamForwarders fun f => by rw [media])

end Retains

end SiprecServer.Sip.ReInvite

namespace SiprecServer.Sip.Signalling

open Lib.FileSystem Lib.Transducer Media
open Sip.ReInvite (Forwarders)

variable {G O : Type}

section

variable (config : Config G O)

def notePause (server : Server G O) (paused : Option Nat) : Event → Option Nat
  | .pauseSession sessionID true _ =>
    if (server.activeCalls sessionID).isSome then
      match server.callStates with
      | some call =>
        if (server.calls call).activeKey config.callID = sessionID then some call else paused
      | none => paused
    else paused
  | .resumeSession sessionID =>
    paused.filter fun call => (server.calls call).activeKey config.callID ≠ sessionID
  | _ => paused

def Silent : Server G O × Option Nat → Event → Prop
  | (server, paused), event =>
    ∀ call ∈ paused, ∀ f, (server.calls call).media.Uses f →
      .recorded f ∉ (step config server event).2

def endsHold (message : Message) : Bool :=
  match message.request with
  | .update _ isSDP =>
    message.body ≠ [] && isSDP &&
      (config.parseDirections message.body).any fun directions => !directions.any (·.isHold)
  | _ => false

/-- A pause reaches every forwarder of the call that is not paused yet; afterwards no UPDATE
ends a hold, no re-INVITE creates a forwarder and no other session is resumed in the
call's place. -/
def KeepsPause : Server G O × Option Nat → Event → Prop
  | (server, _), .pauseSession sessionID true _ =>
    ∀ entry ∈ server.activeCalls sessionID, ∀ call ∈ server.callStates,
      (server.calls call).activeKey config.callID = sessionID →
        ∀ f, (server.calls call).media.Uses f →
          (server.media.get f).stream.recordingPaused ∨ entry = some f
  | (server, paused), .resumeSession sessionID =>
    ∀ call ∈ paused, (server.calls call).activeKey config.callID ≠ sessionID →
      ∀ f, (server.calls call).media.Uses f → server.activeCalls sessionID ≠ some (some f)
  | (server, paused), .request message env =>
    ∀ call ∈ paused, server.callStates = some call →
      endsHold config message = false ∧
        ∀ content sessionID, message.request = .invite content sessionID →
          refusedAtOnce env content = true ∨
            ReInvite.CreatesNone config.toConfig env.granted content.sdp
              (ReInvite.dropDead ⟨(server.calls call).media, server.media⟩)
  | _, _ => True

end

/-- Whatever forwarder the call still uses, the call is registered and the forwarder's
recording is paused. -/
structure Muted (server : Server G O) (call : Nat) : Prop where
  known : call < server.nextCall
  flags : ∀ f, (server.calls call).media.Uses f →
    server.callStates = some call ∧ (server.media.get f).stream.recordingPaused

/-! ## One step -/

variable {sessionID : String} {event : Event} {paused : Option Nat}

open RtpStream

section Steps

variable {f : Nat} {config : Config G O} {server after : Server G O} {env : Circumstances}
  {message : Message} {call : Nat}

theorem SameForwarders.uses {old new : CallState} (same : SameForwarders old new)
    (uses : new.media.Uses f) : old.media.Uses f := by
  cases uses with
  | listed mem => exact .listed (same.rtpForwarders ▸ mem)
  | single isSingle => exact .single (same.rtpForwarder ▸ isSingle)
  | stream mapped => exact .stream (same.streamForwarders ▸ mapped)

section

variable (muted : Muted server call)

include muted

theorem Muted.same (nextCall : after.nextCall = server.nextCall)
    (callStates : after.callStates = server.callStates)
    (forwarders : SameForwarders (server.calls call) (after.calls call))
    (flags : ∀ f, (server.calls call).media.Uses f → (server.media.get f).stream.recordingPaused →
      (after.media.get f).stream.recordingPaused) : Muted after call := by
  refine ⟨nextCall ▸ muted.known, fun f uses => ?_⟩
  have before := forwarders.uses uses
  obtain ⟨registered, paused⟩ := muted.flags f before
  exact ⟨callStates ▸ registered, flags f before paused⟩

theorem Muted.light (light : Light server after)
    (flags : ∀ f, (server.calls call).media.Uses f → (server.media.get f).stream.recordingPaused →
      (after.media.get f).stream.recordingPaused) : Muted after call :=
  muted.same light.nextCall light.callStates (light.dialogs call).sameForwarders flags

theorem Muted.updateCall {changed : Nat} {change : CallState → CallState}
    (same : SameForwarders (server.calls changed) (change (server.calls changed))) :
    Muted (server.updateCall changed change) call := by
  refine muted.same rfl rfl ?_ fun _ _ paused => paused
  by_cases isCall : call = changed
  · rw [isCall, updateCall_same]
    exact same
  · rw [updateCall_other _ _ _ isCall]
    exact ⟨rfl, rfl, rfl, rfl⟩

theorem Muted.finalizeCall {callID reason : String} {now known : Nat}
    (registered : server.callStates = some known) :
    Muted (finalizeCall callID server known reason now).1 call := by
  unfold Signalling.finalizeCall
  split
  · exact muted
  · refine ⟨muted.known, fun f uses => ?_⟩
    rw [doFinalizeCall_calls] at uses
    split at uses
    · cases uses with
      | listed mem => cases mem
      | single isSingle => cases isSingle
      | stream mapped => cases mapped
    case isFalse differs =>
      have isCall := (muted.flags f uses).1
      exact absurd (Option.some.inj (isCall.symm.trans registered)) differs

end

section

variable {change : RtpStream G O → RtpStream G O} {media : Forwarders G O} {chosen : List Nat}

theorem changeStreams_flag (keeps : f ∈ chosen → (change (media.get f).stream).recordingPaused)
    (paused : (media.get f).stream.recordingPaused) :
    ((changeStreams media chosen change).get f).stream.recordingPaused := by
  simp only [changeStreams, Forwarders.update]
  split
  case isTrue mem => exact keeps mem
  case isFalse => exact paused

theorem tearDown_flag (paused : (media.get f).stream.recordingPaused) :
    ((media.tearDown chosen).get f).stream.recordingPaused := by
  have kept : ((media.tearDown chosen).get f).stream.recordingPaused =
      (media.get f).stream.recordingPaused :=
    Forwarders.update_keeps _ (·.stream.recordingPaused) (fun _ => by rfl) f
  exact kept.trans paused

theorem onActiveCall_flag (keeps : server.activeCalls sessionID = some (some f) →
      (change (server.media.get f).stream).recordingPaused)
    (paused : (server.media.get f).stream.recordingPaused) :
    ((onActiveCall server sessionID change).media.get f).stream.recordingPaused := by
  unfold onActiveCall
  split
  case h_1 reached isReached =>
    refine changeStreams_flag (fun mem => keeps ?_) paused
    rw [isReached, List.mem_singleton.mp mem]
  case h_2 => exact paused

end

section

variable {other f : Nat} {event : RtpStream.Event}
  (held : ∀ stream : RtpStream G O, RtpStream.Held stream (stream.step config.stream event).1)
  (isPaused : (server.media.get f).stream.recordingPaused)

include held isPaused

theorem onStream_flag :
    ((onStream config.stream server other event).1.media.get f).stream.recordingPaused := by
  unfold onStream
  dsimp only
  split
  · dsimp only
    refine changeStreams_flag (fun mem => ?_) isPaused
    rw [← List.mem_singleton.mp mem]
    exact (held _).flag.trans isPaused
  · exact isPaused

theorem onStream_silent : .recorded f ∉ (onStream config.stream server other event).2 := by
  unfold onStream
  dsimp only
  split
  · split
    · exact List.not_mem_nil
    case isFalse writes =>
      intro mem
      cases List.mem_singleton.mp mem
      exact writes ((held _).recording isPaused)
  · exact List.not_mem_nil

end

section

variable {after : Server G O × List Observation} {content : ReInvite.Request}

theorem handleUpdateMessage_flag {metadata : Option (Option ReInvite.RSMetadata)} {isSDP : Bool}
    (isUpdate : message.request = .update metadata isSDP)
    (onHold : endsHold config message = false)
    (paused : (server.media.get f).stream.recordingPaused) :
    ((handleUpdateMessage config env message metadata isSDP server).1.media.get
      f).stream.recordingPaused := by
  unfold handleUpdateMessage
  split
  · exact paused
  · dsimp only
    split
    · exact paused
    case isFalse nonempty =>
      split
      case isTrue sdp =>
        split
        · exact paused
        case h_2 directions parsed =>
          have holds : directions.any (·.isHold) := by
            simpa [endsHold, isUpdate, nonempty, sdp, parsed] using onHold
          simp only [renegotiate, holds, if_true]
          refine changeStreams_flag (fun _ => ?_) paused
          simp only [pause, paused, Bool.true_or]
      case isFalse => exact paused

theorem handleRequest_media (light : (Event.request message env).isLight)
    (notUpdate : ∀ metadata isSDP, message.request ≠ .update metadata isSDP) :
    (handleRequest config env message server).1.media = server.media := by
  have inDialog : ∀ response,
      (handleInDialog env response server).1.media = server.media := by
    intro response
    unfold handleInDialog
    split <;> rfl
  obtain ⟨request, fromTag, toTag, cseq, body⟩ := message
  cases request with
  | prack =>
    simp only [handleRequest, handlePrackMessage]
    split <;> rfl
  | update metadata isSDP => exact absurd rfl (notUpdate metadata isSDP)
  | subscribe callback =>
    simp only [handleRequest, handleSubscribeMessage]
    split
    · rfl
    · cases callback <;> rfl
  | info => exact inDialog _
  | refer hasReferTo => exact inDialog _
  | notify => exact inDialog _
  | message =>
    simp only [handleRequest, handleMessageMessage]
    split <;> rfl
  | options => rfl
  | other => rfl
  | _ => cases light

theorem step_flag (light : event.isLight)
    (onHold : ∀ message env, event = .request message env →
      endsHold config message = false) (unreached : ∀ sessionID, event = .resumeSession sessionID →
      server.activeCalls sessionID ≠ some (some f))
    (paused : (server.media.get f).stream.recordingPaused) :
    ((step config server event).1.media.get f).stream.recordingPaused := by
  cases event with
  | request message env =>
    by_cases isUpdate : ∃ metadata isSDP, message.request = .update metadata isSDP
    · obtain ⟨metadata, isSDP, request⟩ := isUpdate
      simp only [step, handleRequest, request]
      exact handleUpdateMessage_flag request (onHold message env rfl) paused
    · simp only [step]
      rw [handleRequest_media light fun metadata isSDP request =>
        isUpdate ⟨metadata, isSDP, request⟩]
      exact paused
  | reap now => cases light
  | pauseSession sessionID pauseRecording pauseTranscription =>
    refine onActiveCall_flag (fun _ => ?_) paused
    simp only [pause, paused, Bool.true_or]
  | resumeSession sessionID =>
    exact onActiveCall_flag (fun reached => absurd reached (unreached sessionID rfl)) paused
  | staleSession sessionID => exact tearDown_flag paused
  | rtp other packet arrival now writable =>
    exact onStream_flag (fun _ => receive_held) paused
  | drain other now writable => exact onStream_flag (fun _ => drain_held) paused
  | monitorTick other now => exact onStream_flag (fun _ => monitorTick_held) paused
  | forwarderStops other => exact tearDown_flag paused
  | otherCallEntered key forwarder => exact paused
  | otherCallFinalised callID => exact paused

theorem InviteOutcome.muted
    (outcome : InviteOutcome config env message content sessionID server after)
    (muted : Muted server call)
    (createsNone : server.callStates = some call → refusedAtOnce env content = true ∨
      ReInvite.CreatesNone config.toConfig env.granted content.sdp
        (ReInvite.dropDead ⟨(server.calls call).media, server.media⟩)) :
    Muted after.1 call := by
  refine ⟨Nat.lt_of_lt_of_le muted.known outcome.counted.nextCall, fun f uses => ?_⟩
  cases outcome with
  | refused refusal failed result =>
    rw [result] at uses ⊢
    exact muted.flags f uses
  | entered none_ result =>
    rw [result, entered_others (Nat.ne_of_lt muted.known)] at uses
    exact absurd (none_.symm.trans (muted.flags f uses).1) nofun
  | reInvited known isKnown goesOn spec =>
    by_cases isCall : call = known
    · subst isCall
      have none_ := (createsNone isKnown).resolve_left (by simp [goesOn])
      rw [spec.answered, reInvitedCall_media] at uses
      have retains : ReInvite.Retains ⟨(server.calls call).media, server.media⟩
          (reEstablished config env content call server).2 :=
        ReInvite.reInvite_retains none_
      rw [spec.callStates, spec.media, retains.flags f]
      exact muted.flags f (retains.uses f uses)
    · rw [spec.others call isCall] at uses
      have registered := (muted.flags f uses).1
      exact absurd (Option.some.inj (registered.symm.trans isKnown)) isCall

theorem EndOutcome.muted (outcome : EndOutcome config server after) (muted : Muted server call) :
    Muted after.1 call := by
  cases outcome with
  | spared responses result =>
    rw [result]
    exact muted
  | ended known isKnown change concluded reason now responses state observed =>
    rw [state]
    exact (muted.updateCall concluded.forwarders).finalizeCall isKnown

theorem step_muted (muted : Muted server call) (isPaused : call ∈ paused)
    (keeps : KeepsPause config (server, paused) event)
    (notResumed : ∀ sessionID, event = .resumeSession sessionID →
      (server.calls call).activeKey config.callID ≠ sessionID) :
    Muted (step config server event).1 call := by
  cases step_outcome config server event with
  | light isLight kept =>
    refine muted.light kept fun f uses isSet => ?_
    refine step_flag isLight (fun message env isRequest => ?_)
      (fun sessionID isResume => ?_) isSet
    · subst isRequest
      exact (keeps call isPaused (muted.flags f uses).1).1
    · subst isResume
      exact keeps call isPaused (notResumed sessionID rfl) f uses
  | invites message env content sessionID isEvent isInvite outcome =>
    subst isEvent
    exact outcome.muted muted fun isCall => (keeps call isPaused isCall).2 _ _ isInvite
  | acks message env known isEvent isAck isKnown result =>
    rw [result]
    exact muted.updateCall ⟨rfl, rfl, rfl, rfl⟩
  | ends notInvite outcome => exact outcome.muted muted

theorem finalizeCall_silent {callID reason : String} {now f : Nat} :
    .recorded f ∉ (finalizeCall callID server call reason now).2 := by
  unfold finalizeCall
  split
  · exact List.not_mem_nil
  · exact fun mem => nomatch List.mem_singleton.mp mem

theorem responses_silent {responses : List ReInvite.Response} :
    .recorded f ∉ responses.map Observation.response := by
  intro mem
  obtain ⟨response, -, isResponse⟩ := List.mem_map.mp mem
  cases isResponse

theorem response_silent {response : ReInvite.Response} :
    .recorded f ∉ [Observation.response response] :=
  fun mem => nomatch List.mem_singleton.mp mem

theorem InviteOutcome.silent
    (outcome : InviteOutcome config env message content sessionID server after) :
    .recorded f ∉ after.2 := by
  cases outcome with
  | refused refusal failed result =>
    rw [result]
    exact response_silent
  | entered none_ result =>
    rw [result]
    rcases answerInvite_cases config env message content sessionID server.nextCall
      (storeCall message env.now server) with ⟨_, spec⟩ | ⟨_, refused⟩
    · rw [spec.response]
      exact response_silent
    · rw [refused]
      intro mem
      rcases List.mem_cons.mp mem with isResponse | later
      · cases isResponse
      · exact finalizeCall_silent later
  | reInvited call isCall goesOn spec =>
    rw [spec.response]
    exact response_silent

theorem EndOutcome.silent (outcome : EndOutcome config server after) : .recorded f ∉ after.2 := by
  cases outcome with
  | spared responses result =>
    rw [result]
    exact responses_silent
  | ended call isCall change concluded reason now responses state observed =>
    rw [observed]
    intro mem
    rcases List.mem_append.mp mem with isResponse | later
    · exact responses_silent isResponse
    · exact finalizeCall_silent later

end

theorem handleRequest_silent :
    .recorded f ∉ (handleRequest config env message server).2 := by
  have outcome : StepOutcome config server (.request message env)
      (handleRequest config env message server) := step_outcome config server _
  cases outcome with
  | light isLight kept =>
    have reply : LightReply server (handleRequest config env message server) :=
      handleRequest_reply isLight
    obtain ⟨response, isResponse⟩ := reply.response
    rw [isResponse]
    exact response_silent
  | invites invited elsewhere content sessionID isEvent isInvite outcome => exact outcome.silent
  | acks acked elsewhere call isEvent isAck isCall result =>
    rw [result]
    exact List.not_mem_nil
  | ends notInvite outcome => exact outcome.silent

theorem Muted.silent (muted : Muted server call)
    (uses : (server.calls call).media.Uses f) : .recorded f ∉ (step config server event).2 := by
  have paused := (muted.flags f uses).2
  cases event with
  | request message env => exact handleRequest_silent
  | reap now => exact reapStaleDialogs_outcome.silent
  | rtp other packet arrival now writable =>
    exact onStream_silent (fun _ => receive_held) paused
  | drain other now writable => exact onStream_silent (fun _ => drain_held) paused
  | monitorTick other now => exact onStream_silent (fun _ => monitorTick_held) paused
  | _ => exact List.not_mem_nil

end Steps

section Runs

variable {config : Config G O} {server : Server G O}

theorem pauseSession_muted {pauseTranscription : Bool} {call : Nat} (settled : Settled server)
    (isCall : server.callStates = some call)
    (key : (server.calls call).activeKey config.callID = sessionID)
    (found : (server.activeCalls sessionID).isSome)
    (keeps : KeepsPause config (server, paused) (.pauseSession sessionID true pauseTranscription)) :
    Muted (step config server (.pauseSession sessionID true pauseTranscription)).1 call := by
  obtain ⟨entry, isEntry⟩ := Option.isSome_iff_exists.mp found
  have light : Light server (onActiveCall server sessionID (·.pause true pauseTranscription)) :=
    onActiveCall_light
  have flagged : ∀ f, (server.calls call).media.Uses f → ((onActiveCall server sessionID
      (·.pause true pauseTranscription)).media.get f).stream.recordingPaused := by
    intro f uses
    have setFlag : ∀ stream : RtpStream G O,
        (stream.pause true pauseTranscription).recordingPaused :=
      fun stream => Bool.or_true _
    rcases keeps entry isEntry call isCall key f uses with already | reached
    · exact onActiveCall_flag (fun _ => setFlag _) already
    · subst reached
      unfold onActiveCall
      rw [isEntry]
      simp [changeStreams, Forwarders.update, pause]
  refine ⟨light.nextCall ▸ (settled.registered isCall).1, fun f uses => ?_⟩
  exact ⟨light.callStates.trans isCall, flagged f ((light.dialogs call).sameForwarders.uses uses)⟩

structure Promised (server : Server G O) (paused : Option Nat) : Prop where
  settled : Settled server
  muted : ∀ call ∈ paused, Muted server call

theorem step_promised (promised : Promised server paused)
    (keeps : KeepsPause config (server, paused) event) :
    Promised (step config server event).1 (notePause config server paused event) := by
  refine ⟨step_settled promised.settled, fun call isPaused => ?_⟩
  have before : call ∈ paused → (∀ sessionID, event = .resumeSession sessionID →
      (server.calls call).activeKey config.callID ≠ sessionID) →
      Muted (step config server event).1 call :=
    fun was notResumed => step_muted (promised.muted call was) was keeps notResumed
  cases event with
  | resumeSession sessionID =>
    obtain ⟨was, differs⟩ := Option.mem_filter_iff.mp isPaused
    refine before was fun resumed same => ?_
    cases same
    exact of_decide_eq_true differs
  | pauseSession sessionID pauseRecording pauseTranscription =>
    cases pauseRecording with
    | false => exact before isPaused nofun
    | true =>
      simp only [notePause] at isPaused
      split at isPaused
      case isFalse => exact before isPaused nofun
      case isTrue found =>
        split at isPaused
        case h_2 => exact before isPaused nofun
        case h_1 known isKnown =>
          split at isPaused
          case isFalse => exact before isPaused nofun
          case isTrue key =>
            cases isPaused
            exact pauseSession_muted promised.settled isKnown key found keeps
  | _ => exact before isPaused nofun

/-- In every run whose steps keep the pause, no forwarder of a call writes to its recording
from the time its session is paused until it is resumed. -/
theorem paused_call_silent (config : Config G O) (events : List Event)
    (keeps : Along (tracked (step config) (notePause config)) (KeepsPause config)
      (idleServer, none) events) :
    Along (tracked (step config) (notePause config)) (Silent config) (idleServer, none)
      events := by
  refine keeps.imp (fun state : Server G O × Option Nat => Promised state.1 state.2)
    (fun state event promised kept => step_promised promised kept) ?_
    ⟨idleServer_settled, fun _ isPaused => absurd isPaused (Option.not_mem_none _)⟩
  intro state event promised _ call isPaused f uses
  exact (promised.muted call isPaused).silent uses

/-- A call with one stream stays paused through a re-INVITE that repeats the offer. -/
theorem single_stream_stays_paused :
    Along (tracked (step plainServer) (notePause plainServer)) (Silent plainServer)
      (idleServer, none)
      [invite [1] 1 0, send .ack 1 1, .pauseSession "session" true false, packetFor 0 2,
        invite [1] 2 3, packetFor 0 4] := by
  refine paused_call_silent plainServer _ ⟨nofun, nofun, ?_, trivial, ?_, trivial, trivial⟩
  · intro entry isEntry call isCall _ f uses
    have reached : entry = some 0 := (Option.some.inj isEntry).symm
    have isFirst : call = 0 := (Option.some.inj isCall).symm
    subst isFirst
    refine .inr (reached.trans ?_)
    cases uses with
    | listed member =>
      change f ∈ [0] at member
      rw [List.mem_singleton.mp member]
    | single isSingle => exact isSingle
    | @stream label mapped =>
      change write empty "caller" 0 label = some f at mapped
      unfold write at mapped
      split at mapped
      · exact mapped
      · cases mapped
  · intro call isPaused isCall
    have isFirst : call = 0 := (Option.some.inj isCall).symm
    subst isFirst
    refine ⟨by decide, ?_⟩
    rintro content sessionID ⟨⟩
    exact .inr (.inr (.inr (.inr (by decide))))

/-- The pause of a call with two streams reaches the first one only; and the pause of a call
with one stream ends with an UPDATE whose SDP offers no hold. -/
theorem second_stream_records :
    let setUp := [invite [1, 2] 1 0, send .ack 1 1, .pauseSession "session" true false]
    let single := [invite [1] 1 0, send .ack 1 1, .pauseSession "session" true false]
    let before := (run (step plainServer) idleServer setUp).1
    let resumed := (run (step plainServer) idleServer
      (single ++ [send (.update none true) 2 2])).1
    (before.calls 0).media.rtpForwarders = [0, 1] ∧
      (before.media.get 0).stream.recordingPaused ∧
      .recorded 1 ∈ (step plainServer before (packetFor 1 2)).2 ∧
      .recorded 0 ∈ (step plainServer resumed (packetFor 0 3)).2 ∧
      ¬ Along (tracked (step plainServer) (notePause plainServer)) (Silent plainServer)
        (idleServer, none) (setUp ++ [packetFor 1 2]) := by
  refine ⟨by decide, by decide, by decide, by decide, fun silent => ?_⟩
  exact silent.2.2.2.1 0 (by decide) 1 (.listed (by decide)) (by decide)

end Runs

end SiprecServer.Sip.Signalling
