import SiprecServer.Sip.Signalling

/-!
# What a step does to the calls

Most events leave the dialogs as they are.  INVITE, ACK, BYE, CANCEL and the reaper do
not: between two steps a registered call awaits an ACK or is connected, and every other
call is terminated.
-/

namespace SiprecServer.Sip.Signalling

open Lib.FileSystem Media
open Sip.ReInvite (Forwarders Response)

variable {G O : Type} {config : Config G O} {server : Server G O}
  {env : Circumstances} {message : Message}

/-! ## Events that leave the dialogs alone -/

/-- The same dialog on the same forwarders; the session, the stored SDP and the time of
activity may differ. -/
structure SameDialog (old new : CallState) : Prop where
  state : new.state = old.state ∨ old.state = .early ∧ new.state = .proceeding
  remoteTag : new.remoteTag = old.remoteTag
  localTag : new.localTag = old.localTag
  remoteCSeq : new.remoteCSeq = old.remoteCSeq
  pendingAckCSeq : new.pendingAckCSeq = old.pendingAckCSeq
  createdAt : new.createdAt = old.createdAt
  finalized : new.finalized = old.finalized
  streamLabels : new.streamLabels = old.streamLabels
  rtpForwarders : new.media.rtpForwarders = old.media.rtpForwarders
  rtpForwarder : new.media.rtpForwarder = old.media.rtpForwarder
  streamForwarders : new.media.streamForwarders = old.media.streamForwarders

theorem SameDialog.refl (call : CallState) : SameDialog call call := by
  constructor
  case state => exact .inl rfl
  all_goals rfl

theorem SameDialog.trans {first second third : CallState} (one : SameDialog first second)
    (two : SameDialog second third) : SameDialog first third where
  state := by
    rcases one.state, two.state with ⟨same | ⟨early, proceeding⟩, same' | ⟨early', proceeding'⟩⟩
    · exact .inl (same'.trans same)
    · exact .inr ⟨same ▸ early', proceeding'⟩
    · exact .inr ⟨early, same'.trans proceeding⟩
    · rw [proceeding] at early'
      cases early'
  remoteTag := two.remoteTag.trans one.remoteTag
  localTag := two.localTag.trans one.localTag
  remoteCSeq := two.remoteCSeq.trans one.remoteCSeq
  pendingAckCSeq := two.pendingAckCSeq.trans one.pendingAckCSeq
  createdAt := two.createdAt.trans one.createdAt
  finalized := two.finalized.trans one.finalized
  streamLabels := two.streamLabels.trans one.streamLabels
  rtpForwarders := two.rtpForwarders.trans one.rtpForwarders
  rtpForwarder := two.rtpForwarder.trans one.rtpForwarder
  streamForwarders := two.streamForwarders.trans one.streamForwarders

structure Light (server after : Server G O) : Prop where
  callStates : after.callStates = server.callStates
  nextCall : after.nextCall = server.nextCall
  dialogs : ∀ call, SameDialog (server.calls call) (after.calls call)
  forwarders : after.media.next = server.media.next

theorem Light.refl (server : Server G O) : Light server server :=
  ⟨rfl, rfl, fun _ => .refl _, rfl⟩

theorem Light.trans {first second third : Server G O} (one : Light first second)
    (two : Light second third) : Light first third :=
  ⟨two.callStates.trans one.callStates, two.nextCall.trans one.nextCall,
    fun call => (one.dialogs call).trans (two.dialogs call),
    two.forwarders.trans one.forwarders⟩

variable {after : Server G O} {call : Nat} {response : Response} {callID reason : String}
  {now : Nat}

theorem Light.ofMedia (callStates : after.callStates = server.callStates)
    (nextCall : after.nextCall = server.nextCall) (calls : after.calls = server.calls)
    (forwarders : after.media.next = server.media.next) : Light server after :=
  ⟨callStates, nextCall, fun _ => calls ▸ .refl _, forwarders⟩

theorem Light.ofUpdate {change : CallState → CallState} (same : ∀ old, SameDialog old (change old)) :
    Light server (server.updateCall call change) := by
  refine ⟨rfl, rfl, fun other => ?_, rfl⟩
  by_cases isCall : other = call
  · rw [isCall, updateCall_same]
    exact same _
  · rw [updateCall_other server call change isCall]
    exact .refl _

theorem touch_light (call : Nat) : Light server (touch env call server) := by
  refine .ofUpdate fun old => ?_
  constructor
  case state => exact .inl rfl
  all_goals rfl

/-- The request leaves the dialogs alone and is answered. -/
structure LightReply (server : Server G O) (after : Server G O × List Observation) : Prop where
  light : Light server after.1
  response : ∃ response, after.2 = [.response response]

theorem LightReply.of (light : Light server after) :
    LightReply server (after, [.response response]) :=
  ⟨light, response, rfl⟩

theorem LightReply.unchanged :
    LightReply server (server, [.response response]) := .of (.refl server)

theorem handleInDialog_reply :
    LightReply server (handleInDialog env response server) := by
  unfold handleInDialog
  split
  · exact .unchanged
  · exact .of (touch_light _)

theorem handlePrackMessage_reply : LightReply server (handlePrackMessage env server) := by
  unfold handlePrackMessage
  split
  · exact .unchanged
  · refine .of (.ofUpdate fun old => ?_)
    constructor
    case state =>
      by_cases early : old.state = .early
      · exact .inr ⟨early, if_pos early⟩
      · exact .inl (if_neg early)
    all_goals rfl

theorem Light.ofMediaState (change : ReInvite.Call → ReInvite.Call)
    (same : ∀ old, (change old).rtpForwarders = old.rtpForwarders ∧
      (change old).rtpForwarder = old.rtpForwarder ∧
      (change old).streamForwarders = old.streamForwarders) :
    Light server (server.updateCall call fun old => { old with media := change old.media }) := by
  refine .ofUpdate fun old => ?_
  constructor
  case state => exact .inl rfl
  case rtpForwarders => exact (same old.media).1
  case rtpForwarder => exact (same old.media).2.1
  case streamForwarders => exact (same old.media).2.2
  all_goals rfl

theorem handleUpdateMessage_reply {metadata : Option (Option ReInvite.RSMetadata)} {isSDP : Bool} :
    LightReply server
      (handleUpdateMessage config env message metadata isSDP server) := by
  unfold handleUpdateMessage
  split
  · exact .unchanged
  case h_2 call registered =>
    have active : Light server (touch env call server) := touch_light call
    have merged : Light server ((touch env call server).updateCall call fun old =>
        { old with
          media := updateMetadata config.toConfig env.now old.media metadata }) :=
      active.trans (.ofMediaState (updateMetadata _ _ · metadata) fun _ => by
        rcases metadata with _ | _ | metadata <;> exact ⟨rfl, rfl, rfl⟩)
    have stored : ∀ middle : Server G O, Light middle (middle.updateCall call fun old =>
        { old with media := { old.media with sdp := some message.body } }) :=
      fun _ => .ofMediaState (fun old => { old with sdp := some message.body })
        fun _ => ⟨rfl, rfl, rfl⟩
    split
    · exact .of active
    · split
      · split
        · exact .of merged
        · refine .of ((merged.trans (stored _)).trans (.ofMedia rfl rfl rfl ?_))
          unfold renegotiate
          split <;> rfl
      · exact .of merged

theorem onStream_light {f : Nat} {event : RtpStream.Event} :
    Light server (onStream config.stream server f event).1 := by
  unfold onStream
  dsimp only
  split
  · exact .ofMedia rfl rfl rfl rfl
  · exact .refl _

theorem onActiveCall_light {sessionID : String} {change : RtpStream G O → RtpStream G O} :
    Light server (onActiveCall server sessionID change) := by
  unfold onActiveCall
  split
  · exact .ofMedia rfl rfl rfl rfl
  · exact .refl _

def Event.isLight : Event → Bool
  | .request message _ =>
    match message.request with
    | .invite _ _ | .ack | .bye | .cancel => false
    | _ => true
  | .reap _ => false
  | _ => true

theorem handleRequest_reply (light : (Event.request message env).isLight) :
    LightReply server (handleRequest config env message server) := by
  obtain ⟨request, fromTag, toTag, cseq, body⟩ := message
  cases request with
  | invite content sessionID => cases light
  | ack => cases light
  | bye => cases light
  | cancel => cases light
  | prack => exact handlePrackMessage_reply
  | update metadata isSDP => exact handleUpdateMessage_reply
  | subscribe callback =>
    simp only [handleRequest, handleSubscribeMessage]
    split
    · exact .unchanged
    · cases callback with
      | missing => exact .unchanged
      | rejected => exact .unchanged
      | accepted => exact .of (touch_light _)
  | message =>
    simp only [handleRequest, handleMessageMessage]
    split
    · exact .unchanged
    · exact .of (touch_light _)
  | options => exact .unchanged
  | other => exact .unchanged
  | _ => exact handleInDialog_reply

theorem step_light {event : Event} (light : event.isLight) :
    Light server (step config server event).1 := by
  cases event with
  | request message env => exact (handleRequest_reply light).light
  | reap now => cases light
  | pauseSession sessionID pauseRecording pauseTranscription => exact onActiveCall_light
  | resumeSession sessionID => exact onActiveCall_light
  | staleSession sessionID => exact .ofMedia rfl rfl rfl rfl
  | rtp f packet arrival now writable => exact onStream_light
  | drain f now writable => exact onStream_light
  | monitorTick f now => exact onStream_light
  | _ => exact .ofMedia rfl rfl rfl rfl

def answersOk (observations : List Observation) : Bool :=
  observations.any fun
    | .response sent => sent.isSuccess
    | _ => false

theorem answersOk_refusal {refusal : Response} (failed : refusal.isSuccess = false) :
    answersOk [.response refusal] = false := by
  simp [answersOk, failed]

theorem finalizeCall_first (first : (server.calls call).finalized = false) :
    finalizeCall callID server call reason now = doFinalizeCall callID server call reason now := by
  unfold finalizeCall
  rw [first]
  rfl

theorem doFinalizeCall_calls (other : Nat) :
    (doFinalizeCall callID server call reason now).1.calls other =
      if other = call then (server.calls call).finalised reason now else server.calls other := by
  by_cases isCall : other = call
  · rw [isCall, if_pos rfl]
    exact updateCall_same server call _
  · rw [if_neg isCall]
    exact updateCall_other server call _ isCall

theorem finalizeCall_remoteCSeq (other : Nat) :
    ((finalizeCall callID server call reason now).1.calls other).remoteCSeq =
      (server.calls other).remoteCSeq := by
  unfold finalizeCall
  split
  · rfl
  · rw [doFinalizeCall_calls]
    split
    case isTrue isCall =>
      rw [isCall]
      rfl
    case isFalse => rfl

structure CallState.Established (call : CallState) : Prop where
  state : call.state = .awaitingAck ∨ call.state = .connected
  finalized : call.finalized = false
  localTag : call.localTag ≠ ""

theorem CallState.Established.same {old new : CallState} (established : old.Established)
    (same : SameDialog old new) : new.Established where
  state := by
    rcases same.state with kept | ⟨early, -⟩
    · rw [kept]
      exact established.state
    · rcases established.state with awaiting | connected
      · rw [early] at awaiting
        cases awaiting
      · rw [early] at connected
        cases connected
  finalized := same.finalized.trans established.finalized
  localTag := same.localTag ▸ established.localTag

structure Settled (server : Server G O) : Prop where
  registered : ∀ {call}, server.callStates = some call →
    call < server.nextCall ∧ (server.calls call).Established
  ended : ∀ {call}, call < server.nextCall → server.callStates ≠ some call →
    (server.calls call).state = .terminated ∧ (server.calls call).finalized = true

theorem idleServer_settled : Settled (idleServer : Server G O) :=
  ⟨nofun, nofun⟩

theorem Settled.light (settled : Settled server) (light : Light server after) : Settled after where
  registered isCall := by
    rw [light.callStates] at isCall
    obtain ⟨known, established⟩ := settled.registered isCall
    exact ⟨light.nextCall ▸ known, established.same (light.dialogs _)⟩
  ended known notCall := by
    rw [light.callStates] at notCall
    obtain ⟨terminated, finalized⟩ := settled.ended (light.nextCall ▸ known) notCall
    refine ⟨?_, (light.dialogs _).finalized.trans finalized⟩
    rcases (light.dialogs _).state with kept | ⟨early, -⟩
    · exact kept.trans terminated
    · rw [early] at terminated
      cases terminated

theorem Settled.replaced (settled : Settled server) (isCall : server.callStates = some call)
    (callStates : after.callStates = some call) (nextCall : after.nextCall = server.nextCall)
    (established : (after.calls call).Established)
    (others : ∀ other, other ≠ call → after.calls other = server.calls other) : Settled after where
  registered {other} isOther := by
    cases Option.some.inj (callStates.symm.trans isOther)
    exact ⟨nextCall ▸ (settled.registered isCall).1, established⟩
  ended {other} known notOther := by
    have differs : other ≠ call := fun same => notOther (same ▸ callStates)
    rw [others other differs]
    refine settled.ended (nextCall ▸ known) ?_
    rw [isCall]
    exact fun same => differs (Option.some.inj same).symm

theorem Settled.finalised {before : Server G O}
    (others : ∀ other, other < before.nextCall → other ≠ call →
      (before.calls other).state = .terminated ∧ (before.calls other).finalized = true) :
    Settled (doFinalizeCall callID before call reason now).1 where
  registered := nofun
  ended {other} known _ := by
    rw [doFinalizeCall_calls]
    split
    · exact ⟨rfl, rfl⟩
    case isFalse differs => exact others other known differs

theorem Settled.others (settled : Settled server) (isCall : server.callStates = some call)
    (other : Nat) (known : other < server.nextCall) (differs : other ≠ call) :
    (server.calls other).state = .terminated ∧ (server.calls other).finalized = true := by
  refine settled.ended known ?_
  rw [isCall]
  exact fun same => differs (Option.some.inj same).symm

theorem generateTag_ne (now : Nat) : generateTag now ≠ "" := by
  intro empty
  have length := congrArg String.length empty
  simp [generateTag, String.length_append] at length

open CallState

section Invite

variable {content : ReInvite.Request} {sessionID : String} {call : Nat}

section

variable (config : Config G O) (env : Circumstances) (message : Message)
  (content : ReInvite.Request)

def established (call : Nat) (server : Server G O) : Response × ReInvite.Dialog G O :=
  establish config.toConfig env message.body content
    ⟨(server.calls call).media, server.media⟩

def answering (sessionID : String) (call : Nat) (server : Server G O) : Server G O :=
  let answered := established config env message content call server
  { server.updateCall call (.invited config content sessionID answered.2.call) with
    media := answered.2.media }

end

theorem answering_other {other : Nat} (differs : other ≠ call) :
    (answering config env message content sessionID call server).calls other =
      server.calls other :=
  updateCall_other server call _ differs

theorem answering_same :
    (answering config env message content sessionID call server).calls call =
      (server.calls call).invited config content sessionID
        (established config env message content call server).2.call :=
  updateCall_same server call _

theorem answering_first (first : (server.calls call).finalized = false) :
    ((answering config env message content sessionID call server).calls
      call).finalized = false := by
  rw [answering_same]
  exact first

structure Accepted (config : Config G O) (env : Circumstances) (message : Message)
    (content : ReInvite.Request) (sessionID : String) (call : Nat) (server : Server G O)
    (after : Server G O × List Observation) : Prop where
  callStates : after.1.callStates = server.callStates
  nextCall : after.1.nextCall = server.nextCall
  answered : after.1.calls call = ((server.calls call).invited config content sessionID
    (established config env message content call server).2.call).accepted
      env.now
  others : ∀ other, other ≠ call → after.1.calls other = server.calls other
  media : after.1.media = (established config env message content call server).2.media
  activeCalls : after.1.activeCalls = write server.activeCalls
    ((after.1.calls call).activeKey config.callID) (after.1.calls call).media.rtpForwarder
  response : after.2 =
    [.response (established config env message content call server).1]

theorem answerInvite_cases (config : Config G O) (env : Circumstances) (message : Message)
    (content : ReInvite.Request) (sessionID : String) (call : Nat) (server : Server G O) :
    ((established config env message content call server).1.isSuccess ∧
      Accepted config env message content sessionID call server
        (answerInvite config env message content sessionID call server)) ∨
    (¬ (established config env message content call server).1.isSuccess ∧
      answerInvite config env message content sessionID call server =
        let finalised := finalizeCall config.callID
          (answering config env message content sessionID call server) call "failed" env.now
        (finalised.1, .response (established config env message content call server).1 ::
          finalised.2)) := by
  by_cases success : (established config env message content call server).1.isSuccess
  · refine Or.inl ⟨success, ?_⟩
    unfold established at success
    unfold answerInvite
    simp only [success, if_true]
    constructor
    case answered => simp [established]
    case others =>
      intro other differs
      simp [updateCall_other, differs]
    case activeCalls => simp [activeKey, invited, accepted]
    all_goals rfl
  · exact Or.inr ⟨success, if_neg success⟩

theorem storeCall_same (message : Message) (now : Nat) (server : Server G O) :
    (storeCall message now server).calls server.nextCall = newCall message now := if_pos rfl

theorem storeCall_other {now other : Nat} (differs : other ≠ server.nextCall) :
    (storeCall message now server).calls other = server.calls other := if_neg differs

theorem entered_others {other : Nat} (differs : other ≠ server.nextCall) :
    (answerInvite config env message content sessionID server.nextCall
      (storeCall message env.now server)).1.calls other = server.calls other := by
  rcases answerInvite_cases config env message content sessionID server.nextCall
    (storeCall message env.now server) with ⟨_, accepted⟩ | ⟨_, refused⟩
  · rw [accepted.others other differs, storeCall_other differs]
  · rw [refused, finalizeCall_first
      (answering_first (congrArg finalized (storeCall_same ..)))]
    rw [doFinalizeCall_calls, if_neg differs, answering_other differs, storeCall_other differs]

theorem entered_settled (settled : Settled server) (none_ : server.callStates = none) :
    Settled (answerInvite config env message content sessionID server.nextCall
      (storeCall message env.now server)).1 := by
  have others : ∀ other, other < server.nextCall + 1 → other ≠ server.nextCall →
      (server.calls other).state = .terminated ∧ (server.calls other).finalized = true := by
    intro other known differs
    refine settled.ended (Nat.lt_of_le_of_ne (Nat.le_of_lt_succ known) differs) ?_
    rw [none_]
    exact nofun
  rcases answerInvite_cases config env message content sessionID server.nextCall
    (storeCall message env.now server) with ⟨_, accepted⟩ | ⟨_, refused⟩
  · constructor
    case registered =>
      intro call isCall
      cases Option.some.inj (accepted.callStates.symm.trans isCall)
      rw [accepted.nextCall, accepted.answered, storeCall_same]
      exact ⟨Nat.lt_succ_self _, .inl rfl, rfl, generateTag_ne _⟩
    case ended =>
      intro other known notCall
      have differs : other ≠ server.nextCall := by
        rintro rfl
        exact notCall accepted.callStates
      rw [accepted.nextCall] at known
      rw [accepted.others other differs, storeCall_other differs]
      exact others other known differs
  · rw [refused, finalizeCall_first
      (answering_first (congrArg finalized (storeCall_same ..)))]
    refine .finalised fun other known differs => ?_
    rw [answering_other differs, storeCall_other differs]
    exact others other known differs

def reEstablished (config : Config G O) (env : Circumstances)
    (content : ReInvite.Request) (call : Nat) (server : Server G O) :
    Response × ReInvite.Dialog G O :=
  ReInvite.handleSiprecReInvite config.toConfig env.toCircumstances content
    ⟨(server.calls call).media, server.media⟩

theorem reEstablished_unmerged
    (unmerged : mergesMetadata config env content (server.calls call) = false) :
    reEstablished config env content call server =
      (⟨400, "Bad Request - Invalid SIPREC metadata"⟩,
        ⟨(server.calls call).media, server.media⟩) := by
  unfold mergesMetadata at unmerged
  unfold reEstablished ReInvite.handleSiprecReInvite
  rw [Option.isSome_eq_false_iff, Option.isNone_iff_eq_none] at unmerged
  rw [unmerged]

def reInvitedCall (config : Config G O) (env : Circumstances) (message : Message)
    (content : ReInvite.Request) (sessionID : String) (call : Nat) (server : Server G O) :
    CallState :=
  if mergesMetadata config env content (server.calls call) then
    let answered := reEstablished config env content call server
    let updated := (server.calls call).reInvited config env message content sessionID
      answered.2.call
    if answered.1.isSuccess then updated.accepted env.now else updated
  else server.calls call

structure ReInvited (config : Config G O) (env : Circumstances) (message : Message)
    (content : ReInvite.Request) (sessionID : String) (call : Nat) (server : Server G O)
    (after : Server G O × List Observation) : Prop where
  callStates : after.1.callStates = server.callStates
  nextCall : after.1.nextCall = server.nextCall
  answered : after.1.calls call =
    reInvitedCall config env message content sessionID call server
  others : ∀ other, other ≠ call → after.1.calls other = server.calls other
  media : after.1.media = (reEstablished config env content call server).2.media
  activeCalls : after.1.activeCalls = server.activeCalls
  response : after.2 = [.response (reEstablished config env content call server).1]

theorem handleSiprecReInvite_spec :
    ReInvited config env message content sessionID call server
      (handleSiprecReInvite config env message content sessionID call server) := by
  unfold handleSiprecReInvite
  by_cases merges : mergesMetadata config env content (server.calls call)
  · by_cases success : (reEstablished config env content call server).1.isSuccess
    · have success' := success
      unfold reEstablished at success'
      simp only [merges, success', if_true]
      constructor
      case answered =>
        unfold reInvitedCall
        rw [if_pos merges, if_pos success, updateCall_same]
        exact congrArg _ (updateCall_same server call _)
      case others =>
        intro other differs
        rw [updateCall_other _ _ _ differs]
        exact updateCall_other server call _ differs
      all_goals rfl
    · have refused := success
      unfold reEstablished at refused
      simp only [merges, refused, if_true]
      constructor
      case answered =>
        unfold reInvitedCall
        rw [if_pos merges, if_neg success]
        exact updateCall_same server call _
      case others => exact fun other differs => updateCall_other server call _ differs
      all_goals rfl
  · rw [if_neg merges]
    constructor
    case answered =>
      unfold reInvitedCall
      rw [if_neg merges]
    case others => exact fun _ _ => rfl
    case media =>
      rw [reEstablished_unmerged (Bool.not_eq_true _ ▸ merges)]
    all_goals rfl

theorem reInvitedCall_media :
    (reInvitedCall config env message content sessionID call server).media =
      (reEstablished config env content call server).2.call := by
  unfold reInvitedCall
  split
  · dsimp only
    split <;> rfl
  case isFalse unmerged =>
    rw [reEstablished_unmerged (Bool.not_eq_true _ ▸ unmerged)]

def refusedAtOnce (env : Circumstances) (content : ReInvite.Request) : Bool :=
  env.admission ≠ .admitted || !content.multipartMixed ||
    content.metadata.any (·.isNone)

theorem mergesMetadata_eq (state : CallState) :
    mergesMetadata config env content state = !content.metadata.any (·.isNone) := by
  unfold mergesMetadata
  cases content.metadata with
  | none => rfl
  | some metadata => cases metadata <;> rfl

theorem handleInviteMessage_refusedAtOnce (isCall : server.callStates = some call)
    (refused : refusedAtOnce env content) :
    ∃ refusal : Response, refusal.isSuccess = false ∧
      handleInviteMessage config env message content sessionID server =
        (server, [.response refusal]) := by
  unfold handleInviteMessage
  cases admission : env.admission with
  | admitted =>
    by_cases multipart : content.multipartMixed
    · have invalid : content.metadata.any (·.isNone) := by
        simpa [refusedAtOnce, admission, multipart] using refused
      have unmerged : mergesMetadata config env content (server.calls call) = false := by
        rw [mergesMetadata_eq, invalid]
        rfl
      have answer := reEstablished_unmerged unmerged
      unfold reEstablished at answer
      refine ⟨⟨400, "Bad Request - Invalid SIPREC metadata"⟩, rfl, ?_⟩
      simp only [multipart, isCall, if_true, handleSiprecReInvite, unmerged, answer]
      rfl
    · simp only [multipart]
      exact ⟨_, rfl, rfl⟩
  | _ => exact ⟨_, rfl, rfl⟩

theorem handleInviteMessage_reInvites (isCall : server.callStates = some call)
    (goesOn : refusedAtOnce env content = false) :
    handleInviteMessage config env message content sessionID server =
        handleSiprecReInvite config env message content sessionID call server ∧
      mergesMetadata config env content (server.calls call) := by
  simp only [refusedAtOnce, ne_eq, decide_not, Bool.or_eq_false_iff,
    Bool.not_eq_eq_eq_not, Bool.not_false, decide_eq_true_eq] at goesOn
  obtain ⟨⟨admitted, multipart⟩, valid⟩ := goesOn
  constructor
  · simp only [handleInviteMessage, admitted, multipart, isCall, if_true]
  · rw [mergesMetadata_eq, valid]
    rfl

/-- What an INVITE comes to: it is refused and nothing happens, or it enters a new call, or it
works on the registered one. -/
inductive InviteOutcome (config : Config G O) (env : Circumstances)
    (message : Message) (content : ReInvite.Request) (sessionID : String) (server : Server G O)
    (after : Server G O × List Observation) : Prop where
  | refused (refusal : Response) (failed : refusal.isSuccess = false)
      (result : after = (server, [.response refusal]))
  | entered (none_ : server.callStates = none)
      (result : after = answerInvite config env message content sessionID
        server.nextCall (storeCall message env.now server))
  | reInvited (call : Nat) (isCall : server.callStates = some call)
      (goesOn : refusedAtOnce env content = false)
      (spec : ReInvited config env message content sessionID call server after)

theorem handleInviteMessage_outcome :
    InviteOutcome config env message content sessionID server
      (handleInviteMessage config env message content sessionID server) := by
  cases registered : server.callStates with
  | none =>
    unfold handleInviteMessage
    split
    · exact .refused _ rfl rfl
    · exact .refused _ rfl rfl
    · exact .refused _ rfl rfl
    · rw [registered]
      unfold handleSiprecInvite
      split
      · dsimp only
        split
        · exact .entered registered rfl
        · exact .refused _ rfl rfl
      · exact .refused _ rfl rfl
  | some call =>
    cases refused : refusedAtOnce env content with
    | true =>
      obtain ⟨refusal, failed, result⟩ := handleInviteMessage_refusedAtOnce registered refused
      exact .refused refusal failed result
    | false =>
      rw [(handleInviteMessage_reInvites registered refused).1]
      exact .reInvited call registered refused handleSiprecReInvite_spec

end Invite

/-! ## The other requests that change the dialog -/

structure SameForwarders (old new : CallState) : Prop where
  streamLabels : new.streamLabels = old.streamLabels
  rtpForwarders : new.media.rtpForwarders = old.media.rtpForwarders
  rtpForwarder : new.media.rtpForwarder = old.media.rtpForwarder
  streamForwarders : new.media.streamForwarders = old.media.streamForwarders

theorem SameForwarders.refl (call : CallState) : SameForwarders call call :=
  ⟨rfl, rfl, rfl, rfl⟩

theorem SameDialog.sameForwarders {old new : CallState} (same : SameDialog old new) :
    SameForwarders old new :=
  ⟨same.streamLabels, same.rtpForwarders, same.rtpForwarder, same.streamForwarders⟩

structure Concluded (old new : CallState) : Prop where
  state : new.state = old.state ∨ new.state = .terminating
  localTag : new.localTag = old.localTag
  finalized : new.finalized = old.finalized
  remoteCSeq : old.remoteCSeq ≤ new.remoteCSeq
  forwarders : SameForwarders old new

/-- What BYE, CANCEL and the reaper come to: responses at most, or the finalisation of the
registered call. -/
inductive EndOutcome (config : Config G O) (server : Server G O)
    (after : Server G O × List Observation) : Prop where
  | spared (responses : List Response)
      (result : after = (server, responses.map Observation.response))
  | ended (call : Nat) (isCall : server.callStates = some call)
      (change : CallState → CallState)
      (concluded : Concluded (server.calls call) (change (server.calls call)))
      (reason : String) (now : Nat) (responses : List Response)
      (state : after.1 =
        (finalizeCall config.callID (server.updateCall call change) call reason now).1)
      (observed : after.2 = responses.map Observation.response ++
        (finalizeCall config.callID (server.updateCall call change) call reason now).2)

/-- BYE is the one request that compares its CSeq itself. -/
theorem byeAccepted_concluded {call : CallState} {now : Nat}
    (accepted : refusesBye message call = none) : Concluded call (call.byeAccepted message now) := by
  refine ⟨.inr rfl, rfl, rfl, ?_, ⟨rfl, rfl, rfl, rfl⟩⟩
  unfold byeAccepted
  split
  case isTrue given =>
    unfold refusesBye at accepted
    split at accepted
    · cases accepted
    · split at accepted
      · cases accepted
      · split at accepted
        · cases accepted
        case isFalse later => exact Nat.le_of_not_le fun behind => later ⟨given, behind⟩
  case isFalse => exact Nat.le_refl _

theorem handleByeMessage_outcome :
    EndOutcome config server (handleByeMessage config env message server) := by
  unfold handleByeMessage
  split
  · exact .spared [notFound] rfl
  case h_2 call isCall =>
    split
    case h_1 refusal _ => exact .spared [refusal] rfl
    case h_2 accepted =>
      exact .ended call isCall _ (byeAccepted_concluded accepted) _ _ [.ok] rfl rfl

theorem handleCancelMessage_outcome :
    EndOutcome config server (handleCancelMessage config env server) := by
  unfold handleCancelMessage
  split
  · exact .spared [.ok] rfl
  case h_2 call isCall =>
    dsimp only
    split
    · exact .spared [.ok] rfl
    · exact .ended call isCall _ ⟨.inl rfl, rfl, rfl, Nat.le_refl _, ⟨rfl, rfl, rfl, rfl⟩⟩ _ _
        [.ok, ⟨487, "Request Terminated"⟩] rfl rfl

theorem updateCall_id (server : Server G O) (call : Nat) : server.updateCall call id = server := by
  unfold Server.updateCall
  simp only [id_eq, ite_self]

theorem reapStaleDialogs_outcome {now : Nat} :
    EndOutcome config server (reapStaleDialogs config now server) := by
  unfold reapStaleDialogs
  split
  · exact .spared [] rfl
  case h_2 call isCall =>
    split
    · exact .spared [] rfl
    case h_2 reason _ =>
      refine .ended call isCall id ⟨.inl rfl, rfl, rfl, Nat.le_refl _, .refl _⟩ reason now [] ?_ ?_
      · rw [updateCall_id]
      · rw [updateCall_id]
        rfl

def Event.inviteContent : Event → Option ReInvite.Request
  | .request message _ =>
    match message.request with
    | .invite content _ => some content
    | _ => none
  | _ => none

def Event.isInvite (event : Event) : Bool := event.inviteContent.isSome

inductive StepOutcome (config : Config G O) (server : Server G O) (event : Event)
    (after : Server G O × List Observation) : Prop where
  | light (isLight : event.isLight) (kept : Light server after.1)
  | invites (message : Message) (env : Circumstances) (content : ReInvite.Request)
      (sessionID : String) (isEvent : event = .request message env)
      (isInvite : message.request = .invite content sessionID)
      (outcome : InviteOutcome config env message content sessionID server after)
  | acks (message : Message) (env : Circumstances) (call : Nat)
      (isEvent : event = .request message env) (isAck : message.request = .ack)
      (isCall : server.callStates = some call)
      (result : after = (server.updateCall call (.acked message env.now), []))
  | ends (notInvite : event.isInvite = false) (outcome : EndOutcome config server after)

theorem step_outcome (config : Config G O) (server : Server G O) (event : Event) :
    StepOutcome config server event (step config server event) := by
  by_cases light : event.isLight
  · exact .light light (step_light light)
  · cases event with
    | request message env =>
      obtain ⟨request, fromTag, toTag, cseq, body⟩ := message
      cases request with
      | invite content sessionID =>
        exact .invites _ env content sessionID rfl rfl handleInviteMessage_outcome
      | ack =>
        simp only [step, handleRequest, handleAckMessage]
        split
        · exact .ends rfl (.spared [] rfl)
        case h_2 call isCall => exact .acks _ env call rfl rfl isCall rfl
      | bye => exact .ends rfl handleByeMessage_outcome
      | cancel => exact .ends rfl handleCancelMessage_outcome
      | _ => exact absurd rfl light
    | reap now => exact .ends rfl reapStaleDialogs_outcome
    | _ => exact absurd rfl light

section Settled

variable {content : ReInvite.Request} {sessionID : String}
  {after : Server G O × List Observation}

theorem InviteOutcome.settled
    (outcome : InviteOutcome config env message content sessionID server after)
    (settled : Settled server) : Settled after.1 := by
  cases outcome with
  | refused refusal failed result =>
    rw [result]
    exact settled
  | entered none_ result =>
    rw [result]
    exact entered_settled settled none_
  | reInvited call isCall goesOn spec =>
    refine settled.replaced isCall (spec.callStates.trans isCall) spec.nextCall ?_ spec.others
    have established := (settled.registered isCall).2
    rw [spec.answered, reInvitedCall]
    split
    · dsimp only
      split
      · exact { established with state := .inl rfl }
      · exact { established with }
    · exact established

theorem Settled.ends {callID reason : String} {call now : Nat} (settled : Settled server)
    (isCall : server.callStates = some call) (change : CallState → CallState)
    (open_ : (change (server.calls call)).finalized = (server.calls call).finalized) :
    finalizeCall callID (server.updateCall call change) call reason now =
        doFinalizeCall callID (server.updateCall call change) call reason now ∧
      Settled (finalizeCall callID (server.updateCall call change) call reason now).1 := by
  have first : ((server.updateCall call change).calls call).finalized = false := by
    rw [updateCall_same, open_]
    exact (settled.registered isCall).2.finalized
  rw [finalizeCall_first first]
  refine ⟨rfl, .finalised fun other known differs => ?_⟩
  rw [updateCall_other _ _ _ differs]
  exact settled.others isCall other known differs

theorem EndOutcome.settled (outcome : EndOutcome config server after)
    (settled : Settled server) : Settled after.1 := by
  cases outcome with
  | spared responses result =>
    rw [result]
    exact settled
  | ended call isCall change concluded reason now responses state observed =>
    rw [state]
    exact (settled.ends isCall change concluded.finalized).2

theorem EndOutcome.unregisters (outcome : EndOutcome config server after)
    (settled : Settled server) : after.1.callStates = none ∨ after.1 = server := by
  cases outcome with
  | spared responses result =>
    rw [result]
    exact .inr rfl
  | ended call isCall change concluded reason now responses state observed =>
    rw [state, (settled.ends isCall change concluded.finalized).1]
    exact .inl rfl

theorem step_settled {event : Event} (settled : Settled server) :
    Settled (step config server event).1 := by
  cases step_outcome config server event with
  | light isLight kept => exact settled.light kept
  | invites message env content sessionID isEvent isInvite outcome =>
    exact outcome.settled settled
  | acks message env call isEvent isAck isCall result =>
    have established := (settled.registered isCall).2
    rw [result]
    refine settled.replaced isCall isCall rfl ?_ fun other differs =>
      updateCall_other server call _ differs
    rw [updateCall_same]
    exact { established with state := .inr rfl }
  | ends notInvite outcome => exact outcome.settled settled

end Settled

/-- How a call comes to be registered after a step: it was and keeps its forwarders, or a
re-INVITE has worked on it, or it is a new one that has just been accepted. -/
inductive Continues (config : Config G O) (server : Server G O) (call : Nat) :
    Event → Server G O × List Observation → Prop where
  | same {event : Event} {after : Server G O × List Observation}
      (isCall : server.callStates = some call)
      (forwarders : SameForwarders (server.calls call) (after.1.calls call))
      (next : after.1.media.next = server.media.next)
      (refused : event.isInvite → ∃ refusal, after = (server, [.response refusal]) ∧
        refusal.isSuccess = false) :
      Continues config server call event after
  | reInvited {message : Message} {env : Circumstances} {content : ReInvite.Request}
      {sessionID : String} {after : Server G O × List Observation}
      (isCall : server.callStates = some call)
      (isInvite : message.request = .invite content sessionID)
      (spec : ReInvited config env message content sessionID call server after) :
      Continues config server call (.request message env) after
  | invited {message : Message} {env : Circumstances} {content : ReInvite.Request}
      {sessionID : String} {after : Server G O × List Observation}
      (none_ : server.callStates = none) (isNew : call = server.nextCall)
      (isInvite : message.request = .invite content sessionID)
      (success : (established config env message content call
        (storeCall message env.now server)).1.isSuccess)
      (spec : Accepted config env message content sessionID call
        (storeCall message env.now server) after) :
      Continues config server call (.request message env) after

section Continues

variable {call : Nat}

variable {event : Event}

theorem Continues.unchanged {refusal : Response} (isCall : server.callStates = some call)
    (isRefusal : refusal.isSuccess = false) :
    Continues config server call event (server, [.response refusal]) :=
  .same isCall ⟨rfl, rfl, rfl, rfl⟩ rfl fun _ => ⟨refusal, rfl, isRefusal⟩

theorem InviteOutcome.continues {content : ReInvite.Request} {sessionID : String}
    {after : Server G O × List Observation}
    (outcome : InviteOutcome config env message content sessionID server after)
    (isInvite : message.request = .invite content sessionID)
    (registered : after.1.callStates = some call) :
    Continues config server call (.request message env) after := by
  cases outcome with
  | refused refusal failed result =>
    rw [result] at registered ⊢
    exact .unchanged registered failed
  | entered none_ result =>
    rw [result] at registered ⊢
    rcases answerInvite_cases config env message content sessionID server.nextCall
      (storeCall message env.now server) with ⟨success, spec⟩ | ⟨_, refused⟩
    · rw [spec.callStates] at registered
      cases registered
      exact .invited none_ rfl isInvite success spec
    · rw [refused, finalizeCall_first
        (answering_first (congrArg finalized (storeCall_same ..)))] at registered
      cases registered
  | reInvited known isKnown goesOn spec =>
    rw [spec.callStates, isKnown] at registered
    cases registered
    exact .reInvited isKnown isInvite spec

theorem EndOutcome.continues {after : Server G O × List Observation}
    (outcome : EndOutcome config server after) (settled : Settled server)
    (notInvite : event.isInvite = false) (registered : after.1.callStates = some call) :
    Continues config server call event after := by
  rcases outcome.unregisters settled with none_ | unchanged
  · rw [none_] at registered
    cases registered
  · refine .same (unchanged ▸ registered) ?_ (congrArg (·.media.next) unchanged)
      fun isInvite => absurd (notInvite.symm.trans isInvite) (by decide)
    rw [unchanged]
    exact .refl _

theorem Event.isInvite_of_isLight (light : event.isLight) : event.isInvite = false := by
  cases event with
  | request message env =>
    obtain ⟨request, fromTag, toTag, cseq, body⟩ := message
    cases request with
    | invite content sessionID => cases light
    | _ => rfl
  | _ => rfl

theorem step_continues (settled : Settled server)
    (registered : (step config server event).1.callStates = some call) :
    Continues config server call event (step config server event) := by
  cases step_outcome config server event with
  | light isLight kept =>
    refine .same (kept.callStates.symm.trans registered) (kept.dialogs call).sameForwarders
      kept.forwarders fun isInvite => ?_
    exact absurd ((Event.isInvite_of_isLight isLight).symm.trans isInvite) (by decide)
  | invites message env content sessionID isEvent isInvite outcome =>
    subst isEvent
    exact outcome.continues isInvite registered
  | acks message env known isEvent isAck isKnown result =>
    subst isEvent
    rw [result] at registered ⊢
    cases Option.some.inj (isKnown.symm.trans registered)
    refine .same isKnown ?_ rfl fun isInvite => ?_
    · rw [updateCall_same]
      exact ⟨rfl, rfl, rfl, rfl⟩
    · simp [Event.isInvite, Event.inviteContent, isAck] at isInvite
  | ends notInvite outcome => exact outcome.continues settled notInvite registered

end Continues

end SiprecServer.Sip.Signalling
