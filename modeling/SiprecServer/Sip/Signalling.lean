import SiprecServer.Sip.ReInvite

/-!
# The requests of a dialog, one after another

Everything that works on the calls of one Call-ID when handlers do not overlap: the SIP
requests, the stale-dialog reaper, the pause and resume service and the RTP streams of
the forwarders.  A step is one handler from its first line to its last.  Call states are
numbered in the order of their creation; `callStates` is the entry under the Call-ID.
-/

namespace SiprecServer.Sip.Signalling

open Lib.FileSystem Media
open Sip.ReInvite (Bytes Dialog Forwarders MediaDescription RSMetadata
  RecordingSession Response)

variable {G O : Type}

inductive DialogState where
  | trying | early | proceeding | awaitingAck | connected | terminating | terminated
deriving DecidableEq

structure CallState where
  state : DialogState
  remoteTag : String
  localTag : String
  remoteCSeq : Nat
  pendingAckCSeq : Nat
  createdAt : Nat
  lastActivity : Nat
  -- `finalizeOnce` has run
  finalized : Bool
  -- the ID of the recording session
  sessionID : Option String
  media : ReInvite.Call
  -- what the keys of `StreamForwarders` are among
  streamLabels : List String

def CallState.blank : CallState :=
  { state := .trying
    remoteTag := ""
    localTag := ""
    remoteCSeq := 0
    pendingAckCSeq := 0
    createdAt := 0
    lastActivity := 0
    finalized := false
    sessionID := none
    media := ⟨none, none, [], none, empty⟩
    streamLabels := [] }

def CallState.streams (call : CallState) : List Nat :=
  call.streamLabels.filterMap call.media.streamForwarders

def CallState.forwarders (call : CallState) : List Nat := call.media.primary ++ call.streams

def CallState.activeKey (callID : String) (call : CallState) : String :=
  match call.sessionID with
  | none => callID
  | some id => if id ≠ "" then id else callID

structure Server (G O : Type) where
  callStates : Option Nat
  calls : Nat → CallState
  nextCall : Nat
  media : Forwarders G O
  -- the forwarder of each entry
  activeCalls : Store String (Option Nat)

def Server.updateCall (server : Server G O) (call : Nat) (change : CallState → CallState) :
    Server G O :=
  { server with
    calls := fun other =>
      if other = call then change (server.calls other) else server.calls other }

section UpdateCall

variable (server : Server G O) (call : Nat) (change : CallState → CallState)

@[simp]
theorem updateCall_same : (server.updateCall call change).calls call = change (server.calls call) :=
  if_pos rfl

@[simp]
theorem updateCall_other {other : Nat} (differs : other ≠ call) :
    (server.updateCall call change).calls other = server.calls other :=
  if_neg differs

end UpdateCall

structure MediaDirection where
  connection : Option String
  attributes : List String
deriving DecidableEq

def MediaDirection.isHold (direction : MediaDirection) : Bool :=
  direction.connection = some "0.0.0.0" || "sendonly" ∈ direction.attributes ||
    "inactive" ∈ direction.attributes

inductive Callback where
  | missing | rejected | accepted
deriving DecidableEq

inductive Request where
  /-- What `ReInvite` reads, and the session ID of the metadata part. -/
  | invite (content : ReInvite.Request) (sessionID : String)
  | ack
  | bye
  | cancel
  | prack
  /-- The metadata part, and whether the content type names SDP. -/
  | update (metadata : Option (Option RSMetadata)) (isSDP : Bool)
  | subscribe (callback : Callback)
  | info
  | refer (hasReferTo : Bool)
  | notify
  | message
  | options
  /-- Any other method. -/
  | other

/-- A request; absent tags are empty and an absent CSeq is zero. -/
structure Message where
  request : Request
  fromTag : String
  toTag : String
  cseq : Nat
  body : Bytes := []

structure Circumstances extends ReInvite.Circumstances where
  hasRoom : Bool := true
  policyAllows : Bool := true
  marshalled : Bool := true

structure Config (G O : Type) extends ReInvite.Config where
  callID : String
  parseDirections : Bytes → Option (List MediaDirection)
  stream : StreamConfig G O
  inviteTimeout : Nat
  sessionIdleTimeout : Nat
  maxSessionDuration : Nat

inductive Event where
  | request (message : Message) (env : Circumstances)
  | reap (now : Nat)
  | pauseSession (sessionID : String) (pauseRecording pauseTranscription : Bool)
  | resumeSession (sessionID : String)
  /-- The session monitor of the handler finds an entry stale. -/
  | staleSession (sessionID : String)
  | rtp (forwarder : Nat) (packet : RtpPacket) (arrival now : Int) (writable : Bool)
  | drain (forwarder : Nat) (now : Int) (writable : Bool)
  | monitorTick (forwarder : Nat) (now : Int)
  /-- The forwarder stops for a reason of its own. -/
  | forwarderStops (forwarder : Nat)
  /-- A call with another Call-ID enters its forwarder in `ActiveCalls`. -/
  | otherCallEntered (key : String) (forwarder : Option Nat)
  /-- A call with another Call-ID is finalised. -/
  | otherCallFinalised (callID : String)

inductive Observation where
  | response (response : Response)
  | finalised (call : Nat) (reason : String)
  | recorded (forwarder : Nat)
deriving DecidableEq

def endSession (reason : String) (now : Nat) (session : RecordingSession) : RecordingSession :=
  { session with
    recordingState :=
      if reason = "terminated" then "terminated"
      else if reason = "cancelled" then
        if session.recordingState = "" ∨ session.recordingState = "active" then "cancelled"
        else session.recordingState
      else if session.recordingState = "" then reason
      else session.recordingState
    endTime := some now
    updatedAt := now
    extendedMetadata := write session.extendedMetadata "termination_reason" reason }

def CallState.finalised (reason : String) (now : Nat) (call : CallState) : CallState :=
  { call with
    state := .terminated
    pendingAckCSeq := 0
    lastActivity := now
    finalized := true
    media :=
      { call.media with
        session := call.media.session.map (endSession reason now)
        rtpForwarders := []
        rtpForwarder := none
        streamForwarders := empty } }

def doFinalizeCall (callID : String) (server : Server G O) (call : Nat) (reason : String)
    (now : Nat) : Server G O × List Observation :=
  ({ server.updateCall call (.finalised reason now) with
      callStates := none
      media := server.media.tearDown (server.calls call).forwarders
      activeCalls := remove server.activeCalls callID },
    [.finalised call reason])

/-- A call is finalised once, whoever comes first. -/
def finalizeCall (callID : String) (server : Server G O) (call : Nat) (reason : String)
    (now : Nat) : Server G O × List Observation :=
  if (server.calls call).finalized then (server, [])
  else doFinalizeCall callID server call reason now

/-! ## INVITE -/

def generateTag (now : Nat) : String := "tag-" ++ toString now

def newCall (message : Message) (now : Nat) : CallState :=
  { CallState.blank with
    state := .early
    remoteTag := message.fromTag
    localTag := generateTag now
    remoteCSeq := message.cseq
    createdAt := now
    lastActivity := now }

def startStreams (mediaConfig : ReInvite.MediaConfig) (marshalled : Bool) (body : Bytes)
    (streams : List ReInvite.AudioStream) (forwarders : List Nat) (dialog : Dialog G O) :
    Option Response × Dialog G O :=
  let call := { dialog.call.publish forwarders with sdp := some body }
  let configured := ReInvite.configureStreams mediaConfig.requireSRTP (streams.zip forwarders)
    dialog.media dialog.call.streamForwarders
  if configured.1 then
    let call := { call with streamForwarders := configured.2.2 }
    if marshalled then (none, ⟨call, configured.2.1⟩)
    else (some .serverError, ⟨call, configured.2.1.tearDown forwarders⟩)
  else
    (some ⟨488, "Not Acceptable Here - SRTP required"⟩,
      ⟨call, configured.2.1.tearDown forwarders⟩)

def setUpMedia (config : ReInvite.Config) (env : Circumstances) (body : Bytes)
    (offer : List MediaDescription) (dialog : Dialog G O) : Option Response × Dialog G O :=
  match config.mediaConfig with
  | none => (some .serverError, dialog)
  | some mediaConfig =>
    if offer.filter (·.media = "audio") = [] then
      (some ⟨488, "Not Acceptable Here"⟩, dialog)
    else
      let streams := ReInvite.audioStreams (some offer)
      let allocated :=
        ReInvite.allocate streams.length env.granted dialog.media []
      if allocated.1 then
        startStreams mediaConfig env.marshalled body streams allocated.2.2
          { dialog with media := allocated.2.1 }
      else
        (some .serverError, { dialog with media := allocated.2.1.tearDown allocated.2.2 })

def establish (config : ReInvite.Config) (env : Circumstances) (body : Bytes)
    (content : ReInvite.Request) (dialog : Dialog G O) : Response × Dialog G O :=
  match content.sdp.getD [], content.metadata with
  | [], _ => (⟨400, "Bad Request - Missing SDP"⟩, dialog)
  | _ :: _, none => (⟨400, "Bad Request - Missing SIPREC metadata"⟩, dialog)
  | _ :: _, some none =>
    (⟨400, "Bad Request - Invalid SIPREC metadata"⟩,
      { dialog with call := { dialog.call with sdp := content.sdp } })
  | sdp@(_ :: _), some (some metadata) =>
    let dialog := { dialog with
      call := { dialog.call with
        sdp := content.sdp
        session := some (config.createRecordingSession metadata) } }
    if env.policyAllows then
      match config.parseSDP sdp with
      | none | some [] => (⟨488, "Not Acceptable Here"⟩, dialog)
      | some (first :: rest) =>
        match setUpMedia config env body (first :: rest) dialog with
        | (some refusal, after) => (refusal, after)
        | (none, after) => ReInvite.answer config env.toCircumstances after
    else (⟨403, "Forbidden - Recording not permitted by policy"⟩, dialog)

def offerLabels (parsed : Option (List MediaDescription)) : List String :=
  (ReInvite.audioStreams parsed).map (·.label)

def storeCall (message : Message) (now : Nat) (server : Server G O) : Server G O :=
  { server with
    callStates := some server.nextCall
    calls := fun other =>
      if other = server.nextCall then newCall message now else server.calls other
    nextCall := server.nextCall + 1 }

def CallState.invited (config : Config G O) (content : ReInvite.Request) (sessionID : String)
    (media : ReInvite.Call) (call : CallState) : CallState :=
  { call with
    media
    sessionID := media.session.map fun _ => sessionID
    streamLabels := offerLabels (ReInvite.parsedSDP config.toConfig content.sdp) }

def CallState.accepted (now : Nat) (call : CallState) : CallState :=
  { call with state := .awaitingAck, pendingAckCSeq := call.remoteCSeq, lastActivity := now }

section

variable (config : Config G O) (env : Circumstances)

/-- The rest of `handleSiprecInvite`, with the clean-up of its deferred function. -/
def answerInvite (message : Message) (content : ReInvite.Request) (sessionID : String) (call : Nat)
    (server : Server G O) :
    Server G O × List Observation :=
  let answered := establish config.toConfig env message.body content
    ⟨(server.calls call).media, server.media⟩
  let updated : Server G O :=
    { server.updateCall call (.invited config content sessionID answered.2.call) with
      media := answered.2.media }
  if answered.1.isSuccess then
    -- `syncCallToActiveList` follows the answer.
    ({ updated.updateCall call (.accepted env.now) with
        activeCalls := write server.activeCalls ((updated.calls call).activeKey config.callID)
          answered.2.call.rtpForwarder },
      [.response answered.1])
  else
    let finalised := finalizeCall config.callID updated call "failed" env.now
    (finalised.1, .response answered.1 :: finalised.2)

def handleSiprecInvite (message : Message) (content : ReInvite.Request) (sessionID : String)
    (server : Server G O) : Server G O × List Observation :=
  if env.hasRoom then
    answerInvite config env message content sessionID server.nextCall
      (storeCall message env.now server)
  else (server, [.response ⟨503, "Service Unavailable"⟩])

def mergesMetadata (content : ReInvite.Request) (call : CallState) : Bool :=
  (ReInvite.refreshSession config.toConfig env.now call.media content.metadata).isSome

section

variable (message : Message) (content : ReInvite.Request) (sessionID : String)

def CallState.reInvited (media : ReInvite.Call) (call : CallState) : CallState :=
  { call with
    media
    sessionID := call.sessionID.or (media.session.map fun _ => sessionID)
    streamLabels :=
      call.streamLabels ++ offerLabels (ReInvite.parsedSDP config.toConfig content.sdp)
    remoteCSeq := message.cseq
    lastActivity := env.now }

def handleSiprecReInvite (call : Nat) (server : Server G O) : Server G O × List Observation :=
  let answered := ReInvite.handleSiprecReInvite config.toConfig env.toCircumstances
    content ⟨(server.calls call).media, server.media⟩
  if mergesMetadata config env content (server.calls call) then
    let updated : Server G O :=
      { server.updateCall call
          (.reInvited config env message content sessionID answered.2.call) with
        media := answered.2.media }
    (if answered.1.isSuccess then updated.updateCall call (.accepted env.now)
      else updated, [.response answered.1])
  else (server, [.response answered.1])

def handleInviteMessage (server : Server G O) : Server G O × List Observation :=
  match env.admission with
  | .rateLimited => (server, [.response ⟨503, "Service Unavailable - Rate Limit Exceeded"⟩])
  | .challenged => (server, [.response ⟨401, "Unauthorized"⟩])
  | .blocked => (server, [.response ⟨403, "Forbidden"⟩])
  | .admitted =>
    if content.multipartMixed then
      match server.callStates with
      | none => handleSiprecInvite config env message content sessionID server
      | some call =>
        handleSiprecReInvite config env message content sessionID call server
    else (server, [.response ⟨403, "Forbidden - SIPREC sessions only"⟩])

end

end

/-! ## The other requests -/

def notFound : Response := ⟨481, "Call/Transaction Does Not Exist"⟩

/-- A CSeq that does not match the pending INVITE is logged and accepted. -/
def CallState.acked (message : Message) (now : Nat) (call : CallState) : CallState :=
  { call with
    pendingAckCSeq := 0
    remoteCSeq := if message.cseq ≠ 0 then message.cseq else call.remoteCSeq
    state := .connected
    lastActivity := now }

def handleAckMessage (env : Circumstances) (message : Message) (server : Server G O) :
    Server G O × List Observation :=
  match server.callStates with
  | none => (server, [])
  | some call => (server.updateCall call (.acked message env.now), [])

def byeSession (now : Nat) (session : RecordingSession) : RecordingSession :=
  { session with
    recordingState := "terminated"
    endTime := some now
    updatedAt := now
    extendedMetadata := write session.extendedMetadata "termination_reason" "bye_received" }

def refusesBye (message : Message) (call : CallState) : Option Response :=
  if call.localTag ≠ "" ∧ message.toTag ≠ "" ∧ message.toTag ≠ call.localTag then some notFound
  else if call.state ≠ .connected ∧ call.state ≠ .terminating ∧ call.state ≠ .awaitingAck then
    some notFound
  else if message.cseq ≠ 0 ∧ message.cseq ≤ call.remoteCSeq then some ⟨400, "Bad Request"⟩
  else none

def CallState.byeAccepted (message : Message) (now : Nat) (call : CallState) : CallState :=
  { call with
    remoteCSeq := if message.cseq ≠ 0 then message.cseq else call.remoteCSeq
    pendingAckCSeq := 0
    state := .terminating
    lastActivity := now
    media := { call.media with session := call.media.session.map (byeSession now) } }

def handleByeMessage (config : Config G O) (env : Circumstances) (message : Message)
    (server : Server G O) : Server G O × List Observation :=
  match server.callStates with
  | none => (server, [.response notFound])
  | some call =>
    match refusesBye message (server.calls call) with
    | some refusal => (server, [.response refusal])
    | none =>
      let now := env.now
      let finalised := finalizeCall config.callID
        (server.updateCall call (.byeAccepted message now)) call "terminated" now
      (finalised.1, .response .ok :: finalised.2)

def cancelSession (now : Nat) (session : RecordingSession) : RecordingSession :=
  { session with
    recordingState := "cancelled"
    updatedAt := now
    extendedMetadata := write session.extendedMetadata "termination_reason" "cancelled" }

def CallState.cancelled (now : Nat) (call : CallState) : CallState :=
  { call with
    media := { call.media with session := call.media.session.map (cancelSession now) } }

def handleCancelMessage (config : Config G O) (env : Circumstances)
    (server : Server G O) : Server G O × List Observation :=
  match server.callStates with
  | none => (server, [.response .ok])
  | some call =>
    let state := (server.calls call).state
    if state = .connected ∨ state = .terminated then (server, [.response .ok])
    else
      let now := env.now
      let finalised := finalizeCall config.callID (server.updateCall call (.cancelled now)) call
        "cancelled" now
      -- The INVITE itself is answered with 487.
      (finalised.1, .response .ok :: .response ⟨487, "Request Terminated"⟩ :: finalised.2)

section

variable (env : Circumstances) (server : Server G O)

def handlePrackMessage : Server G O × List Observation :=
  match server.callStates with
  | none => (server, [.response .ok])
  | some call =>
    (server.updateCall call fun old =>
      { old with
        lastActivity := env.now
        state := if old.state = .early then .proceeding else old.state }, [.response .ok])

def touch (call : Nat) (server : Server G O) : Server G O :=
  server.updateCall call fun old => { old with lastActivity := env.now }

def handleSubscribeMessage (callback : Callback)
    (server : Server G O) : Server G O × List Observation :=
  match server.callStates with
  | none => (server, [.response notFound])
  | some call =>
    match callback with
    | .missing => (server, [.response ⟨400, "Bad Request - Missing Callback-URL"⟩])
    | .rejected => (server, [.response ⟨400, "Bad Request - Invalid Callback-URL"⟩])
    | .accepted => (touch env call server, [.response ⟨202, "Accepted"⟩])

def handleInDialog (response : Response) (server : Server G O) : Server G O × List Observation :=
  match server.callStates with
  | none => (server, [.response notFound])
  | some call => (touch env call server, [.response response])

def handleInfoMessage : Server G O × List Observation :=
  handleInDialog env .ok server

def handleReferMessage (hasReferTo : Bool) (server : Server G O) : Server G O × List Observation :=
  handleInDialog env
    (if hasReferTo then ⟨202, "Accepted"⟩ else ⟨400, "Bad Request - Missing Refer-To"⟩) server

def handleNotifyMessage : Server G O × List Observation :=
  handleInDialog env .ok server

def handleMessageMessage : Server G O × List Observation :=
  match server.callStates with
  | none => (server, [.response .ok])
  | some call => (touch env call server, [.response .ok])

end

/-! ## UPDATE -/

def changeStreams (media : Forwarders G O) (chosen : List Nat)
    (change : RtpStream G O → RtpStream G O) : Forwarders G O :=
  media.update chosen (fun forwarder => { forwarder with stream := change forwarder.stream })
    fun _ free => free

/-- Hold pauses the transcription; the end of a hold resumes everything and accepts any
SSRC. -/
def renegotiate (isHold : Bool) (chosen : List Nat) (media : Forwarders G O) : Forwarders G O :=
  if isHold then changeStreams media chosen fun stream => stream.pause false true
  else changeStreams media chosen fun stream => stream.resume.resetRemoteSSRC

def updateMetadata (config : ReInvite.Config) (now : Nat) (call : ReInvite.Call) :
    Option (Option RSMetadata) → ReInvite.Call
  | some (some metadata) =>
    { call with session :=
      call.session.map (ReInvite.updateRecordingSession config.rfc3339 now metadata) }
  | _ => call

section

variable (config : Config G O)

def handleUpdateMessage (env : Circumstances) (message : Message)
    (metadata : Option (Option RSMetadata)) (isSDP : Bool) (server : Server G O) :
    Server G O × List Observation :=
  match server.callStates with
  | none => (server, [.response notFound])
  | some call =>
    let active := touch env call server
    if message.body = [] then (active, [.response .ok])
    else
      let merged := active.updateCall call fun old =>
        { old with
          media := updateMetadata config.toConfig env.now old.media metadata }
      if isSDP then
        match config.parseDirections message.body with
        | none => (merged, [.response ⟨400, "Bad Request - Invalid SDP"⟩])
        | some directions =>
          ({ merged.updateCall call fun old =>
                { old with media := { old.media with sdp := some message.body } } with
              media := renegotiate (directions.any (·.isHold))
                (server.calls call).media.primary server.media },
            [.response .ok])
      else (merged, [.response .ok])

def handleRequest (env : Circumstances) (message : Message) (server : Server G O) :
    Server G O × List Observation :=
  match message.request with
  | .invite content sessionID =>
    handleInviteMessage config env message content sessionID server
  | .ack => handleAckMessage env message server
  | .bye => handleByeMessage config env message server
  | .cancel => handleCancelMessage config env server
  | .prack => handlePrackMessage env server
  | .update metadata isSDP =>
    handleUpdateMessage config env message metadata isSDP server
  | .subscribe callback => handleSubscribeMessage env callback server
  | .info => handleInfoMessage env server
  | .refer hasReferTo => handleReferMessage env hasReferTo server
  | .notify => handleNotifyMessage env server
  | .message => handleMessageMessage env server
  | .options => (server, [.response .ok])
  | .other => (server, [.response ⟨501, "Not Implemented"⟩])

/-- Why the reaper takes a call, if it does. -/
def staleReason (now : Nat) (call : CallState) : Option String :=
  let unanswered := call.lastActivity + config.inviteTimeout < now
  if call.state = .awaitingAck ∧ unanswered then some "ack_timeout"
  else if call.state = .early ∧ unanswered then some "early_timeout"
  else if call.lastActivity + config.sessionIdleTimeout < now ∧ call.state ≠ .terminated ∧
      call.state ≠ .terminating then some "idle_timeout"
  else if call.createdAt + config.maxSessionDuration < now ∧ call.state ≠ .terminated ∧
      call.state ≠ .terminating then some "max_duration_exceeded"
  else none

def reapStaleDialogs (now : Nat) (server : Server G O) : Server G O × List Observation :=
  match server.callStates with
  | none => (server, [])
  | some call =>
    match staleReason config now (server.calls call) with
    | none => (server, [])
    | some reason => finalizeCall config.callID server call reason now

end

/-- Do something with the forwarder of an entry of `ActiveCalls`. -/
def onActiveCall (server : Server G O) (sessionID : String)
    (change : RtpStream G O → RtpStream G O) : Server G O :=
  match server.activeCalls sessionID with
  | some (some f) => { server with media := changeStreams server.media [f] change }
  | _ => server

def onStream (config : StreamConfig G O) (server : Server G O) (f : Nat)
    (event : RtpStream.Event) : Server G O × List Observation :=
  let forwarder := server.media.get f
  if forwarder.allocated then
    let after := (forwarder.stream.step config event).1
    ({ server with media := changeStreams server.media [f] fun _ => after },
      if after.recording = forwarder.stream.recording then [] else [.recorded f])
  else (server, [])

def step (config : Config G O) (server : Server G O) : Event → Server G O × List Observation
  | .request message env => handleRequest config env message server
  | .reap now => reapStaleDialogs config now server
  | .pauseSession sessionID pauseRecording pauseTranscription =>
    (onActiveCall server sessionID (·.pause pauseRecording pauseTranscription), [])
  | .resumeSession sessionID => (onActiveCall server sessionID (·.resume), [])
  | .staleSession sessionID =>
    ({ server with
        media := server.media.tearDown ((server.activeCalls sessionID).join.toList)
        activeCalls := remove server.activeCalls sessionID }, [])
  | .rtp f packet arrival now writable =>
    onStream config.stream server f (.receive packet arrival now writable)
  | .drain f now writable => onStream config.stream server f (.drain now writable)
  | .monitorTick f now => onStream config.stream server f (.monitorTick now)
  | .forwarderStops f => ({ server with media := server.media.tearDown [f] }, [])
  | .otherCallEntered key forwarder =>
    ({ server with activeCalls := write server.activeCalls key forwarder }, [])
  | .otherCallFinalised callID =>
    ({ server with activeCalls := remove server.activeCalls callID }, [])

def idleServer : Server G O :=
  { callStates := none
    calls := fun _ => .blank
    nextCall := 0
    media := ⟨fun _ => ⟨{}, false, false⟩, 0, fun _ _ => rfl⟩
    activeCalls := empty }

def plainServer : Config Unit Unit where
  mediaConfig := some ⟨false⟩
  multipartResponse := false
  parseSDP bytes := some (bytes.map fun byte =>
    ⟨"audio", some (if byte = 1 then "caller" else "callee"), false⟩)
  createRecordingSession _ := {}
  rfc3339 _ := ""
  callID := "call"
  parseDirections _ := some []
  stream := RtpStream.plainConfig
  inviteTimeout := 32
  sessionIdleTimeout := 300
  maxSessionDuration := 86400

def send (request : Request) (cseq now : Nat) : Event :=
  .request { request, fromTag := "caller", toTag := generateTag 0, cseq, body := [1] }
    { admission := .admitted, granted := 8, rendered := true, now }

def invite (sdp : Bytes) (cseq now : Nat) : Event :=
  send (.invite ⟨true, some sdp, some (some {})⟩ "session") cseq now

def packetFor (forwarder : Nat) (now : Int) : Event :=
  .rtp forwarder ⟨8, 1, 0, 5, [213]⟩ now now true

end SiprecServer.Sip.Signalling
