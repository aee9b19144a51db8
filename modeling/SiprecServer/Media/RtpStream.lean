import SiprecServer.Media.Codec
import SiprecServer.Media.JitterBuffer

/-!
# One RTP stream of a forwarder

The closure `decodeAndProcess` of `StartRTPForwarding` with the variables it
captures, the fields of the forwarder it reads, and the operations that other
goroutines make on those fields: pause and resume, the reset of the locked SSRC
and the ticks of the timeout monitor.  One event is one call; the recording is
the sequence of PCM bytes given to its writer.
-/

namespace SiprecServer.Media

variable {G O : Type}

structure StreamConfig (G O : Type) where
  libraries : Libraries G O
  /-- The audio processor, if processing is enabled and a processor is set; only
  its failures matter to the recording. -/
  processAudio : Option (List UInt8 → Option (List UInt8))
  timeout : Int
  /-- The forwarder belongs to a recording session, as every SIPREC stream does. -/
  recordingSession : Bool

structure RtpStream (G O : Type) where
  -- fields of the forwarder
  remoteSSRC : UInt32 := 0
  transcriptionPaused : Bool := false
  recordingPaused : Bool := false
  rtpSuspended : Bool := false
  stopped : Bool := false
  lastRTPNano : Int := 0
  hasFirstRTP : Bool := false
  firstRTPTimestamp : UInt32 := 0
  firstRTPWallClock : Int := 0
  codecPayloadType : UInt8 := 0
  codecName : String := ""
  sampleRate : Int := 0
  channels : Int := 0
  -- variables of the goroutine
  firstPacketReceived : Bool := false
  lastAcceptedSSRC : UInt32 := 0
  lastSeq : Option UInt16 := none
  lastTimestamp : UInt32 := 0
  hasLastTimestamp : Bool := false
  lastDecodedPCMSize : Nat := 0
  alternateSSRC : UInt32 := 0
  alternateSSRCCount : UInt32 := 0
  packetsSinceLastLockedSSRC : UInt32 := 0
  g729StreamDec : Option (G729StreamDecoder G) := none
  opusStreamDec : Option O := none
  jitterBuffer : Option JitterBuffer := none
  recording : List UInt8 := []

variable (stream : RtpStream G O)

namespace RtpStream

def ssrcCorrectionThreshold : UInt32 := 50

def ssrcCorrectionInactivity : UInt32 := 30

section

variable (stream : RtpStream G O)

def correctionBlocked : Bool :=
  stream.transcriptionPaused || stream.rtpSuspended

def lockIfNew (ssrc : UInt32) : RtpStream G O :=
  if stream.remoteSSRC = 0 then
    { stream with
      remoteSSRC := ssrc
      alternateSSRC := 0
      alternateSSRCCount := 0
      packetsSinceLastLockedSSRC := 0 }
  else stream

def trackAlternate (ssrc : UInt32) : RtpStream G O :=
  let counted :=
    { stream with packetsSinceLastLockedSSRC := stream.packetsSinceLastLockedSSRC + 1 }
  if stream.correctionBlocked then counted
  else if ssrc = stream.alternateSSRC then
    { counted with alternateSSRCCount := stream.alternateSSRCCount + 1 }
  else { counted with alternateSSRC := ssrc, alternateSSRCCount := 1 }

def correctionDue : Bool :=
  !stream.correctionBlocked && ssrcCorrectionThreshold ≤ stream.alternateSSRCCount &&
    ssrcCorrectionInactivity ≤ stream.packetsSinceLastLockedSSRC

def switchSSRC : RtpStream G O :=
  { stream with
    remoteSSRC := stream.alternateSSRC
    lastSeq := none
    hasLastTimestamp := false
    lastDecodedPCMSize := 0
    firstPacketReceived := false
    g729StreamDec := none
    alternateSSRC := 0
    alternateSSRCCount := 0
    packetsSinceLastLockedSSRC := 0 }

def validateSSRC (ssrc : UInt32) : RtpStream G O × Bool :=
  let locked := stream.lockIfNew ssrc
  if ssrc = locked.remoteSSRC then
    ({ locked with packetsSinceLastLockedSSRC := 0, rtpSuspended := false }, true)
  else
    let tracked := locked.trackAlternate ssrc
    if tracked.correctionDue then (tracked.switchSSRC, true) else (tracked, false)

end

section

variable (stream : RtpStream G O) (ssrc : UInt32)

theorem validateSSRC_cases :
    (stream.remoteSSRC = 0 ∧
        stream.validateSSRC ssrc =
          ({ stream with
              remoteSSRC := ssrc
              alternateSSRC := 0
              alternateSSRCCount := 0
              packetsSinceLastLockedSSRC := 0
              rtpSuspended := false }, true)) ∨
      (stream.remoteSSRC ≠ 0 ∧ ssrc = stream.remoteSSRC ∧
        stream.validateSSRC ssrc =
          ({ stream with packetsSinceLastLockedSSRC := 0, rtpSuspended := false }, true)) ∨
      (stream.remoteSSRC ≠ 0 ∧ ssrc ≠ stream.remoteSSRC ∧
        (stream.trackAlternate ssrc).correctionDue = true ∧
        stream.validateSSRC ssrc = ((stream.trackAlternate ssrc).switchSSRC, true)) ∨
      (stream.remoteSSRC ≠ 0 ∧ ssrc ≠ stream.remoteSSRC ∧
        (stream.trackAlternate ssrc).correctionDue = false ∧
        stream.validateSSRC ssrc = (stream.trackAlternate ssrc, false)) := by
  by_cases unlocked : stream.remoteSSRC = 0
  · refine Or.inl ⟨unlocked, ?_⟩
    unfold validateSSRC lockIfNew
    simp only [unlocked, if_true]
  · refine Or.inr ?_
    have same : stream.lockIfNew ssrc = stream := if_neg unlocked
    unfold validateSSRC
    simp only [same]
    by_cases own : ssrc = stream.remoteSSRC
    · exact Or.inl ⟨unlocked, own, by rw [if_pos own]⟩
    · rw [if_neg own]
      cases due : (stream.trackAlternate ssrc).correctionDue with
      | true => exact Or.inr (Or.inl ⟨unlocked, own, rfl, by rw [if_pos rfl]⟩)
      | false => exact Or.inr (Or.inr ⟨unlocked, own, rfl, by rw [if_neg Bool.false_ne_true]⟩)

/-- What the check leaves alone. -/
theorem validateSSRC_rest :
    (stream.validateSSRC ssrc).1.stopped = stream.stopped ∧
      (stream.validateSSRC ssrc).1.recordingPaused = stream.recordingPaused ∧
      (stream.validateSSRC ssrc).1.recording = stream.recording := by
  have tracked : (stream.trackAlternate ssrc).stopped = stream.stopped ∧
      (stream.trackAlternate ssrc).recordingPaused = stream.recordingPaused ∧
      (stream.trackAlternate ssrc).recording = stream.recording := by
    unfold trackAlternate
    dsimp only
    split
    · exact ⟨rfl, rfl, rfl⟩
    · split <;> exact ⟨rfl, rfl, rfl⟩
  rcases stream.validateSSRC_cases ssrc with
    ⟨_, result⟩ | ⟨_, _, result⟩ | ⟨_, _, _, result⟩ | ⟨_, _, _, result⟩
  all_goals rw [result]
  · exact ⟨rfl, rfl, rfl⟩
  · exact ⟨rfl, rfl, rfl⟩
  · exact tracked
  · exact tracked

end

/-! ## After the check -/

section

variable (stream : RtpStream G O)

def noteActivity (packet : RtpPacket) (arrival now : Int) : RtpStream G O :=
  if stream.firstPacketReceived then { stream with lastRTPNano := now }
  else if stream.hasFirstRTP then
    { stream with lastRTPNano := now, firstPacketReceived := true }
  else
    { stream with
      lastRTPNano := now
      firstPacketReceived := true
      hasFirstRTP := true
      firstRTPTimestamp := packet.timestamp
      firstRTPWallClock := arrival }

def forgetHistory : RtpStream G O :=
  { stream with
    lastSeq := none
    hasLastTimestamp := false
    lastDecodedPCMSize := 0
    g729StreamDec := none }

/-- The bookkeeping for an accepted packet; the history is dropped when the accepted
SSRC changes. -/
def noteAccepted (packet : RtpPacket) (arrival now : Int) : RtpStream G O :=
  let noted := stream.noteActivity packet arrival now
  let kept :=
    if noted.lastAcceptedSSRC ≠ 0 ∧ packet.ssrc ≠ noted.lastAcceptedSSRC then
      noted.forgetHistory
    else noted
  { kept with lastAcceptedSSRC := packet.ssrc }

def setCodecInfo (payloadType : UInt8) (codecName : String) (sampleRate channels : Int) :
    RtpStream G O :=
  { stream with
    codecPayloadType := payloadType
    codecName := codecName.toUpper
    sampleRate := if sampleRate ≤ 0 then 8000 else sampleRate
    channels := if channels ≤ 0 then 1 else channels }

structure CurrentCodec where
  payloadType : UInt8
  name : String
  sampleRate : Int
  channels : Int

def storedCodec : CurrentCodec :=
  ⟨stream.codecPayloadType, stream.codecName, stream.sampleRate, stream.channels⟩

def CurrentCodec.replacement (read : CurrentCodec) (packet : RtpPacket) : Option CodecInfo :=
  if read.name = "" ∨ read.sampleRate = 0 then getCodecInfo packet.payloadType else none

def CurrentCodec.used (read : CurrentCodec) (packet : RtpPacket) : CurrentCodec :=
  match read.replacement packet with
  | some info => ⟨read.payloadType, info.name, info.sampleRate, info.channels⟩
  | none => read

/-- What is stored back: the payload type of the packet if none was known, and the
replacement of an unknown codec. -/
def updateCodec (packet : RtpPacket) : RtpStream G O :=
  let read := stream.storedCodec
  let typed :=
    if read.payloadType = 0 then
      stream.setCodecInfo packet.payloadType read.name read.sampleRate read.channels
    else stream
  match read.replacement packet with
  | some info => typed.setCodecInfo packet.payloadType info.name info.sampleRate info.channels
  | none => typed

/-- The stream without what is noted of an accepted packet. -/
def withoutNotes : RtpStream G O :=
  { stream with
    lastRTPNano := 0
    firstPacketReceived := false
    hasFirstRTP := false
    firstRTPTimestamp := 0
    firstRTPWallClock := 0
    lastSeq := none
    hasLastTimestamp := false
    lastDecodedPCMSize := 0
    g729StreamDec := none
    lastAcceptedSSRC := 0
    codecPayloadType := 0
    codecName := ""
    sampleRate := 0
    channels := 0 }

theorem noted_keeps {View : Type} (view : RtpStream G O → View)
    (blind : ∀ stream, view (withoutNotes stream) = view stream) (packet : RtpPacket)
    (arrival now : Int) :
    view ((stream.noteAccepted packet arrival now).updateCodec packet) = view stream := by
  have noted : (stream.noteActivity packet arrival now).withoutNotes = stream.withoutNotes := by
    unfold noteActivity
    split
    · rfl
    · split <;> rfl
  have accepted : (stream.noteAccepted packet arrival now).withoutNotes = stream.withoutNotes := by
    unfold noteAccepted
    dsimp only
    split <;> exact noted
  have updated (stream : RtpStream G O) :
      (stream.updateCodec packet).withoutNotes = stream.withoutNotes := by
    unfold updateCodec
    dsimp only
    split <;> split <;> rfl
  rw [← blind, updated, accepted, blind]

def CurrentCodec.decodeName (codec : CurrentCodec) : String :=
  if codec.name = "" then "PCMU" else codec.name

def isG729 (codecName : String) : Bool :=
  codecName = "G729" || codecName = "G.729" || codecName = "G729A"

def isOpus (codecName : String) : Bool :=
  codecName = "OPUS" || codecName = "OPUS_MONO"

def CurrentCodec.rate (codec : CurrentCodec) : Nat :=
  if codec.sampleRate ≤ 0 then 8000 else codec.sampleRate.toNat

def withG729 (decoder : G729StreamDecoder G) : RtpStream G O :=
  { stream with g729StreamDec := some decoder }

def withOpus (decoder : O) : RtpStream G O :=
  { stream with opusStreamDec := some decoder }

/-- `PausableWriter.Write`: while the recording is paused nothing is written and the
write counts as successful; otherwise the disk decides. -/
def writeRecording (writable : Bool) (bytes : List UInt8) : RtpStream G O × Bool :=
  if stream.recordingPaused then (stream, true)
  else if writable then ({ stream with recording := stream.recording ++ bytes }, true)
  else (stream, false)

end

def silence (bytes : Nat) : List UInt8 := List.replicate bytes 0

def maxPLC : Nat := 10

def lostPackets (expectedNext seq : UInt16) : Nat :=
  let lost :=
    if expectedNext < seq then (seq - expectedNext).toNat
    else seq.toNat + (65536 - expectedNext.toNat)
  min lost maxPLC

def concealLoss (config : StreamConfig G O) (stream : RtpStream G O) (codec : CurrentCodec)
    (writable : Bool) (lost : Nat) (expectedDelta : UInt32) : RtpStream G O :=
  if lost = 0 then stream
  else if isG729 codec.decodeName ∧ stream.g729StreamDec.isSome then
    match stream.g729StreamDec with
    | none => stream
    | some decoder =>
      let bytesPerPacket :=
        if stream.lastDecodedPCMSize = 0 then 320 else stream.lastDecodedPCMSize
      let concealed := decoder.concealPackets config.libraries lost bytesPerPacket
      ((stream.withG729 concealed.1).writeRecording writable concealed.2).1
  else if isOpus codec.decodeName ∧ stream.opusStreamDec.isSome then
    match stream.opusStreamDec with
    | none => stream
    | some decoder =>
      let concealed := opusConceal config.libraries decoder (lost * expectedDelta.toNat)
      let advanced := stream.withOpus concealed.1
      match concealed.2 with
      | none => advanced
      | some bytes => (advanced.writeRecording writable bytes).1
  else
    let bytesPerPacket :=
      if stream.lastDecodedPCMSize = 0 then pcmBytesPerPacket codec.rate
      else stream.lastDecodedPCMSize
    (stream.writeRecording writable (silence (lost * bytesPerPacket))).1

def minLargeGapSeconds : Nat := 3

def maxLargeGapSeconds : Nat := 120

def fillLargeGap (codec : CurrentCodec) (writable : Bool)
    (tsGap expectedDelta : UInt32) : RtpStream G O :=
  if UInt32.ofNat (codec.rate * minLargeGapSeconds) ≤ tsGap ∧
      tsGap ≤ UInt32.ofNat (codec.rate * maxLargeGapSeconds) then
    (stream.writeRecording writable (silence ((tsGap - expectedDelta).toNat * 2))).1
  else stream

section

variable (config : StreamConfig G O) (stream : RtpStream G O) (codec : CurrentCodec)
  (packet : RtpPacket)

/-- Gap handling before the decoding; the flag marks a reordered packet. -/
def handleGap (writable : Bool) : RtpStream G O × Bool :=
  match stream.lastSeq with
  | none => (stream, false)
  | some last =>
    let expectedNext := last + 1
    if packet.sequenceNumber = expectedNext then (stream, false)
    else if last - packet.sequenceNumber < 32768 then (stream, true)
    else if stream.hasLastTimestamp then
      let tsGap := packet.timestamp - stream.lastTimestamp
      let expectedDelta := UInt32.ofNat (codec.rate / 50)
      if tsGap ≤ UInt32.ofNat (codec.rate * 60 / 1000) then
        (stream.concealLoss config codec writable
          (lostPackets expectedNext packet.sequenceNumber) expectedDelta, false)
      else (stream.fillLargeGap codec writable tsGap expectedDelta, false)
    else (stream, false)

def decodePayload : RtpStream G O × Option (List UInt8) :=
  if isG729 codec.decodeName then
    let decoder := stream.g729StreamDec.getD (.new config.libraries)
    let decoded := decoder.decode config.libraries packet.payload packet.ssrc
    (stream.withG729 decoded.1, decoded.2)
  else if isOpus codec.decodeName then
    let channels :=
      if codec.channels ≤ 0 then if codec.decodeName = "OPUS_MONO" then 1 else 2
      else codec.channels
    let existing := stream.opusStreamDec.or
      (newOpusStreamDecoder config.libraries codec.rate channels)
    match existing with
    | none => (stream, none)
    | some decoder =>
      let decoded := opusStreamDecode config.libraries decoder packet.payload
      (stream.withOpus decoded.1, decoded.2)
  else (stream, decodeAudioPayload config.libraries packet.payload codec.decodeName)

end

inductive Outcome where
  | stopped
  | ssrcMismatch
  | emptyPayload
  | nonAudio
  | buffered
  | reordered
  | decodeError
  | emptyPcm
  | processingError
  | paused
  | writeError
  | written
  deriving DecidableEq, Repr

def recordPcm (config : StreamConfig G O) (stream : RtpStream G O) (packet : RtpPacket)
    (isReordered writable : Bool) (pcm : List UInt8) : RtpStream G O × Outcome :=
  if pcm = [] then (stream, .emptyPcm)
  else
    let sized := { stream with lastDecodedPCMSize := pcm.length }
    -- the recording keeps the raw samples; the processor can only fail
    if (config.processAudio.elim (some pcm) fun process => process pcm).isNone then
      (sized, .processingError)
    else if sized.recordingPaused then (sized, .paused)
    else
      let attempt := sized.writeRecording writable pcm
      if !attempt.2 then (attempt.1, .writeError)
      else if isReordered then (attempt.1, .written)
      else
        ({ attempt.1 with
            lastSeq := some packet.sequenceNumber
            lastTimestamp := packet.timestamp
            hasLastTimestamp := true }, .written)

def processAudioPacket (config : StreamConfig G O) (stream : RtpStream G O)
    (codec : CurrentCodec) (packet : RtpPacket) (writable : Bool) : RtpStream G O × Outcome :=
  let gap := stream.handleGap config codec packet writable
  -- G.729 is stateful, so a reordered packet is dropped
  if gap.2 ∧ isG729 codec.decodeName then (gap.1, .reordered)
  else
    let decoded := gap.1.decodePayload config codec packet
    match decoded.2 with
    | none => (decoded.1, .decodeError)
    | some pcm => decoded.1.recordPcm config packet gap.2 writable pcm

/-! An audio packet changes the stream by its decoders, its writer and the notes on the last
packet only, so what these keep, the whole of `processAudioPacket` keeps. -/

section

variable {config : StreamConfig G O} {stream : RtpStream G O} {codec : CurrentCodec}
  {packet : RtpPacket} {writable : Bool} (Good : RtpStream G O → Prop)
  (g729 : ∀ stream decoder, Good stream → Good (withG729 stream decoder))
  (opus : ∀ stream decoder, Good stream → Good (withOpus stream decoder))
  (writes : ∀ stream bytes, Good stream → Good (writeRecording stream writable bytes).1)
  (good : Good stream)

include g729 opus good

theorem decodePayload_keeps : Good (stream.decodePayload config codec packet).1 := by
  unfold decodePayload
  split
  · exact g729 _ _ good
  · split
    · dsimp only
      split
      · exact good
      · exact opus _ _ good
    · exact good

include writes

theorem concealLoss_keeps (lost : Nat) (expectedDelta : UInt32) :
    Good (stream.concealLoss config codec writable lost expectedDelta) := by
  unfold concealLoss
  split
  · exact good
  · split
    · split
      · exact good
      · exact writes _ _ (g729 _ _ good)
    · split
      · split
        · exact good
        · dsimp only
          split
          · exact opus _ _ good
          · exact writes _ _ (opus _ _ good)
      · exact writes _ _ good

theorem handleGap_keeps : Good (stream.handleGap config codec packet writable).1 := by
  unfold handleGap
  split
  · exact good
  · dsimp only
    split
    · exact good
    · split
      · exact good
      · split
        · split
          · exact concealLoss_keeps Good g729 opus writes good _ _
          · unfold fillLargeGap
            split
            · exact writes _ _ good
            · exact good
        · exact good

variable (sized : ∀ stream size, Good stream → Good { stream with lastDecodedPCMSize := size })
  (noted : ∀ (stream : RtpStream G O) seq time, Good stream → Good { stream with
    lastSeq := some seq, lastTimestamp := time, hasLastTimestamp := true })

include sized noted

omit g729 opus in
theorem recordPcm_keeps {isReordered : Bool} (pcm : List UInt8) :
    Good (stream.recordPcm config packet isReordered writable pcm).1 := by
  have known := sized _ pcm.length good
  unfold recordPcm
  split
  · exact good
  · dsimp only
    split
    · exact known
    · split
      · exact known
      · split
        · exact writes _ _ known
        · split
          · exact writes _ _ known
          · exact noted _ _ _ (writes _ _ known)

theorem processAudioPacket_keeps :
    Good (stream.processAudioPacket config codec packet writable).1 := by
  have gap : Good (stream.handleGap config codec packet writable).1 :=
    handleGap_keeps Good g729 opus writes good
  have decoded {after : RtpStream G O} (kept : Good after) :
      Good (after.decodePayload config codec packet).1 := decodePayload_keeps Good g729 opus kept
  unfold processAudioPacket
  dsimp only
  split
  · exact gap
  · split
    · exact decoded gap
    · exact recordPcm_keeps Good writes (decoded gap) sized noted _

end

def withBuffer (buffer : JitterBuffer) : RtpStream G O :=
  { stream with jitterBuffer := some buffer }

section

variable (config : StreamConfig G O) (stream : RtpStream G O) (packet : RtpPacket)
  (arrival now : Int) (fromBuffer writable : Bool)

/-- What `decodeAndProcess` does with a packet that passed the SSRC check.  A buffered packet keeps
its payload here; in the code the payload is a part of the read buffer, which is used again. -/
def processAccepted : RtpStream G O × Outcome :=
  let noted := stream.noteAccepted packet arrival now
  let codec := noted.storedCodec.used packet
  let updated := noted.updateCodec packet
  if packet.payload = [] then (updated, .emptyPayload)
  else if codec.payloadType ≠ 0 ∧ packet.payloadType ≠ codec.payloadType then
    (updated, .nonAudio)
  else
    match updated.jitterBuffer, fromBuffer with
    | some buffer, false =>
      (updated.withBuffer (buffer.push ⟨packet, arrival, []⟩), .buffered)
    | _, _ => updated.processAudioPacket config codec packet writable

def decodeAndProcess : RtpStream G O × Outcome :=
  let checked := stream.validateSSRC packet.ssrc
  if checked.2 then checked.1.processAccepted config packet arrival now fromBuffer writable
  else (checked.1, .ssrcMismatch)

end

def resetRemoteSSRC : RtpStream G O :=
  { stream with remoteSSRC := 0, rtpSuspended := false }

def pause (pauseRecording pauseTranscription : Bool) : RtpStream G O :=
  { stream with
    recordingPaused := stream.recordingPaused || pauseRecording
    transcriptionPaused := stream.transcriptionPaused || pauseTranscription }

def resume : RtpStream G O :=
  { stream with recordingPaused := false, transcriptionPaused := false }

def monitorTick (config : StreamConfig G O) (stream : RtpStream G O) (now : Int) : RtpStream G O :=
  if stream.stopped then stream
  else if stream.transcriptionPaused then { stream with lastRTPNano := now }
  else if config.timeout < now - stream.lastRTPNano then
    if config.recordingSession then { stream with rtpSuspended := true, lastRTPNano := now }
    else { stream with stopped := true }
  else stream

inductive Event where
  /-- A packet from the network is handled. -/
  | receive (packet : RtpPacket) (arrival now : Int) (writable : Bool)
  /-- One round of the drain loop: pop the jitter buffer, handle what it returns. -/
  | drain (now : Int) (writable : Bool)
  | pause (pauseRecording pauseTranscription : Bool)
  | resume
  | resetRemoteSSRC
  | monitorTick (now : Int)

structure Handled where
  packet : RtpPacket
  outcome : Outcome
  deriving DecidableEq, Repr

section

variable (config : StreamConfig G O) (stream : RtpStream G O)

def receive (packet : RtpPacket) (arrival now : Int) (writable : Bool) : RtpStream G O × Outcome :=
  if stream.stopped then (stream, .stopped)
  else stream.decodeAndProcess config packet arrival now false writable

/-- One round of the drain loop; nothing happens without a buffer or a ready packet. -/
def drain (now : Int) (writable : Bool) : RtpStream G O × Option Handled :=
  match stream.stopped, stream.jitterBuffer with
  | false, some buffer =>
    let popped := buffer.pop now
    let kept := stream.withBuffer popped.1
    match popped.2.packet with
    | none => (kept, none)
    | some entry =>
      let handled :=
        kept.decodeAndProcess config entry.packet entry.arrival now true writable
      (handled.1, some ⟨entry.packet, handled.2⟩)
  | _, _ => (stream, none)

def step : Event → RtpStream G O × List Handled
  | .receive packet arrival now writable =>
    let handled := stream.receive config packet arrival now writable
    (handled.1, [⟨packet, handled.2⟩])
  | .drain now writable =>
    let drained := stream.drain config now writable
    (drained.1, drained.2.toList)
  | .pause pauseRecording pauseTranscription =>
    (stream.pause pauseRecording pauseTranscription, [])
  | .resume => (stream.resume, [])
  | .resetRemoteSSRC => (stream.resetRemoteSSRC, [])
  | .monitorTick now => (stream.monitorTick config now, [])

end

def newStream (payloadType : UInt8) (codecName : String) (sampleRate channels : Int)
    (jitterBuffer : Option JitterBuffer) : RtpStream G O where
  codecPayloadType := payloadType
  codecName := codecName
  sampleRate := sampleRate
  channels := channels
  jitterBuffer := jitterBuffer

def noLibraries : Libraries Unit Unit where
  g729New := ()
  g729Frame := fun _ _ => ((), ⟨List.replicate 160 0, List.length_replicate⟩)
  g729Silence := fun _ _ => ((), ⟨List.replicate 160 0, List.length_replicate⟩)
  g729Erased := fun _ => ((), ⟨List.replicate 160 0, List.length_replicate⟩)
  opusNew := fun _ _ => none
  opusDecode := fun _ _ _ => ((), none)
  decodeG729Packet := fun _ => none
  decodeG722Packet := fun _ => none
  processEVSPacket := fun _ _ => none

def plainConfig : StreamConfig Unit Unit := ⟨noLibraries, none, 10, true⟩

def plainStream : RtpStream Unit Unit := newStream 8 "PCMA" 8000 1 none

def plainPacket (sequenceNumber : UInt16) (timestamp ssrc : UInt32) : RtpPacket :=
  ⟨8, sequenceNumber, timestamp, ssrc, [213]⟩

end RtpStream

end SiprecServer.Media
