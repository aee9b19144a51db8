import SiprecServer.Media.RtpStream

/-!
# A forwarder that is muted

`Mute` and `Unmute` set two flags of a forwarder.  This module puts them next to the receive
loop, with the transcription stream that the loop feeds, and says what the handling of a packet
adds to the recording and to the transcription stream.  The loop does not read the flags.
-/

namespace SiprecServer.Media

open Lib.Transducer List

variable {G O : Type}

namespace RtpStream

/-! ## What a packet adds to the recording -/

/-- What the handling of a packet comes to before its samples are recorded: the bytes that are
put in for lost packets, and the decoded samples, if the packet gets that far. -/
structure Passage where
  concealed : List UInt8 := []
  decoded : Option (List UInt8) := none

section

variable (config : StreamConfig G O) (stream : RtpStream G O)

def audioPassage (codec : CurrentCodec) (packet : RtpPacket) (writable : Bool) : Passage :=
  let gap := stream.handleGap config codec packet writable
  let concealed := gap.1.recording.drop stream.recording.length
  if gap.2 ∧ isG729 codec.decodeName then ⟨concealed, none⟩
  else ⟨concealed, (gap.1.decodePayload config codec packet).2⟩

def acceptedPassage (packet : RtpPacket) (arrival now : Int)
    (fromBuffer writable : Bool) : Passage :=
  let noted := stream.noteAccepted packet arrival now
  let codec := noted.storedCodec.used packet
  let updated := noted.updateCodec packet
  if packet.payload = [] then {}
  else if codec.payloadType ≠ 0 ∧ packet.payloadType ≠ codec.payloadType then {}
  else
    match updated.jitterBuffer, fromBuffer with
    | some _, false => {}
    | _, _ => updated.audioPassage config codec packet writable

def passage (packet : RtpPacket) (arrival now : Int) (fromBuffer writable : Bool) : Passage :=
  let checked := stream.validateSSRC packet.ssrc
  if checked.2 then checked.1.acceptedPassage config packet arrival now fromBuffer writable
  else {}

end

/-- What is recorded of the samples of a packet whose handling ended in some way. -/
def Passage.kept (passage : Passage) (outcome : Outcome) : List UInt8 :=
  if outcome = .written then passage.decoded.getD [] else []

section Recording

variable {config : StreamConfig G O} {stream : RtpStream G O} {codec : CurrentCodec}
  {packet : RtpPacket} {arrival now : Int} {fromBuffer writable : Bool}

@[simp]
theorem decodePayload_recording :
    (stream.decodePayload config codec packet).1.recording = stream.recording :=
  decodePayload_keeps (fun after => after.recording = stream.recording) (fun _ _ same => same)
    (fun _ _ same => same) rfl

/-! Gap handling only appends. -/

theorem writeRecording_grows (stream : RtpStream G O) (bytes : List UInt8) :
    stream.recording <+: (stream.writeRecording writable bytes).1.recording := by
  unfold writeRecording
  split
  · exact prefix_rfl
  · split
    · exact prefix_append _ _
    · exact prefix_rfl

theorem handleGap_grows :
    stream.recording <+: (stream.handleGap config codec packet writable).1.recording := by
  refine handleGap_keeps (fun after => stream.recording <+: after.recording)
    (fun _ _ grown => grown) (fun _ _ grown => grown) ?_ prefix_rfl
  exact fun after bytes grown => grown.trans (after.writeRecording_grows bytes)

theorem recordPcm_recording {isReordered : Bool} (pcm : List UInt8) :
    (stream.recordPcm config packet isReordered writable pcm).1.recording =
      stream.recording ++
        if (stream.recordPcm config packet isReordered writable pcm).2 = .written then pcm
        else [] := by
  unfold recordPcm
  split
  · simp
  · dsimp only
    split
    · simp
    · split
      · simp
      case isFalse active =>
        unfold writeRecording
        rw [if_neg active]
        cases writable with
        | false => simp
        | true =>
          cases isReordered with
          | true => simp
          | false => simp

theorem processAudioPacket_recording (config : StreamConfig G O) (stream : RtpStream G O)
    (codec : CurrentCodec) (packet : RtpPacket) (writable : Bool) :
    (stream.processAudioPacket config codec packet writable).1.recording =
      stream.recording ++ ((stream.audioPassage config codec packet writable).concealed ++
        (stream.audioPassage config codec packet writable).kept
          (stream.processAudioPacket config codec packet writable).2) := by
  have gap : (stream.handleGap config codec packet writable).1.recording = stream.recording ++
      (stream.handleGap config codec packet writable).1.recording.drop stream.recording.length :=
    (prefix_iff_eq_append.mp handleGap_grows).symm
  unfold processAudioPacket audioPassage
  dsimp only
  split
  · simpa [Passage.kept] using gap
  · cases decoded : ((stream.handleGap config codec packet writable).1.decodePayload config codec
      packet).2 with
    | none => simpa [Passage.kept] using gap
    | some pcm =>
      rw [recordPcm_recording, decodePayload_recording, ← append_assoc, ← gap]
      rfl

theorem processAccepted_recording :
    (stream.processAccepted config packet arrival now fromBuffer writable).1.recording =
      stream.recording ++
        ((stream.acceptedPassage config packet arrival now fromBuffer writable).concealed ++
          (stream.acceptedPassage config packet arrival now fromBuffer writable).kept
            (stream.processAccepted config packet arrival now fromBuffer writable).2) := by
  have audio := ((stream.noteAccepted packet arrival now).updateCodec packet)
    |>.processAudioPacket_recording config
      ((stream.noteAccepted packet arrival now).storedCodec.used packet) packet writable
  have noted : ((stream.noteAccepted packet arrival now).updateCodec packet).recording =
      stream.recording := stream.noted_keeps recording (fun _ => rfl) packet arrival now
  rw [noted] at audio
  unfold processAccepted acceptedPassage
  dsimp only
  split
  · simp [Passage.kept, noted]
  · split
    · simp [Passage.kept, noted]
    · cases ((stream.noteAccepted packet arrival now).updateCodec packet).jitterBuffer with
      | none => exact audio
      | some buffer =>
        cases fromBuffer with
        | false => simp [Passage.kept, withBuffer, noted]
        | true => exact audio

theorem decodeAndProcess_recording :
    (stream.decodeAndProcess config packet arrival now fromBuffer writable).1.recording =
      stream.recording ++
        ((stream.passage config packet arrival now fromBuffer writable).concealed ++
          (stream.passage config packet arrival now fromBuffer writable).kept
            (stream.decodeAndProcess config packet arrival now fromBuffer writable).2) := by
  unfold decodeAndProcess passage
  dsimp only
  split
  · rw [processAccepted_recording, (stream.validateSSRC_rest packet.ssrc).2.2]
  · simp [Passage.kept, (stream.validateSSRC_rest packet.ssrc).2.2]

end Recording

structure PacketCall (G O : Type) where
  stream : RtpStream G O
  packet : RtpPacket
  arrival : Int
  now : Int
  fromBuffer : Bool
  writable : Bool

def PacketCall.result (config : StreamConfig G O) (call : PacketCall G O) :
    RtpStream G O × Outcome :=
  call.stream.decodeAndProcess config call.packet call.arrival call.now call.fromBuffer
    call.writable

def PacketCall.passage (config : StreamConfig G O) (call : PacketCall G O) : Passage :=
  call.stream.passage config call.packet call.arrival call.now call.fromBuffer call.writable

def packetCall (stream : RtpStream G O) : Event → Option (PacketCall G O)
  | .receive packet arrival now writable =>
    if stream.stopped then none else some ⟨stream, packet, arrival, now, false, writable⟩
  | .drain now writable =>
    match stream.stopped, stream.jitterBuffer with
    | false, some buffer =>
      (buffer.pop now).2.packet.map fun entry =>
        ⟨stream.withBuffer (buffer.pop now).1, entry.packet, entry.arrival, now, true, writable⟩
    | _, _ => none
  | _ => none

section Calls

variable {config : StreamConfig G O} {stream : RtpStream G O} {event : Event}

theorem packetCall_spec (config : StreamConfig G O) {call : PacketCall G O}
    (isCall : stream.packetCall event = some call) :
    call.stream.recording = stream.recording ∧
      (stream.step config event).1 = (call.result config).1 := by
  cases event with
  | receive packet arrival now writable =>
    simp only [packetCall, Option.ite_none_left_eq_some, Option.some.injEq] at isCall
    obtain ⟨running, rfl⟩ := isCall
    simp [step, receive, running, PacketCall.result]
  | drain now writable =>
    simp only [packetCall] at isCall
    split at isCall
    case h_1 buffer running buffered =>
      obtain ⟨entry, isEntry, rfl⟩ := Option.map_eq_some_iff.mp isCall
      simp [step, drain, running, buffered, isEntry, PacketCall.result, withBuffer]
    · cases isCall
  | _ => cases isCall

end Calls

end RtpStream

namespace Mute

open RtpStream

structure Forwarder (G O : Type) where
  stream : RtpStream G O
  inboundMuted : Bool := false
  outboundMuted : Bool := false
  mutedAt : Option Int := none
  /-- There is a writer to the speech recognition, and it has not failed. -/
  sttOpen : Bool
  transcription : List UInt8 := []

namespace Forwarder

def mute (f : Forwarder G O) (muteInbound muteOutbound : Bool) (now : Int) : Forwarder G O :=
  let inboundMuted := f.inboundMuted || muteInbound
  let outboundMuted := f.outboundMuted || muteOutbound
  { f with
    inboundMuted
    outboundMuted
    mutedAt := if (inboundMuted || outboundMuted) && f.mutedAt.isNone then some now else f.mutedAt }

def unmute (f : Forwarder G O) (unmuteInbound unmuteOutbound : Bool) : Forwarder G O :=
  let inboundMuted := f.inboundMuted && !unmuteInbound
  let outboundMuted := f.outboundMuted && !unmuteOutbound
  { f with
    inboundMuted
    outboundMuted
    mutedAt := if !inboundMuted && !outboundMuted then none else f.mutedAt }

end Forwarder

/-- The second payload of `prepareRecordingAndTranscriptionPayloads`.  The audio processor has a
state of its own, so what it makes of the samples is given with the event. -/
def transcriptionPayload (config : StreamConfig G O) (processed : List UInt8 → List UInt8)
    (pcm : List UInt8) : List UInt8 :=
  if config.processAudio.isSome then processed pcm else pcm

inductive Event where
  | mute (muteInbound muteOutbound : Bool) (now : Int)
  | unmute (unmuteInbound unmuteOutbound : Bool)
  /-- An event of the stream, with what the audio processor makes of samples, and whether
  the writer to the speech recognition takes them. -/
  | media (event : RtpStream.Event) (processed : List UInt8 → List UInt8) (accepts : Bool)

structure Contribution where
  packet : RtpPacket
  outcome : Outcome
  inboundMuted : Bool
  outboundMuted : Bool
  concealed : List UInt8
  decoded : List UInt8
  recorded : List UInt8
  /-- What the transcription stream is to get of the samples, if it gets anything. -/
  payload : Option (List UInt8)
  transcribed : List UInt8
deriving DecidableEq

/-- A packet is handled: its samples go to the writer of the transcription once they are
recorded; a writer that fails is closed. -/
def Forwarder.handle (config : StreamConfig G O) (f : Forwarder G O) (call : PacketCall G O)
    (processed : List UInt8 → List UInt8) (accepts : Bool) : Forwarder G O × Contribution :=
  let result := call.result config
  let passage := call.passage config
  let decoded := passage.decoded.getD []
  let payload := transcriptionPayload config processed decoded
  let writes := result.2 = .written ∧ f.sttOpen ∧ payload ≠ []
  let after := { f with
    stream := result.1
    sttOpen := if writes ∧ !accepts then false else f.sttOpen
    transcription := f.transcription ++ if writes ∧ accepts then payload else [] }
  (after,
    { packet := call.packet
      outcome := result.2
      inboundMuted := f.inboundMuted
      outboundMuted := f.outboundMuted
      concealed := passage.concealed
      decoded
      recorded := result.1.recording.drop (f.stream.recording.length + passage.concealed.length)
      payload := if result.2 = .written ∧ f.sttOpen ∧ accepts then some payload else none
      transcribed := after.transcription.drop f.transcription.length })

def step (config : StreamConfig G O) (f : Forwarder G O) : Event → Forwarder G O × List Contribution
  | .mute muteInbound muteOutbound now => (f.mute muteInbound muteOutbound now, [])
  | .unmute unmuteInbound unmuteOutbound => (f.unmute unmuteInbound unmuteOutbound, [])
  | .media event processed accepts =>
    match f.stream.packetCall event with
    | none => ({ f with stream := (f.stream.step config event).1 }, [])
    | some call =>
      let handled := f.handle config call processed accepts
      (handled.1, [handled.2])

variable {config : StreamConfig G O}

theorem handle_recorded {f : Forwarder G O} {call : PacketCall G O}
    (same : call.stream.recording = f.stream.recording) (processed : List UInt8 → List UInt8)
    (accepts : Bool) :
    (f.handle config call processed accepts).2.recorded =
      (call.passage config).kept (call.result config).2 := by
  have grown : (call.result config).1.recording = f.stream.recording ++
      ((call.passage config).concealed ++ (call.passage config).kept (call.result config).2) := by
    rw [← same]
    exact decodeAndProcess_recording
  simp only [Forwarder.handle]
  rw [grown, ← append_assoc, ← length_append, drop_left]

namespace Contribution

def BothMuted (c : Contribution) : Prop := c.inboundMuted = true ∧ c.outboundMuted = true

def NeitherMuted (c : Contribution) : Prop := c.inboundMuted = false ∧ c.outboundMuted = false

/-- While both directions are muted, only silence of the length of the samples; while neither
is muted, the samples unchanged. -/
structure RespectsMute (c : Contribution) : Prop where
  concealedSilent : c.BothMuted → c.concealed = silence c.concealed.length
  recordedSilent : c.BothMuted → c.outcome = .written → c.recorded = silence c.decoded.length
  transcribedSilent : c.BothMuted → c.payload.isSome = true →
    c.transcribed = silence c.decoded.length
  unchanged : c.NeitherMuted → c.outcome = .written → c.recorded = c.decoded

structure CarriesSilence (c : Contribution) : Prop where
  concealed : c.concealed = silence c.concealed.length
  decoded : c.outcome = .written → c.decoded = silence c.decoded.length
  payload : ∀ payload ∈ c.payload, payload = silence c.decoded.length

structure Unaltered (c : Contribution) : Prop where
  recorded : c.outcome = .written → c.recorded = c.decoded
  transcribed : ∀ payload ∈ c.payload, c.transcribed = payload

theorem Unaltered.respectsMute_iff {c : Contribution} (unaltered : c.Unaltered) :
    c.RespectsMute ↔ (c.BothMuted → c.CarriesSilence) := by
  constructor
  · intro respects muted
    refine ⟨respects.concealedSilent muted, fun written => ?_, fun payload isPayload => ?_⟩
    · have silent := respects.recordedSilent muted written
      rwa [unaltered.recorded written] at silent
    · rw [← unaltered.transcribed payload isPayload]
      exact respects.transcribedSilent muted (Option.isSome_iff_exists.mpr ⟨payload, isPayload⟩)
  · intro carries
    refine ⟨fun muted => (carries muted).concealed, fun muted written => ?_,
      fun muted isSome => ?_, fun _ written => unaltered.recorded written⟩
    · rw [unaltered.recorded written]
      exact (carries muted).decoded written
    · obtain ⟨payload, isPayload⟩ := Option.isSome_iff_exists.mp isSome
      rw [unaltered.transcribed payload isPayload]
      exact (carries muted).payload payload isPayload

end Contribution

theorem handle_unaltered {f : Forwarder G O} {call : PacketCall G O}
    (same : call.stream.recording = f.stream.recording) (processed : List UInt8 → List UInt8)
    (accepts : Bool) : (f.handle config call processed accepts).2.Unaltered := by
  refine ⟨fun written => ?_, fun payload isPayload => ?_⟩
  · rw [handle_recorded same processed accepts]
    exact if_pos written
  · simp only [Forwarder.handle, Option.mem_def, Option.ite_none_right_eq_some,
      Option.some.injEq] at isPayload
    obtain ⟨⟨written, isOpen, accepted⟩, rfl⟩ := isPayload
    simp only [Forwarder.handle, drop_left]
    split
    · rfl
    case isFalse nothing =>
      -- an empty payload is not written, which comes to the same
      simp only [written, isOpen, accepted, true_and, and_true, ne_eq, not_not] at nothing
      exact nothing.symm

theorem step_unaltered (f : Forwarder G O) (event : Event) :
    ∀ c ∈ (step config f event).2, c.Unaltered := by
  intro c mem
  cases event with
  | mute muteInbound muteOutbound now => cases mem
  | unmute unmuteInbound unmuteOutbound => cases mem
  | media event processed accepts =>
    simp only [step] at mem
    cases isCall : f.stream.packetCall event with
    | none =>
      rw [isCall] at mem
      cases mem
    | some call =>
      rw [isCall] at mem
      obtain rfl := mem_singleton.mp mem
      exact handle_unaltered (packetCall_spec config isCall).1 processed accepts

theorem run_unaltered (f : Forwarder G O) (events : List Event) :
    ∀ c ∈ (run (step config) f events).2, c.Unaltered := by
  have always : Along (step config) (fun _ _ => True) f events := .always fun _ _ => True.intro
  exact always.outputs (fun _ => True) (fun _ _ _ _ => True.intro)
    (fun f event _ _ => step_unaltered f event) True.intro

/-- Muted packets contribute silence exactly if they carry silence; packets that are not muted
contribute their samples. -/
theorem mute_respected_iff (config : StreamConfig G O) (f : Forwarder G O) (events : List Event) :
    (∀ c ∈ (run (step config) f events).2, c.RespectsMute) ↔
      ∀ c ∈ (run (step config) f events).2, c.BothMuted → c.CarriesSilence :=
  forall₂_congr fun c member => (run_unaltered f events c member).respectsMute_iff

/-- A forwarder is muted in both directions and then receives a packet, which is recorded and
transcribed all the same. -/
theorem muted_packet_recorded : let events : List Event :=
      [.mute true true 0, .media (.receive (plainPacket 1 0 7) 0 0 true) id true]
    let result := run (step plainConfig) ⟨plainStream, false, false, none, true, []⟩ events
    result.1.inboundMuted = true ∧ result.1.outboundMuted = true ∧
      result.1.stream.recording = [248, 255] ∧ result.1.transcription = [248, 255] ∧
      ¬ ∀ c ∈ result.2, c.RespectsMute := by
  refine ⟨by decide +kernel, by decide +kernel, by decide +kernel, by decide +kernel, ?_⟩
  intro respects
  have silent := (respects _ mem_cons_self).recordedSilent ⟨rfl, rfl⟩ rfl
  exact absurd silent (by decide)

end Mute

end SiprecServer.Media
