import Mathlib.Data.List.Chain
import SiprecServer.Media.RtpStream

/-!
# Time alignment of a recording

How many samples the gap handling inserts before a packet, as a function of the
advance in sequence numbers and the gap in timestamps, and from it the exact
condition under which the recording of a stream is as long as its timestamps say.
-/

namespace SiprecServer.Media

open Lib Lib.SerialNumber Transducer List

variable {G O : Type}

namespace RtpStream

section

variable (codec : CurrentCodec) (samples : Nat)

def concealedSamples (lost : Nat) : Nat :=
  if isOpus codec.decodeName then
    if maxOpusSamplesPerChannel < lost * (codec.rate / 50) then 0 else lost * (codec.rate / 50)
  else lost * samples

def insertedSamples (advance gap : Nat) : Nat :=
  if advance = 1 then 0
  else if gap ≤ codec.rate * 60 / 1000 then
    concealedSamples codec samples (min (advance - 1) maxPLC)
  else if codec.rate * minLargeGapSeconds ≤ gap ∧ gap ≤ codec.rate * maxLargeGapSeconds then
    gap - codec.rate / 50
  else 0

/-- The timestamp gaps for which the recording keeps time: the next packet follows at
once; a gap of at most 60 ms is as long as the concealment and the packet together; a gap
of 3 to 120 seconds is filled on the assumption of 20 ms packets; any other gap is not
filled. -/
def KeepsTime (advance gap : Nat) : Prop :=
  if advance = 1 then gap = samples
  else if gap ≤ codec.rate * 60 / 1000 then
    gap = concealedSamples codec samples (min (advance - 1) maxPLC) + samples
  else if codec.rate * minLargeGapSeconds ≤ gap ∧ gap ≤ codec.rate * maxLargeGapSeconds then
    samples = codec.rate / 50
  else gap = samples

theorem keepsTime_iff (advance gap : Nat) :
    KeepsTime codec samples advance gap ↔
      insertedSamples codec samples advance gap + samples = gap := by
  unfold KeepsTime insertedSamples minLargeGapSeconds
  split
  · rw [Nat.zero_add]
    exact eq_comm
  · split
    · exact eq_comm
    · split
      · rename_i large
        omega
      · rw [Nat.zero_add]
        exact eq_comm

end

def timestampGap (first second : RtpPacket) : Nat := (second.timestamp - first.timestamp).toNat

def sequenceAdvance (first second : RtpPacket) : Nat :=
  ahead first.sequenceNumber second.sequenceNumber

theorem eq_succ_iff_ahead (last next : UInt16) : next = last + 1 ↔ ahead last next = 1 := by
  have lastLt := last.toNat_lt
  have nextLt := next.toNat_lt
  rw [← UInt16.toNat_inj, UInt16.toNat_add, ahead_eq]
  change next.toNat = (last.toNat + 1) % 2 ^ 16 ↔ _
  omega

theorem lostPackets_eq {last next : UInt16} (different : next ≠ last) (notNext : next ≠ last + 1) :
    lostPackets (last + 1) next = min (ahead last next - 1) maxPLC := by
  have lastLt := last.toNat_lt
  have nextLt := next.toNat_lt
  have apart : next.toNat ≠ last.toNat := fun same => different (UInt16.toNat_inj.mp same)
  have notSucc : next.toNat ≠ (last.toNat + 1) % 2 ^ 16 := by
    intro same
    apply notNext
    apply UInt16.toNat_inj.mp
    rw [UInt16.toNat_add]
    exact same
  have succ : (last + 1).toNat = (last.toNat + 1) % 2 ^ 16 := UInt16.toNat_add last 1
  simp only [lostPackets]
  congr 1
  rw [ahead_eq]
  split
  · rename_i above
    rw [UInt16.lt_iff_toNat_lt, succ] at above
    rw [UInt16.toNat_sub, succ]
    omega
  · rename_i notAbove
    rw [UInt16.lt_iff_toNat_lt, succ] at notAbove
    rw [succ]
    omega

/-! ## One packet -/

structure SteadyFeed (config : StreamConfig G O) (codec : CurrentCodec) (samples : Nat) :
    Prop where
  positive : 0 < samples
  /-- Two minutes of samples fit into a timestamp. -/
  rateBound : codec.rate * maxLargeGapSeconds < 2 ^ 32
  processing : ∀ process, config.processAudio = some process → ∀ pcm, (process pcm).isSome = true
  /-- libopus conceals as many mono samples as it is asked for. -/
  opusConceals : isOpus codec.decodeName = true → ∀ decoder lost,
    0 < lost * (codec.rate / 50) → lost * (codec.rate / 50) ≤ maxOpusSamplesPerChannel →
      ∃ bytes, (config.libraries.opusDecode decoder [] (lost * (codec.rate / 50))).2 =
        some bytes ∧ bytes.length = 2 * (lost * (codec.rate / 50))

def Carries (config : StreamConfig G O) (codec : CurrentCodec) (samples : Nat)
    (packet : RtpPacket) : Prop :=
  ∀ stream : RtpStream G O, ∃ pcm,
    (stream.decodePayload config codec packet).2 = some pcm ∧ pcm.length = 2 * samples

structure Remembers (codec : CurrentCodec) (samples : Nat) (packet : RtpPacket)
    (stream : RtpStream G O) : Prop where
  lastSeq : stream.lastSeq = some packet.sequenceNumber
  lastTimestamp : stream.lastTimestamp = packet.timestamp
  hasLastTimestamp : stream.hasLastTimestamp = true
  size : stream.lastDecodedPCMSize = 2 * samples
  g729 : isG729 codec.decodeName = true → stream.g729StreamDec.isSome = true ∧
    ∃ frames, 0 < frames ∧ 2 * samples = frames * 160
  opus : isOpus codec.decodeName = true → stream.opusStreamDec.isSome = true

theorem writeRecording_length (stream : RtpStream G O) (active : stream.recordingPaused = false)
    (bytes : List UInt8) :
    (stream.writeRecording true bytes).1.recording.length =
        stream.recording.length + bytes.length ∧
      (stream.writeRecording true bytes).1.recordingPaused = false := by
  have written : stream.writeRecording true bytes =
      ({ stream with recording := stream.recording ++ bytes }, true) := by
    unfold writeRecording
    rw [if_neg (fun paused => Bool.false_ne_true (active.symm.trans paused)), if_pos rfl]
  rw [written]
  exact ⟨length_append, active⟩

theorem silence_length (bytes : Nat) : (silence bytes).length = bytes := length_replicate

theorem isOpus_of_isG729 {name : String} (g729 : isG729 name = true) : isOpus name = false := by
  unfold isG729 at g729
  simp only [Bool.or_eq_true, decide_eq_true_iff] at g729
  rcases g729 with (rfl | rfl) | rfl
  · decide
  · decide
  · decide

section Concealment

variable {config : StreamConfig G O} {codec : CurrentCodec} {samples lost : Nat}
  {stream : RtpStream G O} {last : RtpPacket} {delta : UInt32}

def Conceals (config : StreamConfig G O) (codec : CurrentCodec) (samples lost : Nat)
    (delta : UInt32) (stream : RtpStream G O) : Prop :=
  (stream.concealLoss config codec true lost delta).recording.length =
      stream.recording.length + 2 * concealedSamples codec samples lost ∧
    (stream.concealLoss config codec true lost delta).recordingPaused = false

theorem Remembers.size_ne_zero (remembers : Remembers codec samples last stream)
    (feed : SteadyFeed config codec samples) : stream.lastDecodedPCMSize ≠ 0 := by
  have positive := feed.positive
  rw [remembers.size]
  omega

variable (feed : SteadyFeed config codec samples)
  (remembers : Remembers codec samples last stream) (active : stream.recordingPaused = false)
  (someLost : 0 < lost)

include feed remembers active someLost

theorem concealLoss_g729 (named : isG729 codec.decodeName = true) :
    Conceals config codec samples lost delta stream := by
  obtain ⟨present, frames, framesPositive, framed⟩ := remembers.g729 named
  obtain ⟨decoder, isDecoder⟩ := Option.isSome_iff_exists.mp present
  unfold Conceals concealLoss concealedSamples
  rw [if_neg (Nat.ne_of_gt someLost), if_pos ⟨named, present⟩, isDecoder, isOpus_of_isG729 named]
  rw [if_neg (remembers.size_ne_zero feed), if_neg Bool.false_ne_true, remembers.size, framed]
  have written := (stream.withG729 (decoder.concealPackets config.libraries lost
    (frames * 160)).1).writeRecording_length active
    (decoder.concealPackets config.libraries lost (frames * 160)).2
  rw [G729StreamDecoder.concealPackets_length _ _ _ _ framesPositive, ← framed,
    Nat.mul_left_comm] at written
  rw [← framed]
  exact written

theorem concealLoss_opus (deltaEq : delta.toNat = codec.rate / 50)
    (other : isG729 codec.decodeName = false) (opus : isOpus codec.decodeName = true) :
    Conceals config codec samples lost delta stream := by
  have present := remembers.opus opus
  obtain ⟨decoder, isDecoder⟩ := Option.isSome_iff_exists.mp present
  unfold Conceals concealLoss concealedSamples
  rw [if_neg (Nat.ne_of_gt someLost), other, if_neg (fun both => Bool.false_ne_true both.1),
    if_pos ⟨opus, present⟩, isDecoder, if_pos opus]
  dsimp only
  rw [deltaEq]
  unfold opusConceal
  by_cases tooLong : maxOpusSamplesPerChannel < lost * (codec.rate / 50)
  · rw [if_pos (Or.inr tooLong), if_pos tooLong]
    exact ⟨rfl, active⟩
  · rw [if_neg tooLong]
    by_cases zero : lost * (codec.rate / 50) = 0
    · rw [if_pos (Or.inl zero), zero]
      exact ⟨rfl, active⟩
    · rw [if_neg (fun either => either.elim zero tooLong)]
      obtain ⟨bytes, isBytes, length⟩ := feed.opusConceals opus decoder lost
        (Nat.pos_of_ne_zero zero) (Nat.le_of_not_lt tooLong)
      rw [isBytes]
      rw [← length]
      exact writeRecording_length (stream.withOpus _) active bytes

theorem concealLoss_silence (other : isG729 codec.decodeName = false)
    (noOpus : isOpus codec.decodeName = false) :
    Conceals config codec samples lost delta stream := by
  unfold Conceals concealLoss concealedSamples
  rw [if_neg (Nat.ne_of_gt someLost), other, noOpus,
    if_neg (fun both => Bool.false_ne_true both.1), if_neg (fun both => Bool.false_ne_true both.1),
    if_neg Bool.false_ne_true]
  dsimp only
  rw [if_neg (remembers.size_ne_zero feed), remembers.size]
  have written := stream.writeRecording_length active (silence (lost * (2 * samples)))
  rw [silence_length, Nat.mul_left_comm] at written
  rw [Nat.mul_left_comm]
  exact written

theorem concealLoss_length (delta : UInt32) (deltaEq : delta.toNat = codec.rate / 50) :
    Conceals config codec samples lost delta stream := by
  cases named : isG729 codec.decodeName with
  | true => exact concealLoss_g729 feed remembers active someLost named
  | false =>
    cases opus : isOpus codec.decodeName with
    | true => exact concealLoss_opus feed remembers active someLost deltaEq named opus
    | false => exact concealLoss_silence feed remembers active someLost named opus

end Concealment

variable {config : StreamConfig G O} {codec : CurrentCodec} {samples : Nat}
  {stream : RtpStream G O}

theorem toNat_ofNat_of_rate {count : Nat} (feed : SteadyFeed config codec samples)
    (small : count ≤ codec.rate * maxLargeGapSeconds) : (UInt32.ofNat count).toNat = count :=
  UInt32.toNat_ofNat_of_lt' (Nat.lt_of_le_of_lt small feed.rateBound)

theorem fillLargeGap_length (stream : RtpStream G O) (feed : SteadyFeed config codec samples)
    (active : stream.recordingPaused = false) (gap : UInt32) :
    (stream.fillLargeGap codec true gap (UInt32.ofNat (codec.rate / 50))).recording.length =
        stream.recording.length + 2 *
          (if codec.rate * minLargeGapSeconds ≤ gap.toNat ∧
              gap.toNat ≤ codec.rate * maxLargeGapSeconds then gap.toNat - codec.rate / 50
            else 0) ∧
      (stream.fillLargeGap codec true gap (UInt32.ofNat (codec.rate / 50))).recordingPaused =
        false := by
  have lower : (UInt32.ofNat (codec.rate * minLargeGapSeconds)).toNat =
      codec.rate * minLargeGapSeconds :=
    toNat_ofNat_of_rate feed (Nat.mul_le_mul_left _ (by decide))
  have upper : (UInt32.ofNat (codec.rate * maxLargeGapSeconds)).toNat =
      codec.rate * maxLargeGapSeconds := toNat_ofNat_of_rate feed (Nat.le_refl _)
  have packet : (UInt32.ofNat (codec.rate / 50)).toNat = codec.rate / 50 :=
    toNat_ofNat_of_rate feed (by unfold maxLargeGapSeconds; omega)
  unfold fillLargeGap
  by_cases large : codec.rate * minLargeGapSeconds ≤ gap.toNat ∧
      gap.toNat ≤ codec.rate * maxLargeGapSeconds
  · have inside : UInt32.ofNat (codec.rate * minLargeGapSeconds) ≤ gap ∧
        gap ≤ UInt32.ofNat (codec.rate * maxLargeGapSeconds) := by
      rw [UInt32.le_iff_toNat_le, UInt32.le_iff_toNat_le, lower, upper]
      exact large
    have shorter : UInt32.ofNat (codec.rate / 50) ≤ gap := by
      rw [UInt32.le_iff_toNat_le, packet]
      have packetShort : codec.rate / 50 ≤ codec.rate * minLargeGapSeconds := by
        unfold minLargeGapSeconds
        omega
      exact Nat.le_trans packetShort large.1
    rw [if_pos inside, if_pos large]
    have written := stream.writeRecording_length active
      (silence ((gap - UInt32.ofNat (codec.rate / 50)).toNat * 2))
    rw [silence_length, UInt32.toNat_sub_of_le _ _ shorter, packet, Nat.mul_comm _ 2] at written
    rw [UInt32.toNat_sub_of_le _ _ shorter, packet, Nat.mul_comm _ 2]
    exact written
  · have outside : ¬ (UInt32.ofNat (codec.rate * minLargeGapSeconds) ≤ gap ∧
        gap ≤ UInt32.ofNat (codec.rate * maxLargeGapSeconds)) := by
      rw [UInt32.le_iff_toNat_le, UInt32.le_iff_toNat_le, lower, upper]
      exact large
    rw [if_neg outside, if_neg large]
    exact ⟨rfl, active⟩

variable (packet : RtpPacket)

section

variable {last : RtpPacket} {pcm : List UInt8} (feed : SteadyFeed config codec samples)

include feed

theorem handleGap_length (remembers : Remembers codec samples last stream)
    (active : stream.recordingPaused = false)
    (later : serialLess last.sequenceNumber packet.sequenceNumber = true) :
    (stream.handleGap config codec packet true).2 = false ∧
      (stream.handleGap config codec packet true).1.recording.length =
        stream.recording.length + 2 * insertedSamples codec samples
          (sequenceAdvance last packet) (timestampGap last packet) ∧
      (stream.handleGap config codec packet true).1.recordingPaused = false := by
  have half : 2 ^ 15 ≤ (last.sequenceNumber - packet.sequenceNumber).toNat :=
    (serialLess_iff _ _).mp later
  unfold handleGap insertedSamples sequenceAdvance
  rw [remembers.lastSeq]
  dsimp only
  by_cases next : packet.sequenceNumber = last.sequenceNumber + 1
  · rw [if_pos next, if_pos ((eq_succ_iff_ahead _ _).mp next)]
    exact ⟨rfl, rfl, active⟩
  · have different : packet.sequenceNumber ≠ last.sequenceNumber := by
      intro same
      rw [same, UInt16.sub_self] at half
      exact absurd half (by decide)
    have notReordered : ¬ last.sequenceNumber - packet.sequenceNumber < 32768 := by
      exact Nat.not_lt.mpr half
    rw [if_neg next, if_neg notReordered, if_pos remembers.hasLastTimestamp,
      if_neg (fun one => next ((eq_succ_iff_ahead _ _).mpr one)), remembers.lastTimestamp,
      lostPackets_eq different next]
    have short : packet.timestamp - last.timestamp ≤ UInt32.ofNat (codec.rate * 60 / 1000) ↔
        timestampGap last packet ≤ codec.rate * 60 / 1000 := by
      rw [UInt32.le_iff_toNat_le, toNat_ofNat_of_rate feed (by unfold maxLargeGapSeconds; omega)]
      rfl
    by_cases isShort : timestampGap last packet ≤ codec.rate * 60 / 1000
    · rw [if_pos (short.mpr isShort), if_pos isShort]
      refine ⟨rfl, concealLoss_length feed remembers active ?_ _
        (toNat_ofNat_of_rate feed (by unfold maxLargeGapSeconds; omega))⟩
      have moved : ahead last.sequenceNumber packet.sequenceNumber ≠ 0 :=
        fun zero => different ((ahead_eq_zero_iff _ _).mp zero)
      have notOne : ahead last.sequenceNumber packet.sequenceNumber ≠ 1 :=
        fun one => next ((eq_succ_iff_ahead _ _).mpr one)
      unfold maxPLC
      omega
    · rw [if_neg (fun small => isShort (short.mp small)), if_neg isShort]
      exact ⟨rfl, stream.fillLargeGap_length feed active _⟩

omit feed in
theorem decodePayload_frame (config : StreamConfig G O) (stream : RtpStream G O)
    (codec : CurrentCodec) (packet : RtpPacket)
    (decoded : (stream.decodePayload config codec packet).2 = some pcm) :
    (stream.decodePayload config codec packet).1.recording = stream.recording ∧
      (stream.decodePayload config codec packet).1.recordingPaused = stream.recordingPaused ∧
      (isG729 codec.decodeName = true →
        (stream.decodePayload config codec packet).1.g729StreamDec.isSome = true ∧
          ∃ frames, 0 < frames ∧ pcm.length = frames * 160) ∧
      (isOpus codec.decodeName = true →
        (stream.decodePayload config codec packet).1.opusStreamDec.isSome = true) := by
  unfold decodePayload at decoded ⊢
  cases named : isG729 codec.decodeName with
  | true =>
    rw [named, if_pos rfl] at decoded
    refine ⟨rfl, rfl, fun _ => ⟨rfl, G729StreamDecoder.decode_length decoded⟩, fun opus => ?_⟩
    rw [isOpus_of_isG729 named] at opus
    cases opus
  | false =>
    rw [named, if_neg Bool.false_ne_true] at decoded
    cases opus : isOpus codec.decodeName with
    | true =>
      rw [opus, if_pos rfl] at decoded
      dsimp only at decoded ⊢
      split at decoded
      · cases decoded
      · exact ⟨rfl, rfl, fun impossible => absurd impossible Bool.false_ne_true, fun _ => rfl⟩
    | false =>
      exact ⟨rfl, rfl, fun impossible => absurd impossible Bool.false_ne_true,
        fun impossible => absurd impossible Bool.false_ne_true⟩

theorem recordPcm_growth (active : stream.recordingPaused = false)
    (length : pcm.length = 2 * samples)
    (g729 : isG729 codec.decodeName = true → stream.g729StreamDec.isSome = true ∧
      ∃ frames, 0 < frames ∧ pcm.length = frames * 160)
    (opus : isOpus codec.decodeName = true → stream.opusStreamDec.isSome = true) :
    (stream.recordPcm config packet false true pcm).1.recording.length =
        stream.recording.length + 2 * samples ∧
      Remembers codec samples packet (stream.recordPcm config packet false true pcm).1 ∧
      (stream.recordPcm config packet false true pcm).2 = .written := by
  have nonempty : pcm ≠ [] := by
    intro empty
    have positive := feed.positive
    rw [empty, length_nil] at length
    omega
  have processed : (config.processAudio.elim (some pcm) fun process => process pcm).isNone =
      false := by
    cases setting : config.processAudio with
    | none => rfl
    | some process =>
      have succeeds := feed.processing process setting pcm
      rw [Option.elim_some, ← Option.not_isSome, succeeds]
      rfl
  have recorded : stream.recordPcm config packet false true pcm =
      ({ stream with
          lastDecodedPCMSize := pcm.length
          recording := stream.recording ++ pcm
          lastSeq := some packet.sequenceNumber
          lastTimestamp := packet.timestamp
          hasLastTimestamp := true }, .written) := by
    unfold recordPcm writeRecording
    simp [nonempty, processed, active]
  rw [recorded]
  refine ⟨?_, ⟨rfl, rfl, rfl, length, ?_, opus⟩, rfl⟩
  · rw [← length]
    exact length_append
  · intro named
    rw [← length]
    exact g729 named

theorem processAudioPacket_growth (carries : Carries config codec samples packet)
    (inOrder : (stream.handleGap config codec packet true).2 = false)
    (active : (stream.handleGap config codec packet true).1.recordingPaused = false) :
    (stream.processAudioPacket config codec packet true).1.recording.length =
        (stream.handleGap config codec packet true).1.recording.length + 2 * samples ∧
      Remembers codec samples packet (stream.processAudioPacket config codec packet true).1 ∧
      (stream.processAudioPacket config codec packet true).2 = .written := by
  obtain ⟨pcm, decoded, length⟩ := carries (stream.handleGap config codec packet true).1
  obtain ⟨recording, paused, g729, opus⟩ := decodePayload_frame config _ codec packet decoded
  simp only [processAudioPacket]
  rw [inOrder, if_neg (fun both => Bool.false_ne_true both.1), decoded]
  have grown := recordPcm_growth packet feed (paused.trans active) length g729
    opus
  rw [recording] at grown
  exact grown

end

/-! ## From the network to the recording -/

/-- The packet is accepted as audio of the one stream: it fits the lock and the stream
before it, its payload type is that of the codec, and it decodes to the given number of
samples. -/
structure Heard (config : StreamConfig G O) (codec : CurrentCodec) (samples : Nat)
    (stream : RtpStream G O) (packet : RtpPacket) : Prop where
  running : stream.stopped = false
  unbuffered : stream.jitterBuffer = none
  active : stream.recordingPaused = false
  lock : stream.remoteSSRC = 0 ∨ stream.remoteSSRC = packet.ssrc
  sameStream : stream.lastAcceptedSSRC = 0 ∨ stream.lastAcceptedSSRC = packet.ssrc
  payload : packet.payload ≠ []
  audio : (stream.storedCodec.used packet).payloadType = 0 ∨
    packet.payloadType = (stream.storedCodec.used packet).payloadType
  sameCodec : { stream.storedCodec.used packet with payloadType := codec.payloadType } = codec
  carries : Carries config codec samples packet

structure AudioView (G O : Type) where
  lastSeq : Option UInt16
  lastTimestamp : UInt32
  hasLastTimestamp : Bool
  lastDecodedPCMSize : Nat
  g729StreamDec : Option (G729StreamDecoder G)
  opusStreamDec : Option O
  jitterBuffer : Option JitterBuffer
  recordingPaused : Bool
  recording : List UInt8

def audioView (stream : RtpStream G O) : AudioView G O where
  lastSeq := stream.lastSeq
  lastTimestamp := stream.lastTimestamp
  hasLastTimestamp := stream.hasLastTimestamp
  lastDecodedPCMSize := stream.lastDecodedPCMSize
  g729StreamDec := stream.g729StreamDec
  opusStreamDec := stream.opusStreamDec
  jitterBuffer := stream.jitterBuffer
  recordingPaused := stream.recordingPaused
  recording := stream.recording

theorem Remembers.of_view {packet : RtpPacket} {first second : RtpStream G O}
    (remembers : Remembers codec samples packet first) (same : second.audioView = first.audioView) :
    Remembers codec samples packet second where
  lastSeq := (congrArg AudioView.lastSeq same).trans remembers.lastSeq
  lastTimestamp := (congrArg AudioView.lastTimestamp same).trans remembers.lastTimestamp
  hasLastTimestamp := (congrArg AudioView.hasLastTimestamp same).trans remembers.hasLastTimestamp
  size := (congrArg AudioView.lastDecodedPCMSize same).trans remembers.size
  g729 := fun named =>
    ⟨(congrArg Option.isSome (congrArg AudioView.g729StreamDec same)).trans
      (remembers.g729 named).1, (remembers.g729 named).2⟩
  opus := fun named =>
    (congrArg Option.isSome (congrArg AudioView.opusStreamDec same)).trans (remembers.opus named)

theorem validateSSRC_of_lock {ssrc : UInt32}
    (lock : stream.remoteSSRC = 0 ∨ stream.remoteSSRC = ssrc) :
    (stream.validateSSRC ssrc).2 = true ∧
      (stream.validateSSRC ssrc).1.audioView = stream.audioView ∧
      (stream.validateSSRC ssrc).1.storedCodec = stream.storedCodec ∧
      (stream.validateSSRC ssrc).1.lastAcceptedSSRC = stream.lastAcceptedSSRC := by
  rcases stream.validateSSRC_cases ssrc with
    ⟨_, result⟩ | ⟨_, _, result⟩ | ⟨locked, other, _⟩ | ⟨locked, other, _⟩
  · rw [result]
    exact ⟨rfl, rfl, rfl, rfl⟩
  · rw [result]
    exact ⟨rfl, rfl, rfl, rfl⟩
  · exact absurd (lock.resolve_left locked).symm other
  · exact absurd (lock.resolve_left locked).symm other

theorem noteActivity_frame (stream : RtpStream G O) (packet : RtpPacket) (arrival now : Int) :
    (stream.noteActivity packet arrival now).audioView = stream.audioView ∧
      (stream.noteActivity packet arrival now).storedCodec = stream.storedCodec ∧
      (stream.noteActivity packet arrival now).lastAcceptedSSRC = stream.lastAcceptedSSRC := by
  unfold noteActivity
  split
  · exact ⟨rfl, rfl, rfl⟩
  · split
    · exact ⟨rfl, rfl, rfl⟩
    · exact ⟨rfl, rfl, rfl⟩

theorem noteAccepted_frame (arrival now : Int)
    (sameStream : stream.lastAcceptedSSRC = 0 ∨ stream.lastAcceptedSSRC = packet.ssrc) :
    (stream.noteAccepted packet arrival now).audioView = stream.audioView ∧
      (stream.noteAccepted packet arrival now).storedCodec = stream.storedCodec := by
  obtain ⟨view, stored, accepted⟩ := stream.noteActivity_frame packet arrival now
  have unchanged : ¬ ((stream.noteActivity packet arrival now).lastAcceptedSSRC ≠ 0 ∧
      packet.ssrc ≠ (stream.noteActivity packet arrival now).lastAcceptedSSRC) := by
    rw [accepted]
    rintro ⟨nonzero, different⟩
    rcases sameStream with zero | same
    · exact nonzero zero
    · exact different same.symm
  simp only [noteAccepted]
  rw [if_neg unchanged]
  exact ⟨view, stored⟩

theorem updateCodec_audioView (stream : RtpStream G O) (packet : RtpPacket) :
    (stream.updateCodec packet).audioView = stream.audioView := by
  simp only [updateCodec]
  split <;> split <;> rfl

theorem receive_eq_processAudioPacket {packet : RtpPacket}
    (heard : Heard config codec samples stream packet) (arrival now : Int) :
    ∃ ready : RtpStream G O, ready.audioView = stream.audioView ∧
      stream.receive config packet arrival now true =
        ready.processAudioPacket config codec packet true := by
  obtain ⟨passed, view, stored, accepted⟩ := validateSSRC_of_lock heard.lock
  obtain ⟨notedView, notedStored⟩ := noteAccepted_frame packet arrival now
    (accepted ▸ heard.sameStream)
  refine ⟨((stream.validateSSRC packet.ssrc).1.noteAccepted packet arrival now).updateCodec packet,
    (updateCodec_audioView _ _).trans (notedView.trans view), ?_⟩
  have unbuffered : (((stream.validateSSRC packet.ssrc).1.noteAccepted packet arrival
      now).updateCodec packet).jitterBuffer = none :=
    (congrArg AudioView.jitterBuffer ((updateCodec_audioView _ packet).trans
      (notedView.trans view))).trans heard.unbuffered
  have isAudio : ¬ ((stream.storedCodec.used packet).payloadType ≠ 0 ∧
      packet.payloadType ≠ (stream.storedCodec.used packet).payloadType) := by
    rintro ⟨nonzero, different⟩
    rcases heard.audio with zero | same
    · exact nonzero zero
    · exact different same
  unfold receive decodeAndProcess processAccepted
  dsimp only
  rw [if_neg (fun stopped => Bool.false_ne_true (heard.running.symm.trans stopped)),
    if_pos passed, notedStored, stored, if_neg heard.payload, if_neg isAudio, unbuffered,
    ← heard.sameCodec]
  rfl

structure Delivery where
  packet : RtpPacket
  arrival : Int
  now : Int

def deliver (config : StreamConfig G O) (stream : RtpStream G O) (delivery : Delivery) :
    RtpStream G O × List Outcome :=
  let received := stream.receive config delivery.packet delivery.arrival delivery.now true
  (received.1, [received.2])

section

variable {last : RtpPacket} {delivery : Delivery} (feed : SteadyFeed config codec samples)

include feed

theorem deliver_first (heard : Heard config codec samples stream delivery.packet)
    (new : stream.lastSeq = none) :
    (stream.deliver config delivery).1.recording.length =
        stream.recording.length + 2 * samples ∧
      Remembers codec samples delivery.packet (stream.deliver config delivery).1 := by
  obtain ⟨ready, view, result⟩ :=
    receive_eq_processAudioPacket heard delivery.arrival delivery.now
  have nothing : ready.handleGap config codec delivery.packet true = (ready, false) := by
    have fresh : ready.lastSeq = none := (congrArg AudioView.lastSeq view).trans new
    unfold handleGap
    rw [fresh]
  have active := (congrArg AudioView.recordingPaused view).trans heard.active
  have grown := processAudioPacket_growth delivery.packet feed heard.carries
    (congrArg Prod.snd nothing) ((congrArg (fun gap => gap.1.recordingPaused) nothing).trans active)
  simp only [deliver]
  rw [result]
  refine ⟨grown.1.trans ?_, grown.2.1⟩
  rw [nothing]
  exact congrArg (fun recorded => List.length recorded + 2 * samples)
    (congrArg AudioView.recording view)

theorem deliver_next (heard : Heard config codec samples stream delivery.packet)
    (remembers : Remembers codec samples last stream)
    (later : serialLess last.sequenceNumber delivery.packet.sequenceNumber = true) :
    (stream.deliver config delivery).1.recording.length =
        stream.recording.length + 2 * (insertedSamples codec samples
          (sequenceAdvance last delivery.packet) (timestampGap last delivery.packet) + samples) ∧
      Remembers codec samples delivery.packet (stream.deliver config delivery).1 := by
  obtain ⟨ready, view, result⟩ :=
    receive_eq_processAudioPacket heard delivery.arrival delivery.now
  have active := (congrArg AudioView.recordingPaused view).trans heard.active
  obtain ⟨inOrder, filled, still⟩ := handleGap_length delivery.packet feed
    (remembers.of_view view) active later
  have grown := processAudioPacket_growth delivery.packet feed heard.carries inOrder still
  simp only [deliver]
  rw [result]
  refine ⟨?_, grown.2.1⟩
  have before : ready.recording.length = stream.recording.length :=
    congrArg List.length (congrArg AudioView.recording view)
  rw [grown.1, filled, before, Nat.mul_add, Nat.add_assoc]

def elapsed : Delivery → List Delivery → Nat
  | _, [] => 0
  | first, second :: rest => timestampGap first.packet second.packet + elapsed second rest

theorem growth_iff_keepsTime {last : Delivery} {rest : List Delivery}
    (remembers : Remembers codec samples last.packet stream) (heard : Along (deliver config)
      (fun state delivery => Heard config codec samples state delivery.packet) stream rest)
    (increasing : (last :: rest).IsChain fun first second =>
      serialLess first.packet.sequenceNumber second.packet.sequenceNumber = true) :
    (∀ before after, rest = before ++ after →
        (run (deliver config) stream before).1.recording.length =
          stream.recording.length + 2 * elapsed last before) ↔
      (last :: rest).IsChain fun first second =>
        KeepsTime codec samples (sequenceAdvance first.packet second.packet)
          (timestampGap first.packet second.packet) := by
  induction rest generalizing stream last with
  | nil =>
    constructor
    · intro _
      exact isChain_singleton _
    · rintro _ before after split
      have empty : before = [] := (append_eq_nil_iff.mp split.symm).1
      rw [empty]
      rfl
  | cons next rest ih =>
    obtain ⟨later, laterRest⟩ := isChain_cons_cons.mp increasing
    obtain ⟨grown, remembered⟩ := deliver_next feed heard.1 remembers later
    have tail := ih remembered heard.2 laterRest
    rw [isChain_cons_cons, keepsTime_iff, ← tail]
    constructor
    · intro aligned
      have one := aligned [next] rest rfl
      rw [run_cons_state, run_nil, grown, elapsed, elapsed] at one
      refine ⟨by omega, ?_⟩
      intro before after split
      have more := aligned (next :: before) after (by rw [split, cons_append])
      rw [run_cons_state, elapsed] at more
      omega
    · rintro ⟨here, aligned⟩ before after split
      cases before with
      | nil => rfl
      | cons other before =>
        obtain ⟨rfl, splitRest⟩ := List.cons.inj split
        have more := aligned before after splitRest
        rw [run_cons_state, elapsed]
        omega

end

/-- The recording of a stream is time-aligned after each of its packets if and only if
every packet after the first keeps time. -/
theorem recording_aligned_iff_keepsTime (config : StreamConfig G O) (codec : CurrentCodec)
    (samples : Nat) (feed : SteadyFeed config codec samples) (stream : RtpStream G O)
    (new : stream.lastSeq = none) (empty : stream.recording = []) (first : Delivery)
    (rest : List Delivery) (heard : Along (deliver config)
      (fun state delivery => Heard config codec samples state delivery.packet) stream
        (first :: rest)) (increasing : (first :: rest).IsChain fun earlier later =>
      serialLess earlier.packet.sequenceNumber later.packet.sequenceNumber = true) :
    (∀ before after, rest = before ++ after →
        (run (deliver config) stream (first :: before)).1.recording.length =
          2 * (elapsed first before + samples)) ↔
      (first :: rest).IsChain fun earlier later =>
        KeepsTime codec samples (sequenceAdvance earlier.packet later.packet)
          (timestampGap earlier.packet later.packet) := by
  obtain ⟨grown, remembered⟩ := deliver_first feed heard.1 new
  rw [empty, length_nil, Nat.zero_add] at grown
  rw [← growth_iff_keepsTime feed remembered heard.2 increasing, grown]
  constructor
  · intro aligned before after split
    have whole := aligned before after split
    rw [run_cons_state] at whole
    omega
  · intro aligned before after split
    have part := aligned before after split
    rw [run_cons_state]
    omega

def silentDelivery (sequenceNumber : UInt16) (timestamp : UInt32) : Delivery :=
  ⟨⟨8, sequenceNumber, timestamp, 1, List.replicate 160 213⟩, 0, 0⟩

/-- Forty-nine lost packets, one second: both packets are recorded, the second in between
is missing. -/
theorem lost_second_not_filled :
    (run (deliver plainConfig) plainStream
        [silentDelivery 1 0, silentDelivery 51 8000]).2 = [.written, .written] ∧
      serialLess 1 51 = true ∧
      elapsed (silentDelivery 1 0) [silentDelivery 51 8000] = 50 * 160 ∧
      (run (deliver plainConfig) plainStream
        [silentDelivery 1 0, silentDelivery 51 8000]).1.recording.length = 2 * (160 + 160) := by
  decide +kernel

theorem silentDelivery_carries (sequenceNumber : UInt16) (timestamp : UInt32) :
    Carries plainConfig ⟨8, "PCMA", 8000, 1⟩ 160
      (silentDelivery sequenceNumber timestamp).packet :=
  fun _ => ⟨_, rfl, aLawToPCM_length (silentDelivery sequenceNumber timestamp).packet.payload⟩

theorem plainFeed : SteadyFeed plainConfig ⟨8, "PCMA", 8000, 1⟩ 160 where
  positive := by decide
  rateBound := by decide
  processing := by
    intro process impossible
    cases impossible
  opusConceals := by
    intro opus
    exact absurd opus (by decide)

/-- One packet is lost, and its 20 ms are concealed. -/
theorem lost_packet_aligned :
    (run (deliver plainConfig) plainStream
      [silentDelivery 1 0, silentDelivery 3 320]).1.recording.length = 2 * (320 + 160) := by
  have heard : Along (deliver plainConfig)
      (fun state delivery => Heard plainConfig ⟨8, "PCMA", 8000, 1⟩ 160 state delivery.packet)
      plainStream [silentDelivery 1 0, silentDelivery 3 320] := by
    refine ⟨?_, ?_, True.intro⟩
    · exact ⟨rfl, rfl, rfl, Or.inl rfl, Or.inl rfl, by decide, Or.inr rfl, rfl,
        silentDelivery_carries 1 0⟩
    · exact ⟨rfl, rfl, rfl, Or.inr rfl, Or.inr rfl, by decide, Or.inr rfl, rfl,
        silentDelivery_carries 2 160⟩
  have aligned := (recording_aligned_iff_keepsTime plainConfig ⟨8, "PCMA", 8000, 1⟩ 160 plainFeed
    plainStream rfl rfl (silentDelivery 1 0) [silentDelivery 3 320] heard (by decide)).mpr
      (by
        refine isChain_cons_cons.mpr ⟨?_, isChain_singleton _⟩
        exact (keepsTime_iff _ _ _ _).mpr (by decide))
  exact aligned [silentDelivery 3 320] [] rfl

end RtpStream

end SiprecServer.Media
