import SiprecServer.Media.RtpStream

/-!
# A recording that is paused

Every write to the recording goes through the pausable writer, and the flag is changed by
pause and resume only.  So whatever else happens to a paused stream, nothing is recorded.
-/

namespace SiprecServer.Media.RtpStream

variable {G O : Type}

structure Held (before after : RtpStream G O) : Prop where
  flag : after.recordingPaused = before.recordingPaused
  recording : before.recordingPaused → after.recording = before.recording

variable {config : StreamConfig G O} {stream : RtpStream G O} {codec : CurrentCodec}
  {packet : RtpPacket} {arrival now : Int} {writable : Bool}

theorem Held.of {before after : RtpStream G O}
    (flag : after.recordingPaused = before.recordingPaused)
    (recording : after.recording = before.recording) : Held before after :=
  ⟨flag, fun _ => recording⟩

theorem Held.refl : Held stream stream := .of rfl rfl

theorem Held.trans {before middle after : RtpStream G O} (one : Held before middle)
    (two : Held middle after) : Held before after where
  flag := two.flag.trans one.flag
  recording paused := (two.recording (one.flag.trans paused)).trans (one.recording paused)

theorem validateSSRC_held (ssrc : UInt32) : Held stream (stream.validateSSRC ssrc).1 :=
  .of (stream.validateSSRC_rest ssrc).2.1 (stream.validateSSRC_rest ssrc).2.2

theorem noted_held :
    Held stream ((stream.noteAccepted packet arrival now).updateCodec packet) :=
  .of (stream.noted_keeps recordingPaused (fun _ => rfl) packet arrival now)
    (stream.noted_keeps recording (fun _ => rfl) packet arrival now)

theorem withBuffer_held (buffer : JitterBuffer) : Held stream (stream.withBuffer buffer) :=
  .of rfl rfl

theorem writeRecording_held (bytes : List UInt8) :
    Held stream (stream.writeRecording writable bytes).1 := by
  unfold writeRecording
  split
  · exact .refl
  case isFalse active =>
    split
    · exact ⟨rfl, fun paused => absurd paused active⟩
    · exact .refl

theorem processAudioPacket_held :
    Held stream (stream.processAudioPacket config codec packet writable).1 := by
  refine processAudioPacket_keeps (Held stream) ?_ ?_ ?_ .refl ?_ ?_
  · exact fun _ _ held => held.trans (.of rfl rfl)
  · exact fun _ _ held => held.trans (.of rfl rfl)
  · exact fun _ _ held => held.trans (writeRecording_held _)
  · exact fun _ _ held => held.trans (.of rfl rfl)
  · exact fun _ _ _ held => held.trans (.of rfl rfl)

theorem processAccepted_held {fromBuffer : Bool} :
    Held stream
      (stream.processAccepted config packet arrival now fromBuffer writable).1 := by
  unfold processAccepted
  dsimp only
  split
  · exact noted_held
  · split
    · exact noted_held
    · split
      · exact noted_held.trans (withBuffer_held _)
      · exact noted_held.trans processAudioPacket_held

theorem decodeAndProcess_held {fromBuffer : Bool} :
    Held stream
      (stream.decodeAndProcess config packet arrival now fromBuffer writable).1 := by
  unfold decodeAndProcess
  dsimp only
  split
  · exact (validateSSRC_held _).trans processAccepted_held
  · exact validateSSRC_held _

theorem receive_held : Held stream (stream.receive config packet arrival now writable).1 := by
  unfold receive
  split
  · exact .refl
  · exact decodeAndProcess_held

theorem drain_held : Held stream (stream.drain config now writable).1 := by
  unfold drain
  split
  · dsimp only
    split
    · exact withBuffer_held _
    · exact (withBuffer_held _).trans decodeAndProcess_held
  · exact .refl

theorem monitorTick_held : Held stream (stream.monitorTick config now) := by
  unfold monitorTick
  split
  · exact .refl
  · split
    · exact .of rfl rfl
    · split
      · split
        · exact .of rfl rfl
        · exact .of rfl rfl
      · exact .refl

end SiprecServer.Media.RtpStream
