import Mathlib.Data.UInt

/-!
# Codecs

`codec.go`, `audio_conversion.go` and the two stream decoders.  The arithmetic
of the G.711 tables and the framing of G.729 and Opus are the server's own and
are modelled; what libg729, libopus and the sub-band codecs compute from a
frame is a parameter.
-/

namespace SiprecServer.Media

open List

structure CodecInfo where
  name : String
  sampleRate : Int
  channels : Int
  deriving DecidableEq, Repr

def getCodecInfo (payloadType : UInt8) : Option CodecInfo :=
  match payloadType.toNat with
  | 0 => some ⟨"PCMU", 8000, 1⟩
  | 8 => some ⟨"PCMA", 8000, 1⟩
  | 9 => some ⟨"G722", 16000, 1⟩
  | 18 => some ⟨"G729", 8000, 1⟩
  | 96 => some ⟨"OPUS", 48000, 2⟩
  | 97 => some ⟨"EVS", 16000, 1⟩
  | 98 => some ⟨"OPUS_MONO", 48000, 1⟩
  | 99 => some ⟨"EVS_WB", 32000, 1⟩
  | 100 => some ⟨"EVS_SWB", 48000, 1⟩
  | _ => none

def pcmBytesPerPacket (sampleRate : Int) : Nat :=
  let rate := if sampleRate ≤ 0 then 8000 else sampleRate
  ((rate * 20).tdiv 1000).toNat * 2

def littleEndian (sample : Int16) : List UInt8 :=
  [sample.toUInt16.toUInt8, (sample.toUInt16 >>> 8).toUInt8]

def decodeMuLawSample (value : UInt8) : Int16 :=
  let inverted := ~~~value
  let exponent := (inverted >>> 4) &&& 0x07
  let mantissa := inverted &&& 0x0F
  let scaled := ((mantissa.toUInt16 <<< 3) + 0x84) <<< exponent.toUInt16
  let magnitude := scaled.toInt16 - 0x84
  if inverted &&& 0x80 ≠ 0 then -magnitude else magnitude

def decodeALawSample (value : UInt8) : Int16 :=
  let toggled := value ^^^ 0x55
  let exponent := (toggled >>> 4) &&& 0x07
  let mantissa := toggled &&& 0x0F
  -- the shifts of the mantissa are made on bytes, before the widening
  let magnitude : UInt16 :=
    if exponent = 0 then (mantissa <<< 4).toUInt16 + 8
    else if exponent = 1 then (mantissa <<< 5).toUInt16 + 0x108
    else ((mantissa <<< 5).toUInt16 + 0x108) <<< (exponent - 1).toUInt16
  if toggled &&& 0x80 ≠ 0 then -magnitude.toInt16 else magnitude.toInt16

def muLawToPCM (payload : List UInt8) : List UInt8 :=
  payload.flatMap fun byte => littleEndian (decodeMuLawSample byte)

def aLawToPCM (payload : List UInt8) : List UInt8 :=
  payload.flatMap fun byte => littleEndian (decodeALawSample byte)

theorem flatMap_littleEndian_length (decode : UInt8 → Int16) (payload : List UInt8) :
    (payload.flatMap fun byte => littleEndian (decode byte)).length = 2 * payload.length := by
  induction payload with
  | nil => rfl
  | cons byte payload ih =>
    rw [flatMap_cons, length_append, ih, length_cons]
    change 2 + 2 * payload.length = _
    omega

@[simp]
theorem muLawToPCM_length (payload : List UInt8) :
    (muLawToPCM payload).length = 2 * payload.length :=
  flatMap_littleEndian_length _ payload

@[simp]
theorem aLawToPCM_length (payload : List UInt8) : (aLawToPCM payload).length = 2 * payload.length :=
  flatMap_littleEndian_length _ payload

/-- The PCM of one 10 ms G.729 frame: eighty samples of two bytes. -/
abbrev G729Frame := {bytes : List UInt8 // bytes.length = 160}

/-- What the codec libraries compute; `G` and `O` are the states of a G.729 and
an Opus decoder. -/
structure Libraries (G O : Type) where
  g729New : G
  /-- A frame of ten bytes; a frame that fails or oscillates comes back silent. -/
  g729Frame : G → List UInt8 → G × G729Frame
  /-- A two-byte silence descriptor, or comfort noise if it fails. -/
  g729Silence : G → List UInt8 → G × G729Frame
  /-- The concealment of one erased frame. -/
  g729Erased : G → G × G729Frame
  opusNew : Int → Int → Option O
  /-- At most the given number of samples per channel; the empty packet asks for
  concealment. -/
  opusDecode : O → List UInt8 → Nat → O × Option (List UInt8)
  decodeG729Packet : List UInt8 → Option (List UInt8)
  decodeG722Packet : List UInt8 → Option (List UInt8)
  processEVSPacket : List UInt8 → CodecInfo → Option (List UInt8)

variable {G O : Type}

structure G729StreamDecoder (G : Type) where
  decoder : G
  ssrc : UInt32

namespace G729StreamDecoder

def new (libraries : Libraries G O) : G729StreamDecoder G := ⟨libraries.g729New, 0⟩

def decodeFrames (libraries : Libraries G O) : Nat → G → List UInt8 → G × List UInt8
  | 0, decoder, _ => (decoder, [])
  | frames + 1, decoder, payload =>
    let frame := libraries.g729Frame decoder (payload.take 10)
    let rest := decodeFrames libraries frames frame.1 (payload.drop 10)
    (rest.1, frame.2.val ++ rest.2)

def decode (libraries : Libraries G O) (stream : G729StreamDecoder G) (payload : List UInt8)
    (ssrc : UInt32) : G729StreamDecoder G × Option (List UInt8) :=
  if payload = [] then (stream, none)
  else
    let decoder :=
      if stream.ssrc ≠ 0 ∧ stream.ssrc ≠ ssrc then libraries.g729New else stream.decoder
    if payload.length = 2 then
      let frame := libraries.g729Silence decoder payload
      (⟨frame.1, ssrc⟩, some frame.2.val)
    else
      let numFrames := payload.length / 10
      if numFrames = 0 then (⟨decoder, ssrc⟩, none)
      else
        let frames := decodeFrames libraries numFrames decoder payload
        (⟨frames.1, ssrc⟩, some frames.2)

theorem decodeFrames_length (libraries : Libraries G O) (frames : Nat) (decoder : G)
    (payload : List UInt8) : (decodeFrames libraries frames decoder payload).2.length =
      frames * 160 := by
  induction frames generalizing decoder payload with
  | zero => exact (Nat.zero_mul 160).symm
  | succ frames ih =>
    have framed := (libraries.g729Frame decoder (payload.take 10)).2.property
    rw [decodeFrames, length_append, framed, ih]
    omega

theorem decode_length {libraries : Libraries G O} {stream : G729StreamDecoder G}
    {payload pcm : List UInt8} {ssrc : UInt32}
    (decoded : (decode libraries stream payload ssrc).2 = some pcm) :
    ∃ frames, 0 < frames ∧ pcm.length = frames * 160 := by
  unfold decode at decoded
  split at decoded
  · cases decoded
  · dsimp only at decoded
    split at decoded
    · cases decoded
      exact ⟨1, Nat.one_pos, (libraries.g729Silence _ payload).2.property⟩
    · split at decoded
      · cases decoded
      · rename_i nonzero
        cases decoded
        exact ⟨payload.length / 10, Nat.pos_of_ne_zero nonzero, decodeFrames_length _ _ _ _⟩

def concealFrames (libraries : Libraries G O) : Nat → G → G × List UInt8
  | 0, decoder => (decoder, [])
  | frames + 1, decoder =>
    let frame := libraries.g729Erased decoder
    let rest := concealFrames libraries frames frame.1
    (rest.1, frame.2.val ++ rest.2)

variable (libraries : Libraries G O)

def concealPackets (stream : G729StreamDecoder G) (numPackets pcmBytesPerPacket : Nat) :
    G729StreamDecoder G × List UInt8 :=
  if numPackets = 0 ∨ pcmBytesPerPacket = 0 then (stream, [])
  else
    let framesPerPacket := if pcmBytesPerPacket / 160 = 0 then 2 else pcmBytesPerPacket / 160
    let frames := concealFrames libraries (numPackets * framesPerPacket) stream.decoder
    (⟨frames.1, stream.ssrc⟩, frames.2)

theorem concealFrames_length (frames : Nat) (decoder : G) :
    (concealFrames libraries frames decoder).2.length = frames * 160 := by
  induction frames generalizing decoder with
  | zero => rfl
  | succ frames ih =>
    have framed := (libraries.g729Erased decoder).2.property
    rw [concealFrames, length_append, framed, ih]
    omega

theorem concealPackets_length (stream : G729StreamDecoder G) (numPackets frames : Nat)
    (positive : 0 < frames) :
    (concealPackets libraries stream numPackets (frames * 160)).2.length =
      numPackets * (frames * 160) := by
  unfold concealPackets
  split
  · rename_i none
    rcases none with zero | zero
    · rw [zero, Nat.zero_mul]
      rfl
    · omega
  · rw [Nat.mul_div_cancel _ (by omega : 0 < 160), if_neg (Nat.ne_of_gt positive)]
    rw [concealFrames_length, Nat.mul_assoc]

end G729StreamDecoder

def maxOpusSamplesPerChannel : Nat := 5760

def isValidOpusSampleRate (sampleRate : Int) : Bool :=
  sampleRate = 8000 ∨ sampleRate = 12000 ∨ sampleRate = 16000 ∨ sampleRate = 24000 ∨
    sampleRate = 48000

section

variable (libraries : Libraries G O)

def newOpusStreamDecoder (sampleRate channels : Int) : Option O :=
  if isValidOpusSampleRate sampleRate then
    if channels = 1 ∨ channels = 2 then libraries.opusNew sampleRate channels else none
  else none

def opusStreamDecode (stream : O) (packet : List UInt8) : O × Option (List UInt8) :=
  libraries.opusDecode stream packet maxOpusSamplesPerChannel

def opusConceal (stream : O) (samples : Nat) : O × Option (List UInt8) :=
  if samples = 0 ∨ maxOpusSamplesPerChannel < samples then (stream, none)
  else libraries.opusDecode stream [] samples

def decodeOpusPacket (payload : List UInt8) (info : CodecInfo) : Option (List UInt8) :=
  if payload = [] then none
  else (newOpusStreamDecoder libraries info.sampleRate info.channels).bind fun stream =>
    (opusStreamDecode libraries stream payload).2

def decodeAudioPayload (payload : List UInt8) (codecName : String) : Option (List UInt8) :=
  match codecName with
  | "" | "PCMU" | "G711U" | "G.711U" | "G711MU" => some (muLawToPCM payload)
  | "PCMA" | "G711A" | "G.711A" => some (aLawToPCM payload)
  | "L16" | "LINEAR16" => some payload
  | "OPUS" => decodeOpusPacket libraries payload ⟨"OPUS", 48000, 2⟩
  | "OPUS_MONO" => decodeOpusPacket libraries payload ⟨"OPUS_MONO", 48000, 1⟩
  | "G722" => libraries.decodeG722Packet payload
  | "EVS" => libraries.processEVSPacket payload ⟨"EVS", 16000, 1⟩
  | "EVS_WB" => libraries.processEVSPacket payload ⟨"EVS_WB", 32000, 1⟩
  | "EVS_SWB" => libraries.processEVSPacket payload ⟨"EVS_SWB", 48000, 1⟩
  | "G729" | "G.729" | "G729A" => libraries.decodeG729Packet payload
  | _ => none

end

end SiprecServer.Media
