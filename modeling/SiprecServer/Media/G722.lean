import SiprecServer.Lib.Transducer
import SiprecServer.Media.Codec

/-!
# G.722 from packet to packet

A G.722 decoder keeps two adaptive predictors and the history of a filter from byte to byte.
`decodeG722Packet` makes a new decoder for every packet, so where the packets of a stream are
cut can be heard.  The other codecs decode byte by byte.
-/

namespace SiprecServer.Media.G722

open Lib.Transducer

def lowerILB : List Int :=
  [2048, 2093, 2139, 2186, 2233, 2282, 2332, 2383,
    2435, 2489, 2543, 2599, 2656, 2714, 2774, 2834,
    2896, 2960, 3025, 3091, 3158, 3228, 3298, 3371,
    3444, 3520, 3597, 3676, 3756, 3838, 3922, 4008]

def lowerWL : List Int := [-60, -30, 58, 172, 334, 538, 1198, 3042]

def lowerRQ : List Int :=
  [-2048, -1792, -1536, -1280, -1024, -768, -512, -256,
    0, 256, 512, 768, 1024, 1280, 1536, 1792,
    -1984, -1856, -1728, -1600, -1472, -1344, -1216, -1088,
    -960, -832, -704, -576, -448, -320, -192, -64,
    64, 192, 320, 448, 576, 704, 832, 960,
    1088, 1216, 1344, 1472, 1600, 1728, 1856, 1984,
    -1920, -1664, -1408, -1152, -896, -640, -384, -128,
    128, 384, 640, 896, 1152, 1408, 1664, 1920]

def higherIH : List Int := [-816, -280, 280, 816]

def higherWH : List Int := [0, -214, 798, 0]

def qmfCoeffs : List Int := [3, -11, 12, 32, -210, 951, 3876, -805, 362, -156, 53, -11]

/-! ## Sub-bands -/

def clampInt (value low high : Int) : Int :=
  if value < low then low else if high < value then high else value

def shiftRight (value : Int) (places : Nat) : Int := value >>> places

def clamp16 (value : Int) : Int := clampInt value (-32768) 32767

/-- The coefficients are those with an index from one; the one at zero is never used. -/
structure BandState where
  sp : Int := 0
  r : List Int := [0, 0, 0]
  a : List Int := [0, 0]
  p : List Int := [0, 0, 0]
  d : List Int := [0, 0, 0, 0, 0, 0, 0]
  b : List Int := [0, 0, 0, 0, 0, 0]
  sg : List Int := [0, 0, 0, 0, 0, 0, 0]
  nb : Int := 0
deriving DecidableEq

def agreement (value other : Int) : Int :=
  if decide (0 < value) = decide (0 < other) then 128 else -128

def zeroStep (difference sign : Int) : Int :=
  if difference = 0 then 0
  else if sign = 0 then if 0 < difference then 128 else -128
  else agreement difference sign

def poleStep (signal earlier : Int) : Int :=
  if signal = 0 then 0 else if earlier = 0 then 0 else agreement signal earlier

def signOf (value : Int) : Int := if 0 < value then 1 else if value < 0 then -1 else 0

def weighted (signals coefficients : List Int) : Int :=
  (List.zipWith (fun signal coefficient : Int => shiftRight (signal * coefficient) 14) signals
    coefficients).sum

section

variable (band : BandState)

/-- The predictor after a difference; the zero coefficients follow the sign of `driver`. -/
def BandState.predict (difference driver : Int) : Int × BandState :=
  let reconstructed := clampInt (band.sp + difference) (-16384) 16383
  -- the delay lines move first, so coefficients meet the values of earlier calls
  let d := band.d.take 6
  let sg := band.sg.take 6
  let b := List.zipWith
    (fun b sg : Int => clamp16 (shiftRight (b * 32640) 15 + zeroStep driver sg)) band.b sg
  let sz := weighted d b
  let r := band.r.take 2
  let p := band.p.take 2
  let residue := clamp16 (reconstructed - sz)
  let a := List.zipWith
    (fun a p : Int => clamp16 (shiftRight (a * 32512) 15 + poleStep residue p)) band.a p
  let spole := weighted r a
  (reconstructed,
    { band with
      d := difference :: d
      sg := signOf difference :: sg
      b
      r := reconstructed :: r
      p := residue :: p
      a
      sp := clampInt (sz + spole) (-16384) 16383 })

def BandState.quantizerScale : Int := lowerILB.getD (band.nb.toNat &&& 0x1F) 0

def BandState.adaptScale (weight cap : Int) : BandState :=
  { band with nb := clampInt (shiftRight (band.nb * 32127) 15 + weight) 0 cap }

def decodeLowerSubBand (ilow : Nat) : Int × BandState :=
  let dlowt := shiftRight (lowerRQ.getD (ilow &&& 0x3F) 0 * band.quantizerScale) 15
  let (rlow, band) := band.predict dlowt (clamp16 dlowt)
  (rlow, band.adaptScale (lowerWL.getD ((ilow >>> 2) &&& 0x07) 0) 18432)

def decodeHigherSubBand (ihigh : Nat) : Int × BandState :=
  let dhigh := shiftRight (higherIH.getD ihigh 0 * band.quantizerScale) 15
  let (rhigh, band) := band.predict dhigh dhigh
  (rhigh, band.adaptScale (higherWH.getD (ihigh &&& 0x03) 0) 22528)

end

structure G722Decoder where
  lowBand : BandState := {}
  highBand : BandState := {}
  qmfSignalHistory : List Int := List.replicate 24 0
deriving DecidableEq

def newG722Decoder : G722Decoder := {}

def evens : List Int → List Int
  | first :: _ :: rest => first :: evens rest
  | rest => rest

def qmfOutputs (history : List Int) : Int × Int :=
  let xout1 := (List.zipWith (· * ·) (evens history.tail) qmfCoeffs.reverse).sum
  let xout2 := (List.zipWith (· * ·) (evens history) qmfCoeffs).sum
  (shiftRight xout1 11, shiftRight xout2 11)

def qmfSynthesis (history : List Int) (rlow rhigh : Int) : List Int × Int × Int :=
  let history := (rlow - rhigh) :: (rlow + rhigh) :: history.take 22
  (history, qmfOutputs history)

def clampInt16 (value : Int) : Int16 := .ofInt (clamp16 value)

def step (decoder : G722Decoder) (codeByte : UInt8) : G722Decoder × List UInt8 :=
  let (rlow, lowBand) := decodeLowerSubBand decoder.lowBand (codeByte.toNat &&& 0x3F)
  let (rhigh, highBand) := decodeHigherSubBand decoder.highBand ((codeByte.toNat >>> 6) &&& 0x03)
  let (qmfSignalHistory, xout1, xout2) := qmfSynthesis decoder.qmfSignalHistory rlow rhigh
  (⟨lowBand, highBand, qmfSignalHistory⟩,
    littleEndian (clampInt16 xout1) ++ littleEndian (clampInt16 xout2))

/-- Every packet has a decoder of its own; an empty one is an error. -/
def decodeG722Packet (payload : List UInt8) : Option (List UInt8) :=
  if payload = [] then none else some (run step newG722Decoder payload).2

variable {G O : Type}

section

variable (libraries : Libraries G O)

def withG722 : Libraries G O :=
  { libraries with decodeG722Packet }

def supportedNames : List String :=
  ["", "PCMU", "G711U", "G.711U", "G711MU", "PCMA", "G711A", "G.711A", "L16", "LINEAR16", "G722"]

abbrev SupportedCodec := {name : String // name ∈ supportedNames}

/-- What a payload adds to the recording; one that cannot be decoded adds nothing. -/
def decoded (codec : SupportedCodec) (payload : List UInt8) : List UInt8 :=
  (decodeAudioPayload (withG722 libraries) payload codec.val).getD []

theorem decoded_G722 {codec : SupportedCodec} (isG722 : codec.val = "G722") (payload : List UInt8) :
    decoded libraries codec payload = (run step newG722Decoder payload).2 := by
  unfold decoded
  rw [isG722]
  change (decodeG722Packet payload).getD [] = _
  unfold decodeG722Packet
  split
  case isTrue none_sent => rw [none_sent]; rfl
  case isFalse => rfl

theorem decoded_append {codec : SupportedCodec} (notG722 : codec.val ≠ "G722") (p q : List UInt8) :
    decoded libraries codec p ++ decoded libraries codec q = decoded libraries codec (p ++ q) := by
  obtain ⟨name, supported⟩ := codec
  simp only [supportedNames, List.mem_cons, List.not_mem_nil, or_false] at supported
  rcases supported with rfl | rfl | rfl | rfl | rfl | rfl | rfl | rfl | rfl | rfl | rfl <;>
    first
    | exact List.flatMap_append.symm
    | rfl
    | exact absurd rfl notG722

end

/-- The first byte alone gives a packet away: no byte sounds after `0x20` as it does from a new
decoder. -/
theorem step_after_heard (byte : UInt8) :
    (step newG722Decoder byte).2 ≠ (step (step newG722Decoder 0x20).1 byte).2 := by
  have every : ∀ code : Fin 256, (step newG722Decoder (.ofNat code)).2 ≠
      (step (step newG722Decoder 0x20).1 (.ofNat code)).2 := by
    decide +kernel
  have heard := every ⟨byte.toNat, byte.toNat_lt⟩
  rwa [UInt8.ofNat_toNat] at heard

theorem run_after_heard {q : List UInt8}
    (same : (run step newG722Decoder q).2 = (run step (step newG722Decoder 0x20).1 q).2) :
    q = [] := by
  cases q with
  | nil => rfl
  | cons byte rest =>
    rw [run_cons_output, run_cons_output] at same
    exact absurd (List.append_inj_left same rfl) (step_after_heard byte)

/-- A payload can be cut off whatever came before it, unless the codec is G.722 and there is
anything in it. -/
theorem packetisation_iff (libraries : Libraries G O) (codec : SupportedCodec) (q : List UInt8) :
    (∀ p, decoded libraries codec p ++ decoded libraries codec q =
        decoded libraries codec (p ++ q)) ↔
      codec.val ≠ "G722" ∨ q = [] := by
  by_cases isG722 : codec.val = "G722"
  · simp only [decoded_G722 libraries isG722, run_append_output, List.append_cancel_left_eq]
    constructor
    · exact fun same => .inr (run_after_heard (same [0x20]))
    · rintro (notG722 | rfl) p
      · exact absurd isG722 notG722
      · rfl
  · exact iff_of_true (fun p => decoded_append libraries isG722 p q) (.inl isG722)

/-- Two packets of one byte do not sound like one packet of two. -/
theorem g722_packets_heard : let libraries : Libraries Unit Unit :=
      { g729New := ()
        g729Frame := fun _ _ => ((), ⟨List.replicate 160 0, rfl⟩)
        g729Silence := fun _ _ => ((), ⟨List.replicate 160 0, rfl⟩)
        g729Erased := fun _ => ((), ⟨List.replicate 160 0, rfl⟩)
        opusNew := fun _ _ => none
        opusDecode := fun _ _ _ => ((), none)
        decodeG729Packet := fun _ => none
        decodeG722Packet := fun _ => none
        processEVSPacket := fun _ _ => none }
    let codec : SupportedCodec := ⟨"G722", by decide⟩
    decoded libraries codec [0x20] ++ decoded libraries codec [0x20] ≠
      decoded libraries codec [0x20, 0x20] := by
  decide +kernel

end SiprecServer.Media.G722
