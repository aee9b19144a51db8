import SiprecServer.Media.Codec
import SiprecServer.Media.WavFile
import Mathlib.Tactic.IntervalCases

/-!
# G.711 against its reference

The reference encoders of G.711 cut the range of a sample into segments of sixteen cells each,
and the cells of a segment are twice as wide as those of the one before.  A decoder that
answers with the middle of the cell is off by at most half a cell.  The mu-law decoder does.
The A-law decoder reads the sign bit the other way round.
-/

namespace SiprecServer.Media.G711

open List

open WavFile (samples)

/-! ## The reference encoders -/

variable (sample : Int)

def magnitude : Nat := if 0 ≤ sample then sample.toNat else (-sample - 1).toNat

def signBit : Nat := if 0 ≤ sample then 0x80 else 0

namespace MuLaw

section

variable (sample : Int)

/-- Fourteen bits with the bias, clipped at full scale. -/
def biased : Nat := min 0x1FFF (magnitude sample / 4 + 33)

def segment : Nat := (biased sample).log2 - 5

def cell : Nat := biased sample / 2 ^ (segment sample + 1) - 16

def encode : UInt8 :=
  .ofNat ((7 - segment sample) * 16 + (15 - cell sample) + signBit sample)

/-- Cells are eight wide in the first segment. -/
def halfStep : Int := 4 * 2 ^ segment sample

def clipping : Int := (magnitude sample - 32635 : Nat)

def tolerance : Int := halfStep sample + clipping sample

def middle : Int := (8 * cell sample + 132) * 2 ^ segment sample - 132

end

end MuLaw

namespace ALaw

variable (sample : Int)

def scaled : Nat := magnitude sample / 16

def segment : Nat := if scaled sample < 16 then 0 else (scaled sample).log2 - 3

def cell : Nat :=
  if scaled sample < 16 then scaled sample else scaled sample / 2 ^ (segment sample - 1) - 16

def encode : UInt8 :=
  .ofNat (segment sample * 16 + cell sample + signBit sample) ^^^ 0x55

/-- Cells are sixteen wide in the first two segments. -/
def halfStep : Int := 8 * 2 ^ (segment sample - 1)

end ALaw

def OppositeSign (sample decoded : Int) : Prop :=
  (0 < sample ∧ decoded < 0) ∨ (sample < 0 ∧ 0 < decoded)

def Faithful (tolerance : Int → Int) (sample decoded : Int16) : Prop :=
  ¬ OppositeSign sample.toInt decoded.toInt ∧
    |sample.toInt - decoded.toInt| ≤ tolerance sample.toInt

def muLawDecoded (pcm : List Int16) : List Int16 :=
  samples (muLawToPCM (pcm.map fun sample => MuLaw.encode sample.toInt))

def aLawDecoded (pcm : List Int16) : List Int16 :=
  samples (aLawToPCM (pcm.map fun sample => ALaw.encode sample.toInt))

theorem samples_littleEndian (value : Int16) (rest : List UInt8) :
    samples (littleEndian value ++ rest) = value :: samples rest := by
  have whole : WavFile.sample value.toUInt16.toUInt8 (value.toUInt16 >>> 8).toUInt8 = value := by
    have bound := value.toUInt16.toNat_lt
    have number : Lib.LittleEndian.decode
        [value.toUInt16.toUInt8, (value.toUInt16 >>> 8).toUInt8] = value.toUInt16.toNat := by
      simp [Lib.LittleEndian.decode, Nat.shiftRight_eq_div_pow]
      omega
    rw [WavFile.sample, number, UInt16.ofNat_toNat, Int16.toInt16_toUInt16]
  exact congrArg (· :: samples rest) whole

theorem samples_flatMap (decode : UInt8 → Int16) (payload : List UInt8) :
    samples (payload.flatMap fun byte => littleEndian (decode byte)) = payload.map decode := by
  induction payload with
  | nil => rfl
  | cons byte payload ih => rw [flatMap_cons, samples_littleEndian, ih, map_cons]

theorem int16_range (sample : Int16) : -32768 ≤ sample.toInt ∧ sample.toInt ≤ 32767 :=
  ⟨sample.le_toInt, Int.le_of_lt_add_one sample.toInt_lt⟩

namespace MuLaw

theorem biased_bounds : 33 ≤ biased sample ∧ biased sample < 8192 := by
  unfold biased
  omega

theorem segment_bounds :
    segment sample < 8 ∧ 2 ^ (segment sample + 5) ≤ biased sample ∧
      biased sample < 2 ^ (segment sample + 6) := by
  obtain ⟨least, most⟩ := biased_bounds sample
  have nonzero : biased sample ≠ 0 := by omega
  have low : 5 ≤ (biased sample).log2 := (Nat.le_log2 nonzero).mpr (by omega)
  have high : (biased sample).log2 < 13 := (Nat.log2_lt nonzero).mpr (by omega)
  have place : segment sample + 5 = (biased sample).log2 := by
    unfold segment
    omega
  refine ⟨by omega, ?_, ?_⟩
  · exact (Nat.le_log2 nonzero).mp (by omega)
  · exact (Nat.log2_lt nonzero).mp (by omega)

theorem decode_code : ∀ segment < 8, ∀ cell < 16,
    (decodeMuLawSample (.ofNat ((7 - segment) * 16 + (15 - cell) + 0x80))).toInt =
        (8 * cell + 132) * 2 ^ segment - 132 ∧
      (decodeMuLawSample (.ofNat ((7 - segment) * 16 + (15 - cell) + 0))).toInt =
        -((8 * cell + 132) * 2 ^ segment - 132) := by
  decide +kernel

theorem middle_near (range : -32768 ≤ sample ∧ sample ≤ 32767) :
    cell sample < 16 ∧ 0 ≤ middle sample ∧ magnitude sample - middle sample < tolerance sample ∧
      -tolerance sample ≤ magnitude sample - middle sample := by
  obtain ⟨few, low, high⟩ := segment_bounds sample
  have clipped : biased sample = min 0x1FFF (magnitude sample / 4 + 33) := rfl
  have bound : magnitude sample ≤ 32767 := by
    unfold magnitude
    split <;> omega
  unfold tolerance halfStep clipping middle cell
  generalize segment sample = e at *
  interval_cases e <;> simp only [Nat.reduceAdd, Nat.reducePow, Int.reducePow] at * <;> omega

theorem faithful (sample : Int16) :
    Faithful tolerance sample (decodeMuLawSample (encode sample.toInt)) := by
  obtain ⟨small, nonneg, above, below⟩ := middle_near sample.toInt (int16_range sample)
  obtain ⟨positive, negative⟩ :=
    decode_code (segment sample.toInt) (segment_bounds sample.toInt).1 (cell sample.toInt) small
  change _ = middle sample.toInt at positive
  change _ = -middle sample.toInt at negative
  unfold Faithful OppositeSign encode signBit
  by_cases sign : 0 ≤ sample.toInt
  · have size : (magnitude sample.toInt : Int) = sample.toInt := by
      rw [magnitude, if_pos sign, Int.toNat_of_nonneg sign]
    rw [if_pos sign, positive, abs_le]
    omega
  · have size : (magnitude sample.toInt : Int) = -sample.toInt - 1 := by
      rw [magnitude, if_neg sign, Int.toNat_of_nonneg (by omega)]
    rw [if_neg sign, negative, abs_le]
    omega

end MuLaw

namespace ALaw

theorem code_bound {sample : Int} (range : -32768 ≤ sample ∧ sample ≤ 32767) :
    segment sample * 16 + cell sample < 128 := by
  have most : scaled sample < 2048 := by
    unfold scaled magnitude
    split <;> omega
  unfold cell segment
  split
  case isTrue first => omega
  case isFalse later =>
    have nonzero : scaled sample ≠ 0 := by omega
    have high : (scaled sample).log2 < 11 := (Nat.log2_lt nonzero).mpr (by omega)
    have cells : scaled sample / 2 ^ ((scaled sample).log2 - 3 - 1) < 32 := by
      refine Nat.div_lt_of_lt_mul ?_
      rw [show 32 = 2 ^ 5 from rfl, ← Nat.pow_add]
      exact (Nat.log2_lt nonzero).mp (by omega)
    omega

theorem decode_code : ∀ code < 128,
    (decodeALawSample (.ofNat (code + 0x80) ^^^ 0x55)).toInt < 0 ∧
      0 < (decodeALawSample (.ofNat (code + 0) ^^^ 0x55)).toInt := by
  decide +kernel

theorem faithful_iff (sample : Int16) :
    Faithful halfStep sample (decodeALawSample (encode sample.toInt)) ↔ sample = 0 := by
  constructor
  · rintro ⟨sameSign, -⟩
    obtain ⟨negative, positive⟩ := decode_code _ (code_bound (int16_range sample))
    refine Int16.toInt_inj.mp (show sample.toInt = 0 from ?_)
    by_contra nonzero
    refine sameSign ?_
    unfold encode signBit
    by_cases sign : 0 ≤ sample.toInt
    · rw [if_pos sign]
      exact .inl ⟨by omega, negative⟩
    · rw [if_neg sign]
      exact .inr ⟨by omega, positive⟩
  · rintro rfl
    unfold Faithful OppositeSign
    decide

end ALaw

/-- Every list of samples comes through mu-law, and only silence through A-law. -/
theorem g711_round_trip_iff (pcm : List Int16) :
    List.Forall₂ (Faithful MuLaw.tolerance) pcm (muLawDecoded pcm) ∧
      (List.Forall₂ (Faithful ALaw.halfStep) pcm (aLawDecoded pcm) ↔
        ∀ sample ∈ pcm, sample = 0) := by
  have muLaw : muLawDecoded pcm =
      pcm.map fun sample => decodeMuLawSample (MuLaw.encode sample.toInt) := by
    rw [muLawDecoded, muLawToPCM, samples_flatMap, map_map]
    rfl
  have aLaw : aLawDecoded pcm =
      pcm.map fun sample => decodeALawSample (ALaw.encode sample.toInt) := by
    rw [aLawDecoded, aLawToPCM, samples_flatMap, map_map]
    rfl
  rw [muLaw, aLaw, forall₂_map_right_iff, forall₂_map_right_iff, forall₂_same,
    forall₂_same]
  exact ⟨fun sample _ => MuLaw.faithful sample,
    forall₂_congr fun sample _ => ALaw.faithful_iff sample⟩

/-- A-law turns the sign round, and is off by more than half a cell without it. -/
theorem aLaw_turns_sign :
    aLawDecoded [300, -300] = [-328, 328] ∧ muLawDecoded [300, -300] = [308, -292] := by
  decide +kernel

end SiprecServer.Media.G711
