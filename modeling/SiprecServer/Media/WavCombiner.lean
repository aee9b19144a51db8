import Mathlib.Algebra.GroupWithZero.Nat
import SiprecServer.Lib.FileSystem
import SiprecServer.Lib.UnixPath

/-!
# Combining the legs of a call

`CombineWAVRecordingsAligned` opens the mono recording of every leg, pads the legs
that started early and interleaves them chunk by chunk into one file with a channel
per leg.  Reading and writing the container format itself is left open here.
-/

namespace SiprecServer.Media

open Lib.FileSystem Lib.UnixPath List

/-- A recording as the reader sees it; `samples` is what a mono recording holds. -/
structure Wav where
  channels : Nat
  sampleRate : Nat
  samples : List Int16
deriving DecidableEq

/-- A leg handed to the combiner; the start time is absent when no packet was seen. -/
structure LegTiming where
  path : Bytes
  firstRTPTime : Option Int
deriving DecidableEq

/-- `padSamples delta rate` is `int(delta.Seconds() * float64(rate))`, and `overwritten`
is what a reader finds in a leg that the output file has just replaced. -/
structure WavTools where
  readWav : Bytes → Option Wav
  writeWav : (sampleRate channels : Nat) → List (List Int16) → Bytes
  padSamples : Int → Nat → Nat
  overwritten : List Int16

/-- The silence in front of each leg: none unless all start times are known. -/
def calculatePadding (tools : WavTools) (legs : List LegTiming) (sampleRate : Nat) : List Nat :=
  let start (leg : LegTiming) := leg.firstRTPTime.getD 0
  let latestStart := (legs.map start).foldl max 0
  if legs.all (·.firstRTPTime.isSome) then
    legs.map fun leg =>
      if latestStart - start leg > 0 then tools.padSamples (latestStart - start leg) sampleRate
      else 0
  else legs.map fun _ => 0

structure ChannelState where
  remainingPad : Nat
  unread : List Int16

def ChannelState.takeChunk (chunkSize : Nat) (channel : ChannelState) : List Int16 × ChannelState :=
  if channel.remainingPad > 0 then
    let padCount := min chunkSize channel.remainingPad
    (List.replicate padCount 0, { channel with remainingPad := channel.remainingPad - padCount })
  else
    (channel.unread.take chunkSize, { channel with unread := channel.unread.drop chunkSize })

/-- The rounds of the combiner; channels that deliver less in a round are filled up. -/
def combineRounds (chunkSize : Nat) : (fuel : Nat) → List ChannelState → List (List Int16)
  | 0, _ => []
  | fuel + 1, channels =>
    let chunks := channels.map (·.takeChunk chunkSize)
    let maxSamples := (chunks.map (·.1.length)).foldl max 0
    if maxSamples = 0 then []
    else
      (List.range maxSamples).map (fun i => chunks.map fun chunk => chunk.1.getD i 0) ++
        combineRounds chunkSize fuel (chunks.map (·.2))

structure Combined where
  sampleRate : Nat
  padding : List Nat
  sources : List (List Int16)

def Combined.frames (combined : Combined) : List (List Int16) :=
  let channels := List.zipWith ChannelState.mk combined.padding combined.sources
  -- Every round but the last takes at least one sample off some channel.
  combineRounds 1024 ((channels.map fun c => c.remainingPad + c.unread.length).sum + 1) channels

/-- Open the legs in order; the first that is missing, unreadable or not mono stops. -/
def openLegs (tools : WavTools) (files : Store Bytes Bytes) : List LegTiming → Option (List Wav)
  | [] => some []
  | leg :: rest =>
    match (files leg.path).bind tools.readWav with
    | none => none
    | some wav => if wav.channels ≠ 1 then none else (openLegs tools files rest).map (wav :: ·)

def planCombined (tools : WavTools) (files : Store Bytes Bytes) (outputPath : Bytes)
    (legs : List LegTiming) : Option Combined :=
  if legs.length < 2 then none
  else
    match openLegs tools files legs with
    | none => none
    | some [] => none
    | some (first :: others) =>
      if others.all (·.sampleRate == first.sampleRate) then
        some
          { sampleRate := first.sampleRate
            padding := calculatePadding tools legs first.sampleRate
            sources := List.zipWith
              (fun leg wav => if leg.path = outputPath then tools.overwritten else wav.samples)
              legs (first :: others) }
      else none

def combineWAVRecordingsAligned (tools : WavTools) (files : Store Bytes Bytes)
    (outputPath : Bytes) (legs : List LegTiming) : Store Bytes Bytes × Option Combined :=
  match planCombined tools files outputPath legs with
  | none => (files, none)
  | some combined =>
    (write files outputPath
        (tools.writeWav combined.sampleRate combined.sources.length combined.frames),
      some combined)

variable {tools : WavTools} {files : Store Bytes Bytes} {outputPath : Bytes}

variable {legs : List LegTiming}

theorem length_calculatePadding (rate : Nat) :
    (calculatePadding tools legs rate).length = legs.length := by
  unfold calculatePadding
  dsimp only
  split <;> exact length_map _

section

variable {ids : List Nat} {leg : Nat → LegTiming} {wav : Nat → Wav}
  (opens : ∀ id ∈ ids, (files (leg id).path).bind tools.readWav = some (wav id) ∧
    (wav id).channels = 1)

include opens

theorem openLegs_map : openLegs tools files (ids.map leg) = some (ids.map wav) := by
  induction ids with
  | nil => rfl
  | cons id rest ih =>
    obtain ⟨⟨readable, mono⟩, later⟩ := forall_mem_cons.mp opens
    rw [map_cons, openLegs, readable]
    simp [mono, ih later]

theorem planCombined_map (several : 2 ≤ ids.length)
    (apart : ∀ id ∈ ids, (leg id).path ≠ outputPath)
    (rates : ∀ id ∈ ids, ∀ other ∈ ids, (wav id).sampleRate = (wav other).sampleRate) :
    ∃ sampleRate, planCombined tools files outputPath (ids.map leg) =
      some { sampleRate, padding := calculatePadding tools (ids.map leg) sampleRate
             sources := ids.map fun id => (wav id).samples } := by
  have sources : List.zipWith
      (fun leg wav => if leg.path = outputPath then tools.overwritten else wav.samples)
      (ids.map leg) (ids.map wav) = ids.map fun id => (wav id).samples := by
    rw [zipWith_map, zipWith_self]
    exact map_congr_left fun id mem => if_neg (apart id mem)
  cases ids with
  | nil => exact absurd several (by decide)
  | cons first others =>
    have same : (others.map wav).all (·.sampleRate == (wav first).sampleRate) = true := by
      rw [all_map, all_eq_true]
      exact fun id mem => beq_iff_eq.mpr (rates id (.tail _ mem) first (.head _))
    refine ⟨(wav first).sampleRate, ?_⟩
    unfold planCombined
    rw [if_neg (by rw [length_map]; omega), openLegs_map opens]
    simp only [map_cons] at sources ⊢
    rw [if_pos same, sources]

end

end SiprecServer.Media
