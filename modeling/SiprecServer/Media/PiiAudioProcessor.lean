import Mathlib.Data.UInt

/-!
# Redaction of marked audio

The markers of a call become redaction intervals, overlapping intervals are merged,
and `ProcessRecording` copies a file in chunks and silences what lies inside an
interval.  Times are nanoseconds.  The processor takes byte zero of the file for the
first sample and knows one sample rate; only the redaction kind that a call's cleanup
asks for, silence, is modelled.
-/

namespace SiprecServer.Media

open List

structure PiiMarker where
  startTime : Int
  endTime : Int
  piiType : String

structure RedactionInterval where
  startOffset : Int
  endOffset : Int
  piiType : String
  reason : String
deriving DecidableEq

def second : Int := 1000000000

def PiiMarker.interval (startTime : Int) (marker : PiiMarker) : RedactionInterval :=
  let startOffset := max 0 (marker.startTime - startTime)
  let endOffset := marker.endTime - startTime
  { startOffset
    endOffset := if endOffset < startOffset then startOffset + 2 * second else endOffset
    piiType := marker.piiType
    reason := "PII detected in transcription" }

def getRedactionIntervals (startTime : Int) (markers : List PiiMarker) : List RedactionInterval :=
  markers.map (PiiMarker.interval startTime)

/-- One pass of the exchange sort: the interval in front is compared with each later
one and changes places with every one that starts earlier. -/
def settle (front : RedactionInterval) :
    List RedactionInterval → RedactionInterval × List RedactionInterval
  | [] => (front, [])
  | next :: rest =>
    if front.startOffset > next.startOffset then
      let settled := settle next rest
      (settled.1, front :: settled.2)
    else
      let settled := settle front rest
      (settled.1, next :: settled.2)

/-- The sort by start time; `passes` is the number of places left to fill. -/
def sortByStart : (passes : Nat) → List RedactionInterval → List RedactionInterval
  | 0, intervals => intervals
  | _ + 1, [] => []
  | passes + 1, front :: rest =>
    let settled := settle front rest
    settled.1 :: sortByStart passes settled.2

def combineWith (current next : RedactionInterval) : RedactionInterval :=
  let extended :=
    { current with endOffset := max current.endOffset next.endOffset }
  if current.piiType ≠ next.piiType then
    { extended with
      piiType := current.piiType ++ "," ++ next.piiType
      reason := "Multiple PII types detected" }
  else extended

/-- Sorted intervals that overlap or lie within a second of each other, in 64-bit arithmetic,
become one. -/
def mergeFrom (current : RedactionInterval) : List RedactionInterval → List RedactionInterval
  | [] => [current]
  | next :: rest =>
    if next.startOffset ≤ (current.endOffset + second).bmod (2 ^ 64) then
      mergeFrom (combineWith current next) rest
    else current :: mergeFrom next rest

def mergeOverlappingIntervals (intervals : List RedactionInterval) : List RedactionInterval :=
  if intervals.length ≤ 1 then intervals
  else
    match sortByStart intervals.length intervals with
    | [] => []
    | current :: rest => mergeFrom current rest

/-! ## The processor -/

/-- `wholeSamples d` is `int64(d.Seconds() * float64(sampleRate))`; the double
precision arithmetic is left open. -/
structure PiiAudioProcessor where
  sampleRate : Nat
  bytesPerSample : Nat
  wholeSamples : Int → Int

variable (p : PiiAudioProcessor)

namespace PiiAudioProcessor

/-- The time at a byte offset, in 64-bit arithmetic. -/
def bytesToDuration (bytes : Nat) : Int :=
  (Int.bmod (bytes / p.bytesPerSample * second) (2 ^ 64)).tdiv p.sampleRate

def durationToBytes (duration : Int) : Int :=
  p.wholeSamples duration * p.bytesPerSample

def intervalsOverlap (start₁ end₁ start₂ end₂ : Int) : Bool :=
  start₁ < end₂ && end₁ > start₂

def redactBytes (data : List UInt8) (start stop : Int) : List UInt8 :=
  let start := start.tdiv p.bytesPerSample * p.bytesPerSample
  let stop := (stop + p.bytesPerSample - 1).tdiv p.bytesPerSample * p.bytesPerSample
  data.mapIdx fun i byte => if start ≤ (i : Int) ∧ (i : Int) < stop then 0 else byte

/-- Redact the part of a chunk of `n` bytes at `offset` that lies inside one interval. -/
def redactChunk (offset n : Nat) (chunk : List UInt8) (interval : RedactionInterval) : List UInt8 :=
  let chunkStart := p.bytesToDuration offset
  let chunkEnd := p.bytesToDuration (offset + n)
  if intervalsOverlap chunkStart chunkEnd interval.startOffset interval.endOffset then
    let redactStart := max interval.startOffset chunkStart
    let redactEnd := min interval.endOffset chunkEnd
    let startByte := max 0 (p.durationToBytes (redactStart - chunkStart))
    let endByte := min (p.durationToBytes (redactEnd - chunkStart)) n
    p.redactBytes chunk startByte endByte
  else chunk

/-- The copy loop over the chunks that the reads deliver. -/
def processChunks (p : PiiAudioProcessor) (merged : List RedactionInterval) :
    (offset : Nat) → List (List UInt8) → List UInt8
  | _, [] => []
  | offset, chunk :: rest =>
    merged.foldl (p.redactChunk offset chunk.length) chunk ++
      p.processChunks merged (offset + chunk.length) rest

end PiiAudioProcessor

def readChunks (size : Nat) : (fuel : Nat) → List UInt8 → List (List UInt8)
  | 0, _ => []
  | _ + 1, [] => []
  | fuel + 1, content => content.take size :: readChunks size fuel (content.drop size)

def bufferSize : Nat := 8192

namespace PiiAudioProcessor

def processRecording (content : List UInt8) (intervals : List RedactionInterval) : List UInt8 :=
  if intervals = [] then content
  else
    p.processChunks (mergeOverlappingIntervals intervals) 0
      (readChunks bufferSize content.length content)

end PiiAudioProcessor

theorem readChunks_flatten {size fuel : Nat} (positive : 0 < size) {content : List UInt8}
    (enough : content.length ≤ fuel) : (readChunks size fuel content).flatten = content := by
  induction fuel generalizing content with
  | zero =>
    cases content with
    | nil => rfl
    | cons byte rest => exact absurd enough (Nat.not_succ_le_zero _)
  | succ fuel ih =>
    cases content with
    | nil => rfl
    | cons byte rest =>
      have shorter : ((byte :: rest).drop size).length ≤ fuel := by
        rw [length_drop]
        simp only [length_cons] at enough ⊢
        omega
      rw [readChunks, flatten_cons, ih shorter, take_append_drop]
      exact fun empty => cons_ne_nil _ _ empty

namespace PiiAudioProcessor

def sparesFrom (p : PiiAudioProcessor) (merged : List RedactionInterval) :
    (offset : Nat) → List (List UInt8) → Bool
  | _, [] => true
  | offset, chunk :: rest =>
    (merged.all fun interval =>
      !intervalsOverlap (p.bytesToDuration offset) (p.bytesToDuration (offset + chunk.length))
        interval.startOffset interval.endOffset) &&
      p.sparesFrom merged (offset + chunk.length) rest

def spares (p : PiiAudioProcessor) (content : List UInt8)
    (intervals : List RedactionInterval) : Bool :=
  p.sparesFrom (mergeOverlappingIntervals intervals) 0
    (readChunks bufferSize content.length content)

variable {p : PiiAudioProcessor}

theorem foldl_redactChunk_spared {offset n : Nat} {chunk : List UInt8}
    {merged : List RedactionInterval} (spared : merged.all fun interval =>
      !intervalsOverlap (p.bytesToDuration offset) (p.bytesToDuration (offset + n))
        interval.startOffset interval.endOffset) :
    merged.foldl (p.redactChunk offset n) chunk = chunk := by
  induction merged with
  | nil => rfl
  | cons interval rest ih =>
    obtain ⟨here, later⟩ := Bool.and_eq_true_iff.mp spared
    have unchanged : p.redactChunk offset n chunk interval = chunk := by
      rw [redactChunk, if_neg]
      simpa using here
    rw [foldl_cons, unchanged]
    exact ih later

theorem processChunks_spared {merged : List RedactionInterval} {offset : Nat}
    {chunks : List (List UInt8)} (spared : p.sparesFrom merged offset chunks) :
    p.processChunks merged offset chunks = chunks.flatten := by
  induction chunks generalizing offset with
  | nil => rfl
  | cons chunk rest ih =>
    obtain ⟨here, later⟩ := Bool.and_eq_true_iff.mp spared
    rw [processChunks, foldl_redactChunk_spared here, ih later, flatten_cons]

theorem processRecording_spared {content : List UInt8} {intervals : List RedactionInterval}
    (spared : p.spares content intervals) : p.processRecording content intervals = content := by
  rw [processRecording]
  split
  · rfl
  · rw [processChunks_spared spared, readChunks_flatten (by decide) (Nat.le_refl _)]

end PiiAudioProcessor

end SiprecServer.Media
