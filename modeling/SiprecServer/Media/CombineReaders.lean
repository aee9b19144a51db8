import SiprecServer.Media.CombinedFrames
import SiprecServer.Media.WavFile

/-!
# The combiner on its readers

The loop of `CombineWAVRecordingsAligned` with the readers it holds: a leg delivers silence
while its padding lasts and then whatever `ReadSamples` returns.
-/

namespace SiprecServer.Media

open Media.WavFile ChannelState
open List hiding span

structure LegReader where
  remainingPad : Nat
  reader : WAVReader

def LegReader.takeChunk (chunkSize : Nat) (leg : LegReader) :
    Except ReadError (List Int16 × LegReader) :=
  if leg.remainingPad > 0 then
    let padCount := min chunkSize leg.remainingPad
    .ok (List.replicate padCount 0, { leg with remainingPad := leg.remainingPad - padCount })
  else
    match leg.reader.readSamples chunkSize with
    | .ok (samples, reader) => .ok (samples, { leg with reader })
    | .error .eof => .ok ([], leg)
    | .error failure => .error failure

def takeChunks (chunkSize : Nat) : List LegReader → Except ReadError (List (List Int16 × LegReader))
  | [] => .ok []
  | leg :: legs =>
    match leg.takeChunk chunkSize, takeChunks chunkSize legs with
    | .ok chunk, .ok chunks => .ok (chunk :: chunks)
    | .error failure, _ => .error failure
    | .ok _, .error failure => .error failure

def combineReaders (chunkSize : Nat) :
    (fuel : Nat) → List LegReader → Except ReadError (List (List Int16))
  | 0, _ => .ok []
  | fuel + 1, legs =>
    match takeChunks chunkSize legs with
    | .error failure => .error failure
    | .ok chunks =>
      let maxSamples := (chunks.map (·.1.length)).foldl max 0
      if maxSamples = 0 then .ok []
      else
        match combineReaders chunkSize fuel (chunks.map (·.2)) with
        | .error failure => .error failure
        | .ok rest =>
          .ok ((List.range maxSamples).map
            (fun i => chunks.map fun chunk => chunk.1.getD i 0) ++ rest)

theorem length_samples (data : Bytes) : (samples data).length = data.length / 2 := by
  induction data using samples.induct with
  | case1 low high data ih =>
    simp only [samples, length_cons, ih]
    omega
  | case2 data short =>
    cases data with
    | nil => rfl
    | cons low data =>
      cases data with
      | nil => simp [samples]
      | cons high data => exact absurd rfl (short low high data)

theorem samples_take_drop (data : Bytes) (count : Nat) :
    samples (data.take (count * 2)) = (samples data).take count ∧
      samples (data.drop (count * 2)) = (samples data).drop count := by
  induction count generalizing data with
  | zero => simp [samples]
  | succ count ih =>
    rw [show (count + 1) * 2 = count * 2 + 1 + 1 by omega]
    cases data with
    | nil => simp [samples]
    | cons low data =>
      cases data with
      | nil => simp [samples]
      | cons high data => simp [samples, ih data]

variable {chunkSize : Nat}

theorem readSamples_mono {reader : WAVReader} {left : Bytes} (reading : Reading reader left)
    (mono : reader.format.channels = 1) (enough : 2 ≤ left.length) (positive : 0 < chunkSize) :
    ∃ n, reader.readSamples chunkSize =
        .ok ((samples left).take chunkSize, reader.advance n) ∧
      Reading (reader.advance n) (left.drop n) ∧
      samples (left.drop n) = (samples left).drop chunkSize := by
  obtain ⟨count, count_eq, -, fits, read⟩ :=
    reading.readSamples_ok (by rwa [mono, Nat.one_mul]) chunkSize
  have wanted : (if (chunkSize : Int) ≤ 0 then 1024 else (chunkSize : Int).toNat) =
      chunkSize := by
    rw [if_neg (by omega), Int.toNat_natCast]
  rw [wanted, mono, Nat.one_mul, ← length_samples] at count_eq
  rw [mono, Nat.one_mul] at fits read
  obtain ⟨taken, dropped⟩ := samples_take_drop left count
  refine ⟨count * 2, ?_, reading.advance fits, ?_⟩
  · have same : (samples left).take count = (samples left).take chunkSize := by
      rw [take_eq_take_iff]
      omega
    rw [read, taken, same]
  · rw [dropped, drop_eq_drop_iff]
    omega

structure LegReader.Reads (leg : LegReader) (channel : ChannelState) : Prop where
  pad : leg.remainingPad = channel.remainingPad
  mono : leg.reader.format.channels = 1
  reading : ∃ left, Reading leg.reader left ∧ samples left = channel.unread

theorem LegReader.Reads.takeChunk {leg : LegReader} {channel : ChannelState}
    (reads : leg.Reads channel) (positive : 0 < chunkSize) :
    ∃ later : LegReader, leg.takeChunk chunkSize = .ok (channel.chunk chunkSize, later) ∧
      later.Reads (channel.next chunkSize) := by
  obtain ⟨pad, mono, left, reading, held⟩ := reads
  by_cases padded : 0 < channel.remainingPad
  · refine ⟨{ leg with
      remainingPad := channel.remainingPad - min chunkSize channel.remainingPad }, ?_, ?_⟩
    · rw [LegReader.takeChunk, if_pos (pad ▸ padded), chunk, takeChunk_pad padded, pad]
    · rw [ChannelState.next, takeChunk_pad padded]
      exact ⟨rfl, mono, left, reading, held⟩
  · have done := Nat.eq_zero_of_not_pos padded
    have silent : ¬ leg.remainingPad > 0 := pad ▸ padded
    rw [LegReader.takeChunk, if_neg silent, chunk, ChannelState.next, takeChunk_samples done,
      ← held]
    by_cases enough : 2 ≤ left.length
    · obtain ⟨n, read, later_reading, dropped⟩ := readSamples_mono reading mono enough positive
      rw [read]
      exact ⟨{ leg with reader := leg.reader.advance n }, rfl, pad, mono, left.drop n,
        later_reading, dropped⟩
    · have none_left : samples left = [] := by
        apply eq_nil_of_length_eq_zero
        rw [length_samples]
        omega
      have ended := reading.readSamples_eof (by rw [mono]; omega) chunkSize
      rw [ended, none_left, take_nil, drop_nil]
      exact ⟨leg, rfl, pad, mono, left, reading, none_left⟩

theorem takeChunks_reads (positive : 0 < chunkSize) {legs : List LegReader}
    {channels : List ChannelState} (reads : List.Forall₂ LegReader.Reads legs channels) :
    ∃ later : List LegReader,
      takeChunks chunkSize legs =
          .ok ((channels.map (chunk chunkSize)).zip later) ∧
        List.Forall₂ LegReader.Reads later (channels.map (next chunkSize)) := by
  induction reads with
  | nil => exact ⟨[], rfl, .nil⟩
  | @cons leg channel legs channels head tail ih =>
    obtain ⟨next, taken, next_reads⟩ := head.takeChunk positive
    obtain ⟨later, rest, later_reads⟩ := ih
    refine ⟨next :: later, ?_, .cons next_reads later_reads⟩
    rw [takeChunks, taken, rest]
    rfl

theorem combineReaders_eq (positive : 0 < chunkSize) (fuel : Nat) :
    ∀ {legs : List LegReader} {channels : List ChannelState},
      List.Forall₂ LegReader.Reads legs channels →
      combineReaders chunkSize fuel legs = .ok (combineRounds chunkSize fuel channels) := by
  induction fuel with
  | zero =>
    intro legs channels _
    rfl
  | succ fuel ih =>
    intro legs channels reads
    obtain ⟨later, taken, later_reads⟩ := takeChunks_reads positive reads
    have width : later.length = (channels.map (chunk chunkSize)).length := by
      simpa using later_reads.length_eq
    generalize zipped_eq : (channels.map (chunk chunkSize)).zip later = chunks at taken
    have longest : (chunks.map (·.1.length)).foldl max 0 =
        largest (fun channel => (channel.chunk chunkSize).length) channels := by
      have firsts := congrArg (List.map List.length) (map_fst_zip (Nat.le_of_eq width.symm))
      rw [zipped_eq, map_map, map_map] at firsts
      exact congrArg (List.foldl max 0) firsts
    have frames : ∀ i : Nat, (chunks.map fun chunk => chunk.1.getD i 0) =
        channels.map fun channel => (channel.chunk chunkSize).getD i 0 := by
      intro i
      have firsts := congrArg (List.map fun chunk => chunk.getD i 0)
        (map_fst_zip (Nat.le_of_eq width.symm))
      simpa [zipped_eq, Function.comp_def] using firsts
    have nexts : chunks.map (·.2) = later := zipped_eq ▸ map_snd_zip (Nat.le_of_eq width)
    rw [combineReaders, taken, combineRounds_succ]
    simp only [longest, frames, nexts, ih later_reads]
    by_cases empty : largest (fun channel => (channel.chunk chunkSize).length) channels = 0
    · rw [if_pos empty, if_pos empty]
    · rw [if_neg empty, if_neg empty]

/-- The combined recording has every leg after its padding exactly when no leg is delayed,
except for silent legs that end no later than the recording.  A leg is delayed when its
silence ends within a round in which another leg delivers more. -/
theorem combined_recording_iff {chunkSize : Nat} (positive : 0 < chunkSize) {legs : List LegReader}
    {channels : List ChannelState} (reads : List.Forall₂ LegReader.Reads legs channels) :
    combineReaders chunkSize ((channels.map span).sum + 1) legs =
        .ok (aligned channels) ↔
      ∀ channel ∈ channels, channel.delay chunkSize channels = 0 ∨
        (∀ sample ∈ channel.unread, sample = 0) ∧
          channel.span + channel.delay chunkSize channels ≤
            largest span channels := by
  rw [combineReaders_eq positive _ reads, Except.ok.injEq]
  exact combineRounds_eq_aligned_iff positive channels

def monoLeg (remainingPad : Nat) (data : Bytes) : LegReader where
  remainingPad
  reader :=
    { content := header 8000 1 (data.length + 36) data.length ++ data
      format := ⟨8000, 1, 16⟩
      dataSize := data.length
      position := 44
      bytesRead := 0 }

theorem monoLeg_reads (remainingPad : Nat) (data : Bytes) :
    (monoLeg remainingPad data).Reads ⟨remainingPad, samples data⟩ where
  pad := rfl
  mono := rfl
  reading := ⟨data, ⟨rfl, Nat.one_pos, drop_left' (length_header _ _ _ _),
    (Nat.zero_add _).symm⟩, rfl⟩

/-- The other leg ends where the silence does. -/
theorem padded_legs_combined :
    combineReaders 1024 5 [monoLeg 1 [5, 0, 6, 0], monoLeg 0 [7, 0]] =
        .ok (aligned [⟨1, [5, 6]⟩, ⟨0, [7]⟩]) ∧
      aligned [⟨1, [5, 6]⟩, ⟨0, [7]⟩] = [[0, 7], [5, 0], [6, 0]] :=
  ⟨(combined_recording_iff (by decide)
    (.cons (monoLeg_reads 1 [5, 0, 6, 0]) (.cons (monoLeg_reads 0 [7, 0]) .nil))).mpr (by decide),
    by decide⟩

/-- One sample of silence in front of a leg, and two samples on the other: the silence is
filled up to two frames, the leg's sample comes one frame late and a frame is added. -/
theorem sample_after_silence_shifted :
    combineReaders 1024 5 [monoLeg 1 [5, 0], monoLeg 0 [7, 0, 7, 0]] =
        .ok [[0, 7], [0, 7], [5, 0]] ∧
      aligned [⟨1, [5]⟩, ⟨0, [7, 7]⟩] = [[0, 7], [5, 7]] := by
  exact ⟨rfl, by decide⟩

end SiprecServer.Media
