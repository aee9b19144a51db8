import Mathlib.Algebra.Order.BigOperators.Group.List
import Mathlib.Algebra.Order.Group.Nat
import Mathlib.Data.List.GetD
import SiprecServer.Media.WavCombiner

/-!
# Where the combiner puts the samples

The combiner works in rounds.  In each round every leg delivers one chunk, of silence or of
samples, and what a leg delivers less than the longest is filled up with zeros.  The last
chunk of a leg's silence is filled up in the same way, so that the samples after it move.
-/

namespace SiprecServer.Media

open ChannelState
open List hiding span

def largest {α : Type} (value : α → Nat) (items : List α) : Nat := (items.map value).foldl max 0

theorem foldl_max_le_iff {numbers : List Nat} {start bound : Nat} :
    numbers.foldl max start ≤ bound ↔ start ≤ bound ∧ ∀ number ∈ numbers, number ≤ bound := by
  induction numbers generalizing start with
  | nil => simp
  | cons number numbers ih => grind

section

variable {α : Type} {items : List α} (value : α → Nat)

theorem largest_le_iff {value : α → Nat} {bound : Nat} :
    largest value items ≤ bound ↔ ∀ item ∈ items, value item ≤ bound := by
  simp [largest, foldl_max_le_iff]

theorem le_largest {item : α} (member : item ∈ items) : value item ≤ largest value items :=
  largest_le_iff.mp (Nat.le_refl _) item member

theorem largest_le_sum (items : List α) : largest value items ≤ (items.map value).sum := by
  rw [largest_le_iff]
  intro item member
  exact single_le_sum (fun _ _ => Nat.zero_le _) _ (mem_map_of_mem member)

end

theorem largest_map {α β : Type} (value : β → Nat) (f : α → β) (items : List α) :
    largest value (items.map f) = largest (fun item => value (f item)) items := by
  simp [largest, Function.comp_def]

theorem getD_silence (count t : Nat) : (List.replicate count (0 : Int16)).getD t 0 = 0 := by
  simp only [List.getD, getElem?_replicate]
  split <;> rfl

variable (chunkSize : Nat) (channel : ChannelState)

namespace ChannelState

def span : Nat := channel.remainingPad + channel.unread.length

/-- Silence in the padding and after the last sample. -/
def sampleAt (t : Nat) : Int16 :=
  if t < channel.remainingPad then 0 else channel.unread.getD (t - channel.remainingPad) 0

def chunk : List Int16 :=
  (channel.takeChunk chunkSize).1

def next : ChannelState :=
  (channel.takeChunk chunkSize).2

def delivered (chunkSize : Nat) : (round : Nat) → ChannelState → Nat
  | 0, channel => (channel.chunk chunkSize).length
  | round + 1, channel => delivered chunkSize round (channel.next chunkSize)

def delay (channels : List ChannelState) (channel : ChannelState) : Nat :=
  if channel.remainingPad % chunkSize = 0 then 0
  else
    largest (delivered chunkSize (channel.remainingPad / chunkSize)) channels -
      channel.remainingPad % chunkSize

def delayed (channels : List ChannelState) (channel : ChannelState) : ChannelState :=
  { channel with remainingPad := channel.remainingPad + channel.delay chunkSize channels }

end ChannelState

def aligned (channels : List ChannelState) : List (List Int16) :=
  (List.range (largest span channels)).map fun t =>
    channels.map fun channel => channel.sampleAt t

/-- A channel before and after a round of `frames` frames, and what it delivers.  The paddings
are those with the delays. -/
inductive Round (chunkSize frames : Nat) : (before after : ChannelState) → List Int16 → Prop
  | silence {pad : Nat} {samples : List Int16} (full : frames = chunkSize) :
      Round chunkSize frames ⟨chunkSize + pad, samples⟩ ⟨pad, samples⟩ (List.replicate chunkSize 0)
  | lastSilence {pad : Nat} {samples : List Int16} (fits : pad ≤ frames) :
      Round chunkSize frames ⟨frames, samples⟩ ⟨0, samples⟩ (List.replicate pad 0)
  | samples {samples : List Int16} (fits : (samples.take chunkSize).length ≤ frames)
      (full : chunkSize ≤ samples.length → frames = chunkSize) :
      Round chunkSize frames ⟨0, samples⟩ ⟨0, samples.drop chunkSize⟩ (samples.take chunkSize)

namespace Round

variable {chunkSize frames : Nat} {before after : ChannelState} {chunk : List Int16}

section

variable (round : Round chunkSize frames before after chunk)

include round

theorem sampleAt_of_lt {t : Nat} (inside : t < frames) : before.sampleAt t = chunk.getD t 0 := by
  cases round with
  | @silence pad samples full =>
    have padded : t < chunkSize + pad := by omega
    rw [getD_silence, sampleAt, if_pos padded]
  | @lastSilence pad samples fits =>
    rw [getD_silence, sampleAt, if_pos inside]
  | @samples samples fits full =>
    -- Either the chunk is full, or it is all there is.
    by_cases enough : chunkSize ≤ samples.length
    · have within : t < chunkSize := full enough ▸ inside
      simp [sampleAt, within]
    · rw [take_of_length_le (by omega)]
      simp [sampleAt]

theorem sampleAt_add (t : Nat) : before.sampleAt (frames + t) = after.sampleAt t := by
  cases round with
  | @silence pad samples full =>
    subst full
    simp [sampleAt, Nat.add_sub_add_left]
  | @lastSilence pad samples fits =>
    have past : ¬ frames + t < frames := by omega
    simp [sampleAt, past]
  | @samples samples fits full =>
    by_cases enough : chunkSize ≤ samples.length
    · rw [full enough]
      simp [sampleAt]
    · have short : samples.length ≤ frames := by
        rw [take_of_length_le (by omega)] at fits
        exact fits
      have past : samples.length ≤ frames + t := by omega
      have past' : samples.length ≤ chunkSize + t := by omega
      simp [sampleAt, past, past']

theorem length_le_span : chunk.length ≤ before.span := by
  cases round with
  | silence full =>
    simp only [span, length_replicate]
    omega
  | lastSilence fits =>
    simp only [span, length_replicate]
    omega
  | samples fits full =>
    simp only [span, length_take]
    omega

theorem span_bounds :
    before.span ≤ frames + after.span ∧ after.span ≤ before.span - frames := by
  cases round with
  | silence full =>
    simp only [span]
    omega
  | lastSilence fits =>
    simp only [span]
    omega
  | samples fits full =>
    simp only [span, length_drop, length_take] at fits ⊢
    omega

end

end Round

section

variable {chunkSize frames : Nat} {channels : List ChannelState}
  {before after : ChannelState → ChannelState} {chunk : ChannelState → List Int16}
  (longest : frames = largest (fun channel => (chunk channel).length) channels)
  (rounds : ∀ channel ∈ channels,
    Round chunkSize frames (before channel) (after channel) (chunk channel))

include longest rounds

theorem largest_span_round :
    largest span (channels.map before) =
      frames + largest span (channels.map after) := by
  rw [largest_map, largest_map]
  apply Nat.le_antisymm
  · rw [largest_le_iff]
    intro channel member
    have rest := le_largest (fun channel => (after channel).span) member
    have bound := (rounds channel member).span_bounds.1
    omega
  · have first : frames ≤ largest (fun channel => (before channel).span) channels := by
      rw [longest, largest_le_iff]
      intro channel member
      exact Nat.le_trans (rounds channel member).length_le_span
        (le_largest (fun channel => (before channel).span) member)
    have rest : largest (fun channel => (after channel).span) channels ≤
        largest (fun channel => (before channel).span) channels - frames := by
      rw [largest_le_iff]
      intro channel member
      have bound := le_largest (fun channel => (before channel).span) member
      have left := (rounds channel member).span_bounds.2
      omega
    omega

theorem aligned_round :
    aligned (channels.map before) =
      ((List.range frames).map fun t => channels.map fun channel => (chunk channel).getD t 0) ++
        aligned (channels.map after) := by
  rw [aligned, largest_span_round longest rounds, range_add, map_append, aligned]
  congr 1
  · apply map_congr_left
    intro t inside
    rw [map_map]
    apply map_congr_left
    intro channel member
    exact (rounds channel member).sampleAt_of_lt (mem_range.mp inside)
  · rw [map_map]
    apply map_congr_left
    intro t _
    simp only [Function.comp_apply, map_map]
    apply map_congr_left
    intro channel member
    exact (rounds channel member).sampleAt_add t

end

/-! ## All rounds -/

section

variable {chunkSize : Nat} {channels : List ChannelState}

namespace ChannelState

variable {channel : ChannelState}

theorem takeChunk_pad (padded : 0 < channel.remainingPad) : channel.takeChunk chunkSize =
      (List.replicate (min chunkSize channel.remainingPad) 0,
        { channel with
          remainingPad := channel.remainingPad - min chunkSize channel.remainingPad }) :=
  if_pos padded

theorem takeChunk_samples (done : channel.remainingPad = 0) : channel.takeChunk chunkSize =
      (channel.unread.take chunkSize,
        { channel with unread := channel.unread.drop chunkSize }) :=
  if_neg (by omega)

theorem span_eq (channel : ChannelState) :
    channel.span = (channel.chunk chunkSize).length + (channel.next chunkSize).span := by
  by_cases padded : 0 < channel.remainingPad
  · simp only [chunk, next, takeChunk_pad padded, span, length_replicate]
    omega
  · simp only [chunk, next, takeChunk_samples (Nat.eq_zero_of_not_pos padded), span,
      length_take, length_drop]
    omega

theorem length_chunk_le (channel : ChannelState) :
    (channel.chunk chunkSize).length ≤ chunkSize := by
  by_cases padded : 0 < channel.remainingPad
  · simp only [chunk, takeChunk_pad padded, length_replicate]
    omega
  · simp only [chunk, takeChunk_samples (Nat.eq_zero_of_not_pos padded), length_take]
    omega

theorem delay_of_mod (whole : channel.remainingPad % chunkSize = 0) :
    channel.delay chunkSize channels = 0 :=
  if_pos whole

theorem delay_next (positive : 0 < chunkSize) (enough : chunkSize ≤ channel.remainingPad) :
    (channel.next chunkSize).delay chunkSize (channels.map (next chunkSize)) =
      channel.delay chunkSize channels := by
  have pad : (channel.next chunkSize).remainingPad = channel.remainingPad - chunkSize := by
    simp only [next, takeChunk_pad (Nat.lt_of_lt_of_le positive enough), Nat.min_eq_left enough]
  have quotient : channel.remainingPad / chunkSize =
      (channel.remainingPad - chunkSize) / chunkSize + 1 := by
    rw [Nat.div_eq_sub_div positive enough]
  simp only [delay, pad, quotient, Nat.mod_eq_sub_mod enough, largest_map]
  rfl

end ChannelState

def ChannelRound (chunkSize frames : Nat) (channels : List ChannelState)
    (channel : ChannelState) : Prop :=
  Round chunkSize frames (channel.delayed chunkSize channels)
    ((channel.next chunkSize).delayed chunkSize (channels.map (next chunkSize)))
    (channel.chunk chunkSize)

section

variable {frames : Nat} {channel : ChannelState} (positive : 0 < chunkSize)
  (longest : frames = largest (fun other => (other.chunk chunkSize).length) channels)
  (member : channel ∈ channels)

include longest in
theorem frames_le : frames ≤ chunkSize := by
  rw [longest, largest_le_iff]
  intro other _
  exact other.length_chunk_le

include longest member in
theorem chunk_le_frames : (channel.chunk chunkSize).length ≤ frames := by
  rw [longest]
  exact le_largest (fun other => (other.chunk chunkSize).length) member

include positive longest member

theorem round_silence (enough : chunkSize ≤ channel.remainingPad) :
    ChannelRound chunkSize frames channels channel := by
  have taken : channel.takeChunk chunkSize = _ :=
    takeChunk_pad (Nat.lt_of_lt_of_le positive enough)
  rw [Nat.min_eq_left enough] at taken
  have chunk_eq : channel.chunk chunkSize = List.replicate chunkSize 0 := congrArg Prod.fst taken
  have next_eq : channel.next chunkSize =
      { channel with remainingPad := channel.remainingPad - chunkSize } := congrArg Prod.snd taken
  have before : channel.delayed chunkSize channels =
      ⟨chunkSize + (channel.remainingPad - chunkSize + channel.delay chunkSize channels),
        channel.unread⟩ := by
    rw [← Nat.add_assoc, Nat.add_sub_cancel' enough]
    rfl
  have fits := chunk_le_frames longest member
  rw [chunk_eq, length_replicate] at fits
  rw [ChannelRound, chunk_eq, before, delayed,
    delay_next positive enough, next_eq]
  exact .silence (Nat.le_antisymm (frames_le longest) fits)

omit positive in
theorem round_lastSilence (padded : 0 < channel.remainingPad)
    (short : channel.remainingPad < chunkSize) : ChannelRound chunkSize frames channels channel := by
  have taken : channel.takeChunk chunkSize = _ := takeChunk_pad padded
  rw [Nat.min_eq_right (Nat.le_of_lt short), Nat.sub_self] at taken
  have chunk_eq : channel.chunk chunkSize = List.replicate channel.remainingPad 0 :=
    congrArg Prod.fst taken
  have next_eq : channel.next chunkSize = ⟨0, channel.unread⟩ := congrArg Prod.snd taken
  have fits := chunk_le_frames longest member
  rw [chunk_eq, length_replicate] at fits
  -- this round is the one whose filling is the channel's delay
  have delay_eq : channel.delay chunkSize channels = frames - channel.remainingPad := by
    rw [delay, Nat.mod_eq_of_lt short, if_neg (Nat.ne_of_gt padded),
      Nat.div_eq_of_lt short, longest]
    rfl
  have before : channel.delayed chunkSize channels = ⟨frames, channel.unread⟩ := by
    rw [delayed, delay_eq, Nat.add_sub_cancel' fits]
  rw [ChannelRound, chunk_eq, before, next_eq, delayed,
    delay_of_mod (Nat.zero_mod chunkSize)]
  exact .lastSilence fits

omit positive in
theorem round_samples (done : channel.remainingPad = 0) :
    ChannelRound chunkSize frames channels channel := by
  have taken : channel.takeChunk chunkSize = _ := takeChunk_samples done
  have chunk_eq : channel.chunk chunkSize = channel.unread.take chunkSize :=
    congrArg Prod.fst taken
  have next_eq : channel.next chunkSize = ⟨0, channel.unread.drop chunkSize⟩ := by
    rw [← done]
    exact congrArg Prod.snd taken
  have before : channel.delayed chunkSize channels = ⟨0, channel.unread⟩ := by
    rw [delayed, delay_of_mod (by rw [done, Nat.zero_mod]), done]
  have fits := chunk_le_frames longest member
  rw [chunk_eq] at fits
  rw [ChannelRound, chunk_eq, before, next_eq, delayed,
    delay_of_mod (Nat.zero_mod chunkSize)]
  refine .samples fits ?_
  intro enough
  rw [length_take, Nat.min_eq_left enough] at fits
  exact Nat.le_antisymm (frames_le longest) fits

theorem round_of_mem : ChannelRound chunkSize frames channels channel := by
  by_cases padded : 0 < channel.remainingPad
  · by_cases enough : chunkSize ≤ channel.remainingPad
    · exact round_silence positive longest member enough
    · exact round_lastSilence longest member padded (Nat.lt_of_not_le enough)
  · exact round_samples longest member (Nat.eq_zero_of_not_pos padded)

end

theorem span_delayed_of_empty (positive : 0 < chunkSize) {channel : ChannelState}
    (empty : (channel.chunk chunkSize).length = 0) :
    (channel.delayed chunkSize channels).span = 0 := by
  by_cases padded : 0 < channel.remainingPad
  · rw [chunk, takeChunk_pad padded, length_replicate] at empty
    omega
  · have done : channel.remainingPad = 0 := Nat.eq_zero_of_not_pos padded
    rw [chunk, takeChunk_samples done, length_take] at empty
    have whole : channel.remainingPad % chunkSize = 0 := by
      rw [done, Nat.zero_mod]
    rw [span, delayed, delay_of_mod whole, done]
    simp only
    omega

theorem combineRounds_succ (chunkSize fuel : Nat) (channels : List ChannelState) :
    combineRounds chunkSize (fuel + 1) channels =
      if largest (fun channel => (channel.chunk chunkSize).length) channels = 0 then []
      else
        ((List.range (largest (fun channel => (channel.chunk chunkSize).length) channels)).map
            fun t => channels.map fun channel => (channel.chunk chunkSize).getD t 0) ++
          combineRounds chunkSize fuel (channels.map (next chunkSize)) := by
  simp only [combineRounds, largest, map_map, Function.comp_def, chunk]
  rfl

theorem combineRounds_eq (positive : 0 < chunkSize) (fuel : Nat) :
    ∀ {channels : List ChannelState}, (channels.map span).sum < fuel →
      combineRounds chunkSize fuel channels =
        aligned (channels.map (delayed chunkSize channels)) := by
  induction fuel with
  | zero =>
    intro channels enough
    exact absurd enough (Nat.not_lt_zero _)
  | succ fuel ih =>
    intro channels enough
    rw [combineRounds_succ]
    by_cases empty : largest (fun channel => (channel.chunk chunkSize).length) channels = 0
    · have nothing : largest span
          (channels.map (delayed chunkSize channels)) = 0 := by
        rw [largest_map]
        apply Nat.eq_zero_of_le_zero
        rw [largest_le_iff]
        intro channel member
        have none_left : (channel.chunk chunkSize).length = 0 :=
          Nat.eq_zero_of_le_zero (largest_le_iff.mp (Nat.le_of_eq empty) channel member)
        exact Nat.le_of_eq (span_delayed_of_empty positive none_left)
      rw [if_pos empty, aligned, nothing]
      rfl
    · have left : ((channels.map (next chunkSize)).map span).sum <
          fuel := by
        have total : (channels.map span).sum =
            (channels.map fun channel => (channel.chunk chunkSize).length).sum +
              ((channels.map (next chunkSize)).map span).sum := by
          rw [map_map, ← sum_map_add]
          exact congrArg List.sum (map_congr_left fun channel _ => channel.span_eq)
        have taken := largest_le_sum (fun channel : ChannelState =>
          (channel.chunk chunkSize).length) channels
        omega
      rw [if_neg empty, ih left, map_map]
      exact (aligned_round rfl fun channel member => round_of_mem positive rfl member).symm

end

theorem silent_of_delayed {channel : ChannelState} {delay : Nat} (positive : 0 < delay)
    (same : ∀ t < channel.span,
      { channel with remainingPad := channel.remainingPad + delay }.sampleAt t =
        channel.sampleAt t) :
    ∀ sample ∈ channel.unread, sample = 0 := by
  obtain ⟨pad, samples⟩ := channel
  -- by strong induction on the place: each sample is one that comes earlier, or silence
  have silent : ∀ i : Nat, samples.getD i 0 = 0 := by
    intro i
    induction i using Nat.strong_induction_on with
    | _ i ih =>
      by_cases inside : i < samples.length
      · have shifted := same (pad + i) (Nat.add_lt_add_left inside pad)
        have after : ¬ pad + i < pad := by omega
        simp only [sampleAt, if_neg after, Nat.add_sub_cancel_left] at shifted
        rw [← shifted]
        split
        · rfl
        · rw [show pad + i - (pad + delay) = i - delay by omega]
          exact ih (i - delay) (by omega)
      · simp [getElem?_eq_none (Nat.le_of_not_lt inside)]
  intro sample member
  obtain ⟨i, inside, rfl⟩ := mem_iff_getElem.mp member
  rw [← silent i, getD_eq_getElem _ _ inside]

theorem sampleAt_of_silent {channel : ChannelState} (silent : ∀ sample ∈ channel.unread, sample = 0)
    (t : Nat) : channel.sampleAt t = 0 := by
  rw [sampleAt]
  split
  · rfl
  · by_cases inside : t - channel.remainingPad < channel.unread.length
    · rw [getD_eq_getElem _ _ inside]
      exact silent _ (getElem_mem inside)
    · simp [getElem?_eq_none (Nat.le_of_not_lt inside)]

theorem ChannelState.span_delayed (channels : List ChannelState) (channel : ChannelState) :
    (channel.delayed chunkSize channels).span =
      channel.span + channel.delay chunkSize channels := by
  simp only [span, delayed]
  omega

/-- Two recordings of as many channels are the same if they are equally long and the same in
every channel of every frame. -/
theorem aligned_map_eq_iff {change : ChannelState → ChannelState} {channels : List ChannelState} :
    aligned (channels.map change) = aligned channels ↔
      largest span (channels.map change) = largest span channels ∧
        ∀ t < largest span channels, ∀ channel ∈ channels,
          (change channel).sampleAt t = channel.sampleAt t := by
  constructor
  · intro same
    have spans : largest span (channels.map change) =
        largest span channels := by
      simpa [aligned] using congrArg List.length same
    rw [aligned, aligned, spans, map_inj_left] at same
    refine ⟨spans, ?_⟩
    intro t inside channel member
    have frame := same t (mem_range.mpr inside)
    rw [map_map, map_inj_left] at frame
    exact frame channel member
  · rintro ⟨spans, samples⟩
    rw [aligned, aligned, spans]
    apply map_congr_left
    intro t inside
    rw [map_map]
    apply map_congr_left
    exact samples t (mem_range.mp inside)

/-- The delays do no harm to silent legs that end no later than the recording, and only to
those. -/
theorem combineRounds_eq_aligned_iff {chunkSize : Nat} (positive : 0 < chunkSize)
    (channels : List ChannelState) :
    combineRounds chunkSize ((channels.map span).sum + 1) channels =
        aligned channels ↔
      ∀ channel ∈ channels, channel.delay chunkSize channels = 0 ∨
        (∀ sample ∈ channel.unread, sample = 0) ∧
          channel.span + channel.delay chunkSize channels ≤
            largest span channels := by
  rw [combineRounds_eq positive _ (Nat.lt_succ_self _), aligned_map_eq_iff]
  constructor
  · rintro ⟨spans, samples⟩ channel member
    by_cases kept : channel.delay chunkSize channels = 0
    · exact .inl kept
    · refine .inr ⟨silent_of_delayed (Nat.pos_of_ne_zero kept) ?_, ?_⟩
      · intro t inside
        exact samples t (Nat.lt_of_lt_of_le inside (le_largest span member))
          channel member
      · rw [← span_delayed, ← spans]
        exact le_largest span (mem_map_of_mem member)
  · intro kept
    refine ⟨Nat.le_antisymm ?_ ?_, ?_⟩
    · rw [largest_map, largest_le_iff]
      intro channel member
      rw [span_delayed]
      obtain none | ⟨-, fits⟩ := kept channel member
      · rw [none]
        exact le_largest span member
      · exact fits
    · rw [largest_map, largest_le_iff]
      intro channel member
      have bound := le_largest
        (fun channel => (delayed chunkSize channels channel).span) member
      have grown := span_delayed chunkSize channels channel
      omega
    · intro t _ channel member
      obtain none | ⟨silent, -⟩ := kept channel member
      · rw [delayed, none, Nat.add_zero]
      · rw [sampleAt_of_silent silent, sampleAt_of_silent]
        exact silent

end SiprecServer.Media
