import SiprecServer.Media.CombinedFrames

/-!
# Samples of the same instant

Sample `n` of a leg is captured `n` sample periods after the leg's first packet.  The combiner
pads the legs that started early, so that in the combined recording they move away from the
legs they were simultaneous with.
-/

namespace SiprecServer.Media

open List

deriving instance DecidableEq for ChannelState

variable (combined : Combined)

namespace Combined

def channels : List ChannelState :=
  List.zipWith ChannelState.mk combined.padding combined.sources

/-- The channels with the silence that really comes before their samples. -/
def placed : List ChannelState :=
  combined.channels.map (ChannelState.delayed 1024 combined.channels)

theorem frames_eq : combined.frames = aligned combined.placed :=
  combineRounds_eq (by decide) _ (Nat.lt_succ_self _)

end Combined

def ChannelState.frame (channel : ChannelState) (n : Nat) : Nat := channel.remainingPad + n

open ChannelState

theorem aligned_frame {channels : List ChannelState} {i n : Nat} {channel : ChannelState}
    (found : channels[i]? = some channel) (inside : n < channel.unread.length) :
    ∃ frame, (aligned channels)[channel.frame n]? = some frame ∧
      frame[i]? = channel.unread[n]? := by
  have within : channel.frame n < largest span channels :=
    Nat.lt_of_lt_of_le (Nat.add_lt_add_left inside _)
      (le_largest span (mem_of_getElem? found))
  refine ⟨channels.map fun other => other.sampleAt (channel.frame n), ?_, ?_⟩
  · simp [aligned, getElem?_map, getElem?_range within]
  · have after : ¬ channel.remainingPad + n < channel.remainingPad := by omega
    rw [getElem?_map, found, Option.map_some, sampleAt, frame,
      if_neg after, Nat.add_sub_cancel_left, getD_eq_getElem _ _ inside,
      getElem?_eq_getElem inside]

/-- Sample `n` of a leg that started at `start` and sample `m` of one that started at `other`,
in nanoseconds, are captured less than a sample period apart. -/
def Simultaneous (rate start other n m : Nat) : Prop :=
  start * rate + n * 1000000000 < other * rate + (m + 1) * 1000000000 ∧
    other * rate + m * 1000000000 < start * rate + (n + 1) * 1000000000

/-- A leg with its start, in nanoseconds, and its samples. -/
abbrev Leg := Nat × List Int16

def Leg.timing (leg : Leg) : LegTiming := { path := [], firstRTPTime := some leg.1 }

section

variable (tools : WavTools) (rate : Nat) (legs : List Leg)

def combineLegs : Combined where
  sampleRate := rate
  padding := calculatePadding tools (legs.map Leg.timing) rate
  sources := legs.map (·.2)

/-- Simultaneous samples of different legs are on frames that differ by at most one. -/
def Aligned : Prop :=
  ∀ (i j : Nat) (a b : Leg) (first second : ChannelState), i ≠ j →
    legs[i]? = some a → legs[j]? = some b →
    (combineLegs tools rate legs).placed[i]? = some first →
    (combineLegs tools rate legs).placed[j]? = some second →
    ∀ n < a.2.length, ∀ m < b.2.length, Simultaneous rate a.1 b.1 n m →
      first.frame n ≤ second.frame m + 1

/-- What `int(delta.Seconds() * float64(rate))` is next to a whole sample period. -/
structure CountsPeriods : Prop where
  less : ∀ delta : Nat, delta * rate < 1000000000 → tools.padSamples delta rate = 0
  more : ∀ delta : Nat, 1000000000 < delta * rate → tools.padSamples delta rate ≠ 0

/-- Every leg is still recorded when the last one starts. -/
def Overlapping : Prop :=
  ∀ a ∈ legs, a.2 ≠ [] ∧ ∀ b ∈ legs, b.1 * rate < a.1 * rate + a.2.length * 1000000000

end

variable {tools : WavTools} {rate : Nat} {legs : List Leg}

def latest (legs : List Leg) : Nat := largest Prod.fst legs

theorem exists_latest (some_leg : legs ≠ []) : ∃ leg ∈ legs, leg.1 = latest legs := by
  by_contra none
  have below : ∀ leg ∈ legs, leg.1 ≤ latest legs - 1 := by
    intro leg mem
    have least := le_largest Prod.fst mem
    have other : leg.1 ≠ latest legs := fun same => none ⟨leg, mem, same⟩
    unfold latest at other ⊢
    omega
  obtain ⟨leg, mem⟩ := exists_mem_of_ne_nil legs some_leg
  have least : latest legs ≤ latest legs - 1 := largest_le_iff.mpr below
  exact none ⟨leg, mem, by have := below leg mem; omega⟩

theorem foldl_max_cast (numbers : List Nat) (start : Nat) :
    (numbers.map fun number : Nat => (number : Int)).foldl max (start : Int) =
      (numbers.foldl max start : Nat) := by
  induction numbers generalizing start with
  | nil => rfl
  | cons number numbers ih =>
    rw [map_cons, foldl_cons, foldl_cons, ← ih]
    congr 1
    omega

def padding (tools : WavTools) (rate : Nat) (legs : List Leg) (leg : Leg) : Nat :=
  if leg.1 < latest legs then tools.padSamples (latest legs - leg.1 : Nat) rate else 0

theorem calculatePadding_eq :
    calculatePadding tools (legs.map Leg.timing) rate = legs.map (padding tools rate legs) := by
  have newest : ((legs.map Leg.timing).map fun leg => leg.firstRTPTime.getD 0).foldl max 0 =
      (latest legs : Nat) := by
    have cast := foldl_max_cast (legs.map Prod.fst) 0
    rw [map_map] at cast ⊢
    exact cast
  have timed : (legs.map Leg.timing).all (·.firstRTPTime.isSome) = true := by
    simp [Leg.timing]
  simp only [calculatePadding, timed, if_true, newest]
  rw [map_map]
  refine map_congr_left fun leg mem => ?_
  simp only [Function.comp, Leg.timing, Option.getD_some]
  have least : leg.1 ≤ latest legs := le_largest Prod.fst mem
  have early : (latest legs : Int) - leg.1 > 0 ↔ leg.1 < latest legs := by omega
  simp only [early, padding, Int.ofNat_sub least]

/-- Each leg is placed behind its padding, and right at the start if it has none. -/
theorem placed_getElem? {i : Nat} {leg : Leg} (found : legs[i]? = some leg) :
    ∃ pad, (combineLegs tools rate legs).placed[i]? = some ⟨pad, leg.2⟩ ∧
      padding tools rate legs leg ≤ pad ∧ (padding tools rate legs leg = 0 → pad = 0) := by
  have channel : (combineLegs tools rate legs).channels[i]? =
      some ⟨padding tools rate legs leg, leg.2⟩ := by
    simp [Combined.channels, combineLegs, calculatePadding_eq, found]
  refine ⟨padding tools rate legs leg + delay 1024 (combineLegs tools rate legs).channels
    ⟨padding tools rate legs leg, leg.2⟩, ?_, Nat.le_add_right _ _, ?_⟩
  · rw [Combined.placed, getElem?_map, channel]
    rfl
  · intro none
    simp [none, delay]

theorem aligned_of_unpadded (counts : CountsPeriods tools rate)
    (unpadded : ∀ a ∈ legs, ∀ b ∈ legs, a.1 < b.1 →
      tools.padSamples (b.1 - a.1 : Nat) rate = 0) : Aligned tools rate legs := by
  intro i j a b first second _ foundA foundB placedA placedB n _ m _ together
  have flush : ∀ {k : Nat} {leg : Leg} {channel : ChannelState}, legs[k]? = some leg →
      (combineLegs tools rate legs).placed[k]? = some channel → channel.remainingPad = 0 := by
    intro k leg channel found placed
    obtain ⟨pad, isPlaced, -, none⟩ := @placed_getElem? tools rate _ _ _ found
    obtain rfl := Option.some.inj (placed.symm.trans isPlaced)
    refine none (ite_eq_right_iff.mpr fun early => ?_)
    obtain ⟨last, mem, same⟩ := exists_latest (ne_nil_of_mem (mem_of_getElem? found))
    rw [← same] at early ⊢
    exact unpadded leg (mem_of_getElem? found) last mem early
  have close : b.1 * rate ≤ a.1 * rate + 1000000000 := by
    by_contra apart
    have shifted : (b.1 - a.1) * rate = b.1 * rate - a.1 * rate := Nat.sub_mul _ _ _
    have later : a.1 < b.1 := by
      by_contra notLater
      have := Nat.mul_le_mul_right rate (Nat.le_of_not_lt notLater)
      omega
    exact counts.more (b.1 - a.1) (by omega) (unpadded a (mem_of_getElem? foundA) b
      (mem_of_getElem? foundB) later)
  unfold Simultaneous at together
  simp only [frame, flush foundA placedA, flush foundB placedB]
  omega

/-- The last leg is not padded, so a leg with padding has at least two frames too many before the
sample that was captured with its first one. -/
theorem unpadded_of_aligned (counts : CountsPeriods tools rate)
    (overlap : Overlapping rate legs) (aligned : Aligned tools rate legs) {a b : Leg}
    (memA : a ∈ legs) (memB : b ∈ legs) (earlier : a.1 < b.1) :
    tools.padSamples (b.1 - a.1 : Nat) rate = 0 := by
  by_contra padded
  obtain ⟨last, memLast, isLast⟩ := exists_latest (ne_nil_of_mem memA)
  have newest : b.1 ≤ last.1 := isLast ▸ le_largest Prod.fst memB
  have whole : 1000000000 ≤ (b.1 - a.1) * rate := by
    by_contra less
    exact padded (counts.less _ (Nat.lt_of_not_le less))
  have paddedA : padding tools rate legs a ≠ 0 := by
    rw [padding, ← isLast, if_pos (Nat.lt_of_lt_of_le earlier newest)]
    rcases Nat.eq_or_lt_of_le newest with same | later
    · rw [← same]
      exact padded
    · have positive : 0 < rate := Nat.pos_of_ne_zero fun zero => by simp [zero] at whole
      have longer : (b.1 - a.1) * rate < (last.1 - a.1) * rate :=
        Nat.mul_lt_mul_of_pos_right (by omega) positive
      exact counts.more _ (by omega)
  obtain ⟨i, foundA⟩ := getElem?_of_mem memA
  obtain ⟨j, foundLast⟩ := getElem?_of_mem memLast
  have apart : i ≠ j := by
    rintro rfl
    obtain rfl := Option.some.inj (foundA.symm.trans foundLast)
    omega
  obtain ⟨pad, placedA, least, -⟩ := @placed_getElem? tools rate _ _ _ foundA
  obtain ⟨none, placedLast, -, flush⟩ := @placed_getElem? tools rate _ _ _ foundLast
  have flushed : none = 0 := flush (if_neg (by omega))
  have shifted : (last.1 - a.1) * rate = last.1 * rate - a.1 * rate := Nat.sub_mul _ _ _
  have farther : (b.1 - a.1) * rate ≤ (last.1 - a.1) * rate :=
    Nat.mul_le_mul_right rate (by omega)
  have recorded := (overlap a memA).2 last memLast
  have close := aligned i j a last _ _ apart foundA foundLast placedA placedLast
    ((last.1 - a.1) * rate / 1000000000) (by omega) 0
    (length_pos_iff.mpr (overlap last memLast).1) (by
      unfold Simultaneous
      omega)
  simp only [frame] at close
  omega

/-- Every sample of every leg is in its channel, behind the silence of the leg; and if all legs
overlap, simultaneous samples are on frames that differ by at most one exactly when no two legs
start so far apart that the difference comes to a sample. -/
theorem simultaneous_samples_iff (counts : CountsPeriods tools rate)
    (overlap : Overlapping rate legs) :
    (∀ (i n : Nat) (leg : Leg) (sample : Int16), legs[i]? = some leg → leg.2[n]? = some sample →
        ∃ channel frame, (combineLegs tools rate legs).placed[i]? = some channel ∧
          (combineLegs tools rate legs).frames[channel.frame n]? = some frame ∧
          frame[i]? = some sample) ∧
      (Aligned tools rate legs ↔ ∀ a ∈ legs, ∀ b ∈ legs, a.1 < b.1 →
        tools.padSamples (b.1 - a.1 : Nat) rate = 0) := by
  refine ⟨fun i n leg sample found inside => ?_, fun aligned a memA b memB => ?_,
    aligned_of_unpadded counts⟩
  · obtain ⟨pad, placed, -⟩ := @placed_getElem? tools rate _ _ _ found
    have within : n < leg.2.length := (List.getElem?_eq_some_iff.mp inside).1
    obtain ⟨frame, written, held⟩ := aligned_frame placed within
    refine ⟨⟨pad, leg.2⟩, frame, placed, ?_, held.trans inside⟩
    rw [Combined.frames_eq]
    exact written
  · exact unpadded_of_aligned counts overlap aligned memA memB

def exactTools : WavTools where
  readWav _ := none
  writeWav _ _ _ := []
  padSamples delta rate := (delta * rate / 1000000000).toNat
  overwritten := []

theorem exactTools_counts (rate : Nat) : CountsPeriods exactTools rate := by
  constructor <;> intro delta size <;> simp only [exactTools] <;> omega

/-- Three legs at 8 kHz that start within a period of 125 microseconds. -/
theorem close_legs_aligned :
    Aligned exactTools 8000 [(10000, [1, 2, 3]), (50000, [4, 5, 6]), (120000, [7, 8])] := by
  refine (simultaneous_samples_iff (exactTools_counts 8000) ?_).2.mpr ?_
  · simp [Overlapping]
  · decide

/-- Two legs at 8 kHz, the second of which starts two sample periods after the first.  The
first is padded by two samples and its silence filled up to four frames; its third sample ends
six frames after the sample of the other leg that was captured with it. -/
theorem simultaneous_samples_apart :
    let legs : List Leg := [(10000000000, [1, 2, 3, 4]), (10000250000, [5, 6, 7, 8])]
    Simultaneous 8000 10000000000 10000250000 2 0 ∧
      (combineLegs exactTools 8000 legs).frames =
        [[0, 5], [0, 6], [0, 7], [0, 8], [1, 0], [2, 0], [3, 0], [4, 0]] ∧
      ¬ Aligned exactTools 8000 legs := by
  intro legs
  refine ⟨by unfold Simultaneous; omega, by decide, fun aligned => ?_⟩
  have close := aligned 0 1 _ _ ⟨4, [1, 2, 3, 4]⟩ ⟨0, [5, 6, 7, 8]⟩ (by decide) rfl rfl (by decide)
    (by decide) 2 (by decide) 0 (by decide) (by unfold Simultaneous; omega)
  exact absurd close (by decide)

end SiprecServer.Media
