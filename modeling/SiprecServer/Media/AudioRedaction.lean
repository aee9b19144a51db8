import SiprecServer.Media.Cleanup
import SiprecServer.Media.IntervalMerging
import SiprecServer.Media.WavFile

/-!
# What the redaction of a recording silences

The processor that `Cleanup` builds takes every file for samples of two bytes at 8000 a second
from the first byte on.  A recording is a header of 44 bytes followed by frames at its own rate
with its own number of channels, so what is silenced is what was marked only if both clocks put
the intervals behind the end of the recording.
-/

namespace SiprecServer.Media

open Lib.FileSystem Lib.UnixPath List

def silence (mask : Nat → Bool) (content : List UInt8) : List UInt8 :=
  content.mapIdx fun i byte => if mask i then 0 else byte

theorem silence_nothing {mask : Nat → Bool} {content : List UInt8}
    (nothing : ∀ i < content.length, mask i = false) : silence mask content = content := by
  apply ext_getElem (length_mapIdx ..)
  intro i _ inside
  simp [nothing i inside]

/-- The byte belongs to a frame that lies in an interval; the header belongs to none. -/
def markedByte (rate channels : Nat) (intervals : List RedactionInterval) (b : Nat) : Bool :=
  decide (44 ≤ b) && intervals.any fun interval => interval.marks rate ((b - 44) / (channels * 2))

/-- A recording of `size` bytes is over when the interval begins, at 16000 bytes a second from its
first byte, and so is its last frame, at its own rate. -/
structure Late (size rate channels : Nat) (interval : RedactionInterval) : Prop where
  file : size * second ≤ interval.startOffset * 16000
  frames : ((size - 45) / (channels * 2) : Nat) * second < interval.startOffset * rate

theorem mergeFrom_starts {current merged : RedactionInterval} {rest : List RedactionInterval}
    (mem : merged ∈ mergeFrom current rest) :
    ∃ interval ∈ current :: rest, interval.startOffset = merged.startOffset := by
  induction rest generalizing current with
  | nil => exact ⟨merged, mem, rfl⟩
  | cons next rest ih =>
    unfold mergeFrom at mem
    split at mem
    · obtain ⟨interval, found, start⟩ := ih mem
      rcases mem_cons.mp found with rfl | later
      · exact ⟨current, mem_cons_self, (combineWith_bounds current next).1 ▸ start⟩
      · exact ⟨interval, mem_cons_of_mem _ (mem_cons_of_mem _ later), start⟩
    · rcases mem_cons.mp mem with rfl | later
      · exact ⟨merged, mem_cons_self, rfl⟩
      · obtain ⟨interval, found, start⟩ := ih later
        exact ⟨interval, mem_cons_of_mem _ found, start⟩

theorem merged_starts {intervals : List RedactionInterval} {merged : RedactionInterval}
    (mem : merged ∈ mergeOverlappingIntervals intervals) :
    ∃ interval ∈ intervals, interval.startOffset = merged.startOffset := by
  have sorts := @sortByStart_perm intervals intervals.length
  cases sorted : sortByStart intervals.length intervals with
  | nil =>
    rw [sorted] at sorts
    obtain rfl := sorts.nil_eq
    exact absurd mem not_mem_nil
  | cons current rest =>
    rw [merge_of_sort sorted] at mem
    obtain ⟨interval, found, start⟩ := mergeFrom_starts mem
    rw [sorted] at sorts
    exact ⟨interval, sorts.subset found, start⟩

section

variable {Frame : Type} {tools : Tools Frame} {size rate channels : Nat}
  {intervals : List RedactionInterval} (small : size < 2 ^ 32)
  (late : ∀ interval ∈ intervals, Late size rate channels interval)

include small

theorem bytesToDuration_le {bytes : Nat} (within : bytes ≤ size) :
    tools.processor.bytesToDuration bytes * 16000 ≤ size * second := by
  have exact_product : Int.bmod (bytes / 2 * second) (2 ^ 64) = bytes / 2 * second := by
    rw [second, Int.bmod_def]
    omega
  have same : tools.processor.bytesToDuration bytes =
      (Int.bmod (bytes / 2 * second) (2 ^ 64)).tdiv 8000 := rfl
  rw [same, exact_product, Int.tdiv_eq_ediv_of_nonneg (by rw [second]; omega), second]
  omega

include late

theorem sparesFrom_late {offset : Nat} {chunks : List Bytes}
    (within : offset + chunks.flatten.length ≤ size) :
    tools.processor.sparesFrom (mergeOverlappingIntervals intervals) offset chunks := by
  induction chunks generalizing offset with
  | nil => rfl
  | cons chunk rest ih =>
    rw [flatten_cons, length_append] at within
    refine Bool.and_eq_true_iff.mpr ⟨all_eq_true.mpr fun merged mem => ?_, ih (by omega)⟩
    obtain ⟨interval, found, start⟩ := merged_starts mem
    have ends := @bytesToDuration_le Frame tools size small (offset + chunk.length) (by omega)
    have begins := (late interval found).file
    have ended : ¬ tools.processor.bytesToDuration (offset + chunk.length) >
        merged.startOffset := by omega
    simp [PiiAudioProcessor.intervalsOverlap, ended]

omit small in
theorem markedByte_late {b : Nat} (inside : b < size) :
    markedByte rate channels intervals b = false := by
  rw [markedByte, Bool.and_eq_false_iff, any_eq_false]
  refine .inr fun interval mem marks => ?_
  have frames := (late interval mem).frames
  have earlier : (b - 44) / (channels * 2) ≤ (size - 45) / (channels * 2) :=
    Nat.div_le_div_right (by omega)
  simp only [RedactionInterval.marks, Bool.and_eq_true, decide_eq_true_eq] at marks
  rw [second] at frames marks
  omega

end

def exactProduct : Tools Unit where
  silent := ()
  readAudio _ := none
  encode _ _ := none
  rendered _ audio := audio
  encode_readable _ _ _ _ encoded := by cases encoded
  wholeSamples duration := duration * 8000 / second

def markedAt (startTime endTime : Int) : Forwarder where
  recordingPath := asciiBytes ['c', 'a', 'l', 'l']
  piiAudioMarker := some { startTime := 0, markers := [{ startTime, endTime, piiType := "ssn" }] }
  audioEncoder := none
  targetFormat := []
  encryptedMetadataPath := none
  storage := none
  sessionPresent := true
  isCleanedUp := false
  encrypted_stem _ absent := by cases absent

end SiprecServer.Media
