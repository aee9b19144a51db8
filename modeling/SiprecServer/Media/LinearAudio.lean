import SiprecServer.Media.RtpStream
import SiprecServer.Media.WavRoundTrip
import SiprecServer.Media.WavSafety

/-!
# Linear audio recorded and read back

The bytes of an L16 payload go to the file as they came, the high one first, and the reader takes
the first for the low one.
-/

namespace SiprecServer.Media.WavFile

open Lib WAVWriter WAVReader List

variable {G O : Type}

def networkOrder (s : Int16) : Bytes := (LittleEndian.encode 2 s.toUInt16.toNat).reverse

section

variable (libraries : Libraries G O)

def received (packets : List (List Int16)) : List Call :=
  packets.filterMap fun packet =>
    (decodeAudioPayload libraries (packet.flatMap networkOrder) "L16").map fun pcm =>
      .write pcm pcm.length

def recording (sampleRate channels : Int) (packets : List (List Int16)) : Bytes :=
  ((new sampleRate channels).run (received libraries packets ++ [.finalize])).file

def ReadsBack (file : Bytes) (sent : List Int16) : Prop :=
  ∃ reader, new file = .ok reader ∧
    ∀ size : Nat → Int, ∃ fuel, reader.readAll size fuel 0 = some sent

theorem received_cons (packet : List Int16) (packets : List (List Int16)) :
    received libraries (packet :: packets) =
      .write (packet.flatMap networkOrder) (packet.flatMap networkOrder).length ::
        received libraries packets := by
  simp [received, decodeAudioPayload]

theorem recording_eq (sampleRate channels : Int) (packets : List (List Int16)) :
    ∃ chunkSize, recording libraries sampleRate channels packets =
      header (orKept sampleRate 8000) (orKept channels 1) chunkSize
        ((packets.flatten.flatMap networkOrder).length % 2 ^ 32) ++
        packets.flatten.flatMap networkOrder := by
  have calls : ∀ format, (∀ call ∈ received libraries packets, call.isFinalize = false) ∧
      written (received libraries packets) = packets.flatten.flatMap networkOrder ∧
      (received libraries packets).foldl Call.format format = format := by
    intro format
    induction packets with
    | nil => simp [received, written]
    | cons packet packets ih =>
      obtain ⟨goes_on, all, kept⟩ := ih
      rw [received_cons]
      refine ⟨forall_mem_cons.mpr ⟨rfl, goes_on⟩, ?_, kept⟩
      rw [flatten_cons, flatMap_append, ← all]
      simp [written, Call.written]
  obtain ⟨goes_on, all, kept⟩ := calls (_, _)
  have done := ((new_writing sampleRate channels).run goes_on).finalize
  rw [all, kept, nil_append] at done
  obtain ⟨-, -, format, holds⟩ := done
  injection format with rate number
  rw [Holds, rate, number, append_nil] at holds
  rw [recording, run, foldl_append]
  exact ⟨_, holds⟩

end

variable {reader : WAVReader} {size : Nat → Int}

namespace WAVReader

theorem length_readAll_le {fuel calls : Nat} {all : List Int16}
    (read : reader.readAll size fuel calls = some all) :
    2 * all.length ≤ reader.dataSize - reader.bytesRead := by
  induction fuel generalizing reader calls all with
  | zero => cases read
  | succ fuel ih =>
    rw [readAll] at read
    rcases reader.readSamples_cases (size calls) with
      ended | ⟨panics, -⟩ | ⟨portion, n, some, -, short, inside, -⟩
    · rw [ended] at read
      cases read
      exact Nat.zero_le _
    · rw [panics] at read
      cases read
    · rw [some] at read
      obtain ⟨rest, later, rfl⟩ := Option.map_eq_some_iff.mp read
      have := ih later
      simp only [advance] at this
      rw [length_append]
      omega

theorem readAll_unique {fuel fuel' calls : Nat} {all all' : List Int16}
    (read : reader.readAll size fuel calls = some all)
    (read' : reader.readAll size fuel' calls = some all') : all = all' := by
  induction fuel generalizing reader fuel' calls all all' with
  | zero => cases read
  | succ fuel ih =>
    cases fuel' with
    | zero => cases read'
    | succ fuel' =>
      rw [readAll] at read read'
      split at read
      · simp_all
      · cases read
      · rename_i portion reader some
        rw [some] at read'
        obtain ⟨rest, later, rfl⟩ := Option.map_eq_some_iff.mp read
        obtain ⟨rest', later', rfl⟩ := Option.map_eq_some_iff.mp read'
        rw [ih later later']

end WAVReader

def swapped (s : Int16) : Int16 :=
  (UInt16.ofNat (s.toUInt16.toNat / 256 + 256 * (s.toUInt16.toNat % 256))).toInt16

theorem samples_networkOrder (sent : List Int16) :
    samples (sent.flatMap networkOrder) = sent.map swapped := by
  induction sent with
  | nil => rfl
  | cons s sent ih =>
    have bounded := s.toUInt16.toNat_lt
    have high : s.toUInt16.toNat / 256 % 256 = s.toUInt16.toNat / 256 := by
      omega
    simp [networkOrder, LittleEndian.encode, samples, ih, sample, LittleEndian.decode, swapped, high]

theorem swapped_eq_iff (s : Int16) :
    swapped s = s ↔ s.toUInt16.toNat / 256 = s.toUInt16.toNat % 256 := by
  have bounded := s.toUInt16.toNat_lt
  have exchanged : (swapped s).toUInt16.toNat =
      s.toUInt16.toNat / 256 + 256 * (s.toUInt16.toNat % 256) := by
    rw [swapped, UInt16.toUInt16_toInt16, UInt16.toNat_ofNat']
    omega
  have bytes : swapped s = s ↔ (swapped s).toUInt16 = s.toUInt16 :=
    ⟨congrArg Int16.toUInt16, congrArg UInt16.toInt16⟩
  rw [bytes, ← UInt16.toNat_inj, exchanged]
  omega

theorem length_networkOrder (sent : List Int16) :
    (sent.flatMap networkOrder).length = sent.length * 2 := by
  simp [networkOrder]

theorem wholeFrames_eq_iff (channels : Nat) (sent : List Int16) :
    wholeFrames channels (sent.flatMap networkOrder) = sent ↔
      channels ∣ sent.length ∧ ∀ s ∈ sent, swapped s = s := by
  have whole : channels ∣ sent.length ↔
      sent.length * 2 ≤ sent.length * 2 / (channels * 2) * (channels * 2) := by
    rw [← Nat.mul_dvd_mul_iff_right Nat.two_pos, Nat.dvd_iff_div_mul_eq]
    exact ⟨fun same => Nat.le_of_eq same.symm, Nat.le_antisymm (Nat.div_mul_le_self _ _)⟩
  have all : channels ∣ sent.length →
      wholeFrames channels (sent.flatMap networkOrder) = sent.map swapped := by
    intro divides
    rw [wholeFrames, length_networkOrder,
      take_of_length_le ((length_networkOrder sent).trans_le (whole.mp divides)),
      samples_networkOrder]
  have divides : wholeFrames channels (sent.flatMap networkOrder) = sent →
      channels ∣ sent.length := by
    intro same
    have length := congrArg List.length same
    have most := length_samples_le
      ((sent.flatMap networkOrder).take (sent.length * 2 / (channels * 2) * (channels * 2)))
    rw [wholeFrames, length_networkOrder] at length
    rw [length_take] at most
    rw [whole]
    omega
  have kept : sent.map swapped = sent ↔ ∀ s ∈ sent, swapped s = s := by
    simpa using (map_inj_left : sent.map swapped = sent.map id ↔ _)
  constructor
  · exact fun same => ⟨divides same, kept.mp (all (divides same) ▸ same)⟩
  · rintro ⟨divided, fixed⟩
    exact (all divided).trans (kept.mpr fixed)

/-- The recording is read back as it was sent exactly if the two bytes of every sample are equal,
the frames are complete and the size fits its 32 bits or seems to be missing. -/
theorem recording_readsBack_iff (libraries : Libraries G O) (sampleRate channels : Int)
    (packets : List (List Int16)) :
    ReadsBack (recording libraries sampleRate channels packets) packets.flatten ↔
      orKept channels 1 % 2 ^ 16 ∣ packets.flatten.length ∧
        (2 * packets.flatten.length < 2 ^ 32 ∨ 2 ^ 32 ∣ 2 * packets.flatten.length) ∧
        ∀ s ∈ packets.flatten, s.toUInt16.toNat / 256 = s.toUInt16.toNat % 256 := by
  obtain ⟨chunkSize, file⟩ := recording_eq libraries sampleRate channels packets
  generalize packets.flatten = sent at file ⊢
  rw [file, ReadsBack, new_header, length_networkOrder]
  simp only [Except.ok.injEq, exists_eq_left', ← swapped_eq_iff]
  generalize held : header _ _ chunkSize _ ++ _ = content
  have left : content.drop 44 = sent.flatMap networkOrder := by
    rw [← held]
    exact drop_left' (length_header _ _ _ _)
  generalize orKept channels 1 % 2 ^ 16 = channels
  by_cases fits : 2 * sent.length < 2 ^ 32 ∨ 2 ^ 32 ∣ 2 * sent.length
  · have size : (if sent.length * 2 % 2 ^ 32 % 256 ^ 4 = 0 then sent.length * 2
        else sent.length * 2 % 2 ^ 32 % 256 ^ 4) = sent.length * 2 := by
      split <;> omega
    simp only [size, fits, true_and, ← wholeFrames_eq_iff]
    obtain rfl | positive := Nat.eq_zero_or_pos channels
    · have nothing : wholeFrames 0 (sent.flatMap networkOrder) = [] := by
        simp [wholeFrames, samples]
      rw [nothing]
      constructor
      · intro read
        obtain ⟨fuel, read⟩ := read fun _ => 0
        have empty := mt (frame_of_readAll read) (by simp [bytesPerFrame])
        exact Eq.symm (by simpa using empty)
      · rintro rfl size
        exact ⟨1, rfl⟩
    · have all : ∀ size : Nat → Int, ∃ fuel, readAll size fuel 0
          ⟨content, ⟨orKept sampleRate 8000 % 256 ^ 4, channels, 16⟩, sent.length * 2, 44,
            0⟩ = some (wholeFrames channels (sent.flatMap networkOrder)) := fun size =>
        Reading.readAll size 0 rfl ⟨rfl, positive, left, by rw [length_networkOrder, Nat.zero_add]⟩
      constructor
      · intro read
        obtain ⟨fuel, read⟩ := read fun _ => 0
        obtain ⟨fuel', whole⟩ := all fun _ => 0
        exact readAll_unique whole read
      · intro same
        rwa [same] at all
  · simp only [fits, false_and, and_false, iff_false]
    intro read
    obtain ⟨fuel, read⟩ := read fun _ => 0
    have most := length_readAll_le read
    simp only at most
    split at most <;> omega

theorem sample_read_back_swapped : ¬ ReadsBack (recording RtpStream.noLibraries 8000 1 [[1]]) [1] := by
  rintro ⟨reader, opened, read⟩
  obtain ⟨fuel, read⟩ := read fun _ => 0
  have other : (match new (recording RtpStream.noLibraries 8000 1 [[1]]) with
      | .ok reader => reader.readAll (fun _ => 0) 2 0
      | .error _ => none) = some [256] := by
    decide
  rw [opened] at other
  exact absurd (readAll_unique read other) (by decide)

end SiprecServer.Media.WavFile
