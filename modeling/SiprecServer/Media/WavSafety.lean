import SiprecServer.Media.WavFile

/-!
# Reading any file as a WAV file

The bytes of a format chunk are taken by their offsets, however short the chunk is, and the bytes
of the data are divided by the size of a frame, whatever it is.
-/

namespace SiprecServer.Media.WavFile

open Lib WAVReader

/-- Calls of any sizes reach the end without a panic, and return no more samples than the file can
hold. -/
def WAVReader.Safe (reader : WAVReader) : Prop :=
  ∀ size : Nat → Int, ∃ fuel samples, reader.readAll size fuel 0 = some samples ∧
    2 * samples.length ≤ reader.content.length

/-- The file is opened or refused as soon as its chunks have been seen, and then read safely. -/
structure SafelyRead (content : Bytes) : Prop where
  stops : ∀ extra, parseChunks content (content.length + extra) 12 none none =
    parseChunks content content.length 12 none none
  opens : new content ≠ .error .panic
  reads : ∀ reader, new content = .ok reader → reader.Safe

def longEnough (fmtChunk : Bytes) : Bool :=
  2 ≤ fmtChunk.length && (LittleEndian.decode (fmtChunk.take 2) ≠ 1 || 16 ≤ fmtChunk.length)

def hasFrames (content : Bytes) (format : Format) (data : Nat × Nat) : Bool :=
  (if data.2 = 0 then content.length - data.1 else data.2) = 0 ||
    format.channels * (format.bitsPerSample / 8) ≠ 0

/-- Every format chunk on the way of the reader is long enough, and the last one has frames. -/
def wellFormatted (content : Bytes) :
    (fuel position : Nat) → Option Format → Option (Nat × Nat) → Bool
  | _, _, some format, some data => hasFrames content format data
  | 0, _, _, _ => true
  | fuel + 1, position, format, data =>
    let chunkHeader := (content.drop position).take 8
    let chunkID := chunkHeader.take 4
    let chunkSize := LittleEndian.decode (chunkHeader.drop 4)
    let position := position + 8
    let fmtChunk := (content.drop position).take chunkSize
    if chunkHeader.length < 8 then true
    else if chunkID = ascii "fmt " then
      if fmtChunk.length < chunkSize then true
      else longEnough fmtChunk && match parseFormat fmtChunk with
        | .error _ => true
        | .ok format =>
          wellFormatted content fuel (position + chunkSize + (chunkSize - 16)) (some format) data
    else if chunkID = ascii "data" then
      wellFormatted content fuel (position + chunkSize) format (some (position, chunkSize))
    else wellFormatted content fuel (position + chunkSize) format data

def goesOn (content : Bytes) : Except ReadError (Format × Nat × Nat) → Bool
  | .error failure => failure ≠ .panic
  | .ok (format, data) => hasFrames content format data

theorem longEnough_eq (fmtChunk : Bytes) : longEnough fmtChunk = match parseFormat fmtChunk with
      | .error failure => (failure ≠ .panic : Bool)
      | .ok _ => true := by
  unfold parseFormat longEnough
  by_cases two : fmtChunk.length < 2
  · simp [two, Nat.not_le.mpr two]
  · by_cases pcm : LittleEndian.decode (fmtChunk.take 2) = 1
    · by_cases sixteen : fmtChunk.length < 16
      · simp [two, pcm, sixteen]
      · by_cases bits : LittleEndian.decode ((fmtChunk.drop 14).take 2) = 16 <;>
          simp [two, pcm, sixteen, bits, Nat.le_of_not_lt two, Nat.le_of_not_lt sixteen]
    · simp [two, Nat.le_of_not_lt two, pcm]

variable {content : Bytes} {format : Option Format} {data : Option (Nat × Nat)}

theorem goesOn_parseChunks (fuel position : Nat) :
    goesOn content (parseChunks content fuel position format data) =
      wellFormatted content fuel position format data := by
  induction fuel generalizing position format data with
  | zero => cases format <;> cases data <;> simp [parseChunks, wellFormatted, goesOn]
  | succ fuel ih =>
    cases format <;> cases data
    case some.some => simp [parseChunks, wellFormatted, goesOn]
    all_goals
      simp only [parseChunks, wellFormatted]
      split
      · simp [goesOn]
      · split
        · split
          · simp [goesOn]
          · rw [longEnough_eq]
            generalize parseFormat _ = parsed
            cases parsed with
            | error failure => simp [goesOn]
            | ok format => first | exact ih _ | simp [goesOn]
        · split <;> first | exact ih _ | simp [goesOn]

/-- The chunks have been seen after as many rounds as the file has bytes. -/
theorem parseChunks_add {fuel position : Nat} (enough : content.length ≤ position + fuel)
    (extra : Nat) :
    parseChunks content (fuel + extra) position format data =
      parseChunks content fuel position format data := by
  induction fuel generalizing position format data with
  | zero =>
    have past : content.drop position = [] := List.drop_eq_nil_of_le enough
    cases format <;> cases data <;> cases extra <;> simp [parseChunks, past]
  | succ fuel ih =>
    rw [Nat.add_right_comm]
    cases format <;> cases data
    case some.some => simp [parseChunks]
    all_goals
      simp only [parseChunks]
      repeat' split
      all_goals first | rfl | exact ih (by omega)

theorem length_samples_le (bytes : Bytes) : 2 * (samples bytes).length ≤ bytes.length := by
  induction bytes using samples.induct with
  | case1 low high rest ih =>
    simp only [samples, List.length_cons]
    omega
  | case2 bytes short => simp [samples]

namespace WAVReader

def bytesPerFrame (reader : WAVReader) : Nat :=
  reader.format.channels * (reader.format.bitsPerSample / 8)

theorem readSamples_cases (reader : WAVReader) (size : Int) :
    reader.readSamples size = .error .eof ∨
      (reader.readSamples size = .error .panic ∧ reader.bytesPerFrame = 0) ∨
      ∃ portion n, reader.readSamples size = .ok (portion, reader.advance n) ∧ 0 < n ∧
        2 * portion.length ≤ n ∧ reader.bytesRead + n ≤ reader.dataSize ∧
        reader.position + n ≤ reader.content.length := by
  unfold readSamples
  generalize (if size ≤ 0 then 1024 else size.toNat) = wanted
  split
  · exact .inl rfl
  · dsimp only
    split
    · rename_i nothing
      exact .inr (.inl ⟨rfl, nothing⟩)
    · split
      · exact .inl rfl
      · have most := Nat.div_mul_le_self (reader.dataSize - reader.bytesRead) reader.bytesPerFrame
        have fewer := Nat.mul_le_mul_right reader.bytesPerFrame (Nat.min_le_right wanted
          ((reader.dataSize - reader.bytesRead) / reader.bytesPerFrame))
        unfold bytesPerFrame at most fewer
        split
        · exact .inl rfl
        · rename_i some
          refine .inr (.inr ⟨_, _, rfl, Nat.pos_of_ne_zero some, ?_, ?_, ?_⟩)
          · exact Nat.le_trans (length_samples_le _) (List.length_take_le' _ _)
          · rw [List.length_take]
            omega
          · rw [List.length_take, List.length_drop] at some ⊢
            omega

variable {reader : WAVReader}

theorem readAll_of_frame (frame : reader.bytesPerFrame ≠ 0) (size : Nat → Int) (calls : Nat) :
    ∃ fuel samples, reader.readAll size fuel calls = some samples ∧
      2 * samples.length ≤ reader.content.length - reader.position := by
  induction left : reader.content.length - reader.position using Nat.strong_induction_on
    generalizing reader calls with
  | _ left ih =>
    rcases reader.readSamples_cases (size calls) with
      ended | ⟨-, nothing⟩ | ⟨portion, n, read, positive, short, -, inside⟩
    · exact ⟨1, [], by rw [readAll, ended], Nat.zero_le _⟩
    · exact absurd nothing frame
    · have frame' : (reader.advance n).bytesPerFrame ≠ 0 := frame
      have position : (reader.advance n).content.length - (reader.advance n).position =
          reader.content.length - (reader.position + n) := rfl
      obtain ⟨fuel, samples, later, most⟩ := ih _ (by omega) frame' (calls + 1) rfl
      refine ⟨fuel + 1, portion ++ samples, ?_, ?_⟩
      · rw [readAll, read]
        simp only [later, Option.map_some]
      · rw [List.length_append]
        omega

theorem frame_of_readAll {size : Nat → Int} {fuel calls : Nat} {all : List Int16}
    (read : reader.readAll size fuel calls = some all) (unread : reader.bytesRead < reader.dataSize) :
    reader.bytesPerFrame ≠ 0 := by
  intro nothing
  have panics : reader.readSamples (size calls) = .error .panic := by
    rw [readSamples, if_neg (Nat.not_le.mpr unread)]
    exact if_pos nothing
  cases fuel with
  | zero => cases read
  | succ fuel =>
    rw [readAll, panics] at read
    cases read

theorem safe_iff :
    reader.Safe ↔ (reader.bytesRead < reader.dataSize → reader.bytesPerFrame ≠ 0) := by
  constructor
  · intro safe
    obtain ⟨fuel, samples, read, -⟩ := safe fun _ => 0
    exact frame_of_readAll read
  · intro frame size
    by_cases unread : reader.bytesRead < reader.dataSize
    · obtain ⟨fuel, samples, read, most⟩ := readAll_of_frame (frame unread) size 0
      exact ⟨fuel, samples, read, by omega⟩
    · have ended : reader.readSamples (size 0) = .error .eof := if_pos (Nat.le_of_not_lt unread)
      exact ⟨1, [], by rw [readAll, ended], Nat.zero_le _⟩

end WAVReader

/-- Any file is read safely exactly if it has no RIFF/WAVE header, and is refused, or the format
chunks on the way of the reader are long enough and have frames. -/
theorem safelyRead_iff (content : Bytes) :
    SafelyRead content ↔ (12 ≤ content.length → content.take 4 = ascii "RIFF" →
      (content.drop 8).take 4 = ascii "WAVE" →
      wellFormatted content content.length 12 none none = true) := by
  have safely : SafelyRead content ↔ new content ≠ .error .panic ∧
      ∀ reader, new content = .ok reader → reader.Safe :=
    ⟨fun safely => ⟨safely.opens, safely.reads⟩,
      fun safely => ⟨parseChunks_add (Nat.le_add_left _ _), safely.1, safely.2⟩⟩
  rw [safely, ← goesOn_parseChunks, new]
  split
  · rename_i short
    simp [Nat.not_le.mpr short]
  · split
    · rename_i other
      tauto
    · rename_i long header
      rw [not_or, not_not, not_not] at header
      simp only [Nat.le_of_not_lt long, header, forall_const]
      cases parseChunks content content.length 12 none none with
      | error failure => simp [goesOn]
      | ok found =>
        simp [goesOn, hasFrames, safe_iff, bytesPerFrame,
          Nat.pos_iff_ne_zero, or_iff_not_imp_left]

/-- The reader takes the first two bytes of a format chunk without any. -/
theorem not_safelyRead_empty_format :
    ¬ SafelyRead
      (ascii "RIFF" ++ [12, 0, 0, 0] ++ ascii "WAVE" ++ ascii "fmt " ++ [0, 0, 0, 0]) :=
  fun safely => safely.opens rfl

end SiprecServer.Media.WavFile
