import SiprecServer.Media.WavFile

/-!
# What a WAV file says about the samples written to it

The sizes in the header are those of the first `Finalize`, in 32 bits.  Later samples still
go to the file, and a counter that wraps around is not reported: the only error the writer
has of its own is that of `SetFormat` on a finalized file.
-/

namespace SiprecServer.Media.WavFile

open Lib LittleEndian List

def Call.isFinalize : Call → Bool
  | .finalize => true
  | _ => false

def Call.written : Call → Bytes
  | .write p accepted => p.take accepted
  | _ => []

def Call.format (format : Nat × Nat) : Call → Nat × Nat
  | .setFormat sampleRate channels =>
    (WAVWriter.orKept sampleRate format.1, WAVWriter.orKept channels format.2)
  | _ => format

def written (calls : List Call) : Bytes := calls.flatMap Call.written

variable (calls : List Call)

def beforeFinalize : List Call := calls.takeWhile fun call => !call.isFinalize

def fromFinalize : List Call := calls.dropWhile fun call => !call.isFinalize

def lastFormat (format : Nat × Nat) (calls : List Call) : Nat × Nat :=
  (beforeFinalize calls).foldl Call.format format

theorem before_append_from : beforeFinalize calls ++ fromFinalize calls = calls :=
  takeWhile_append_dropWhile

theorem beforeFinalize_goes_on : ∀ call ∈ beforeFinalize calls, call.isFinalize = false := by
  intro call mem
  simpa using all_eq_true.mp all_takeWhile call mem

theorem fromFinalize_cases :
    fromFinalize calls = [] ∨ ∃ later, fromFinalize calls = .finalize :: later := by
  induction calls with
  | nil => exact .inl rfl
  | cons call calls ih =>
    cases call with
    | setFormat sampleRate channels => exact ih
    | write p accepted => exact ih
    | finalize => exact .inr ⟨calls, rfl⟩

/-! ## The header in the file -/

theorem writeAt_middle {offset : Nat} {front bytes old rest : Bytes} (start : front.length = offset)
    (same : old.length = bytes.length) :
    writeAt offset bytes (front ++ (old ++ rest)) = front ++ (bytes ++ rest) := by
  subst start
  simp [writeAt, drop_append, ← same]

open WAVWriter

namespace WAVWriter

def Holds (writer : WAVWriter) (chunkSize dataSize : Nat) (data : Bytes) : Prop :=
  writer.file = header writer.sampleRate writer.channels chunkSize dataSize ++ data

theorem writeHeaderLocked_holds (writer : WAVWriter) :
    writer.writeHeaderLocked.Holds 36 0 (writer.file.drop 44) := by
  simp [Holds, writeHeaderLocked, writeAt]

variable {writer : WAVWriter} {data : Bytes} {format : Nat × Nat}

theorem Holds.updateSizesLocked {chunkSize dataSize : Nat}
    (holds : writer.Holds chunkSize dataSize data) :
    writer.updateSizesLocked.Holds ((writer.bytesWritten + 36) % 2 ^ 32) writer.bytesWritten
      data := by
  generalize middle_eq : ascii "WAVE" ++ (ascii "fmt " ++ (encode 4 16 ++
    (formatChunk writer.sampleRate writer.channels ++ ascii "data"))) = middle
  have header_eq : ∀ c d : Nat, header writer.sampleRate writer.channels c d ++ data =
      ascii "RIFF" ++
        (encode 4 c ++ (middle ++ (encode 4 d ++ data))) := by
    simp [header, ← middle_eq]
  have front : ∀ c : Nat,
      (ascii "RIFF" ++ (encode 4 c ++ middle)).length = 40 := by
    simp [← middle_eq, ascii]
  have same : ∀ c d : Nat, (encode 4 c).length = (encode 4 d).length := by
    simp
  have second := fun c => @writeAt_middle _ _ (encode 4 writer.bytesWritten) _ data
    (front c) (same dataSize _)
  simp only [append_assoc] at second
  simp only [Holds, WAVWriter.updateSizesLocked, header_eq]
  rw [holds, header_eq, writeAt_middle (by decide) (same _ _), second]

structure Writing (writer : WAVWriter) (data : Bytes) (format : Nat × Nat) : Prop where
  headerWritten : writer.headerWritten = true
  finalized : writer.finalized = false
  format : (writer.sampleRate, writer.channels) = format
  bytesWritten : writer.bytesWritten = data.length % 2 ^ 32
  holds : ∃ chunkSize dataSize, writer.Holds chunkSize dataSize data

/-- A finalized writer: `data` was there when the sizes were set, `later` came after. -/
structure Finalized (writer : WAVWriter) (data later : Bytes) (format : Nat × Nat) : Prop where
  headerWritten : writer.headerWritten = true
  finalized : writer.finalized = true
  format : (writer.sampleRate, writer.channels) = format
  holds : writer.Holds ((data.length % 2 ^ 32 + 36) % 2 ^ 32) (data.length % 2 ^ 32)
    (data ++ later)

variable (sampleRate channels : Int) (calls : List Call)

theorem new_writing :
    (new sampleRate channels).Writing [] (orKept sampleRate 8000, orKept channels 1) where
  headerWritten := rfl
  finalized := rfl
  format := rfl
  bytesWritten := rfl
  holds := ⟨36, 0, writeHeaderLocked_holds _⟩

theorem withHeader_eq (headerWritten : writer.headerWritten = true) : writer.withHeader = writer :=
  if_pos headerWritten

theorem Writing.step (writing : writer.Writing data format) {call : Call}
    (goes_on : call.isFinalize = false) :
    (writer.step call).Writing (data ++ call.written) (call.format format) := by
  obtain ⟨headerWritten, finalized, rfl, bytesWritten, chunkSize, dataSize, holds⟩ := writing
  cases call with
  | setFormat sampleRate channels =>
    have rewritten : writer.step (.setFormat sampleRate channels) =
        { writer with
          sampleRate := orKept sampleRate writer.sampleRate
          channels := orKept channels writer.channels }.writeHeaderLocked.updateSizesLocked := by
      simp [WAVWriter.step, setFormat, rewriteHeaderLocked, finalized, headerWritten]
    have data_eq : writer.file.drop 44 = data := by
      rw [holds, drop_left' (length_header _ _ _ _)]
    have held := (writeHeaderLocked_holds { writer with
      sampleRate := orKept sampleRate writer.sampleRate
      channels := orKept channels writer.channels }).updateSizesLocked
    rw [data_eq] at held
    rw [rewritten, show (Call.setFormat sampleRate channels).written = [] from rfl, append_nil]
    exact ⟨rfl, finalized, rfl, bytesWritten, _, _, held⟩
  | write p accepted =>
    refine ⟨?_, ?_, ?_, ?_, chunkSize, dataSize, ?_⟩
    all_goals
      simp only [WAVWriter.step, write, withHeader_eq headerWritten, Call.written, Call.format]
    · exact headerWritten
    · exact finalized
    · simp [bytesWritten]
    · simp only [Holds]
      rw [holds, append_assoc]
  | finalize => cases goes_on

theorem Writing.finalize (writing : writer.Writing data format) :
    (writer.step .finalize).Finalized data [] format := by
  obtain ⟨headerWritten, finalized, rfl, bytesWritten, chunkSize, dataSize, holds⟩ := writing
  have set : writer.step .finalize = { writer.updateSizesLocked with finalized := true } := by
    simp [WAVWriter.step, finalize, finalized, withHeader_eq headerWritten]
  have held := holds.updateSizesLocked
  rw [bytesWritten] at held
  rw [set]
  exact ⟨headerWritten, rfl, rfl, by simpa [Holds] using held⟩

theorem Finalized.step {later : Bytes} (done : writer.Finalized data later format) (call : Call) :
    (writer.step call).Finalized data (later ++ call.written) format := by
  obtain ⟨headerWritten, finalized, rfl, holds⟩ := done
  cases call with
  | setFormat sampleRate channels =>
    have kept : writer.step (.setFormat sampleRate channels) = writer := by
      simp [WAVWriter.step, setFormat, finalized]
    rw [kept]
    exact ⟨headerWritten, finalized, rfl, by simpa [Call.written] using holds⟩
  | write p accepted =>
    refine ⟨?_, ?_, ?_, ?_⟩
    all_goals simp only [WAVWriter.step, write, withHeader_eq headerWritten, Call.written]
    · exact headerWritten
    · exact finalized
    · simp only [Holds]
      rw [holds]
      simp only [append_assoc]
  | finalize =>
    have kept : writer.step .finalize = writer := by
      simp [WAVWriter.step, finalize, finalized]
    rw [kept]
    exact ⟨headerWritten, finalized, rfl, by simpa [Call.written] using holds⟩

theorem Writing.run {calls : List Call} (goes_on : ∀ call ∈ calls, call.isFinalize = false) :
    ∀ {writer : WAVWriter} {data : Bytes} {format : Nat × Nat}, writer.Writing data format →
      (writer.run calls).Writing (data ++ written calls) (calls.foldl Call.format format) := by
  induction calls with
  | nil => simp [written, WAVWriter.run]
  | cons call calls ih =>
    intro writer data format writing
    have stepped := writing.step (goes_on call mem_cons_self)
    have rest := ih (fun later mem => goes_on later (mem_cons_of_mem _ mem)) stepped
    simpa [written, WAVWriter.run] using rest

theorem Finalized.run :
    ∀ {writer : WAVWriter} {data later : Bytes} {format : Nat × Nat},
      writer.Finalized data later format →
      (writer.run calls).Finalized data (later ++ written calls) format := by
  induction calls with
  | nil => simp [written, WAVWriter.run]
  | cons call calls ih =>
    intro writer data later format done
    simpa [written, WAVWriter.run] using ih (done.step call)

theorem run_finalized :
    ((new sampleRate channels).run (calls ++ [.finalize])).Finalized
      (written (beforeFinalize calls)) (written (fromFinalize calls))
      (lastFormat (orKept sampleRate 8000, orKept channels 1) calls) := by
  have writing := (new_writing sampleRate channels).run (beforeFinalize_goes_on calls)
  have split : (new sampleRate channels).run (calls ++ [.finalize]) =
      ((new sampleRate channels).run (beforeFinalize calls)).run
        (fromFinalize calls ++ [.finalize]) := by
    rw [WAVWriter.run, WAVWriter.run, WAVWriter.run, ← foldl_append, ← append_assoc,
      before_append_from]
  rw [split]
  obtain none | ⟨later, rest⟩ := fromFinalize_cases calls
  · rw [none]
    exact writing.finalize
  · rw [rest]
    have done := (writing.finalize.run later).step .finalize
    simpa [written, WAVWriter.run, Call.written, foldl_append, lastFormat] using done

end WAVWriter

def riffSize (file : Bytes) : Nat := decode ((file.drop 4).take 4)

def dataSize (file : Bytes) : Nat := decode ((file.drop 40).take 4)

/-- The sizes in the header are those of the file, and reading in portions of any size gives
the whole frames of the data in this format. -/
structure Faithful (file data : Bytes) (format : Nat × Nat) : Prop where
  riffSize : riffSize file = file.length - 8
  dataSize : dataSize file = file.length - 44
  readBack : ∃ reader, WAVReader.new file = .ok reader ∧
    reader.format = ⟨format.1, format.2, 16⟩ ∧
    ∀ size : Nat → Int, ∃ fuel,
      reader.readAll size fuel 0 = some (wholeFrames format.2 data)

section

variable (sampleRate channels chunkSize size : Nat) (data : Bytes)

theorem riffSize_header :
    WavFile.riffSize (header sampleRate channels chunkSize size ++ data) = chunkSize % 256 ^ 4 := by
  rw [← decode_encode]
  simp [WavFile.riffSize, header, ascii]

theorem dataSize_header :
    WavFile.dataSize (header sampleRate channels chunkSize size ++ data) = size % 256 ^ 4 := by
  have past : (formatChunk sampleRate channels).drop 20 = [] := by
    simp
  rw [← decode_encode]
  simp [WavFile.dataSize, header, ascii, drop_append, past]

end

theorem readBack_header {sampleRate channels chunkSize : Nat} {data : Bytes}
    (rate : sampleRate < 2 ^ 32) (number : channels < 2 ^ 16) (someChannel : 0 < channels)
    (fits : data.length < 2 ^ 32) :
    ∃ reader, WAVReader.new (header sampleRate channels chunkSize data.length ++ data) =
        .ok reader ∧ reader.format = ⟨sampleRate, channels, 16⟩ ∧
      ∀ size : Nat → Int, ∃ fuel,
        reader.readAll size fuel 0 = some (wholeFrames channels data) := by
  have rate_eq : sampleRate % 256 ^ 4 = sampleRate := Nat.mod_eq_of_lt rate
  have number_eq : channels % 256 ^ 2 = channels := Nat.mod_eq_of_lt number
  have size_eq : data.length % 256 ^ 4 = data.length := Nat.mod_eq_of_lt fits
  have opened := WAVReader.new_header sampleRate channels chunkSize data.length data
  rw [rate_eq, number_eq, size_eq] at opened
  refine ⟨_, opened, rfl, ?_⟩
  intro size
  refine Reading.readAll size 0 rfl ⟨rfl, someChannel, drop_left' (by simp), ?_⟩
  simp only [Nat.zero_add]
  split
  · rfl
  · rfl

theorem orKept_pos {value : Int} {kept : Nat} (positive : 0 < kept) :
    0 < orKept value kept := by
  unfold orKept
  split <;> omega

theorem channels_pos :
    ∀ {format : Nat × Nat}, 0 < format.2 → 0 < (calls.foldl Call.format format).2 := by
  induction calls with
  | nil =>
    intro format positive
    exact positive
  | cons call calls ih =>
    intro format positive
    apply ih
    cases call with
    | setFormat sampleRate channels => exact orKept_pos positive
    | write p accepted => exact positive
    | finalize => exact positive

/-- A file is faithful to the samples exactly when none came after the first `Finalize`, the
sizes fit their 32 bits, and so does the format its fields. -/
theorem wav_file_faithful_iff (sampleRate channels : Int) (calls : List Call) :
    Faithful ((WAVWriter.new sampleRate channels).run (calls ++ [.finalize])).file (written calls)
        (lastFormat (WAVWriter.orKept sampleRate 8000, WAVWriter.orKept channels 1) calls) ↔
      written (fromFinalize calls) = [] ∧ (written calls).length + 36 < 2 ^ 32 ∧
        (lastFormat (WAVWriter.orKept sampleRate 8000, WAVWriter.orKept channels 1) calls).1 <
          2 ^ 32 ∧
        (lastFormat (WAVWriter.orKept sampleRate 8000, WAVWriter.orKept channels 1) calls).2 <
          2 ^ 16 := by
  have someChannel : 0 < (lastFormat (orKept sampleRate 8000,
      orKept channels 1) calls).2 := channels_pos _ (orKept_pos Nat.one_pos)
  obtain ⟨-, -, format_eq, holds⟩ := run_finalized sampleRate channels calls
  have all : written calls = written (beforeFinalize calls) ++ written (fromFinalize calls) := by
    rw [written, written, written, ← flatMap_append, before_append_from]
  generalize lastFormat (orKept sampleRate 8000, orKept channels 1) calls =
    format at someChannel format_eq ⊢
  subst format_eq
  rw [holds, ← all]
  have total : (written calls).length =
      (written (beforeFinalize calls)).length + (written (fromFinalize calls)).length := by
    rw [all, length_append]
  constructor
  · rintro ⟨riff, size, reader, opened, format, -⟩
    rw [riffSize_header, length_append, length_header] at riff
    rw [WAVReader.new_header] at opened
    injection opened with opened
    rw [← opened] at format
    injection format with rate number
    refine ⟨eq_nil_of_length_eq_zero ?_, ?_, ?_, ?_⟩ <;> omega
  · rintro ⟨nothing, fits, rate, number⟩
    rw [nothing, length_nil, Nat.add_zero] at total
    have size_eq : (written (beforeFinalize calls)).length % 2 ^ 32 = (written calls).length := by
      omega
    rw [size_eq]
    refine ⟨?_, ?_, readBack_header rate number someChannel (by omega)⟩
    · rw [riffSize_header, length_append, length_header]
      omega
    · rw [dataSize_header, length_append, length_header]
      omega

/-- Two bytes after `Finalize`: a second `Finalize` leaves the sizes of an empty recording. -/
theorem late_sample_not_counted :
    let calls : List Call := [.finalize, .write [1, 2] 2]
    let file := ((new 8000 1).run (calls ++ [.finalize])).file
    written calls = [1, 2] ∧ file.length = 46 ∧ riffSize file = 36 ∧ dataSize file = 0 ∧
      ¬ Faithful file (written calls) (lastFormat (8000, 1) calls) := by
  refine ⟨by decide, by decide, by decide, by decide, ?_⟩
  intro faithful
  have size := faithful.dataSize
  revert size
  decide

end SiprecServer.Media.WavFile
