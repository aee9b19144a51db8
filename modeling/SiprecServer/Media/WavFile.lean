import SiprecServer.Lib.LittleEndian

/-!
# WAV files

The writer puts a header of 44 bytes in front of the samples and updates its two sizes when
the format changes and when the file is finalized, once.  The reader goes through the chunks
of a file until it has seen a format and a data chunk and then hands out the samples in
portions.
-/

namespace SiprecServer.Media.WavFile

open Lib LittleEndian List

abbrev Bytes := List UInt8

def ascii (text : String) : Bytes := text.toList.map fun c => .ofNat c.toNat

def writeAt (offset : Nat) (bytes content : Bytes) : Bytes :=
  content.take offset ++ bytes ++ content.drop (offset + bytes.length)

/-! ## The writer -/

structure WAVWriter where
  file : Bytes
  sampleRate : Nat
  channels : Nat
  -- a counter of 32 bits
  bytesWritten : Nat
  headerWritten : Bool
  finalized : Bool

section

variable (sampleRate channels : Nat)

/-- The sixteen bytes of the format chunk: PCM, the channels, the rate, the bytes in a second
and in a frame, and 16 bits for a sample. -/
def formatChunk : Bytes :=
  encode 2 1 ++ encode 2 channels ++
    encode 4 sampleRate ++ encode 4 (sampleRate * channels * 2) ++
    encode 2 (channels * 2) ++ encode 2 16

def header (chunkSize dataSize : Nat) : Bytes :=
  ascii "RIFF" ++ (encode 4 chunkSize ++ (ascii "WAVE" ++
    (ascii "fmt " ++ (encode 4 16 ++ (formatChunk sampleRate channels ++
      (ascii "data" ++ encode 4 dataSize))))))

@[simp]
theorem length_formatChunk : (formatChunk sampleRate channels).length = 16 := by
  simp [formatChunk]

@[simp]
theorem length_header (chunkSize dataSize : Nat) :
    (header sampleRate channels chunkSize dataSize).length = 44 := by
  simp [header, ascii]

end

namespace WAVWriter

variable (writer : WAVWriter)

def writeHeaderLocked : WAVWriter :=
  { writer with
    file := writeAt 0 (header writer.sampleRate writer.channels 36 0) writer.file
    headerWritten := true }

def updateSizesLocked : WAVWriter :=
  let fileSize := (writer.bytesWritten + 36) % 2 ^ 32
  { writer with
    file := writeAt 40 (encode 4 writer.bytesWritten)
      (writeAt 4 (encode 4 fileSize) writer.file) }

def rewriteHeaderLocked : WAVWriter :=
  if writer.headerWritten then writer.writeHeaderLocked.updateSizesLocked
  else writer.writeHeaderLocked

def orKept (value : Int) (kept : Nat) : Nat := if 0 < value then value.toNat else kept

def new (sampleRate channels : Int) : WAVWriter :=
  writeHeaderLocked
    { file := []
      sampleRate := orKept sampleRate 8000
      channels := orKept channels 1
      bytesWritten := 0
      headerWritten := false
      finalized := false }

def setFormat (sampleRate channels : Int) : WAVWriter × Option String :=
  if writer.finalized then (writer, some "cannot change WAV format after finalization")
  else
    ({ writer with
        sampleRate := orKept sampleRate writer.sampleRate
        channels := orKept channels writer.channels }.rewriteHeaderLocked, none)

def withHeader : WAVWriter :=
  if writer.headerWritten then writer else writer.writeHeaderLocked

def write (p : Bytes) (accepted : Nat) : WAVWriter :=
  let writer := writer.withHeader
  let written := p.take accepted
  { writer with
    file := writer.file ++ written
    bytesWritten := (writer.bytesWritten + written.length) % 2 ^ 32 }

def finalize : WAVWriter :=
  if writer.finalized then writer
  else { writer.withHeader.updateSizesLocked with finalized := true }

end WAVWriter

inductive Call where
  | setFormat (sampleRate channels : Int)
  | write (p : Bytes) (accepted : Nat)
  | finalize

def WAVWriter.step (writer : WAVWriter) : Call → WAVWriter
  | .setFormat sampleRate channels => (writer.setFormat sampleRate channels).1
  | .write p accepted => writer.write p accepted
  | .finalize => writer.finalize

def WAVWriter.run (writer : WAVWriter) (calls : List Call) : WAVWriter := calls.foldl step writer

structure Format where
  sampleRate : Nat
  channels : Nat
  bitsPerSample : Nat
deriving DecidableEq

inductive ReadError where
  | eof
  | invalid (message : String)
  -- an index out of range or a division by zero
  | panic
deriving DecidableEq

def parseFormat (fmtChunk : Bytes) : Except ReadError Format :=
  if fmtChunk.length < 2 then .error .panic
  else
    let audioFormat := decode (fmtChunk.take 2)
    if audioFormat ≠ 1 then .error (.invalid ("unsupported audio format: " ++ toString audioFormat))
    else if fmtChunk.length < 16 then .error .panic
    else
      let bitsPerSample := decode ((fmtChunk.drop 14).take 2)
      if bitsPerSample ≠ 16 then
        .error (.invalid ("unsupported bits per sample: " ++ toString bitsPerSample))
      else
        .ok
          { sampleRate := decode ((fmtChunk.drop 4).take 4)
            channels := decode ((fmtChunk.drop 2).take 2)
            bitsPerSample }

/-- The loop over the chunks: the format, and the offset and the size of the data.  Every round
reads eight bytes further on, so that as many rounds as the file has bytes are enough. -/
def parseChunks (content : Bytes) :
    (fuel position : Nat) → Option Format → Option (Nat × Nat) →
      Except ReadError (Format × Nat × Nat)
  | _, _, some format, some data => .ok (format, data)
  | 0, _, _, _ => .error .eof
  | fuel + 1, position, format, data =>
    let chunkHeader := (content.drop position).take 8
    if chunkHeader.length < 8 then .error .eof
    else
      let chunkID := chunkHeader.take 4
      let chunkSize := decode (chunkHeader.drop 4)
      let position := position + 8
      if chunkID = ascii "fmt " then
        let fmtChunk := (content.drop position).take chunkSize
        if fmtChunk.length < chunkSize then .error .eof
        else
          match parseFormat fmtChunk with
          | .error failure => .error failure
          | .ok format =>
            -- what exceeds 16 bytes has been read and is skipped once more
            parseChunks content fuel (position + chunkSize + (chunkSize - 16)) (some format)
              data
      else if chunkID = ascii "data" then
        parseChunks content fuel (position + chunkSize) format (some (position, chunkSize))
      else parseChunks content fuel (position + chunkSize) format data

structure WAVReader where
  content : Bytes
  format : Format
  dataSize : Nat
  position : Nat
  bytesRead : Nat

def WAVReader.new (content : Bytes) : Except ReadError WAVReader :=
  if content.length < 12 then .error .eof
  else if content.take 4 ≠ ascii "RIFF" ∨ (content.drop 8).take 4 ≠ ascii "WAVE" then
    .error (.invalid "missing RIFF/WAVE header")
  else
    match parseChunks content content.length 12 none none with
    | .error failure => .error failure
    | .ok (format, dataOffset, dataSize) =>
      .ok
        { content, format
          dataSize := if dataSize = 0 then content.length - dataOffset else dataSize
          position := dataOffset
          bytesRead := 0 }

def sample (low high : UInt8) : Int16 := (UInt16.ofNat (decode [low, high])).toInt16

def samples : Bytes → List Int16
  | low :: high :: rest => sample low high :: samples rest
  | _ => []

def WAVReader.advance (reader : WAVReader) (n : Nat) : WAVReader :=
  { reader with position := reader.position + n, bytesRead := reader.bytesRead + n }

def WAVReader.readSamples (reader : WAVReader) (maxSamples : Int) :
    Except ReadError (List Int16 × WAVReader) :=
  if reader.dataSize ≤ reader.bytesRead then .error .eof
  else
    let maxSamples := if maxSamples ≤ 0 then 1024 else maxSamples.toNat
    let bytesPerFrame := reader.format.channels * (reader.format.bitsPerSample / 8)
    if bytesPerFrame = 0 then .error .panic
    else
      let remainingFrames := (reader.dataSize - reader.bytesRead) / bytesPerFrame
      if remainingFrames = 0 then .error .eof
      else
        let wanted := min maxSamples remainingFrames * bytesPerFrame
        let readBuffer := (reader.content.drop reader.position).take wanted
        let n := readBuffer.length
        if n = 0 then .error .eof
        else
          let frameCount := n / bytesPerFrame
          .ok (samples (readBuffer.take (frameCount * reader.format.channels * 2)),
            reader.advance n)

def WAVReader.readAll (size : Nat → Int) : (fuel calls : Nat) → WAVReader → Option (List Int16)
  | 0, _, _ => none
  | fuel + 1, calls, reader =>
    match reader.readSamples (size calls) with
    | .error .eof => some []
    | .error _ => none
    | .ok (portion, reader) => (readAll size fuel (calls + 1) reader).map (portion ++ ·)

theorem parseChunks_fmt {content fmtChunk rest : Bytes} {position : Nat} {format : Format}
    (found : content.drop position =
      ascii "fmt " ++ (encode 4 fmtChunk.length ++ (fmtChunk ++ rest)))
    (small : fmtChunk.length < 256 ^ 4) (parsed : parseFormat fmtChunk = .ok format)
    (fuel : Nat) (data : Option (Nat × Nat)) :
    parseChunks content (fuel + 1) position none data =
      parseChunks content fuel
        (position + 8 + fmtChunk.length + (fmtChunk.length - 16)) (some format) data := by
  have chunkHeader : (content.drop position).take 8 =
      ascii "fmt " ++ encode 4 fmtChunk.length := by
    rw [found]
    simp [ascii]
  have body : (content.drop (position + 8)).take fmtChunk.length = fmtChunk := by
    rw [← drop_drop, found]
    simp [ascii]
  have size : decode (encode 4 fmtChunk.length) = fmtChunk.length := by
    rw [decode_encode, Nat.mod_eq_of_lt small]
  have four : (ascii "fmt ").length = 4 := by decide
  rw [parseChunks]
  · simp [chunkHeader, four, size, body, parsed]
  · simp

theorem parseChunks_data {content rest : Bytes} {position dataSize : Nat}
    (found : content.drop position = ascii "data" ++ (encode 4 dataSize ++ rest))
    (fuel : Nat) (format : Option Format) :
    parseChunks content (fuel + 1) position format none =
      parseChunks content fuel (position + 8 + dataSize % 256 ^ 4) format
        (some (position + 8, dataSize % 256 ^ 4)) := by
  have chunkHeader : (content.drop position).take 8 =
      ascii "data" ++ encode 4 dataSize := by
    rw [found]
    simp [ascii]
  have four : (ascii "data").length = 4 := by decide
  have other : ascii "data" ≠ ascii "fmt " := by decide
  rw [parseChunks]
  · simp [chunkHeader, four, decode_encode, other]
  · simp

theorem parseFormat_formatChunk (sampleRate channels : Nat) :
    parseFormat (formatChunk sampleRate channels) =
      .ok ⟨sampleRate % 256 ^ 4, channels % 256 ^ 2, 16⟩ := by
  have pcm : decode ((formatChunk sampleRate channels).take 2) = 1 := by
    simp only [formatChunk, append_assoc, take_left' (length_encode 2 1)]
    decide
  have bits : decode (((formatChunk sampleRate channels).drop 14).take 2) = 16 := by
    simp [formatChunk, drop_append]
    decide
  have rate : decode (((formatChunk sampleRate channels).drop 4).take 4) =
      sampleRate % 256 ^ 4 := by
    rw [← decode_encode]
    simp [formatChunk, drop_append]
  have number : decode (((formatChunk sampleRate channels).drop 2).take 2) =
      channels % 256 ^ 2 := by
    rw [← decode_encode]
    simp [formatChunk]
  simp [parseFormat, pcm, bits, rate, number]

theorem WAVReader.new_header (sampleRate channels chunkSize dataSize : Nat) (rest : Bytes) :
    WAVReader.new (header sampleRate channels chunkSize dataSize ++ rest) =
      .ok
        { content := header sampleRate channels chunkSize dataSize ++ rest
          format := ⟨sampleRate % 256 ^ 4, channels % 256 ^ 2, 16⟩
          dataSize := if dataSize % 256 ^ 4 = 0 then rest.length else dataSize % 256 ^ 4
          position := 44
          bytesRead := 0 } := by
  generalize content_eq : header sampleRate channels chunkSize dataSize ++ rest = content
  have long : content.length = rest.length + 44 := by
    simp [← content_eq, Nat.add_comm]
  have riff : content.take 4 = ascii "RIFF" := by
    simp [← content_eq, header, ascii]
  have wave : (content.drop 8).take 4 = ascii "WAVE" := by
    simp [← content_eq, header, ascii]
  have fmt : content.drop 12 = ascii "fmt " ++
      (encode 4 (formatChunk sampleRate channels).length ++
        (formatChunk sampleRate channels ++
          (ascii "data" ++ (encode 4 dataSize ++ rest)))) := by
    simp [← content_eq, header, ascii, drop_append]
  have data : content.drop 36 = ascii "data" ++ (encode 4 dataSize ++ rest) := by
    simp [← content_eq, header, ascii, drop_append]
  have parsed : parseChunks content content.length 12 none none =
      .ok (⟨sampleRate % 256 ^ 4, channels % 256 ^ 2, 16⟩, 44, dataSize % 256 ^ 4) := by
    rw [long, parseChunks_fmt fmt (by simp) (parseFormat_formatChunk _ _),
      length_formatChunk, parseChunks_data data, parseChunks]
  rw [WAVReader.new, if_neg (by omega), if_neg (by simp [riff, wave]), parsed, long]
  simp

theorem samples_append {front : Bytes} (even : front.length % 2 = 0) (rest : Bytes) :
    samples (front ++ rest) = samples front ++ samples rest := by
  induction front using samples.induct with
  | case1 low high front ih =>
    have even' : front.length % 2 = 0 := by
      simp only [length_cons] at even
      omega
    simp [samples, ih even']
  | case2 front short =>
    cases front with
    | nil => rfl
    | cons low front =>
      cases front with
      | nil => simp at even
      | cons high front => exact absurd rfl (short low high front)

def wholeFrames (channels : Nat) (data : Bytes) : List Int16 :=
  samples (data.take (data.length / (channels * 2) * (channels * 2)))

structure Reading (reader : WAVReader) (left : Bytes) : Prop where
  bits : reader.format.bitsPerSample = 16
  someChannel : 0 < reader.format.channels
  content : reader.content.drop reader.position = left
  size : reader.dataSize = reader.bytesRead + left.length

variable {reader : WAVReader} {left : Bytes}

section

variable (reading : Reading reader left)

include reading

theorem Reading.readSamples_eof (short : left.length < reader.format.channels * 2) (size : Int) :
    reader.readSamples size = .error .eof := by
  have frame : reader.format.channels * (reader.format.bitsPerSample / 8) ≠ 0 := by
    rw [reading.bits]
    omega
  have none_left : (reader.dataSize - reader.bytesRead) /
      (reader.format.channels * (reader.format.bitsPerSample / 8)) = 0 := by
    rw [reading.size, Nat.add_sub_cancel_left, reading.bits]
    exact Nat.div_eq_of_lt short
  rw [WAVReader.readSamples]
  split
  · rfl
  · simp [frame, none_left]

theorem Reading.advance {n : Nat} (fits : n ≤ left.length) :
    Reading (reader.advance n) (left.drop n) where
  bits := reading.bits
  someChannel := reading.someChannel
  content := by
    rw [← reading.content, drop_drop]
    rfl
  size := by
    have total := reading.size
    simp only [WAVReader.advance, length_drop]
    omega

/-- Otherwise it returns at least one frame and no part of a frame. -/
theorem Reading.readSamples_ok (enough : reader.format.channels * 2 ≤ left.length) (size : Int) :
    ∃ count, count = min (if size ≤ 0 then 1024 else size.toNat)
        (left.length / (reader.format.channels * 2)) ∧
      0 < count ∧ count * (reader.format.channels * 2) ≤ left.length ∧
      reader.readSamples size =
        .ok (samples (left.take (count * (reader.format.channels * 2))),
          reader.advance (count * (reader.format.channels * 2))) := by
  have frame_pos : 0 < reader.format.channels * 2 := by
    have := reading.someChannel
    omega
  have wanted_pos : 0 < if size ≤ 0 then 1024 else size.toNat := by
    split <;> omega
  generalize wanted_eq : (if size ≤ 0 then 1024 else size.toNat) = wanted at wanted_pos
  generalize frame_eq : reader.format.channels * 2 = frame at enough frame_pos
  have frames_pos : 0 < left.length / frame := Nat.div_pos enough frame_pos
  have count_pos : 0 < min wanted (left.length / frame) :=
    Nat.lt_min.mpr ⟨wanted_pos, frames_pos⟩
  generalize count_eq : min wanted (left.length / frame) = count at count_pos
  have fits : count * frame ≤ left.length := by
    have most : count ≤ left.length / frame := by omega
    exact Nat.le_trans (Nat.mul_le_mul_right frame most) (Nat.div_mul_le_self _ _)
  have read_pos : 0 < count * frame := Nat.mul_pos count_pos frame_pos
  refine ⟨count, rfl, count_pos, fits, ?_⟩
  have unread : ¬ reader.dataSize ≤ reader.bytesRead := by
    have total := reading.size
    omega
  have read : (left.take (count * frame)).length = count * frame := by
    rw [length_take, Nat.min_eq_left fits]
  rw [WAVReader.readSamples, if_neg unread]
  simp only [reading.bits, reading.size, reading.content, Nat.add_sub_cancel_left, wanted_eq,
    Nat.reduceDiv, frame_eq, count_eq, read]
  rw [if_neg (Nat.ne_of_gt frame_pos), if_neg (Nat.ne_of_gt frames_pos),
    if_neg (Nat.ne_of_gt read_pos), Nat.mul_div_cancel _ frame_pos, Nat.mul_assoc, frame_eq,
    take_of_length_le (Nat.le_of_eq read)]

end

theorem wholeFrames_take {channels count : Nat} {data : Bytes}
    (fits : count * (channels * 2) ≤ data.length) :
    wholeFrames channels data =
      samples (data.take (count * (channels * 2))) ++
        wholeFrames channels (data.drop (count * (channels * 2))) := by
  obtain none | positive := Nat.eq_zero_or_pos channels
  · simp [wholeFrames, none, samples]
  · have frames : data.length / (channels * 2) =
        count + (data.drop (count * (channels * 2))).length / (channels * 2) := by
      rw [length_drop, Nat.mul_comm count, Nat.sub_mul_div, Nat.add_sub_cancel']
      exact (Nat.le_div_iff_mul_le (by omega)).mpr fits
    have even : (data.take (count * (channels * 2))).length % 2 = 0 := by
      rw [length_take, Nat.min_eq_left fits]
      simp [← Nat.mul_assoc]
    rw [wholeFrames, frames, Nat.add_mul, take_add, samples_append even, wholeFrames]

theorem Reading.readAll {channels : Nat} (size : Nat → Int) :
    ∀ {reader : WAVReader} (calls : Nat), reader.format.channels = channels →
      Reading reader left →
      ∃ fuel, reader.readAll size fuel calls = some (wholeFrames channels left) := by
  induction h : left.length using Nat.strong_induction_on generalizing left with
  | _ length ih =>
    intro reader calls same reading
    subst h
    by_cases enough : reader.format.channels * 2 ≤ left.length
    · obtain ⟨count, -, positive, fits, read⟩ := reading.readSamples_ok enough (size calls)
      have smaller : (left.drop (count * (reader.format.channels * 2))).length < left.length := by
        have := Nat.mul_pos positive (Nat.mul_pos reading.someChannel Nat.two_pos)
        rw [length_drop]
        omega
      have same' : (reader.advance (count * (reader.format.channels * 2))).format.channels =
          channels := same
      obtain ⟨fuel, rest⟩ := ih _ smaller rfl (calls + 1) same' (reading.advance fits)
      refine ⟨fuel + 1, ?_⟩
      rw [WAVReader.readAll, read]
      simp only [rest, Option.map_some]
      rw [same] at fits ⊢
      rw [wholeFrames_take fits]
    · refine ⟨1, ?_⟩
      rw [WAVReader.readAll, reading.readSamples_eof (by omega)]
      have none_whole : left.length / (channels * 2) = 0 := Nat.div_eq_of_lt (by omega)
      simp [wholeFrames, none_whole, samples]

end SiprecServer.Media.WavFile
