import SiprecServer.Media.WavSafety

/-!
# RIFF files with other chunks

The reader goes on right after a chunk of odd size, skips what a format chunk has beyond 16 bytes
twice, and takes an empty data chunk for one that was not finished.
-/

namespace SiprecServer.Media.WavFile

open Lib LittleEndian WAVReader List

structure Chunk where
  id : Bytes
  body : Bytes
  pad : UInt8
  named : id.length = 4
  small : body.length < 256 ^ 4

def Chunk.Even (chunk : Chunk) : Prop := chunk.body.length % 2 = 0

def Chunk.padding (chunk : Chunk) : Bytes :=
  if chunk.body.length % 2 = 0 then [] else [chunk.pad]

def Chunk.bytes (chunk : Chunk) : Bytes :=
  chunk.id ++ (encode 4 chunk.body.length ++ (chunk.body ++ chunk.padding))

structure RiffFile where
  size : Nat
  dataFirst : Bool
  before : List Chunk
  between : List Chunk
  after : List Chunk
  fmt : Chunk
  data : Chunk
  fmtId : fmt.id = ascii "fmt "
  dataId : data.id = ascii "data"
  others : ∀ chunk ∈ before ++ between ++ after,
    chunk.id ≠ ascii "fmt " ∧ chunk.id ≠ ascii "data"
  long : 16 ≤ fmt.body.length
  pcm : decode (fmt.body.take 2) = 1
  bits : decode ((fmt.body.drop 14).take 2) = 16
  someChannel : 0 < decode ((fmt.body.drop 2).take 2)
  whole : decode ((fmt.body.drop 2).take 2) * 2 ∣ data.body.length

variable (file : RiffFile)

namespace RiffFile

def format : Format where
  sampleRate := decode ((file.fmt.body.drop 4).take 4)
  channels := decode ((file.fmt.body.drop 2).take 2)
  bitsPerSample := 16

def bytes (file : RiffFile) : Bytes :=
  ascii "RIFF" ++ encode 4 file.size ++ ascii "WAVE" ++
    (file.before.flatMap Chunk.bytes ++ ((if file.dataFirst then file.data else file.fmt).bytes ++
      (file.between.flatMap Chunk.bytes ++
        ((if file.dataFirst then file.fmt else file.data).bytes ++
          file.after.flatMap Chunk.bytes))))

def Read : Prop :=
  ∃ reader, new file.bytes = .ok reader ∧ reader.format = file.format ∧
    ∀ size : Nat → Int, ∃ fuel, reader.readAll size fuel 0 = some (samples file.data.body)

/-- Nothing is padded or extended on the way of the reader, and there is data or nothing follows.
A format of 17 bytes does no harm: its last byte is skipped twice, which covers the pad byte. -/
structure Plain (file : RiffFile) : Prop where
  even : ∀ chunk ∈ file.before ++ file.between, chunk.Even
  short : file.dataFirst = false → file.fmt.body.length ≤ 17
  filled : file.data.body = [] → file.dataFirst = false ∧ file.after = []

end RiffFile

/-! ## Chunks -/

variable {content front rest : Bytes} {position : Nat}

theorem drop_after (found : content.drop position = front ++ rest) :
    content.drop (position + front.length) = rest := by
  rw [← drop_drop, found, drop_left]

variable {chunk : Chunk}

open Chunk

theorem Chunk.length_bytes (even : chunk.Even) : chunk.bytes.length = 8 + chunk.body.length := by
  simp [bytes, chunk.named, Chunk.padding, show chunk.body.length % 2 = 0 from even,
    ← Nat.add_assoc]

theorem Chunk.found (found : content.drop position = chunk.bytes ++ rest) :
    content.drop position = chunk.id ++ (encode 4 chunk.body.length ++
      (chunk.body ++ (chunk.padding ++ rest))) := by
  simpa [bytes] using found

theorem Chunk.body_found (found : content.drop position = chunk.bytes ++ rest) :
    content.drop (position + 8) = chunk.body ++ (chunk.padding ++ rest) := by
  have body := drop_after (drop_after (Chunk.found found))
  rwa [chunk.named, length_encode] at body

variable {format : Option Format} {data : Option (Nat × Nat)}

theorem parseChunks_other (other : chunk.id ≠ ascii "fmt " ∧ chunk.id ≠ ascii "data")
    (even : chunk.Even) (found : content.drop position = chunk.bytes ++ rest) (fuel : Nat) :
    parseChunks content (fuel + 1) position format data =
      parseChunks content fuel (position + chunk.bytes.length) format data := by
  have chunkHeader : (content.drop position).take 8 =
      chunk.id ++ encode 4 chunk.body.length := by
    rw [found]
    simp [bytes, chunk.named, take_append, take_of_length_le]
  have size : decode (encode 4 chunk.body.length) = chunk.body.length := by
    rw [decode_encode]
    exact Nat.mod_eq_of_lt chunk.small
  rw [length_bytes even, ← Nat.add_assoc]
  cases format <;> cases data
  case some.some => simp [parseChunks]
  all_goals simp [parseChunks, chunkHeader, chunk.named, size, other]

theorem parseChunks_skip {chunks : List Chunk}
    (others : ∀ chunk ∈ chunks, chunk.id ≠ ascii "fmt " ∧ chunk.id ≠ ascii "data")
    (even : ∀ chunk ∈ chunks, chunk.Even)
    (found : content.drop position = chunks.flatMap bytes ++ rest) (fuel : Nat) :
    parseChunks content (fuel + chunks.length) position format data =
      parseChunks content fuel (position + (chunks.flatMap bytes).length) format data := by
  induction chunks generalizing position with
  | nil => rfl
  | cons chunk chunks ih =>
    rw [forall_mem_cons] at others even
    rw [flatMap_cons, append_assoc] at found
    rw [length_cons, ← Nat.add_assoc, parseChunks_other others.1 even.1 found,
      ih others.2 even.2 (drop_after found), flatMap_cons, length_append, Nat.add_assoc]

/-! ## What follows the data -/

namespace WAVReader

/-- The file cut off after the data. -/
def within (reader : WAVReader) : WAVReader :=
  { reader with
    content := reader.content.take (reader.position + (reader.dataSize - reader.bytesRead)) }

theorem readSamples_within (reader : WAVReader) (size : Int) :
    reader.within.readSamples size =
      (reader.readSamples size).map fun read => (read.1, read.2.within) := by
  unfold readSamples
  generalize (if size ≤ 0 then 1024 else size.toNat) = wanted
  generalize frame : reader.format.channels * (reader.format.bitsPerSample / 8) = bytesPerFrame
  have most := Nat.div_mul_le_self (reader.dataSize - reader.bytesRead) bytesPerFrame
  have fewer := Nat.mul_le_mul_right bytesPerFrame (Nat.min_le_right wanted
    ((reader.dataSize - reader.bytesRead) / bytesPerFrame))
  simp only [within, frame, drop_take, Nat.add_sub_cancel_left, take_take,
    Nat.min_eq_left (Nat.le_trans fewer most)]
  generalize read : (reader.content.drop reader.position).take _ = readBuffer
  have rest : reader.position + readBuffer.length +
      (reader.dataSize - (reader.bytesRead + readBuffer.length)) =
        reader.position + (reader.dataSize - reader.bytesRead) := by
    rw [← read, length_take]
    omega
  split_ifs <;> simp [Except.map, advance, rest]

theorem readAll_within (size : Nat → Int) (fuel calls : Nat) (reader : WAVReader) :
    reader.within.readAll size fuel calls = reader.readAll size fuel calls := by
  induction fuel generalizing calls reader with
  | zero => rfl
  | succ fuel ih =>
    rw [readAll, readAll, readSamples_within]
    cases reader.readSamples (size calls) with
    | error failure => rfl
    | ok read => simp only [Except.map, ih]

end WAVReader

namespace RiffFile

theorem read_of_parsed {dataOffset : Nat}
    (parsed : parseChunks file.bytes file.bytes.length 12 none none =
      .ok (file.format, dataOffset, file.data.body.length))
    (found : file.bytes.drop dataOffset = file.data.body ++ rest)
    (filled : file.data.body = [] → rest = []) : file.Read := by
  have long : ¬ file.bytes.length < 12 := by
    simp [bytes, ascii]
    omega
  have riff : file.bytes.take 4 = ascii "RIFF" := by
    simp [bytes, ascii]
  have wave : (file.bytes.drop 8).take 4 = ascii "WAVE" := by
    simp [bytes, ascii]
  have size : (if file.data.body.length = 0 then file.bytes.length - dataOffset
      else file.data.body.length) = file.data.body.length := by
    split
    · rename_i empty
      have empty := eq_nil_of_length_eq_zero empty
      rw [← length_drop, found, filled empty, append_nil]
    · rfl
  have opened : new file.bytes =
      .ok ⟨file.bytes, file.format, file.data.body.length, dataOffset, 0⟩ := by
    rw [new, if_neg long, if_neg (by simp [riff, wave]), parsed]
    simp only [size]
  refine ⟨_, opened, rfl, ?_⟩
  intro size
  have reading : Reading (within
      ⟨file.bytes, file.format, file.data.body.length, dataOffset, 0⟩) file.data.body :=
    ⟨rfl, file.someChannel, by simp [within, drop_take, found], (Nat.zero_add _).symm⟩
  obtain ⟨fuel, all⟩ := reading.readAll size 0 rfl
  rw [readAll_within] at all
  have whole : wholeFrames file.format.channels file.data.body = samples file.data.body := by
    rw [wholeFrames, format, Nat.div_mul_cancel file.whole, take_length]
  exact ⟨fuel, all.trans (congrArg some whole)⟩

theorem parseFormat_fmt : parseFormat file.fmt.body = .ok file.format := by
  have two : ¬ file.fmt.body.length < 2 := Nat.not_lt.mpr (Nat.le_trans (by decide) file.long)
  simp [parseFormat, file.pcm, file.bits, format, two, Nat.not_lt.mpr file.long]

theorem parseChunks_first (found : content.drop position = file.fmt.bytes ++ rest) (fuel : Nat) :
    parseChunks content (fuel + 1) position none data =
      parseChunks content fuel
        (position + 8 + file.fmt.body.length + (file.fmt.body.length - 16)) (some file.format)
        data :=
  parseChunks_fmt (file.fmtId ▸ Chunk.found found) file.fmt.small file.parseFormat_fmt fuel data

theorem parseChunks_second (found : content.drop position = file.data.bytes ++ rest) (fuel : Nat) :
    parseChunks content (fuel + 1) position format none =
      parseChunks content fuel (position + 8 + file.data.body.length) format
        (some (position + 8, file.data.body.length)) := by
  have round := parseChunks_data (file.dataId ▸ Chunk.found found) fuel format
  rwa [Nat.mod_eq_of_lt file.data.small] at round

theorem plain_read (file : RiffFile) (plain : file.Plain) : file.Read := by
  obtain ⟨even, short, filled⟩ := plain
  have others := file.others
  simp only [forall_mem_append] at even others
  have start : file.bytes.drop 12 = file.before.flatMap Chunk.bytes ++
      ((if file.dataFirst then file.data else file.fmt).bytes ++
        (file.between.flatMap Chunk.bytes ++
          ((if file.dataFirst then file.fmt else file.data).bytes ++
            file.after.flatMap Chunk.bytes))) :=
    drop_left' (by simp [ascii])
  have rounds := @parseChunks_add file.bytes none none _ 12 (Nat.le_add_left _ _)
    (1 + file.between.length + 1 + file.before.length)
  simp only [← Nat.add_assoc] at rounds
  rw [parseChunks_skip others.1.1 even.1 start] at rounds
  have first := drop_after start
  have second := drop_after first
  have third := drop_after second
  cases order : file.dataFirst with
  | false =>
    simp only [order, Bool.false_eq_true, ↓reduceIte] at first second third
    have passed : ∀ start, start + 8 + file.fmt.body.length + (file.fmt.body.length - 16) =
        start + file.fmt.bytes.length := by
      have most := short order
      have least := file.long
      have length : file.fmt.bytes.length = 8 + file.fmt.body.length + file.fmt.padding.length := by
        simp [Chunk.bytes, file.fmt.named, ← Nat.add_assoc]
      have pads : file.fmt.padding.length = file.fmt.body.length - 16 := by
        unfold Chunk.padding
        split <;> simp <;> omega
      omega
    rw [file.parseChunks_first first, passed, parseChunks_skip others.1.2 even.2 second,
      file.parseChunks_second third, parseChunks] at rounds
    refine file.read_of_parsed rounds.symm (body_found third) fun empty => ?_
    simp [Chunk.padding, empty, filled empty]
  | true =>
    simp only [order, ↓reduceIte] at first second third
    have dataEven : file.data.Even :=
      Nat.mod_eq_zero_of_dvd (Nat.dvd_trans (Nat.dvd_mul_left 2 _) file.whole)
    rw [file.parseChunks_second first, Nat.add_assoc _ 8, ← length_bytes dataEven,
      parseChunks_skip others.1.2 even.2 second, file.parseChunks_first third,
      parseChunks] at rounds
    refine file.read_of_parsed rounds.symm (body_found first) fun empty => ?_
    simp [order] at filled
    exact absurd empty filled

def padded : RiffFile where
  size := 48
  dataFirst := false
  before := [⟨ascii "note", [7], 0, rfl, by decide⟩]
  between := []
  after := []
  fmt := ⟨ascii "fmt ", formatChunk 8000 1, 0, rfl, by decide⟩
  data := ⟨ascii "data", [1, 0], 0, rfl, by decide⟩
  fmtId := rfl
  dataId := rfl
  others := by decide
  long := by decide
  pcm := by decide
  bits := by decide
  someChannel := by decide
  whole := by decide

/-- The reader takes the pad byte for the start of the next chunk, and finds no format. -/
theorem padded_not_read : ¬ padded.Read := by
  rintro ⟨reader, opened, -⟩
  have refused : new padded.bytes = .error .eof := rfl
  cases opened.symm.trans refused

/-- Other chunks stand everywhere, the last of them padded, and the format has a byte more. -/
theorem long_format_read :
    { padded with
      before := [⟨ascii "note", [7, 8], 0, rfl, by decide⟩]
      fmt := ⟨ascii "fmt ", formatChunk 8000 1 ++ [9], 0, rfl, by decide⟩
      between := [⟨ascii "fact", [1, 0, 0, 0], 0, rfl, by decide⟩]
      after := [⟨ascii "note", [7], 0, rfl, by decide⟩]
      others := by decide
      long := by decide
      pcm := by decide
      bits := by decide
      someChannel := by decide }.Read :=
  plain_read _ ⟨by simp [Chunk.Even], fun _ => by decide, by decide⟩

end RiffFile

end SiprecServer.Media.WavFile
