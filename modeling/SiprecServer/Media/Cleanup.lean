import SiprecServer.Media.PiiAudioProcessor
import SiprecServer.Media.RecordingPaths
import SiprecServer.Media.RecordingStorage

/-!
# Cleanup of a forwarder with a finished recording

`Cleanup` redacts the closed file in place, converts it, stops the encrypted session,
uploads the result and may remove the local copy.  Nearly every failure on the way is
only logged, so the model takes all of them as inputs.  What a finished recording is
worth is stated over the audio that a reader gets out of it.
-/

namespace SiprecServer.Media

open Lib.FileSystem Lib.UnixPath List

/-! ## Audio -/

structure Audio (Frame : Type) where
  rate : Nat
  frames : List Frame

def RedactionInterval.marks (interval : RedactionInterval) (rate number : Nat) : Bool :=
  interval.startOffset * rate ≤ number * second && number * second < interval.endOffset * rate

def Audio.redacted {Frame : Type} (silent : Frame) (intervals : List RedactionInterval)
    (audio : Audio Frame) : Audio Frame :=
  { audio with
    frames := audio.frames.mapIdx fun number frame =>
      if intervals.any (·.marks audio.rate number) then silent else frame }

def Audio.Unmarked {Frame : Type} (audio : Audio Frame) (intervals : List RedactionInterval) :
    Prop :=
  ∀ number < audio.frames.length, ∀ interval ∈ intervals, interval.marks audio.rate number = false

instance {Frame : Type} (audio : Audio Frame) (intervals : List RedactionInterval) :
    Decidable (audio.Unmarked intervals) :=
  inferInstanceAs (Decidable (∀ number < audio.frames.length, ∀ interval ∈ intervals, _ = false))

inductive AudioFormat where
  | wav | mp3 | opus | ogg | mp4 | m4a | flac | unsupported
deriving DecidableEq

/-- The world outside the server: how recordings of any kind are read, what the
external encoder makes of a file, and the double precision product of the redaction
code.  Encoders resample, mix and lose: a successful encoding is read as what the format
makes of the audio, whatever that is. -/
structure Tools (Frame : Type) where
  silent : Frame
  readAudio : Bytes → Option (Audio Frame)
  encode : AudioFormat → Bytes → Option Bytes
  rendered : AudioFormat → Audio Frame → Audio Frame
  encode_readable : ∀ format content output audio, encode format content = some output →
    readAudio content = some audio → readAudio output = some (rendered format audio)
  wholeSamples : Int → Int

inductive RedactionRun where
  | succeeds
  | processingFails
  | renameFails

inductive ConversionRun where
  | succeeds
  | fails (leftover : Option Bytes)

/-- The outcome of everything in one cleanup that the server does not decide; the
texts of the sidecar files are absent when writing them fails. -/
structure Circumstances where
  redactionMetadata : Option Bytes
  redaction : RedactionRun
  ffmpegAvailable : Bool
  conversion : ConversionRun
  originalStays : Bool
  sessionMetadata : Option Bytes
  refuses : Bytes → Bool
  locationMetadata : Option Bytes
  localStays : Bool

structure PiiAudioMarker where
  startTime : Int
  markers : List PiiMarker

def siprecSuffix : Bytes :=
  asciiBytes ['.', 's', 'i', 'p', 'r', 'e', 'c']

def metadataSuffix : Bytes :=
  asciiBytes ['.', 'm', 'e', 't', 'a', 'd', 'a', 't', 'a']

/-- The fields of a forwarder that decide what becomes of its recording.  An open
encrypted session writes next to the recording file, under the same stem. -/
structure Forwarder where
  recordingPath : Bytes
  piiAudioMarker : Option PiiAudioMarker
  audioEncoder : Option AudioFormat
  targetFormat : Bytes
  encryptedMetadataPath : Option Bytes
  storage : Option RecordingStorage
  sessionPresent : Bool
  isCleanedUp : Bool
  encrypted_stem : ∀ path, encryptedMetadataPath = some path →
    ∃ stem, recordingPath = stem ++ siprecSuffix ∧ path = stem ++ metadataSuffix

def Forwarder.intervals (f : Forwarder) : List RedactionInterval :=
  match f.piiAudioMarker with
  | none => []
  | some marker => getRedactionIntervals marker.startTime marker.markers

/-! ## The steps of the cleanup -/

def Store.writeIfAny (files : Store Bytes Bytes) (path : Bytes) : Option Bytes → Store Bytes Bytes
  | none => files
  | some text => write files path text

def piiMetadataSuffix : Bytes :=
  asciiBytes ['.', 'p', 'i', 'i', '.', 'j', 's', 'o', 'n']

def piiTempSuffix : Bytes :=
  asciiBytes ['.', 'p', 'i', 'i', '_', 't', 'e', 'm', 'p']

def wavFormat : Bytes := asciiBytes ['w', 'a', 'v']

section Steps

variable {Frame : Type} (tools : Tools Frame) (env : Circumstances)

/-- The processor that `Cleanup` builds, whatever the recording's own rate is. -/
def Tools.processor : PiiAudioProcessor :=
  { sampleRate := 8000, bytesPerSample := 2, wholeSamples := tools.wholeSamples }

/-- `ProcessRecordingInPlace`: redact into a temporary file and put it in place; on
every error the temporary file is removed. -/
def processRecordingInPlace (files : Store Bytes Bytes) (path : Bytes)
    (intervals : List RedactionInterval) : Store Bytes Bytes :=
  if intervals = [] then files
  else
    let tempPath := path ++ piiTempSuffix
    match files path, env.redaction with
    | none, _ => remove files tempPath
    | some _, .processingFails => remove files tempPath
    | some _, .renameFails => remove files tempPath
    | some content, .succeeds =>
      rename (write files tempPath (tools.processor.processRecording content intervals))
        tempPath path

variable (f : Forwarder)

def redactRecording (files : Store Bytes Bytes) : Store Bytes Bytes :=
  if f.piiAudioMarker.isSome ∧ f.recordingPath ≠ [] ∧ f.intervals ≠ [] then
    processRecordingInPlace tools env
      (Store.writeIfAny files (f.recordingPath ++ piiMetadataSuffix)
        env.redactionMetadata)
      f.recordingPath f.intervals
  else files

/-- `EncodeFile`, with the files afterwards and whether it succeeded.  Without the
external encoder the file is copied. -/
def encodeFile (format : AudioFormat) (files : Store Bytes Bytes) (inputPath outputPath : Bytes) :
    Store Bytes Bytes × Bool :=
  match files inputPath, env.conversion with
  | none, _ => (files, false)
  | some _, .fails leftover => (Store.writeIfAny files outputPath leftover, false)
  | some content, .succeeds =>
    if format = .wav ∨ env.ffmpegAvailable = false then
      (write files outputPath content, true)
    else if format = .unsupported then (files, false)
    else
      match tools.encode format content with
      | none => (files, false)
      | some output => (write files outputPath output, true)

def trimSuffix (path suffix : Bytes) : Bytes :=
  if suffix.isSuffixOf path then path.take (path.length - suffix.length) else path

def convertedPath : Bytes :=
  trimSuffix f.recordingPath wavSuffix ++ dot :: f.targetFormat

def convertRecording (files : Store Bytes Bytes) : Store Bytes Bytes × Bytes :=
  match f.audioEncoder with
  | none => (files, f.recordingPath)
  | some format =>
    if f.recordingPath ≠ [] ∧ f.targetFormat ≠ [] ∧ f.targetFormat ≠ wavFormat then
      let encoded :=
        encodeFile tools env format files f.recordingPath (convertedPath f)
      if encoded.2 then
        (if env.originalStays then encoded.1 else remove encoded.1 f.recordingPath,
          convertedPath f)
      else (encoded.1, f.recordingPath)
    else (files, f.recordingPath)

/-- `StopRecording` only closes the file and writes the session's metadata. -/
def stopEncryptedRecording (files : Store Bytes Bytes) : Store Bytes Bytes :=
  match f.encryptedMetadataPath with
  | none => files
  | some path => Store.writeIfAny files path env.sessionMetadata

/-- Everything that happens to the local files before the upload, and the recording
path afterwards. -/
def prepareRecording (files : Store Bytes Bytes) : Store Bytes Bytes × Bytes :=
  let redacted := redactRecording tools env f files
  let converted := convertRecording tools env f redacted
  (stopEncryptedRecording env f converted.1, converted.2)

/-- What follows an upload: the local file is removed after a success unless the
storage keeps it. -/
def afterUpload (keepLocal : Bool) (path : Bytes) :
    World × Option (List Location) → World × List Location
  | (uploaded, none) => (uploaded, [])
  | (uploaded, some locations) =>
    if keepLocal ∨ env.localStays then (uploaded, locations)
    else ({ uploaded with files := remove uploaded.files path }, locations)

def storeRecording (world : World) (path : Bytes) : World × List Location :=
  match f.storage with
  | none => (world, [])
  | some storage =>
    if path = [] then (world, [])
    else
      afterUpload env storage.keepLocalCopy path
        (storage.upload env.refuses env.locationMetadata f.sessionPresent
          world path)

structure CleanedUp where
  world : World
  recordingPath : Bytes
  locations : List Location

def cleanup (world : World) : CleanedUp :=
  if f.isCleanedUp then { world, recordingPath := f.recordingPath, locations := [] }
  else
    let prepared := prepareRecording tools env f world.files
    let stored := storeRecording env f { world with files := prepared.1 } prepared.2
    { world := stored.1, recordingPath := prepared.2, locations := stored.2 }

end Steps

variable {path : Bytes}

theorem append_ne_self {suffix : Bytes} (nonempty : suffix ≠ []) : path ++ suffix ≠ path :=
  fun same => nonempty (append_right_eq_self.mp same)

theorem trimSuffix_eq (path suffix : Bytes) :
    (∃ base, path = base ++ suffix ∧ trimSuffix path suffix = base) ∨
      trimSuffix path suffix = path := by
  rw [trimSuffix]
  split
  next ends =>
      obtain ⟨base, joined⟩ := isSuffixOf_iff_suffix.mp ends
      refine Or.inl ⟨base, joined.symm, ?_⟩
      rw [← joined, length_append, Nat.add_sub_cancel, take_left]
  next => exact Or.inr rfl

theorem convertedPath_ne {f : Forwarder} (otherFormat : f.targetFormat ≠ wavFormat) :
    convertedPath f ≠ f.recordingPath := by
  rw [convertedPath]
  rcases trimSuffix_eq f.recordingPath wavSuffix with
    ⟨base, joined, trimmed⟩ | whole
  · rw [trimmed, joined]
    intro same
    exact otherFormat (List.cons.inj (append_cancel_left same)).2
  · rw [whole]
    exact append_ne_self (cons_ne_nil _ _)

theorem trimSuffix_siprec (stem : Bytes) :
    trimSuffix (stem ++ siprecSuffix) wavSuffix = stem ++ siprecSuffix := by
  rcases trimSuffix_eq (stem ++ siprecSuffix) wavSuffix with ⟨base, joined, -⟩ | whole
  · have last := congrArg List.getLast? joined
    simp [siprecSuffix, wavSuffix, asciiBytes] at last
  · exact whole

theorem metadataPath_ne {f : Forwarder} (encrypted : f.encryptedMetadataPath = some path) :
    f.recordingPath ≠ path ∧ convertedPath f ≠ path := by
  obtain ⟨stem, recording, metadata⟩ := f.encrypted_stem path encrypted
  rw [convertedPath, recording, metadata, trimSuffix_siprec]
  constructor
  · intro same
    exact absurd (append_cancel_left same) (by decide)
  · intro same
    rw [append_assoc] at same
    have suffixes := congrArg (·[1]?) (append_cancel_left same)
    rw [getElem?_append_left (by decide)] at suffixes
    exact absurd suffixes (by decide)

theorem writeIfAny_other {files : Store Bytes Bytes} {other : Bytes} (different : other ≠ path)
    (text : Option Bytes) : Store.writeIfAny files path text other = files other := by
  cases text with
  | none => rfl
  | some text => exact write_other different

section Steps

variable {Frame : Type} {tools : Tools Frame} {env : Circumstances} {f : Forwarder}
  {files : Store Bytes Bytes} {content : Bytes}

theorem processRecordingInPlace_recording {intervals : List RedactionInterval}
    (present : files path = some content) :
    processRecordingInPlace tools env files path intervals path = some content ∨
      processRecordingInPlace tools env files path intervals path =
        some (tools.processor.processRecording content intervals) := by
  have apart : path ≠ path ++ piiTempSuffix := (append_ne_self (cons_ne_nil _ _)).symm
  rw [processRecordingInPlace]
  split
  next => exact Or.inl present
  next =>
      rw [present]
      cases env.redaction with
      | succeeds => exact Or.inr (rename_target write_same)
      | processingFails => exact Or.inl ((remove_other apart).trans present)
      | renameFails => exact Or.inl ((remove_other apart).trans present)

theorem redactRecording_spared (present : files f.recordingPath = some content)
    (spared : tools.processor.spares content f.intervals) :
    redactRecording tools env f files f.recordingPath = some content := by
  rw [redactRecording]
  split
  next =>
      have apart : f.recordingPath ≠ f.recordingPath ++ piiMetadataSuffix :=
        (append_ne_self (cons_ne_nil _ _)).symm
      have still := (writeIfAny_other apart env.redactionMetadata).trans present
      rcases processRecordingInPlace_recording still with kept | processed
      · exact kept
      · rw [processed, PiiAudioProcessor.processRecording_spared spared]
  next => exact present

theorem encodeFile_cases {format : AudioFormat} {inputPath outputPath : Bytes}
    (present : files inputPath = some content) :
    (∃ leftover, encodeFile tools env format files inputPath outputPath =
        (Store.writeIfAny files outputPath leftover, false)) ∨
      ∃ output, encodeFile tools env format files inputPath outputPath =
        (write files outputPath output, true) ∧
          (output = content ∨ tools.encode format content = some output) := by
  rw [encodeFile, present]
  cases env.conversion with
  | fails leftover => exact Or.inl ⟨leftover, rfl⟩
  | succeeds =>
    dsimp only
    split
    next => exact Or.inr ⟨content, rfl, Or.inl rfl⟩
    next =>
        split
        next => exact Or.inl ⟨none, rfl⟩
        next =>
            cases encoded : tools.encode format content with
            | none => exact Or.inl ⟨none, rfl⟩
            | some output => exact Or.inr ⟨output, rfl, Or.inr rfl⟩

/-- The content is read as the audio, or as what the encoder's format makes of it. -/
def Tools.Renders (tools : Tools Frame) (encoder : Option AudioFormat) (audio : Audio Frame)
    (content : Bytes) : Prop :=
  tools.readAudio content = some audio ∨
    ∃ format, encoder = some format ∧
      tools.readAudio content = some (tools.rendered format audio)

theorem convertRecording_readable {audio : Audio Frame}
    (present : files f.recordingPath = some content)
    (readable : tools.readAudio content = some audio) :
    ∃ output,
      (convertRecording tools env f files).1
          (convertRecording tools env f files).2 = some output ∧
        tools.Renders f.audioEncoder audio output := by
  rw [convertRecording]
  cases f.audioEncoder with
  | none => exact ⟨content, present, .inl readable⟩
  | some format =>
    dsimp only
    split
    next configured =>
        have apart := convertedPath_ne configured.2.2
        rcases encodeFile_cases present with
          ⟨leftover, failed⟩ | ⟨output, succeeded, origin⟩
        · rw [failed]
          exact ⟨content, (writeIfAny_other apart.symm leftover).trans present, .inl readable⟩
        · rw [succeeded]
          refine ⟨output, ?_, ?_⟩
          · cases env.originalStays with
            | true => exact write_same
            | false => exact (remove_other apart).trans write_same
          · rcases origin with copied | encoded
            · exact .inl (copied ▸ readable)
            · exact .inr ⟨format, rfl, tools.encode_readable _ _ _ _ encoded readable⟩
    next => exact ⟨content, present, .inl readable⟩

theorem convertRecording_path (tools : Tools Frame) (env : Circumstances)
    (f : Forwarder) (files : Store Bytes Bytes) :
    (convertRecording tools env f files).2 = f.recordingPath ∨
      (convertRecording tools env f files).2 = convertedPath f := by
  rw [convertRecording]
  cases f.audioEncoder with
  | none => exact Or.inl rfl
  | some format =>
    dsimp only
    split
    next =>
        split
        next => exact Or.inr rfl
        next => exact Or.inl rfl
    next => exact Or.inl rfl

theorem stopEncryptedRecording_recording
    (recording : path = f.recordingPath ∨ path = convertedPath f) :
    stopEncryptedRecording env f files path = files path := by
  rw [stopEncryptedRecording]
  cases encrypted : f.encryptedMetadataPath with
  | none => rfl
  | some metadataPath =>
    obtain ⟨original, converted⟩ := metadataPath_ne encrypted
    have apart : path ≠ metadataPath := by
      rcases recording with same | same <;> rw [same] <;> assumption
    exact writeIfAny_other apart env.sessionMetadata

theorem convertedPath_ne_nil : convertedPath f ≠ [] :=
  append_ne_nil_of_right_ne_nil _ (cons_ne_nil _ _)

theorem prepareRecording_readable (env : Circumstances) {audio : Audio Frame}
    (named : f.recordingPath ≠ []) (present : files f.recordingPath = some content)
    (readable : tools.readAudio content = some audio)
    (spared : tools.processor.spares content f.intervals) :
    (prepareRecording tools env f files).2 ≠ [] ∧
      ∃ output,
        (prepareRecording tools env f files).1
            (prepareRecording tools env f files).2 = some output ∧
          tools.Renders f.audioEncoder audio output := by
  have redacted : redactRecording tools env f files f.recordingPath = some content :=
    redactRecording_spared present spared
  obtain ⟨output, converted, audible⟩ := convertRecording_readable redacted readable
  have place := convertRecording_path tools env f
    (redactRecording tools env f files)
  refine ⟨?_, output, ?_, audible⟩
  · rcases place with original | moved
    · exact fun empty => named (original.symm.trans empty)
    · exact fun empty => convertedPath_ne_nil (moved.symm.trans empty)
  · exact (stopEncryptedRecording_recording place).trans converted

end Steps

end SiprecServer.Media
