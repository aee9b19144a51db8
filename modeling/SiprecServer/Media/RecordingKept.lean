import SiprecServer.Media.Cleanup

/-!
# When a cleanup keeps the recording

A finished recording is kept by a cleanup if, afterwards, the redacted audio, or what the
target format makes of it, can be read from the local file or from a location that an upload
reported.  For a recording that no redaction interval touches this depends on the storage
alone.
-/

namespace SiprecServer.Media

open Lib.FileSystem Lib.UnixPath List

structure Finished {Frame : Type} (tools : Tools Frame) (f : Forwarder) (world : World)
    (content : Bytes) (audio : Audio Frame) : Prop where
  pending : f.isCleanedUp = false
  named : f.recordingPath ≠ []
  present : world.files f.recordingPath = some content
  readable : tools.readAudio content = some audio

def CleanedUp.Keeps {Frame : Type} (tools : Tools Frame) (encoder : Option AudioFormat)
    (after : CleanedUp) (audio : Audio Frame) : Prop :=
  ∃ content,
    (after.world.files after.recordingPath = some content ∨
      ∃ location ∈ after.locations, location.contents after.world = some content) ∧
    tools.Renders encoder audio content

/-- The local copy is not removed, or a remote backend has taken the recording. -/
def Forwarder.storedSafely (f : Forwarder) (env : Circumstances) : Bool :=
  match f.storage with
  | none => true
  | some .noop => true
  | some (.backup backends keepLocal) =>
    keepLocal || env.localStays ||
      f.sessionPresent &&
        (backends.all (fun backend => !backend.reports env.refuses) ||
          backends.any fun backend => backend.isRemote && backend.reports env.refuses)

theorem Audio.redacted_unmarked {Frame : Type} {silent : Frame}
    {intervals : List RedactionInterval} {audio : Audio Frame}
    (unmarked : audio.Unmarked intervals) : audio.redacted silent intervals = audio := by
  have unchanged : audio.frames.mapIdx (fun number frame =>
      if intervals.any (·.marks audio.rate number) then silent else frame) = audio.frames := by
    apply ext_getElem (length_mapIdx ..)
    intro number _ inside
    rw [getElem_mapIdx, if_neg]
    intro marked
    obtain ⟨interval, mem, marks⟩ := any_eq_true.mp marked
    rw [unmarked number inside interval mem] at marks
    exact Bool.false_ne_true marks
  rw [Audio.redacted, unchanged]

section Storing

variable {env : Circumstances} {f : Forwarder} {world after : World}
  {path content : Bytes} {backends : List Backend} {keepLocal : Bool}

theorem storedSafely_backup (configured : f.storage = some (.backup backends keepLocal)) :
    f.storedSafely env = true ↔
      (keepLocal ∨ env.localStays) ∨ f.sessionPresent ∧
        (accepting env.refuses backends = [] ∨
          ∃ backend ∈ accepting env.refuses backends, backend.isRemote) := by
  simp only [Forwarder.storedSafely, configured, accepting, Bool.or_eq_true, Bool.and_eq_true,
    all_eq_true, any_eq_true, filter_eq_nil_iff, mem_filter]
  grind

theorem afterUpload_stays (stays : keepLocal ∨ env.localStays)
    (uploaded : World × Option (List Location)) :
    (afterUpload env keepLocal path uploaded).1 = uploaded.1 := by
  obtain ⟨after, reported⟩ := uploaded
  cases reported with
  | none => rfl
  | some locations => exact congrArg Prod.fst (if_pos stays)

section

variable (named : path ≠ []) (present : world.files path = some content)

include named present

/-- The file stays, or it is removed and the backends that took it are reported. -/
theorem storeRecording_cases :
    (f.storedSafely env ∧ (storeRecording env f world path).1.files path = some content) ∨
    ((storeRecording env f world path).1.files path = none ∧
      ∃ taken : List Backend,
        (storeRecording env f world path).2 = taken.map (·.location path) ∧
        (storeRecording env f world path).1.remote = (storeAll path content world taken).remote ∧
        (f.storedSafely env ↔ ∃ backend ∈ taken, backend.isRemote)) := by
  cases configured : f.storage with
  | none =>
    rw [storeRecording, Forwarder.storedSafely, configured]
    exact Or.inl ⟨rfl, present⟩
  | some storage =>
    rw [storeRecording, configured]
    dsimp only
    rw [if_neg named]
    cases storage with
    | noop =>
      rw [Forwarder.storedSafely, configured, RecordingStorage.keepLocalCopy,
        afterUpload_stays (Or.inl rfl)]
      exact Or.inl ⟨rfl, present⟩
    | backup backends keepLocal =>
      rw [storedSafely_backup configured, RecordingStorage.keepLocalCopy]
      by_cases stays : keepLocal ∨ env.localStays
      · refine Or.inl ⟨.inl stays, ?_⟩
        rw [afterUpload_stays stays]
        exact upload_present present _ _ _ _
      · cases session : f.sessionPresent with
        | false =>
          rw [RecordingStorage.upload, if_neg Bool.false_ne_true, afterUpload, if_neg stays]
          exact Or.inr ⟨remove_same, [], rfl, rfl, by simp [stays]⟩
        | true =>
          obtain ⟨after, uploaded, kept, remote⟩ :=
            upload_session present env.locationMetadata backends keepLocal
          rw [uploaded]
          by_cases nothing : accepting env.refuses backends = []
          · rw [if_pos nothing]
            exact Or.inl ⟨.inr ⟨rfl, .inl nothing⟩, kept⟩
          · rw [if_neg nothing, afterUpload, if_neg stays]
            exact Or.inr ⟨remove_same, _, rfl, remote, by simp [stays, nothing]⟩

theorem storeRecording_kept (safe : f.storedSafely env) :
    (storeRecording env f world path).1.files path = some content ∨
      ∃ location ∈ (storeRecording env f world path).2,
        location.contents (storeRecording env f world path).1 = some content := by
  rcases storeRecording_cases named present with ⟨-, kept⟩ | ⟨-, taken, reported, remote, iff⟩
  · exact Or.inl kept
  · obtain ⟨backend, mem, isRemote⟩ := iff.mp safe
    rw [reported]
    refine Or.inr ⟨backend.location path, mem_map_of_mem mem, ?_⟩
    cases backend with
    | localStorage => exact absurd isRemote Bool.false_ne_true
    | remoteStorage bucket folder => exact (congrFun remote _).trans (storeAll_holds mem isRemote)

theorem storeRecording_lost (careless : ¬ f.storedSafely env) :
    (storeRecording env f world path).1.files path = none ∧
      ∀ location ∈ (storeRecording env f world path).2,
        location.contents (storeRecording env f world path).1 = none := by
  rcases storeRecording_cases named present with ⟨safe, -⟩ | ⟨gone, taken, reported, -, iff⟩
  · exact absurd safe careless
  · rw [reported]
    refine ⟨gone, fun location mem => ?_⟩
    obtain ⟨backend, accepts, here⟩ := mem_map.mp mem
    -- A backend that took the file without being remote is the local one.
    cases backend with
    | localStorage => exact here ▸ gone
    | remoteStorage bucket folder => exact absurd (iff.mpr ⟨_, accepts, rfl⟩) careless

end

end Storing

section Cleanup

variable {Frame : Type} {tools : Tools Frame} {circumstances : Circumstances} {f : Forwarder}
  {world : World} {content : Bytes} {audio : Audio Frame}

theorem cleanup_pending (pending : f.isCleanedUp = false) :
    cleanup tools circumstances f world =
      let prepared := prepareRecording tools circumstances f world.files
      let stored := storeRecording circumstances f { world with files := prepared.1 } prepared.2
      { world := stored.1, recordingPath := prepared.2, locations := stored.2 } := by
  rw [cleanup, if_neg (Bool.not_eq_true _ ▸ pending)]

/-- For a recording that no redaction interval touches, the redacted audio is kept
exactly when it is stored safely. -/
theorem recording_kept_iff_storedSafely (finished : Finished tools f world content audio)
    (spared : tools.processor.spares content f.intervals) (unmarked : audio.Unmarked f.intervals) :
    (cleanup tools circumstances f world).Keeps tools f.audioEncoder
        (audio.redacted tools.silent f.intervals) ↔
      f.storedSafely circumstances := by
  obtain ⟨named, output, present, audible⟩ :=
    prepareRecording_readable circumstances finished.named finished.present finished.readable
      spared
  let before : World :=
    { world with files := (prepareRecording tools circumstances f world.files).1 }
  have kept : before.files (prepareRecording tools circumstances f world.files).2 = some output :=
    present
  rw [Audio.redacted_unmarked unmarked, cleanup_pending finished.pending]
  constructor
  · rintro ⟨found, place, -⟩
    by_contra careless
    obtain ⟨noFile, noLocation⟩ := storeRecording_lost named kept careless
    rcases place with file | ⟨location, reported, held⟩
    · exact Option.some_ne_none _ (file.symm.trans noFile)
    · exact Option.some_ne_none _ (held.symm.trans (noLocation location reported))
  · intro safe
    exact ⟨output, storeRecording_kept named kept safe, audible⟩

end Cleanup

/-- Files with a header of 44 bytes, and an encoder that halves the resolution of the samples. -/
def headerTools : Tools UInt8 where
  silent := 0
  readAudio content := if 44 ≤ content.length then some ⟨8000, content.drop 44⟩ else none
  encode _ content := some (content.map (· / 2))
  rendered _ audio := { audio with frames := audio.frames.map (· / 2) }
  encode_readable := by
    intro format content output audio encoded readable
    obtain rfl := Option.some.inj encoded
    obtain ⟨long, same⟩ := Option.ite_none_right_eq_some.mp readable
    obtain rfl := Option.some.inj same
    rw [length_map, if_pos long, map_drop]
  wholeSamples duration := duration * 8000 / second

def fairWeather (refuses : Bytes → Bool) : Circumstances :=
  { redactionMetadata := some []
    redaction := .succeeds
    ffmpegAvailable := true
    conversion := .succeeds
    originalStays := false
    sessionMetadata := none
    refuses
    locationMetadata := some []
    localStays := false }

def callPath : Bytes := asciiBytes ['c', 'a', 'l', 'l', '.', 'w', 'a', 'v']

def callContent : Bytes := List.replicate 44 1 ++ [5, 6, 7, 8]

def callWorld : World := { files := write empty callPath callContent, remote := empty }

def bucketForwarder (sessionPresent : Bool) (targetFormat : Bytes) (markers : List PiiMarker) :
    Forwarder :=
  { recordingPath := callPath
    piiAudioMarker := some { startTime := 0, markers }
    audioEncoder := some .mp3
    targetFormat
    encryptedMetadataPath := none
    storage := some (.backup [.remoteStorage (asciiBytes ['s', '3']) []] false)
    sessionPresent
    isCleanedUp := false
    encrypted_stem := fun path absent => by cases absent }

theorem callWorld_finished (sessionPresent : Bool) (targetFormat : Bytes)
    (markers : List PiiMarker) :
    Finished headerTools (bucketForwarder sessionPresent targetFormat markers) callWorld
      callContent ⟨8000, [5, 6, 7, 8]⟩ := by
  have present : callWorld.files callPath = some callContent := by simp [callWorld]
  exact ⟨rfl, cons_ne_nil _ _, present, rfl⟩

/-- Without a recording session the upload does nothing, reports success, and the only
copy of the recording is removed. -/
theorem sessionless_recording_lost :
    Finished headerTools (bucketForwarder false wavFormat []) callWorld callContent
        ⟨8000, [5, 6, 7, 8]⟩ ∧
      ¬ (cleanup headerTools (fairWeather fun _ => false) (bucketForwarder false wavFormat [])
        callWorld).Keeps headerTools (some .mp3)
          (Audio.redacted headerTools.silent (bucketForwarder false wavFormat []).intervals
            ⟨8000, [5, 6, 7, 8]⟩) := by
  refine ⟨callWorld_finished false wavFormat [], ?_⟩
  rintro ⟨content, place, -⟩
  have noFile : (cleanup headerTools (fairWeather fun _ => false)
      (bucketForwarder false wavFormat []) callWorld).world.files callPath = none := by decide
  rcases place with file | ⟨location, reported, -⟩
  · exact Option.some_ne_none _ (file.symm.trans noFile)
  · exact absurd reported not_mem_nil

def lateMarker : PiiMarker := { startTime := 5 * second, endTime := 7 * second, piiType := "ssn" }

theorem uploaded_recording_kept :
    (cleanup headerTools (fairWeather fun _ => false)
        (bucketForwarder true (asciiBytes ['m', 'p', '3']) [lateMarker]) callWorld).Keeps
      headerTools (some .mp3)
      (Audio.redacted headerTools.silent
        (bucketForwarder true (asciiBytes ['m', 'p', '3']) [lateMarker]).intervals
        ⟨8000, [5, 6, 7, 8]⟩) :=
  (recording_kept_iff_storedSafely (callWorld_finished true _ [lateMarker]) (by decide)
    (by decide)).mpr (by decide)

end SiprecServer.Media
