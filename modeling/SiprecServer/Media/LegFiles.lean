import SiprecServer.Media.RecordingKept

/-!
# The file of a leg after its cleanup

Other code remembers the path of a leg from before its cleanup.  That path still names the
recording if the settings of the forwarder leave the file where it is; the WAV files of other legs
are not touched then.
-/

namespace SiprecServer.Media

open Lib.FileSystem Lib.UnixPath List

/-- Nothing is redacted, converted or removed, and the leg is a plain one. -/
structure Forwarder.LeavesFile (f : Forwarder) : Prop where
  unencrypted : f.encryptedMetadataPath = none
  unmarked : f.intervals = []
  unconverted : f.audioEncoder = none ∨ f.targetFormat = [] ∨ f.targetFormat = wavFormat
  kept : ∀ storage, f.storage = some storage → storage.keepLocalCopy = true

variable {Frame : Type} {tools : Tools Frame} {env : Circumstances} {f : Forwarder}
  {files : Store Bytes Bytes} {world : World} {other path : Bytes}

theorem uploadAll_files (refuses : Bytes → Bool) (path : Bytes) (world : World)
    (backends : List Backend) :
    (uploadAll refuses path world backends).1.files = world.files := by
  induction backends generalizing world with
  | nil => rfl
  | cons backend rest ih =>
    rw [uploadAll]
    split
    case h_1 => exact ih world
    case h_2 stored location accepted =>
      refine (ih stored).trans ?_
      cases backend with
      | localStorage =>
        cases accepted
        rfl
      | remoteStorage bucket folder =>
        unfold Backend.upload at accepted
        dsimp only at accepted
        split at accepted
        · cases accepted
        · split at accepted
          · cases accepted
          · cases accepted
            rfl

theorem upload_other (refuses : Bytes → Bool) (sidecar : Option Bytes) (sessionPresent : Bool)
    (storage : RecordingStorage) (notSidecar : other ≠ path ++ locationsSuffix) :
    (storage.upload refuses sidecar sessionPresent world path).1.files other =
      world.files other := by
  cases storage with
  | noop => rfl
  | backup backends keepLocal =>
    have same := congrFun (uploadAll_files refuses path world backends) other
    rw [RecordingStorage.upload]
    split
    next =>
        dsimp only
        split
        next => exact same
        next =>
            cases sidecar with
            | none => exact same
            | some text => exact (write_other notSidecar).trans same
    next => rfl

theorem wavNamed_ne_sidecar {name other : Bytes} :
    name ++ wavSuffix ≠ other ++ locationsSuffix := by
  intro same
  have lasts := congrArg List.getLast? same
  simp [wavSuffix, locationsSuffix, asciiBytes] at lasts

section

variable (leaves : f.LeavesFile)

include leaves

theorem Forwarder.LeavesFile.prepare :
    prepareRecording tools env f files = (files, f.recordingPath) := by
  have redacted : redactRecording tools env f files = files :=
    if_neg fun marked => marked.2.2 leaves.unmarked
  have converted : convertRecording tools env f files = (files, f.recordingPath) := by
    unfold convertRecording
    rcases leaves.unconverted with none_ | empty_ | wav
    · rw [none_]
    · cases f.audioEncoder <;> simp [empty_]
    · cases f.audioEncoder <;> simp [wav]
  simp only [prepareRecording, redacted, converted, stopEncryptedRecording, leaves.unencrypted]

theorem Forwarder.LeavesFile.cleanup_path :
    (cleanup tools env f world).recordingPath = f.recordingPath := by
  unfold cleanup
  split
  · rfl
  · rw [leaves.prepare]

theorem Forwarder.LeavesFile.cleanup_file (name : Bytes) :
    (cleanup tools env f world).world.files (name ++ wavSuffix) =
      world.files (name ++ wavSuffix) := by
  unfold cleanup
  split
  · rfl
  · rw [leaves.prepare]
    unfold storeRecording
    cases configured : f.storage with
    | none => rfl
    | some storage =>
      dsimp only
      split
      · rfl
      · rw [afterUpload_stays (.inl (leaves.kept storage configured))]
        exact upload_other _ _ _ storage wavNamed_ne_sidecar

end

end SiprecServer.Media
