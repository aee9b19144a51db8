import SiprecServer.Lib.FileSystem
import SiprecServer.Lib.UnixPath

/-!
# Storage of finished recordings

`RecordingStorage` uploads a finished file to every configured backend.  The local
backend hands back the path it was given; the remote ones store a copy under the
file's base name.  An upload counts as successful as soon as one backend reports a
location.
-/

namespace SiprecServer.Media

open Lib.FileSystem Lib.UnixPath List

structure World where
  files : Store Bytes Bytes
  remote : Store Bytes Bytes

/-- What a backend reports: `local://` with a path, or the address of an object. -/
inductive Location where
  | onDisk (path : Bytes)
  | atRemote (address : Bytes)
deriving DecidableEq

def Location.contents (world : World) : Location → Option Bytes
  | .onDisk path => world.files path
  | .atRemote address => world.remote address

inductive Backend where
  | localStorage
  | remoteStorage (bucket folder : Bytes)

def objectAddress (bucket folder localPath : Bytes) : Bytes :=
  bucket ++ slash ::
    (if folder = [] then baseName localPath else folder ++ slash :: baseName localPath)

/-- Upload to one backend; `refuses` tells which buckets do not accept the file. -/
def Backend.upload (refuses : Bytes → Bool) (world : World) (localPath : Bytes) :
    Backend → Option (World × Location)
  | .localStorage => some (world, .onDisk localPath)
  | .remoteStorage bucket folder =>
    let address := objectAddress bucket folder localPath
    match world.files localPath with
    | none => none
    | some content =>
      if refuses bucket then none
      else some ({ world with remote := write world.remote address content }, .atRemote address)

/-- `MultiBackupStorage.Upload`: every backend is tried, failures are skipped. -/
def uploadAll (refuses : Bytes → Bool) (localPath : Bytes) :
    World → List Backend → World × List Location
  | world, [] => (world, [])
  | world, backend :: rest =>
    match backend.upload refuses world localPath with
    | none => uploadAll refuses localPath world rest
    | some (stored, location) =>
      let others := uploadAll refuses localPath stored rest
      (others.1, location :: others.2)

inductive RecordingStorage where
  | noop
  | backup (backends : List Backend) (keepLocal : Bool)

def RecordingStorage.keepLocalCopy : RecordingStorage → Bool
  | .noop => true
  | .backup _ keepLocal => keepLocal

def locationsSuffix : Bytes :=
  asciiBytes ['.', 'l', 'o', 'c', 'a', 't', 'i', 'o', 'n', 's']

/-- `Upload`: the reported locations, or none for an error.  A call without a
recording session is reported as stored without storing anything; failing to write
the sidecar file (no `sidecar`) is only logged. -/
def RecordingStorage.upload (refuses : Bytes → Bool) (sidecar : Option Bytes)
    (sessionPresent : Bool) (world : World) (localPath : Bytes) :
    RecordingStorage → World × Option (List Location)
  | .noop => (world, some [])
  | .backup backends _ =>
    if sessionPresent then
      let uploaded := uploadAll refuses localPath world backends
      if uploaded.2 = [] then (uploaded.1, none)
      else
        match sidecar with
        | none => (uploaded.1, some uploaded.2)
        | some text =>
          ({ uploaded.1 with
              files := write uploaded.1.files (localPath ++ locationsSuffix) text },
            some uploaded.2)
    else (world, some [])

/-! ## What an upload of an existing file does -/

namespace Backend

def isRemote : Backend → Bool
  | .localStorage => false
  | .remoteStorage _ _ => true

def location (localPath : Bytes) : Backend → Location
  | .localStorage => .onDisk localPath
  | .remoteStorage bucket folder => .atRemote (objectAddress bucket folder localPath)

def reports (refuses : Bytes → Bool) : Backend → Bool
  | .localStorage => true
  | .remoteStorage bucket _ => !refuses bucket

def stored (localPath content : Bytes) (world : World) : Backend → World
  | .localStorage => world
  | .remoteStorage bucket folder =>
    { world with remote := write world.remote (objectAddress bucket folder localPath) content }

section Existing

variable {refuses : Bytes → Bool} {localPath content : Bytes} {world : World}

theorem upload_eq (present : world.files localPath = some content) (backend : Backend) :
    backend.upload refuses world localPath =
      if backend.reports refuses then
        some (backend.stored localPath content world, backend.location localPath)
      else none := by
  cases backend with
  | localStorage => rfl
  | remoteStorage bucket folder =>
    rw [upload, present]
    cases refused : refuses bucket <;>
      simp [reports, refused, stored, location]

theorem stored_files (backend : Backend) :
    (backend.stored localPath content world).files = world.files := by
  cases backend <;> rfl

theorem stored_keeps {address : Bytes} (kept : world.remote address = some content)
    (backend : Backend) : (backend.stored localPath content world).remote address = some content := by
  cases backend with
  | localStorage => exact kept
  | remoteStorage bucket folder =>
    by_cases same : address = objectAddress bucket folder localPath
    · rw [same]
      exact write_same
    · exact (write_other same).trans kept

end Existing

end Backend

def accepting (refuses : Bytes → Bool) (backends : List Backend) : List Backend :=
  backends.filter (·.reports refuses)

def storeAll (localPath content : Bytes) (world : World) (backends : List Backend) : World :=
  backends.foldl (fun world backend => backend.stored localPath content world) world

section Uploads

variable {refuses : Bytes → Bool} {localPath content : Bytes}

variable {world : World}

variable (present : world.files localPath = some content) (backends : List Backend)
  (sidecar : Option Bytes)

include present

theorem uploadAll_eq :
    uploadAll refuses localPath world backends =
      (storeAll localPath content world (accepting refuses backends),
        (accepting refuses backends).map (·.location localPath)) := by
  induction backends generalizing world with
  | nil => rfl
  | cons backend rest ih =>
    rw [uploadAll, backend.upload_eq present, accepting]
    by_cases reports : backend.reports refuses = true
    · have still : (backend.stored localPath content world).files localPath = some content := by
        rw [backend.stored_files, present]
      rw [if_pos reports, filter_cons_of_pos reports]
      dsimp only
      rw [ih still]
      rfl
    · rw [if_neg reports, filter_cons_of_neg reports]
      exact ih present

omit present in
theorem storeAll_files (world : World) :
    (storeAll localPath content world backends).files = world.files := by
  induction backends generalizing world with
  | nil => rfl
  | cons backend rest ih => exact (ih _).trans backend.stored_files

omit present in
theorem storeAll_keeps {address : Bytes} (kept : world.remote address = some content) :
    (storeAll localPath content world backends).remote address = some content := by
  induction backends generalizing world with
  | nil => exact kept
  | cons backend rest ih => exact ih (backend.stored_keeps kept)

omit present in
theorem storeAll_holds {backends : List Backend} {backend : Backend} (mem : backend ∈ backends)
    (remote : backend.isRemote) :
    (backend.location localPath).contents (storeAll localPath content world backends) =
      some content := by
  induction backends generalizing world with
  | nil => exact absurd mem not_mem_nil
  | cons first rest ih =>
    rcases mem_cons.mp mem with here | later
    · subst here
      cases backend with
      | localStorage => exact absurd remote Bool.false_ne_true
      | remoteStorage bucket folder => exact storeAll_keeps rest write_same
    · exact ih later

theorem upload_session (backends : List Backend) (keepLocal : Bool) : ∃ after : World,
      (RecordingStorage.backup backends keepLocal).upload refuses sidecar true world localPath =
          (after,
            if accepting refuses backends = [] then none
            else some ((accepting refuses backends).map (·.location localPath))) ∧
        after.files localPath = some content ∧
        after.remote = (storeAll localPath content world (accepting refuses backends)).remote := by
  have apart : localPath ≠ localPath ++ locationsSuffix := fun same =>
    cons_ne_nil _ _ (append_right_eq_self.mp same.symm)
  have kept : (storeAll localPath content world (accepting refuses backends)).files localPath =
      some content := by rw [storeAll_files, present]
  rw [RecordingStorage.upload, if_pos rfl, uploadAll_eq present]
  by_cases nothing : accepting refuses backends = []
  · rw [if_pos nothing, if_pos (by rw [nothing]; rfl)]
    exact ⟨_, rfl, kept, rfl⟩
  · rw [if_neg nothing, if_neg fun empty => nothing (map_eq_nil_iff.mp empty)]
    cases sidecar with
    | none => exact ⟨_, rfl, kept, rfl⟩
    | some text => exact ⟨_, rfl, (write_other apart).trans kept, rfl⟩

theorem upload_present (sessionPresent : Bool) (backends : List Backend) (keepLocal : Bool) :
    ((RecordingStorage.backup backends keepLocal).upload refuses sidecar sessionPresent world
      localPath).1.files localPath = some content := by
  cases sessionPresent with
  | false => exact present
  | true =>
    obtain ⟨after, uploaded, kept, -⟩ := upload_session present sidecar backends keepLocal
    rw [uploaded, kept]

end Uploads

end SiprecServer.Media
