import SiprecServer.Backup.Storage
import SiprecServer.Lib.Transducer

/-!
# Erasing the data of a call

A finished recording is uploaded to the configured backends, and a sidecar file next to it lists
the locations they report.  `EraseCallData` deletes the rows of a call first, then the recording
that its CDR named and the copies that the sidecar lists; what goes wrong after the rows are gone
is only logged, and a second call no longer finds the path.
-/

namespace SiprecServer.Compliance.Erasure

open Lib.FileSystem Lib.Transducer Lib.UnixPath Backup.Storage List

/-- The text of a sidecar; one that was cut off cannot be parsed. -/
inductive Sidecar where
  | listed (locations : List Bytes)
  | torn
deriving DecidableEq

/-- What is stored: files and objects, the sidecars by the path of their recordings, and the
recording path of each call's CDR, if there is a database. -/
structure Archive where
  world : World
  sidecars : Store Bytes Sidecar
  repo : Option (Store Bytes Bytes)

structure RecordingStorage where
  backends : Backends
  keepLocal : Bool

inductive Saving where
  | whole
  | failed
  | cutOff
deriving DecidableEq

structure Uploading where
  session : Bool
  refuses : Backend → Bool
  saving : Saving
  removeFails : Bool

def saveRemoteRecordingLocations (saving : Saving) (archive : Archive) (localPath : Bytes)
    (locations : List Bytes) : Archive :=
  if locations = [] ∨ localPath = [] then archive
  else
    match saving with
    | .whole => { archive with sidecars := write archive.sidecars localPath (.listed locations) }
    | .failed => archive
    | .cutOff => { archive with sidecars := write archive.sidecars localPath .torn }

def loadRemoteRecordingLocations (archive : Archive) (localPath : Bytes) : List Bytes :=
  if localPath = [] then []
  else
    match archive.sidecars localPath with
    | some (.listed locations) => locations
    | some .torn => []
    | none => []

def removeFile (fails : Bool) (world : World) (path : Bytes) : World :=
  if fails then world else { world with files := remove world.files path }

/-- `Upload`, and whether it succeeds; a call without a session is not uploaded. -/
def RecordingStorage.upload (storage : RecordingStorage) (uploading : Uploading)
    (archive : Archive) (localPath : Bytes) : Archive × Bool :=
  if uploading.session then
    let uploaded := uploadAll uploading.refuses localPath archive.world storage.backends.list
    let stored := { archive with world := uploaded.1 }
    if uploaded.2 = [] then (stored, false)
    else (saveRemoteRecordingLocations uploading.saving stored localPath uploaded.2, true)
  else (archive, true)

/-- The end of a forwarder: upload of its recording, whose file is then kept or removed. -/
def cleanup (storage : Option RecordingStorage) (uploading : Uploading) (archive : Archive)
    (localPath : Bytes) : Archive :=
  match storage with
  | none => archive
  | some storage =>
    if localPath = [] then archive
    else
      let uploaded := storage.upload uploading archive localPath
      if uploaded.2 ∧ ¬ storage.keepLocal then
        { uploaded.1 with
          world := removeFile uploading.removeFails uploaded.1.world localPath }
      else uploaded.1

structure Failures where
  getCDR : Bool
  deleteCallData : Bool
  removeFile : Bool
  readLocations : Bool
  delete : Bytes → Bool
  removeLocations : Bool

def Failures.ceased : Failures where
  getCDR := false
  deleteCallData := false
  removeFile := false
  readLocations := false
  delete := fun _ => false
  removeLocations := false

def RecordingStorage.deleteNext (storage : RecordingStorage) (fails : Bytes → Bool)
    (state : World × Option DeleteError) (location : Bytes) : World × Option DeleteError :=
  let deleted := storage.backends.delete (fails location) state.1 location
  match deleted.2 with
  | .error error => (deleted.1, some error)
  | .ok () => (deleted.1, state.2)

def RecordingStorage.delete (storage : RecordingStorage) (failures : Failures) (archive : Archive)
    (localPath : Bytes) : Archive × Option DeleteError :=
  let locations :=
    if failures.readLocations then [] else loadRemoteRecordingLocations archive localPath
  let deleted := locations.foldl (storage.deleteNext failures.delete) (archive.world, none)
  ({ archive with
      world := deleted.1
      sidecars :=
        if localPath = [] ∨ failures.removeLocations then archive.sidecars
        else remove archive.sidecars localPath },
    deleted.2)

inductive EraseError where
  /-- "repository unavailable" -/
  | repositoryUnavailable
  /-- the error of the database -/
  | deleteCallData
deriving DecidableEq

section

variable (storage : Option RecordingStorage)

/-- What `EraseCallData` does once the rows are gone. -/
def eraseRecording (failures : Failures) (archive : Archive) (recordingPath : Bytes) : Archive :=
  if recordingPath = [] then archive
  else
    let removed :=
      { archive with world := removeFile failures.removeFile archive.world recordingPath }
    match storage with
    | none => removed
    | some storage => (storage.delete failures removed recordingPath).1

def eraseCallData (failures : Failures) (archive : Archive) (callID : Bytes) :
    Archive × Except EraseError Unit :=
  match archive.repo with
  | none => (archive, .error .repositoryUnavailable)
  | some rows =>
    let recordingPath := if failures.getCDR then [] else (rows callID).getD []
    if failures.deleteCallData then (archive, .error .deleteCallData)
    else
      let forgotten := { archive with repo := some (remove rows callID) }
      (eraseRecording storage failures forgotten recordingPath, .ok ())

/-! ## Runs -/

inductive Event where
  /-- A recording is written. -/
  | record (path content : Bytes)
  | cleanup (path : Bytes) (uploading : Uploading)
  | createCDR (callID path : Bytes)
  | erase (callID : Bytes) (failures : Failures)

def step (archive : Archive) : Event → Archive × List (Except EraseError Unit)
  | .record path content =>
    ({ archive with
        world := { archive.world with files := write archive.world.files path content } }, [])
  | .cleanup path uploading => (cleanup storage uploading archive path, [])
  | .createCDR callID path =>
    ({ archive with repo := archive.repo.map fun rows => write rows callID path }, [])
  | .erase callID failures =>
    let erased := eraseCallData storage failures archive callID
    (erased.1, [erased.2])

end

def backendsOf : Option RecordingStorage → List Backend
  | none => []
  | some storage => storage.backends.list

def Listed (backends : List Backend) (sidecars : Store Bytes Sidecar) : Prop :=
  ∀ path locations, sidecars path = some (.listed locations) →
    ∃ chosen : List Backend, (∀ backend ∈ chosen, backend ∈ backends) ∧
      locations = chosen.map (·.location path)

section Archives

variable {backends chosen : List Backend} {path localPath : Bytes} {archive : Archive}
  {holder : Backend} {storage : Option RecordingStorage} {failures : Failures}

theorem Listed.write {sidecars : Store Bytes Sidecar} {sidecar : Sidecar}
    (listed : Listed backends sidecars) (fresh : ∀ locations, sidecar = .listed locations →
      ∃ chosen : List Backend, (∀ backend ∈ chosen, backend ∈ backends) ∧
        locations = chosen.map (·.location path)) :
    Listed backends (write sidecars path sidecar) := by
  intro other locations found
  obtain ⟨rfl, rfl⟩ | ⟨-, before⟩ := write_eq_some_iff.mp found
  · exact fresh locations rfl
  · exact listed other locations before

theorem Listed.remove {sidecars : Store Bytes Sidecar} (path : Bytes)
    (listed : Listed backends sidecars) : Listed backends (remove sidecars path) := by
  intro other locations found
  exact listed other locations (remove_eq_some_iff.mp found).2

theorem uploadAll_locations (refuses : Backend → Bool) (localPath : Bytes) (world : World)
    (list : List Backend) :
    ∃ chosen : List Backend, (∀ backend ∈ chosen, backend ∈ list) ∧
      (uploadAll refuses localPath world list).2 = chosen.map (·.location localPath) := by
  induction list generalizing world with
  | nil => exact ⟨[], fun _ mem => absurd mem not_mem_nil, rfl⟩
  | cons first rest ih =>
    rw [uploadAll]
    cases first.upload (refuses first) world localPath with
    | none =>
      obtain ⟨chosen, asked, same⟩ := ih world
      exact ⟨chosen, fun backend mem => mem_cons_of_mem _ (asked backend mem), same⟩
    | some stored =>
      obtain ⟨chosen, asked, same⟩ := ih stored
      refine ⟨first :: chosen, fun backend mem => ?_, ?_⟩
      · rcases mem_cons.mp mem with rfl | later
        · exact mem_cons_self
        · exact mem_cons_of_mem _ (asked backend later)
      · dsimp only
        rw [same, map_cons]

theorem save_listed {saving : Saving} (listed : Listed backends archive.sidecars)
    (asked : ∀ backend ∈ chosen, backend ∈ backends) :
    Listed backends (saveRemoteRecordingLocations saving archive localPath
      (chosen.map (·.location localPath))).sidecars := by
  unfold saveRemoteRecordingLocations
  split
  · exact listed
  · cases saving with
    | whole =>
      refine listed.write fun locations same => ⟨chosen, asked, ?_⟩
      exact (Sidecar.listed.inj same).symm
    | failed => exact listed
    | cutOff =>
      refine listed.write fun locations same => ?_
      cases same

open RecordingStorage

theorem upload_listed {storage : RecordingStorage} {uploading : Uploading}
    (listed : Listed storage.backends.list archive.sidecars) :
    Listed storage.backends.list (storage.upload uploading archive localPath).1.sidecars := by
  unfold upload
  split
  · dsimp only
    split
    · exact listed
    · obtain ⟨chosen, asked, same⟩ :=
        uploadAll_locations uploading.refuses localPath archive.world storage.backends.list
      rw [same]
      exact save_listed listed asked
  · exact listed

theorem upload_recorded {storage : RecordingStorage} {uploading : Uploading} {content : Bytes}
    (session : uploading.session = true) (saved : uploading.saving = .whole)
    (nonempty : localPath ≠ []) (present : archive.world.files localPath = some content)
    (mem : holder ∈ storage.backends.list)
    (takes : holder = .localStorage ∨ uploading.refuses holder = false) :
    holder.location localPath ∈
        loadRemoteRecordingLocations (storage.upload uploading archive localPath).1 localPath ∧
      holder.copy localPath (storage.upload uploading archive localPath).1.world =
        some content := by
  obtain ⟨reported, held⟩ := uploadAll_holds storage.backends.distinct present mem takes
  have reports :
      (uploadAll uploading.refuses localPath archive.world storage.backends.list).2 ≠ [] :=
    ne_nil_of_mem reported
  unfold upload saveRemoteRecordingLocations
  rw [if_pos session]
  rw [if_neg reports, if_neg (by simp [reports, nonempty]), saved]
  refine ⟨?_, held⟩
  unfold loadRemoteRecordingLocations
  dsimp only
  rw [if_neg nonempty, write_same]
  exact reported

theorem eraseRecording_listed (listed : Listed (backendsOf storage) archive.sidecars) :
    Listed (backendsOf storage) (eraseRecording storage failures archive path).sidecars := by
  unfold eraseRecording
  split
  · exact listed
  · cases storage with
    | none => exact listed
    | some storage =>
      unfold delete
      dsimp only
      split
      · exact listed
      · exact listed.remove _

theorem step_listed (storage : Option RecordingStorage) (archive : Archive) (event : Event)
    (listed : Listed (backendsOf storage) archive.sidecars) :
    Listed (backendsOf storage) (step storage archive event).1.sidecars := by
  cases event with
  | record path content => exact listed
  | cleanup path uploading =>
    unfold step cleanup
    cases storage with
    | none => exact listed
    | some storage =>
      dsimp only
      split
      · exact listed
      · split
        · exact upload_listed listed
        · exact upload_listed listed
  | createCDR callID path => exact listed
  | erase callID failures =>
    unfold step eraseCallData
    dsimp only
    split
    · exact listed
    · split
      · exact listed
      · exact eraseRecording_listed listed

def Known (storage : Option RecordingStorage) (holder : Backend) : Prop :=
  ∀ backend ∈ backendsOf storage, backend.kind = holder.kind → backend = holder

theorem Known.mem_of_location (known : Known storage holder)
    (asked : ∀ backend ∈ chosen, backend ∈ backendsOf storage) :
    holder.location path ∈ chosen.map (·.location path) ↔ holder ∈ chosen := by
  constructor
  · intro mem
    obtain ⟨backend, inside, same⟩ := mem_map.mp mem
    rw [← known backend (asked backend inside) (kind_of_location same)]
    exact inside
  · exact fun mem => mem_map.mpr ⟨holder, mem, rfl⟩

theorem copy_deleted {storage : RecordingStorage} {fails : Bytes → Bool}
    (known : Known (some storage) holder)
    (asked : ∀ backend ∈ chosen, backend ∈ storage.backends.list)
    (state : World × Option DeleteError) :
    holder.copy path
        ((chosen.map (·.location path)).foldl (storage.deleteNext fails) state).1 =
      if holder ∈ chosen ∧ fails (holder.location path) = false then none
      else holder.copy path state.1 := by
  induction chosen generalizing state with
  | nil => rw [if_neg (by simp)]; rfl
  | cons first rest ih =>
    have inside := asked first mem_cons_self
    have next : (storage.deleteNext fails state (first.location path)).1 =
        if fails (first.location path) then state.1 else first.discard path state.1 := by
      rw [← storage.backends.delete_location (fails (first.location path)) state.1 path inside]
      unfold deleteNext
      dsimp only
      split <;> rfl
    rw [map_cons, foldl_cons,
      ih fun backend mem => asked backend (mem_cons_of_mem _ mem), next]
    by_cases same : first.kind = holder.kind
    · obtain rfl := known first inside same
      cases fails (first.location path) with
      | true => simp
      | false => simp
    · have different : holder ≠ first := fun equal => same (equal ▸ rfl)
      have unchanged : holder.copy path
          (if fails (first.location path) then state.1 else first.discard path state.1) =
            holder.copy path state.1 := by
        split
        · rfl
        · exact copy_discard_other fun equal => same equal.symm
      simp [different, unchanged]

theorem copy_removeFile {fails : Bool} {world : World} (holder : Backend) :
    holder.copy path (removeFile fails world path) =
      if holder = .localStorage ∧ fails = false then none else holder.copy path world := by
  unfold removeFile
  cases fails with
  | true => simp
  | false =>
    cases holder with
    | localStorage => exact remove_same
    | s3 bucket folder => rfl
    | gcs bucket folder => rfl
    | azure account container folder => rfl

def Reached (failures : Failures) (archive : Archive) (path : Bytes) (holder : Backend) : Prop :=
  (holder = .localStorage ∧ failures.removeFile = false) ∨
    (holder.location path ∈ loadRemoteRecordingLocations archive path ∧
      failures.readLocations = false ∧ failures.delete (holder.location path) = false)

theorem load_listed (listed : Listed backends archive.sidecars) (path : Bytes) :
    ∃ chosen : List Backend, (∀ backend ∈ chosen, backend ∈ backends) ∧
      loadRemoteRecordingLocations archive path = chosen.map (·.location path) := by
  have nothing : ∃ chosen : List Backend, (∀ backend ∈ chosen, backend ∈ backends) ∧
      [] = chosen.map (·.location path) :=
    ⟨[], fun _ mem => absurd mem not_mem_nil, rfl⟩
  unfold loadRemoteRecordingLocations
  split
  · exact nothing
  · split
    · exact listed path _ ‹_›
    · exact nothing
    · exact nothing

theorem copy_eraseRecording (failures : Failures) (archive : Archive) (nonempty : path ≠ [])
    (listed : Listed (backendsOf storage) archive.sidecars) (known : Known storage holder) :
    holder.copy path (eraseRecording storage failures archive path).world = none ↔
      Reached failures archive path holder ∨ holder.copy path archive.world = none := by
  obtain ⟨chosen, asked, loaded⟩ := load_listed listed path
  unfold Reached
  rw [loaded, known.mem_of_location asked, eraseRecording, if_neg nonempty]
  cases storage with
  | none =>
    have noneChosen : holder ∉ chosen := fun mem =>
      absurd (asked holder mem) not_mem_nil
    rw [copy_removeFile]
    simp [noneChosen, or_iff_not_imp_left]
  | some storage =>
    unfold delete
    have same : loadRemoteRecordingLocations
        { archive with world := removeFile failures.removeFile archive.world path } path =
          chosen.map (·.location path) := loaded
    dsimp only
    rw [same]
    cases failures.readLocations with
    | true =>
      rw [if_pos rfl, foldl_nil, copy_removeFile]
      simp [or_iff_not_imp_left]
    | false =>
      rw [if_neg Bool.false_ne_true, copy_deleted known asked, copy_removeFile]
      by_cases deleted : holder ∈ chosen ∧ failures.delete (holder.location path) = false
      · simp [deleted]
      · simp [deleted, or_iff_not_imp_left]

theorem eraseCallData_eq {rows : Store Bytes Bytes} (callID : Bytes)
    (repo : archive.repo = some rows) :
    eraseCallData storage failures archive callID =
      if failures.deleteCallData then (archive, .error .deleteCallData)
      else (eraseRecording storage failures { archive with repo := some (remove rows callID) }
        (if failures.getCDR then [] else (rows callID).getD []), .ok ()) := by
  unfold eraseCallData
  rw [repo]

@[simp]
theorem eraseRecording_repo :
    (eraseRecording storage failures archive path).repo = archive.repo := by
  unfold eraseRecording
  split
  · rfl
  · cases storage <;> rfl

end Archives

/-! ## Calls with a recording -/

structure StoredCall where
  storage : Option RecordingStorage
  world : World
  repo : Option (Store Bytes Bytes)
  events : List Event
  callID : Bytes
  path : Bytes
  nonempty : path ≠ []
  stored : ((run (step storage) ⟨world, empty, repo⟩ events).1.repo.bind (· callID)) = some path

namespace StoredCall

variable (call : StoredCall)

def archive : Archive :=
  (run (step call.storage) ⟨call.world, empty, call.repo⟩ call.events).1

def erase (failures : Failures) (archive : Archive) : Archive × Except EraseError Unit :=
  eraseCallData call.storage failures archive call.callID

def Holder (holder : Backend) : Prop :=
  holder = .localStorage ∨
    (holder ∈ backendsOf call.storage ∧
      holder.location call.path ∈ loadRemoteRecordingLocations call.archive call.path)

def Gone (archive : Archive) : Prop :=
  ∀ holder, call.Holder holder → holder.copy call.path archive.world = none

/-- An erasure that reports success leaves no copy, and the next one, without failures, deletes
what is left. -/
def Erased (failures : Failures) : Prop :=
  ((call.erase failures call.archive).2 = .ok () → call.Gone (call.erase failures call.archive).1) ∧
    (¬ call.Gone (call.erase failures call.archive).1 →
      call.Gone (call.erase .ceased (call.erase failures call.archive).1).1)

theorem archive_listed : Listed (backendsOf call.storage) call.archive.sidecars := by
  refine run_invariant (fun archive : Archive => Listed (backendsOf call.storage) archive.sidecars)
    (step_listed call.storage) ?_
  intro path locations found
  cases found

theorem exists_rows : ∃ rows : Store Bytes Bytes,
    call.archive.repo = some rows ∧ rows call.callID = some call.path :=
  Option.bind_eq_some_iff.mp call.stored

variable {call}

theorem Holder.known {holder : Backend} (holds : call.Holder holder) :
    Known call.storage holder := by
  intro backend other same
  rcases holds with rfl | ⟨mem, -⟩
  · cases backend with
    | localStorage => rfl
    | _ => cases same
  · cases storage : call.storage with
    | none => exact absurd (storage ▸ mem) not_mem_nil
    | some storage_ =>
      rw [storage] at mem other
      exact inj_on_of_nodup_map storage_.backends.distinct other mem same

theorem gone_erase_iff {failures : Failures} (deleted : failures.deleteCallData = false) :
    call.Gone (call.erase failures call.archive).1 ↔
      ∀ holder, call.Holder holder → holder.copy call.path call.archive.world ≠ none →
        failures.getCDR = false ∧ Reached failures call.archive call.path holder := by
  obtain ⟨rows, repo, row⟩ := call.exists_rows
  unfold Gone erase
  rw [eraseCallData_eq _ repo, if_neg (by simp [deleted]), row]
  refine forall_congr' fun holder => forall_congr' fun holds => ?_
  cases failures.getCDR with
  | true =>
    rw [if_pos rfl, eraseRecording, if_pos rfl]
    simp
  | false =>
    rw [if_neg Bool.false_ne_true]
    have same := copy_eraseRecording failures
      { call.archive with repo := some (remove rows call.callID) } call.nonempty
      call.archive_listed holds.known
    rw [Option.getD_some, same, or_iff_not_imp_right]
    exact imp_congr_right fun _ => (and_iff_right rfl).symm

/-- Whatever happened to the recording before, an erasure in which nothing fails leaves no copy. -/
theorem gone_of_ceased (call : StoredCall) : call.Gone (call.erase .ceased call.archive).1 := by
  refine (gone_erase_iff rfl).mpr fun holder holds _ => ⟨rfl, ?_⟩
  rcases holds with rfl | ⟨-, recorded⟩
  · exact .inl ⟨rfl, rfl⟩
  · exact .inr ⟨recorded, rfl, rfl⟩

theorem erase_again_world {failures : Failures} (deleted : failures.deleteCallData = false) :
    (call.erase .ceased (call.erase failures call.archive).1).1.world =
      (call.erase failures call.archive).1.world := by
  obtain ⟨rows, repo, row⟩ := call.exists_rows
  have after : (call.erase failures call.archive).1.repo = some (remove rows call.callID) := by
    unfold erase
    rw [eraseCallData_eq _ repo, if_neg (by simp [deleted]), eraseRecording_repo]
  rw [erase, eraseCallData_eq _ after]
  have noPath : (if Failures.ceased.getCDR = true then []
      else (remove rows call.callID call.callID).getD []) = [] := by
    rw [remove_same]
    rfl
  rw [if_neg (by decide), noPath, eraseRecording, if_pos rfl]

/-- Erasures keep their promise if the rows cannot be deleted, or if every copy is reached by the
same call that deletes the rows. -/
theorem erased_iff (call : StoredCall) (failures : Failures) :
    call.Erased failures ↔
      failures.deleteCallData = true ∨
        ∀ holder, call.Holder holder → holder.copy call.path call.archive.world ≠ none →
          failures.getCDR = false ∧ Reached failures call.archive call.path holder := by
  obtain ⟨rows, repo, row⟩ := call.exists_rows
  cases deletes : failures.deleteCallData with
  | true =>
    have refused : call.erase failures call.archive =
        (call.archive, .error .deleteCallData) := by
      unfold erase
      rw [eraseCallData_eq _ repo, if_pos deletes]
    refine iff_of_true ?_ (.inl rfl)
    unfold Erased
    rw [refused]
    refine ⟨fun success => ?_, fun _ => ?_⟩
    · cases success
    · refine (gone_erase_iff rfl).mpr fun holder holds _ => ⟨rfl, ?_⟩
      rcases holds with rfl | ⟨-, recorded⟩
      · exact .inl ⟨rfl, rfl⟩
      · exact .inr ⟨recorded, rfl, rfl⟩
  | false =>
    have success : (call.erase failures call.archive).2 = .ok () := by
      unfold erase
      rw [eraseCallData_eq _ repo, if_neg (by simp [deletes])]
    rw [← gone_erase_iff deletes]
    constructor
    · exact fun erased => .inr (erased.1 success)
    · rintro (absurdity | gone)
      · cases absurdity
      · exact ⟨fun _ => gone, fun left => absurd gone left⟩

def localCall : StoredCall where
  storage := none
  world := ⟨write empty [97] [1], empty⟩
  repo := some empty
  events := [.createCDR [49] [97]]
  callID := [49]
  path := [97]
  nonempty := cons_ne_nil _ _
  stored := rfl

/-- The file cannot be removed, success is reported, and the next erasure finds no path. -/
theorem localCall_not_erased : ¬ localCall.Erased { Failures.ceased with removeFile := true } := by
  intro erased
  have gone := erased.1 rfl .localStorage (.inl rfl)
  revert gone
  decide

theorem localCall_stays :
    let once := (localCall.erase { Failures.ceased with removeFile := true } localCall.archive).1
    (localCall.erase .ceased once).1.world = once.world :=
  localCall.erase_again_world rfl

/-- One backend takes the recording, the other refuses it, and the file is removed. -/
def remoteStorage : RecordingStorage :=
  ⟨⟨[.gcs ⟨[103], by decide⟩ [], .s3 ⟨[115], by decide⟩ []], by decide⟩, false⟩

def refusedByGcs : Uploading := ⟨true, fun holder => holder.kind = .gcs, .whole, false⟩

def remoteCall : StoredCall where
  storage := some remoteStorage
  world := ⟨empty, empty⟩
  repo := some empty
  events := [.record [97] [1, 2], .cleanup [97] refusedByGcs, .createCDR [49] [97]]
  callID := [49]
  path := [97]
  nonempty := cons_ne_nil _ _
  stored := rfl

theorem remoteCall_gone :
    (Backend.s3 ⟨[115], by decide⟩ []).copy [97] remoteCall.archive.world = some [1, 2] ∧
      remoteCall.Gone (remoteCall.erase .ceased remoteCall.archive).1 :=
  ⟨by decide, gone_of_ceased remoteCall⟩

end StoredCall

theorem remoteCall_recorded :
    let holder : Backend := .s3 ⟨[115], by decide⟩ []
    let after := (StoredCall.remoteStorage.upload StoredCall.refusedByGcs
      StoredCall.localCall.archive [97]).1
    holder.location [97] ∈ loadRemoteRecordingLocations after [97] ∧
      holder.copy [97] after.world = some [1] :=
  upload_recorded rfl rfl (by decide) rfl (by decide) (.inr (by decide))

end SiprecServer.Compliance.Erasure
