import SiprecServer.Audio.EncryptedRecording

/-!
# What a recording says in the end

A recording is started, given audio and stopped, with any switches and any file errors.  The
header is written before the session has a key, so it names none; frames that were cut off stay in
the file; and a session that could not store its metadata, or whose audio is not to be encrypted
although its metadata are, takes no audio.
-/

namespace SiprecServer.Audio.EncryptedRecording

open List

open Encryption Lib.FileSystem Lib.Frames Lib.LittleEndian Lib.Transducer Lib.UnixPath Durability

/-! ## Recordings -/

/-- A recording from its start to its end: what it finds, what it meets and what is recorded.
A session without a recording has no key yet. -/
structure Recording where
  setting : Setting
  keySize : Nat
  before : Recorder
  consistent : Consistent before.manager
  sessionID : Bytes
  filePath : Bytes
  metadataPath : Bytes
  apart : metadataPath ≠ filePath
  noInfo : before.sessions sessionID = none → before.info sessionID = none
  metadata : Option Bytes
  starting : Starting
  chunks : List (Chunk × Bytes)
  stopping : Stopping
  finalMetadata : Bytes

namespace Recording

variable (recording : Recording)

def started : Recorder × Except StartError Unit :=
  startRecording recording.setting recording.starting recording.sessionID recording.filePath
    recording.metadataPath recording.metadata recording.before

def step (r : Recorder) (item : Chunk × Bytes) : Recorder × List Bytes :=
  let written := writeAudio recording.setting recording.sessionID r item.1 item.2
  (written.1, if written.2 then [item.2] else [])

def recorded (chunks : List (Chunk × Bytes)) : Recorder × List Bytes :=
  run recording.step recording.started.1 chunks

def stopped : Recorder :=
  (stopRecording recording.setting recording.stopping recording.sessionID recording.finalMetadata
    (recording.recorded recording.chunks).1).1

structure Unhindered (chunk : Chunk) : Prop where
  key : Drawn recording.keySize chunk.encrypting
  encrypted : chunk.encrypted = ⟨none, none⟩
  plain : chunk.plain = none

def Accepts (r : Recorder) : Prop :=
  ∀ chunk audioData, recording.Unhindered chunk →
    (writeAudio recording.setting recording.sessionID r chunk audioData).2 = true

def Reads (text : Bytes) (manager : Manager) (audio : List Bytes) : Prop :=
  if recording.setting.isEncryptionEnabled then
    ∃ header bodies value chunks,
      readFrames text = some (header :: bodies) ∧
      recording.setting.json.parseHeader header = some value ∧
      bodies.mapM recording.setting.json.parseChunk = some chunks ∧
      chunks.map (fun chunk => (decryptRecording recording.setting.aead manager chunk).2) =
        audio.map some ∧
      ∀ chunk ∈ chunks, value.keyID = some chunk.keyID
  else text = audio.flatten

/-- The session takes audio at any time, and the file of the stopped recording says what it took. -/
def Complete : Prop :=
  (∀ front, front <+: recording.chunks → recording.Accepts (recording.recorded front).1) ∧
    ∃ text, recording.stopped.files recording.filePath = some text ∧
      recording.Reads text recording.stopped.manager (recording.recorded recording.chunks).2

/-- A recording that does not start leaves nothing, one that starts accepts audio, and in the end
the file says what was recorded. -/
def Faithful : Prop :=
  match recording.started.2 with
  | .error _ =>
    recording.started.1.sessions = recording.before.sessions ∧
      recording.started.1.files = recording.before.files
  | .ok () => recording.Complete

end Recording

namespace Recording

structure Running (recording : Recording) (r : Recorder) (text : Bytes) : Prop where
  session : ∃ session, r.sessions recording.sessionID = some session ∧
    session.filePath = recording.filePath ∧ session.metadataPath = recording.metadataPath ∧
      session.isOpen = true ∧ session.headerWritten = recording.setting.isEncryptionEnabled
  file : r.files recording.filePath = some text
  consistent : Consistent r.manager

inductive Adds (recording : Recording) (chunk : Chunk) (audioData : Bytes)
    (before after : Manager) : Bytes → Bool → Prop where
  | plain (disabled : recording.setting.isEncryptionEnabled = false) :
      Adds recording chunk audioData before after (written chunk.plain audioData)
        chunk.plain.isNone
  | refused (enabled : recording.setting.isEncryptionEnabled = true)
      (failed : ∀ encData, (encryptRecording recording.setting.aead recording.setting.config
        chunk.encrypting before audioData).2 ≠ .ok encData) :
      Adds recording chunk audioData before after [] false
  | encrypted (encData : EncryptedData)
      (enabled : recording.setting.config.enableRecordingEncryption = true)
      (algorithm : encData.algorithm.isAead = true)
      (kept : Kept recording.setting.aead after (encData, audioData))
      (present : (after.keys encData.keyID).isSome) :
      Adds recording chunk audioData before after
        (writtenFrame chunk.encrypted (recording.setting.json.chunk encData))
        (chunk.encrypted.length.isNone && chunk.encrypted.body.isNone)

variable {recording : Recording} {r : Recorder} {text : Bytes} {session : Session}
  {files : Store Bytes Bytes}

theorem writeChunk_open (isOpen : session.isOpen = true)
    (file : r.files session.filePath = some text) (consistent : Consistent r.manager)
    (chunk : Chunk) (sessionID audioData : Bytes) :
    let after := writeChunk recording.setting chunk sessionID session audioData r
    Evolves r.manager after.1.manager ∧
      ∃ extra, after.1.files session.filePath = some (text ++ extra) ∧
        recording.Adds chunk audioData r.manager after.1.manager extra after.2 := by
  dsimp only [writeChunk]
  split
  · rename_i enabled
    obtain ⟨evolves, sealing⟩ := @encryptWith_spec recording.setting.aead
      recording.setting.config r.manager consistent
      recording.setting.config.enableRecordingEncryption chunk.encrypting audioData
    split
    · rename_i failed
      refine ⟨evolves, [], ?_, .refused enabled fun encData same => ?_⟩
      · rw [append_nil]
        exact file
      · cases failed.symm.trans same
    · rename_i encData encrypted
      obtain ⟨kept, present⟩ := sealing encData encrypted
      obtain ⟨isEnabled, algorithm⟩ := encryptWith_algorithm encrypted
      obtain ⟨added, succeeds⟩ := writeFrame_open isOpen file chunk.encrypted
        (recording.setting.json.chunk encData)
      refine ⟨evolves, _, added, ?_⟩
      rw [succeeds]
      exact .encrypted encData isEnabled algorithm kept present
  · rename_i disabled
    obtain ⟨added, succeeds⟩ := writeBytes_open isOpen file chunk.plain audioData
    refine ⟨Evolves.refl consistent, _, added, ?_⟩
    rw [succeeds]
    exact .plain (Bool.eq_false_iff.mpr disabled)

theorem writeAudio_eq (present : r.sessions recording.sessionID = some session)
    (headerWritten : session.headerWritten = recording.setting.isEncryptionEnabled)
    (chunk : Chunk) (audioData : Bytes) :
    ∃ total,
      writeAudio recording.setting recording.sessionID r chunk audioData =
        ({ (writeChunk recording.setting chunk recording.sessionID session audioData r).1 with
            sessions := write (writeChunk recording.setting chunk recording.sessionID session
              audioData r).1.sessions recording.sessionID { session with totalBytes := total } },
          (writeChunk recording.setting chunk recording.sessionID session audioData r).2) := by
  have headed :
      (if session.headerWritten then (r.files, true)
        else writeHeader recording.setting chunk.header (r.info recording.sessionID) session
          r.files) = (r.files, true) := by
    rw [headerWritten]
    cases enabled : recording.setting.isEncryptionEnabled with
    | true => rfl
    | false => rw [if_neg Bool.false_ne_true, writeHeader, if_neg (by simp [enabled])]
  have same : (session.headerWritten || recording.setting.isEncryptionEnabled) =
      session.headerWritten := by
    rw [headerWritten, Bool.or_self]
  unfold writeAudio
  rw [present]
  dsimp only
  rw [headed, same]
  exact ⟨_, rfl⟩

theorem writeAudio_running (running : recording.Running r text) (chunk : Chunk)
    (audioData : Bytes) :
    let after := writeAudio recording.setting recording.sessionID r chunk audioData
    Evolves r.manager after.1.manager ∧
      ∃ extra, recording.Running after.1 (text ++ extra) ∧
        recording.Adds chunk audioData r.manager after.1.manager extra after.2 := by
  obtain ⟨session, present, filePath, metadataPath, isOpen, headerWritten⟩ := running.session
  have file : r.files session.filePath = some text := by
    rw [filePath]
    exact running.file
  obtain ⟨evolves, extra, added, adds⟩ := @writeChunk_open recording r text session isOpen file
    running.consistent chunk recording.sessionID audioData
  obtain ⟨total, same⟩ := writeAudio_eq present headerWritten chunk audioData
  rw [same]
  refine ⟨evolves, extra, ⟨⟨_, write_same, filePath, metadataPath, isOpen, headerWritten⟩, ?_,
    evolves.consistent⟩, adds⟩
  rw [← filePath]
  exact added

/-- If audio is encrypted, there are keys for it. -/
structure Takes (recording : Recording) (m : Manager) : Prop where
  switch : recording.setting.config.enableRecordingEncryption = true
  suits : Suits recording.setting.aead recording.setting.config recording.keySize
  sized : Sized recording.keySize m

section

variable (takes : recording.setting.isEncryptionEnabled = true → recording.Takes r.manager)

include takes

theorem writeChunk_unhindered (isOpen : session.isOpen = true) {chunk : Chunk}
    (unhindered : recording.Unhindered chunk) (sessionID audioData : Bytes) :
    (writeChunk recording.setting chunk sessionID session audioData r).2 = true := by
  unfold writeChunk
  split
  · rename_i enabled
    obtain ⟨switch, suits, sized⟩ := takes enabled
    obtain ⟨encData, encrypted⟩ :=
      (encryptWith_sized suits sized unhindered.key _ audioData).2 switch
    unfold encryptRecording
    dsimp only
    rw [encrypted, unhindered.encrypted]
    unfold writeFrame writeBytes
    rw [isOpen]
    rfl
  · rw [unhindered.plain]
    unfold writeBytes
    rw [isOpen]
    rfl

theorem Running.accepts (running : recording.Running r text) : recording.Accepts r := by
  intro chunk audioData unhindered
  obtain ⟨session, present, -, -, isOpen, headerWritten⟩ := running.session
  obtain ⟨total, same⟩ := writeAudio_eq present headerWritten chunk audioData
  rw [same]
  exact writeChunk_unhindered takes isOpen unhindered recording.sessionID audioData

end

def unhinderedChunk (keySize : Nat) : Chunk where
  header := ⟨none, none⟩
  encrypting := ⟨inOrder, 0, ⟨replicate keySize 1, .done⟩, replicate nonceSize 1⟩
  encrypted := ⟨none, none⟩
  plain := none

section

variable (closed : session.isOpen = false ∨ (recording.setting.isEncryptionEnabled = true ∧
      recording.setting.config.enableRecordingEncryption = false))

include closed

theorem writeChunk_closed (chunk : Chunk) (sessionID audioData : Bytes) :
    (writeChunk recording.setting chunk sessionID session audioData r).2 = false := by
  unfold writeChunk
  split
  · dsimp only
    split
    · rfl
    · rename_i encData encrypted
      rcases closed with closed | ⟨-, disabled⟩
      · unfold writeFrame writeBytes
        rw [closed]
        rfl
      · have enabled := (encryptWith_algorithm encrypted).1
        rw [disabled] at enabled
        cases enabled
  · rename_i disabled
    rcases closed with closed | ⟨enabled, -⟩
    · unfold writeBytes
      rw [closed]
      rfl
    · exact absurd enabled disabled

theorem not_accepts (present : r.sessions recording.sessionID = some session)
    (headerWritten : session.headerWritten = recording.setting.isEncryptionEnabled) :
    ¬ recording.Accepts r := by
  intro accepts
  have succeeds := accepts (unhinderedChunk recording.keySize) []
    ⟨⟨rfl, length_replicate, rfl⟩, rfl, rfl⟩
  obtain ⟨total, same⟩ := writeAudio_eq present headerWritten _ []
  rw [same] at succeeds
  rw [writeChunk_closed closed] at succeeds
  cases succeeds

end

theorem storeMetadata_spec {encrypting : Encrypting} {saving : Saving} {sessionID content : Bytes}
    (consistent : Consistent r.manager) :
    let after := storeMetadata recording.setting encrypting saving sessionID session content r
    Evolves r.manager after.1.manager ∧
      (∀ path, path ≠ session.metadataPath → after.1.files path = r.files path) := by
  dsimp only [storeMetadata]
  split
  · obtain ⟨evolves, -⟩ := @encryptWith_spec recording.setting.aead
      recording.setting.config r.manager consistent
      recording.setting.config.enableMetadataEncryption encrypting content
    split
    · exact ⟨evolves, fun _ _ => rfl⟩
    · exact ⟨evolves, fun path different => saveFile_other different⟩
  · exact ⟨Evolves.refl consistent, fun path different => saveFile_other different⟩

/-! ## What the recording meets -/

/-- There are keys of the size that the cipher takes, and new ones are stored. -/
structure Keyed (recording : Recording) : Prop where
  suits : Suits recording.setting.aead recording.setting.config recording.keySize
  held : Sized recording.keySize recording.before.manager
  starting : Drawn recording.keySize recording.starting.encrypting
  chunks : ∀ item ∈ recording.chunks, Drawn recording.keySize item.1.encrypting

/-- The start fails before there is a file. -/
def Refused (recording : Recording) : Prop :=
  (recording.before.sessions recording.sessionID).isSome ∨ recording.starting.createFails = true ∨
    (recording.before.files recording.filePath).isSome

def HeaderWritten (recording : Recording) : Prop :=
  recording.setting.isEncryptionEnabled = true →
    recording.starting.header.length = none ∧ recording.starting.header.body = none

def MetadataStored (recording : Recording) : Prop :=
  recording.metadata = none ∨ recording.starting.saving.succeeds = true ∧
    (recording.setting.isEncryptionEnabled = true →
      recording.setting.config.enableMetadataEncryption = true)

/-- The writes of chunks leave nothing but audio in a plain file, and nothing at all in an
encrypted one. -/
def Unspoilt (recording : Recording) : Prop :=
  (recording.setting.isEncryptionEnabled = false ∧
      ∀ item ∈ recording.chunks, ∀ count, item.1.plain = some count → item.2.take count = []) ∨
    (recording.setting.config.enableRecordingEncryption = true ∧
      ∀ item ∈ recording.chunks, item.1.encrypted.length = some 0)

theorem storeMetadata_sized {sessionID content : Bytes} (keyed : recording.Keyed)
    (sized : Sized recording.keySize r.manager) :
    let after := storeMetadata recording.setting recording.starting.encrypting
      recording.starting.saving sessionID session content r
    Sized recording.keySize after.1.manager ∧
      (after.2 = true ↔ recording.starting.saving.succeeds = true ∧
        (recording.setting.isEncryptionEnabled = true →
          recording.setting.config.enableMetadataEncryption = true)) := by
  obtain ⟨still, succeeds⟩ := encryptWith_sized keyed.suits sized keyed.starting
    recording.setting.config.enableMetadataEncryption content
  dsimp only [storeMetadata]
  split
  · rename_i enabled
    split
    · rename_i failed
      refine ⟨still, iff_of_false Bool.false_ne_true fun ⟨_, switch⟩ => ?_⟩
      obtain ⟨encData, encrypted⟩ := succeeds (switch enabled)
      cases failed.symm.trans encrypted
    · rename_i encData encrypted
      have switch := (encryptWith_algorithm encrypted).1
      exact ⟨still, (and_iff_left fun _ => switch).symm⟩
  · rename_i disabled
    exact ⟨sized, (and_iff_left fun enabled => absurd enabled disabled).symm⟩

def startText (recording : Recording) : Bytes :=
  if recording.setting.isEncryptionEnabled then
    frame (recording.setting.json.header (newHeader none))
  else []

section

variable {outcome : FrameOutcome} {setting : Setting} {path : Bytes} (chunks : List (Chunk × Bytes))

theorem writeHeader_other {info : Option KeyInfo} (different : path ≠ session.filePath) :
    (writeHeader setting outcome info session files).1 path = files path := by
  have bytes : ∀ {outcome : Outcome} {content : Bytes} {files : Store Bytes Bytes},
      (writeBytes session outcome content files).1 path = files path := by
    intro outcome content files
    unfold writeBytes
    split
    · cases outcome with
      | none => exact write_other different
      | some count => exact write_other different
    · rfl
  unfold writeHeader writeFrame
  split
  · dsimp only
    split
    · exact bytes.trans bytes
    · exact bytes
  · rfl

theorem writtenFrame_eq_nil {body : Bytes} :
    writtenFrame outcome body = [] ↔ outcome.length = some 0 := by
  have four := length_encode 4 body.length
  obtain ⟨length, rest⟩ := outcome
  cases length with
  | none =>
    refine iff_of_false (fun empty => ?_) (fun none => by cases none)
    have nothing : encode 4 body.length = [] := (append_eq_nil_iff.mp empty).1
    rw [nothing] at four
    cases four
  | some count =>
    have some : encode 4 body.length ≠ [] := fun empty => by
      rw [empty] at four
      cases four
    simp [writtenFrame, written, some]

theorem writtenFrame_of_succeeds
    (succeeds : (outcome.length.isNone && outcome.body.isNone) = true) (body : Bytes) :
    writtenFrame outcome body = frame body := by
  obtain ⟨length, rest⟩ := outcome
  rw [Bool.and_eq_true, Option.isNone_iff_eq_none, Option.isNone_iff_eq_none] at succeeds
  obtain ⟨rfl, rfl⟩ : length = none ∧ rest = none := succeeds
  rfl

theorem writeHeader_open (isOpen : session.isOpen = true)
    (created : files session.filePath = some []) (outcome : FrameOutcome) (info : Option KeyInfo) :
    (writeHeader setting outcome info session files).1 session.filePath ≠ none ∧
      ((writeHeader setting outcome info session files).2 = true ↔
        (setting.isEncryptionEnabled = true → outcome.length = none ∧ outcome.body = none)) ∧
      ((writeHeader setting outcome info session files).2 = true →
        (writeHeader setting outcome info session files).1 session.filePath =
          some (if setting.isEncryptionEnabled then frame (setting.json.header (newHeader info))
            else [])) := by
  unfold writeHeader
  split
  · rename_i enabled
    obtain ⟨added, succeeds⟩ :=
      writeFrame_open isOpen created outcome (setting.json.header (newHeader info))
    rw [added, succeeds]
    refine ⟨Option.some_ne_none _, by simp [enabled], fun whole => ?_⟩
    rw [writtenFrame_of_succeeds whole, nil_append]
  · rename_i disabled
    dsimp only
    rw [created]
    exact ⟨Option.some_ne_none _, by simp [disabled], fun _ => rfl⟩

inductive Started (recording : Recording) : Recorder × Except StartError Unit → Prop where
  | refused (error : StartError) (refused : recording.Refused) :
      Started recording (recording.before, .error error)
  | noHeader (files : Store Bytes Bytes) (creates : ¬ recording.Refused)
      (headless : ¬ recording.HeaderWritten) (present : files recording.filePath ≠ none)
      (others : ∀ path, path ≠ recording.filePath → files path = recording.before.files path) :
      Started recording
        ({ recording.before with
            files := removeFile recording.starting.removeFails files recording.filePath },
          .error .noHeader)
  | running (r : Recorder) (creates : ¬ recording.Refused) (headed : recording.HeaderWritten)
      (stored : recording.MetadataStored) (running : recording.Running r recording.startText)
      (sized : Sized recording.keySize r.manager) : Started recording (r, .ok ())
  | closed (r : Recorder) (session : Session) (creates : ¬ recording.Refused)
      (headed : recording.HeaderWritten) (unstored : ¬ recording.MetadataStored)
      (present : r.sessions recording.sessionID = some session)
      (headerWritten : session.headerWritten = recording.setting.isEncryptionEnabled)
      (isClosed : session.isOpen = false) : Started recording (r, .ok ())

theorem started_spec (keyed : recording.Keyed) : recording.Started recording.started := by
  unfold started startRecording
  split
  · exact .refused .alreadyExists (.inl ‹_›)
  · rename_i noSession
    split
    · exact .refused .notCreated (.inr ‹_›)
    · rename_i noFile
      have creates : ¬ recording.Refused := not_or.mpr ⟨noSession, noFile⟩
      rw [Option.not_isSome_iff_eq_none] at noSession
      rw [recording.noInfo noSession]
      have created : write recording.before.files recording.filePath [] recording.filePath =
          some [] := write_same
      obtain ⟨there, headed_iff, header⟩ := @writeHeader_open
        ⟨recording.filePath, recording.metadataPath, recording.setting.isEncryptionEnabled, true, 0⟩
        _ recording.setting rfl created recording.starting.header none
      dsimp only
      split
      · rename_i succeeds
        have text := header succeeds
        have headed : recording.HeaderWritten := headed_iff.mp succeeds
        cases given : recording.metadata with
        | none =>
          exact .running _ creates headed (.inl given)
            ⟨⟨_, write_same, rfl, rfl, rfl, rfl⟩, text, recording.consistent⟩ keyed.held
        | some content =>
          have stored := @storeMetadata_spec recording
          have sized := @storeMetadata_sized recording
          have given_iff : recording.MetadataStored ↔ _ :=
            or_iff_right fun none => by cases given.symm.trans none
          dsimp only
          split
          · rename_i done
            refine .running _ creates headed (given_iff.mpr ((sized keyed ?_).2.mp done))
              ⟨⟨_, write_same, rfl, rfl, rfl, rfl⟩, ?_, (stored ?_).1.consistent⟩ (sized keyed ?_).1
            · exact keyed.held
            · refine ((stored ?_).2 _ (Ne.symm recording.apart)).trans text
              exact recording.consistent
            · exact recording.consistent
            · exact keyed.held
          · rename_i failed
            refine .closed _ _ creates headed
              (fun done => failed ((sized keyed ?_).2.mpr (given_iff.mp done))) write_same rfl rfl
            exact keyed.held
      · rename_i fails
        refine .noHeader _ creates (fun headed => fails (headed_iff.mpr headed)) there
          fun path different => ?_
        rw [writeHeader_other different]
        exact write_other different

theorem isEncryptionEnabled_of_recording
    (enabled : recording.setting.config.enableRecordingEncryption = true) :
    recording.setting.isEncryptionEnabled = true := by
  rw [Setting.isEncryptionEnabled, enabled, Bool.true_or]

theorem step_running (running : recording.Running r text) (item : Chunk × Bytes) :
    Evolves r.manager (recording.step r item).1.manager ∧
      ∃ extra succeeds, recording.Running (recording.step r item).1 (text ++ extra) ∧
        recording.Adds item.1 item.2 r.manager (recording.step r item).1.manager extra succeeds ∧
          (recording.step r item).2 = if succeeds then [item.2] else [] := by
  obtain ⟨evolves, extra, after, adds⟩ := writeAudio_running running item.1 item.2
  exact ⟨evolves, extra, _, after, adds, rfl⟩

theorem step_sized (suits : Suits recording.setting.aead recording.setting.config recording.keySize)
    (running : recording.Running r text) (sized : Sized recording.keySize r.manager)
    {item : Chunk × Bytes} (drawn : Drawn recording.keySize item.1.encrypting) :
    Sized recording.keySize (recording.step r item).1.manager := by
  obtain ⟨session, present, -, -, -, headerWritten⟩ := running.session
  obtain ⟨total, same⟩ := writeAudio_eq present headerWritten item.1 item.2
  have still := (encryptWith_sized suits sized drawn
    recording.setting.config.enableRecordingEncryption item.2).1
  rw [step, same]
  dsimp only [writeChunk]
  split
  · split
    · exact still
    · exact still
  · exact sized

theorem Adds.encrypted_length {item : Chunk × Bytes} {after : Manager} {extra : Bytes}
    {succeeds : Bool} (adds : recording.Adds item.1 item.2 r.manager after extra succeeds)
    (takes : recording.Takes r.manager) (drawn : Drawn recording.keySize item.1.encrypting) :
    4 * (if succeeds then [item.2] else []).length ≤ extra.length ∧
      (extra = [] ↔ item.1.encrypted.length = some 0) := by
  cases adds with
  | plain disabled =>
    rw [isEncryptionEnabled_of_recording takes.switch] at disabled
    cases disabled
  | refused _ failed =>
    obtain ⟨encData, encrypted⟩ :=
      (encryptWith_sized takes.suits takes.sized drawn _ item.2).2 takes.switch
    exact absurd encrypted (failed encData)
  | encrypted encData _ _ _ _ =>
    refine ⟨?_, writtenFrame_eq_nil⟩
    split
    · rename_i whole
      rw [writtenFrame_of_succeeds whole, length_frame]
      exact Nat.le_add_right 4 _
    · exact Nat.zero_le _

/-- Every chunk leaves something in the file, unless not even its length is written. -/
theorem run_encrypted (takes : recording.Takes r.manager) (running : recording.Running r text)
    (drawn : ∀ item ∈ chunks, Drawn recording.keySize item.1.encrypting) :
    recording.Takes (run recording.step r chunks).1.manager ∧
      ∃ extra, recording.Running (run recording.step r chunks).1 (text ++ extra) ∧
        4 * (run recording.step r chunks).2.length ≤ extra.length ∧
        (extra = [] ↔ ∀ item ∈ chunks, item.1.encrypted.length = some 0) := by
  induction chunks generalizing r text with
  | nil =>
    refine ⟨takes, [], ?_, Nat.le_refl _, iff_of_true rfl fun item mem => absurd mem not_mem_nil⟩
    rw [append_nil]
    exact running
  | cons item rest ih =>
    obtain ⟨drawnItem, drawnRest⟩ := forall_mem_cons.mp drawn
    obtain ⟨-, extra, succeeds, after, adds, handed⟩ := step_running running item
    obtain ⟨takesRest, extraRest, afterRest, long, nothing⟩ := ih
      ⟨takes.switch, takes.suits, step_sized takes.suits running takes.sized drawnItem⟩ after
      drawnRest
    have added := adds.encrypted_length takes drawnItem
    rw [run_cons_state, run_cons_output, handed]
    refine ⟨takesRest, extra ++ extraRest, ?_, ?_, ?_⟩
    · rw [← append_assoc]
      exact afterRest
    · rw [length_append, length_append]
      omega
    · rw [append_eq_nil_iff, added.2, nothing, forall_mem_cons]

theorem run_plain (disabled : recording.setting.isEncryptionEnabled = false)
    (running : recording.Running r text) (chunks : List (Chunk × Bytes)) :
    recording.Running (run recording.step r chunks).1
        (text ++ chunks.flatMap fun item => written item.1.plain item.2) ∧
      (run recording.step r chunks).2 =
        chunks.flatMap fun item => if item.1.plain.isNone then [item.2] else [] := by
  induction chunks generalizing r text with
  | nil =>
    refine ⟨?_, rfl⟩
    rw [flatMap_nil, append_nil]
    exact running
  | cons item rest ih =>
    obtain ⟨-, extra, succeeds, after, adds, handed⟩ := step_running running item
    cases adds with
    | plain _ =>
      obtain ⟨afterRest, output⟩ := ih after
      rw [run_cons_state, run_cons_output, handed, output, flatMap_cons,
        flatMap_cons, ← append_assoc]
      exact ⟨afterRest, rfl⟩
    | refused enabled _ =>
      rw [disabled] at enabled
      cases enabled
    | encrypted encData enabled _ _ _ =>
      have isEnabled := isEncryptionEnabled_of_recording enabled
      rw [disabled] at isEnabled
      cases isEnabled

theorem plain_length_le :
    (chunks.flatMap fun item => if item.1.plain.isNone then [item.2] else []).flatten.length ≤
      (chunks.flatMap fun item => written item.1.plain item.2).length := by
  induction chunks with
  | nil => exact Nat.le_refl _
  | cons item rest ih =>
    rw [flatMap_cons, flatMap_cons, flatten_append, length_append, length_append]
    refine Nat.add_le_add ?_ ih
    cases item.1.plain with
    | none =>
      rw [if_pos Option.isNone_none, flatten_singleton]
      exact Nat.le_refl _
    | some count => exact Nat.zero_le _

/-- What failed writes leave shows in the length of the file. -/
theorem plain_eq_iff :
    (chunks.flatMap fun item => written item.1.plain item.2) =
        (chunks.flatMap fun item => if item.1.plain.isNone then [item.2] else []).flatten ↔
      ∀ item ∈ chunks, ∀ count, item.1.plain = some count → item.2.take count = [] := by
  induction chunks with
  | nil => exact iff_of_true rfl fun item mem => absurd mem not_mem_nil
  | cons item rest ih =>
    rw [flatMap_cons, flatMap_cons, flatten_append, forall_mem_cons]
    refine Iff.trans ?_ (and_congr Iff.rfl ih)
    cases outcome : item.1.plain with
    | none =>
      rw [if_pos Option.isNone_none, flatten_singleton, written, append_cancel_left_eq]
      refine (and_iff_right ?_).symm
      intro count absurdity
      cases absurdity
    | some count =>
      rw [if_neg (by simp), flatten_nil, nil_append, written]
      constructor
      · intro same
        have lengths := congrArg List.length same
        rw [length_append] at lengths
        have bound := plain_length_le rest
        have nothing : item.2.take count = [] :=
          length_eq_zero_iff.mp (by omega)
        rw [nothing, nil_append] at same
        refine ⟨fun other sameCount => ?_, same⟩
        obtain rfl := Option.some.inj sameCount
        exact nothing
      · rintro ⟨nothing, same⟩
        rw [nothing count rfl, nil_append, same]

theorem stopped_running (running : recording.Running (recording.recorded recording.chunks).1 text) :
    recording.stopped.files recording.filePath = some text ∧
      Evolves (recording.recorded recording.chunks).1.manager
        recording.stopped.manager := by
  obtain ⟨session, present, filePath, metadataPath, -, -⟩ := running.session
  obtain ⟨evolves, others⟩ := @storeMetadata_spec recording _ session
    recording.stopping.encrypting recording.stopping.saving recording.sessionID
    recording.finalMetadata running.consistent
  unfold stopped stopRecording
  rw [present]
  refine ⟨?_, evolves⟩
  rw [metadataPath] at others
  exact (others recording.filePath (Ne.symm recording.apart)).trans running.file

theorem parseHeader_start :
    recording.setting.json.parseHeader (recording.setting.json.header (newHeader none)) =
      some (newHeader none) :=
  recording.setting.json.parseHeader_header _ fun algorithm named => by cases named

/-- The header names no key, so the file says what was recorded only if nothing was. -/
theorem reads_encrypted_iff (enabled : recording.setting.isEncryptionEnabled = true) {extra : Bytes}
    {manager : Manager} {audio : List Bytes} (long : 4 * audio.length ≤ extra.length) :
    recording.Reads (recording.startText ++ extra) manager audio ↔ extra = [] := by
  unfold Reads startText
  rw [if_pos enabled, if_pos enabled, readFrames_frame recording.setting.json.header_fits]
  constructor
  · rintro ⟨header, bodies, value, chunks, frames, parsed, chunksParsed, -, named⟩
    obtain ⟨others, readExtra, shape⟩ := Option.map_eq_some_iff.mp frames
    obtain ⟨rfl, rfl⟩ := List.cons.inj shape
    rw [parseHeader_start] at parsed
    obtain rfl := Option.some.inj parsed
    cases chunks with
    | nil =>
      cases others with
      | nil => exact readFrames_eq_nil_iff.mp readExtra
      | cons body rest => simp [mapM_cons, Option.bind_eq_some_iff] at chunksParsed
    | cons chunk rest => cases named chunk mem_cons_self
  · rintro rfl
    obtain rfl : audio = [] := length_eq_zero_iff.mp (by simpa using long)
    exact ⟨_, [], _, [], rfl, parseHeader_start, rfl, rfl,
      fun chunk mem => absurd mem not_mem_nil⟩

theorem files_removed_iff {fails : Bool} {before : Store Bytes Bytes}
    (absent : before path = none) (present : files path ≠ none)
    (others : ∀ other, other ≠ path → files other = before other) :
    removeFile fails files path = before ↔ fails = false := by
  cases fails with
  | true =>
    refine iff_of_false (fun same => present ?_) (Bool.noConfusion)
    rw [← absent, ← same]
    rfl
  | false =>
    refine iff_of_true (funext fun other => ?_) rfl
    change remove files path other = before other
    by_cases isPath : other = path
    · rw [isPath, remove_same, absent]
    · rw [remove_other isPath, others other isPath]

end

theorem complete_iff {holds : Prop} (accepts : ∀ front, front <+: recording.chunks →
      recording.Accepts (recording.recorded front).1)
    (running : recording.Running (recording.recorded recording.chunks).1 text)
    (reads : recording.Reads text recording.stopped.manager
      (recording.recorded recording.chunks).2 ↔ holds) : recording.Complete ↔ holds := by
  have file := (stopped_running running).1
  constructor
  · rintro ⟨-, other, same, read⟩
    obtain rfl := Option.some.inj (file.symm.trans same)
    exact reads.mp read
  · exact fun faithful => ⟨accepts, _, file, reads.mpr faithful⟩

section

variable (running : recording.Running recording.started.1 recording.startText)

include running

theorem running_plain_iff (disabled : recording.setting.isEncryptionEnabled = false) :
    recording.Complete ↔
      ∀ item ∈ recording.chunks, ∀ count, item.1.plain = some count → item.2.take count = [] := by
  obtain ⟨after, audio⟩ := run_plain disabled running recording.chunks
  have empty : recording.startText = [] := by
    rw [startText, disabled]
    rfl
  rw [empty, nil_append] at after
  refine complete_iff (fun front _ => ?_) after ?_
  · exact (run_plain disabled running front).1.accepts fun enabled => by
      rw [disabled] at enabled
      cases enabled
  · rw [Reads, disabled, ← plain_eq_iff, recorded, audio]
    exact Iff.rfl

theorem running_encrypted_iff (takes : recording.Takes recording.started.1.manager)
    (drawn : ∀ item ∈ recording.chunks, Drawn recording.keySize item.1.encrypting) :
    recording.Complete ↔ ∀ item ∈ recording.chunks, item.1.encrypted.length = some 0 := by
  have isEnabled := isEncryptionEnabled_of_recording takes.switch
  obtain ⟨-, extra, after, long, nothing⟩ := run_encrypted recording.chunks takes running drawn
  rw [← nothing]
  refine complete_iff (fun front inFront => ?_) after (reads_encrypted_iff isEnabled long)
  obtain ⟨takesFront, extra, afterFront, -⟩ := run_encrypted front takes running
    fun item mem => drawn item (inFront.subset mem)
  exact afterFront.accepts fun _ => takesFront

theorem running_complete_iff (keyed : recording.Keyed)
    (sized : Sized recording.keySize recording.started.1.manager) :
    recording.Complete ↔ recording.Unspoilt := by
  unfold Unspoilt
  cases isRecording : recording.setting.config.enableRecordingEncryption with
  | true =>
    rw [running_encrypted_iff running ⟨isRecording, keyed.suits, sized⟩ keyed.chunks,
      isEncryptionEnabled_of_recording isRecording]
    simp
  | false =>
    cases isEnabled : recording.setting.isEncryptionEnabled with
    | true =>
      obtain ⟨session, present, -, -, -, headerWritten⟩ := running.session
      refine iff_of_false (fun complete => ?_) (by simp)
      exact not_accepts (.inr ⟨isEnabled, isRecording⟩) present headerWritten
        (complete.1 [] nil_prefix)
    | false =>
      rw [running_plain_iff running isEnabled]
      simp

end

def Intact (chunk : Chunk) : Prop :=
  chunk.encrypted = ⟨none, none⟩ ∨ chunk.encrypted.length = some 0

def frames (recording : Recording) (sealed : List Sealed) : Bytes :=
  sealed.flatMap fun item => frame (recording.setting.json.chunk item.1)

structure Decryptable (recording : Recording) (manager : Manager) (item : Sealed) :
    Prop where
  algorithm : item.1.algorithm.isAead = true
  kept : Kept recording.setting.aead manager item
  present : (manager.keys item.1.keyID).isSome

theorem Decryptable.evolves {manager after : Manager} {item : Sealed}
    (decryptable : recording.Decryptable manager item)
    (evolves : Evolves manager after) : recording.Decryptable after item where
  algorithm := decryptable.algorithm
  kept := decryptable.kept.evolves evolves
  present := (evolves.keys decryptable.kept.below).mpr decryptable.present

theorem Adds.sealed {chunk : Chunk} {audioData extra : Bytes} {before after : Manager}
    {succeeds : Bool}
    (adds : recording.Adds chunk audioData before after extra succeeds)
    (enabled : recording.setting.isEncryptionEnabled = true) (intact : Intact chunk) :
    ∃ sealed, extra = recording.frames sealed ∧
      (if succeeds then [audioData] else []) = sealed.map Prod.snd ∧
        ∀ item ∈ sealed, recording.Decryptable after item := by
  have nothing : ∀ item ∈ ([] : List Sealed), recording.Decryptable after item :=
    fun item mem => absurd mem not_mem_nil
  cases adds with
  | plain disabled =>
    rw [enabled] at disabled
    cases disabled
  | refused _ _ => exact ⟨[], rfl, rfl, nothing⟩
  | encrypted encData _ algorithm kept present =>
    rcases intact with whole | none
    · rw [whole]
      refine ⟨[(encData, audioData)], ?_, rfl, fun item mem => ?_⟩
      · rw [frames, flatMap_singleton]
        rfl
      · obtain rfl := mem_singleton.mp mem
        exact ⟨algorithm, kept, present⟩
    · refine ⟨[], ?_, ?_, nothing⟩
      · rw [writtenFrame, none]
        rfl
      · rw [none]
        rfl

variable (enabled : recording.setting.isEncryptionEnabled = true)

include enabled

theorem run_sealed (running : recording.Running r text) {chunks : List (Chunk × Bytes)}
    (intact : ∀ item ∈ chunks, Intact item.1) :
    Evolves r.manager (run recording.step r chunks).1.manager ∧
      ∃ sealed,
        recording.Running (run recording.step r chunks).1 (text ++ recording.frames sealed) ∧
        (run recording.step r chunks).2 = sealed.map Prod.snd ∧
        ∀ item ∈ sealed, recording.Decryptable (run recording.step r chunks).1.manager item := by
  induction chunks generalizing r text with
  | nil =>
    refine ⟨Evolves.refl running.consistent, [], ?_, rfl,
      fun item mem => absurd mem not_mem_nil⟩
    rw [frames, flatMap_nil, append_nil]
    exact running
  | cons item rest ih =>
    obtain ⟨evolves, extra, succeeds, after, adds, handed⟩ := step_running running item
    obtain ⟨new, rfl, newAudio, newDecryptable⟩ :=
      adds.sealed enabled (intact item mem_cons_self)
    obtain ⟨evolvesRest, sealed, afterRest, output, decryptable⟩ :=
      ih after fun other mem => intact other (mem_cons_of_mem _ mem)
    rw [run_cons_state, run_cons_output, handed, newAudio, output]
    refine ⟨evolves.trans evolvesRest, new ++ sealed, ?_, map_append.symm, fun item mem => ?_⟩
    · rw [frames, flatMap_append, ← append_assoc]
      exact afterRest
    · rcases mem_append.mp mem with isNew | later
      · exact (newDecryptable item isNew).evolves evolvesRest
      · exact decryptable item later

theorem stopped_decrypts (running : recording.Running recording.started.1 recording.startText)
    (intact : ∀ item ∈ recording.chunks, Intact item.1) :
    ∃ sealed,
      recording.stopped.files recording.filePath =
        some (recording.startText ++ recording.frames sealed) ∧
      sealed.map (fun item =>
          (decryptRecording recording.setting.aead recording.stopped.manager item.1).2) =
        (recording.recorded recording.chunks).2.map some ∧
      ((∀ item ∈ sealed, Fits (recording.setting.json.chunk item.1)) →
        readFrames (recording.startText ++ recording.frames sealed) =
          some (recording.setting.json.header (newHeader none) ::
            sealed.map fun item => recording.setting.json.chunk item.1)) ∧
      (sealed.map fun item => recording.setting.json.chunk item.1).mapM
          recording.setting.json.parseChunk = some (sealed.map Prod.fst) := by
  obtain ⟨-, sealed, after, output, decryptable⟩ := run_sealed enabled running intact
  obtain ⟨file, evolves⟩ := stopped_running after
  have audio : (recording.recorded recording.chunks).2 = sealed.map Prod.snd := output
  refine ⟨sealed, file, ?_, fun fits => ?_, ?_⟩
  · rw [audio, map_map]
    refine map_congr_left fun item mem => ?_
    have still := (decryptable item mem).evolves evolves
    exact still.kept.decrypts_iff.mpr still.present
  · have read := @readFrames_flatMap (sealed.map fun item => recording.setting.json.chunk item.1)
      fun body mem => by
        obtain ⟨item, inside, rfl⟩ := mem_map.mp mem
        exact fits item inside
    rw [flatMap_map] at read
    rw [startText, if_pos enabled, readFrames_frame recording.setting.json.header_fits, frames,
      read]
    rfl
  · have parsed : ∀ list : List Sealed,
        (∀ item ∈ list, item.1.algorithm.isAead = true) →
          (list.map fun item => recording.setting.json.chunk item.1).mapM
            recording.setting.json.parseChunk = some (list.map Prod.fst) := by
      intro list
      induction list with
      | nil => exact fun _ => rfl
      | cons item rest ih =>
        intro algorithms
        rw [map_cons, mapM_cons,
          recording.setting.json.parseChunk_chunk _ (algorithms item mem_cons_self),
          ih fun other mem => algorithms other (mem_cons_of_mem _ mem)]
        rfl
    exact parsed sealed fun item mem => (decryptable item mem).algorithm

end Recording

def unary (number : Nat) : Bytes := List.replicate number 1 ++ [0]

def readUnary : Bytes → Nat × Bytes
  | [] => (0, [])
  | byte :: rest =>
    if byte = 0 then (0, rest) else ((readUnary rest).1 + 1, (readUnary rest).2)

theorem readUnary_unary (number : Nat) (rest : Bytes) :
    readUnary (unary number ++ rest) = (number, rest) := by
  induction number with
  | zero => rfl
  | succ number ih =>
    have inner : readUnary (List.replicate number 1 ++ [0] ++ rest) = (number, rest) := ih
    rw [unary, replicate_succ, cons_append, cons_append, readUnary, if_neg (by decide), inner]

def tag : Option Algorithm → Nat
  | some .aes256Gcm => 1
  | some .chaCha20Poly1305 => 2
  | some .aes256Cbc => 0
  | some (.other _) => 0
  | none => 0

def untag : Nat → Option Algorithm
  | 0 => none
  | 1 => some .aes256Gcm
  | _ => some .chaCha20Poly1305

theorem untag_tag {algorithm : Option Algorithm}
    (aead : ∀ known, algorithm = some known → known.isAead = true) :
    untag (tag algorithm) = algorithm := by
  cases algorithm with
  | none => rfl
  | some known =>
    have isAead := aead known rfl
    cases known with
    | aes256Gcm => rfl
    | aes256Cbc => cases isAead
    | chaCha20Poly1305 => rfl
    | other name => cases isAead

def unaryJson : Json where
  header value :=
    unary value.version ++ (unary (tag value.algorithm) ++ (unary value.keyID.isSome.toNat ++
      (unary (value.keyID.getD 0) ++ (unary value.keyVersion ++
        (unary value.nonceSize ++ (unary value.tagSize ++ []))))))
  parseHeader text :=
    let version := readUnary text
    let algorithm := readUnary version.2
    let named := readUnary algorithm.2
    let keyID := readUnary named.2
    let keyVersion := readUnary keyID.2
    let nonceSize := readUnary keyVersion.2
    let tagSize := readUnary nonceSize.2
    some ⟨version.1, untag algorithm.1, if named.1 = 0 then none else some keyID.1, keyVersion.1,
      nonceSize.1, tagSize.1⟩
  chunk value :=
    unary (tag (some value.algorithm)) ++ (unary value.keyID ++ (unary value.keyVersion ++
      (unary value.nonce.length ++ (value.nonce ++ value.ciphertext))))
  parseChunk text :=
    let algorithm := readUnary text
    let keyID := readUnary algorithm.2
    let keyVersion := readUnary keyID.2
    let length := readUnary keyVersion.2
    (untag algorithm.1).map fun known =>
      ⟨known, keyID.1, keyVersion.1, length.2.take length.1, length.2.drop length.1⟩
  indented value := value.ciphertext
  parseHeader_header value aead := by
    obtain ⟨version, algorithm, keyID, keyVersion, nonceSize, tagSize⟩ := value
    simp only [readUnary_unary, untag_tag aead]
    cases keyID <;> rfl
  parseChunk_chunk value aead := by
    have known : untag (tag (some value.algorithm)) = some value.algorithm :=
      untag_tag fun other same => by
        rw [← Option.some.inj same]
        exact aead
    simp only [readUnary_unary, known, take_left, drop_left, Option.map_some]
  header_fits := by
    unfold Fits
    decide

def audioOnly : Config where
  enableRecordingEncryption := true
  enableMetadataEncryption := false
  algorithm := .aes256Gcm
  keyRotationInterval := 1
  positive := Int.zero_lt_one

theorem additive_suits : Suits additive audioOnly 2 :=
  ⟨rfl, fun key nonce data size _ => by simp [additive, size]⟩

def drawnKey : Encrypting := ⟨inOrder, 0, ⟨[8, 9], .done⟩, replicate nonceSize 3⟩

def chunk : Chunk where
  header := ⟨none, none⟩
  encrypting := drawnKey
  encrypted := ⟨none, none⟩
  plain := none

def audioOnlyRecording : Recording where
  setting := ⟨additive, unaryJson, audioOnly⟩
  keySize := 2
  before := ⟨fresh.manager, empty, empty, empty⟩
  consistent := consistent_fresh
  sessionID := [1]
  filePath := [1, 2]
  metadataPath := [1, 3]
  apart := by decide
  noInfo _ := rfl
  metadata := some [5]
  starting := ⟨false, ⟨none, none⟩, false, drawnKey, .done⟩
  chunks := [(chunk, [7, 6]), ({ chunk with plain := some 0 }, [5]), (chunk, [4])]
  stopping := ⟨drawnKey, .done⟩
  finalMetadata := [6]

def unencrypted : Recording :=
  { audioOnlyRecording with
    setting := ⟨additive, unaryJson, { audioOnly with enableRecordingEncryption := false }⟩ }

def withoutMetadata : Recording :=
  { audioOnlyRecording with
    metadata := none
    chunks := [(chunk, [7, 6]), ({ chunk with encrypted := ⟨some 0, none⟩ }, [5]), (chunk, [4])] }

theorem withoutMetadata_decrypts : ∃ sealed : List Sealed, sealed.map (fun item =>
    (decryptRecording additive withoutMetadata.stopped.manager item.1).2) =
      [some [7, 6], some [4]] := by
  obtain ⟨sealed, -, decrypts, -⟩ := @Recording.stopped_decrypts withoutMetadata rfl
    ⟨⟨_, rfl, rfl, rfl, rfl, rfl⟩, rfl, consistent_fresh⟩
    (by simp [withoutMetadata, chunk, Recording.Intact])
  exact ⟨sealed, decrypts⟩

end SiprecServer.Audio.EncryptedRecording
