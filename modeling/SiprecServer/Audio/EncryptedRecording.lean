import SiprecServer.Encryption.Durability
import SiprecServer.Lib.Frames

/-!
# Encrypted recordings

`EncryptedRecordingManager` writes a recording file: a header, if any encryption is enabled, and
then the chunks of audio, each encrypted for itself, in frames.  Whether a header is written and
whether chunks and metadata are encrypted is decided by two switches in three places, and a
session whose metadata could not be stored is handed out with its file closed and removed.
-/

namespace SiprecServer.Audio.EncryptedRecording

open Encryption Lib.FileSystem Lib.Frames Lib.LittleEndian Lib.Transducer Lib.UnixPath

/-- What becomes of a write to an open file: all is written, or some bytes and then an error. -/
abbrev Outcome := Option Nat

/-- What becomes of `os.WriteFile`. -/
inductive Saving where
  | done
  | late
  | refused
  | cutOff (count : Nat)

def Saving.succeeds : Saving → Bool
  | .done => true
  | .late => false
  | .refused => false
  | .cutOff _ => false

def saveFile (saving : Saving) (files : Store Bytes Bytes) (path text : Bytes) :
    Store Bytes Bytes :=
  match saving with
  | .done => write files path text
  | .late => write files path text
  | .refused => files
  | .cutOff count => write files path (text.take count)

def removeFile (fails : Bool) (files : Store Bytes Bytes) (path : Bytes) : Store Bytes Bytes :=
  if fails then files else remove files path

/-- What `EncryptionInfo` says of the key of a session. -/
structure KeyInfo where
  algorithm : Algorithm
  keyID : Nat
  keyVersion : Nat

/-- `FileHeader`; without information the algorithm and the key ID are empty. -/
structure FileHeader where
  version : Nat
  algorithm : Option Algorithm
  keyID : Option Nat
  keyVersion : Nat
  nonceSize : Nat
  tagSize : Nat

def newHeader (info : Option KeyInfo) : FileHeader where
  version := 1
  algorithm := info.map (·.algorithm)
  keyID := info.map (·.keyID)
  keyVersion := (info.map (·.keyVersion)).getD 0
  nonceSize := 12
  tagSize := 16

/-- JSON texts, which are read back; the magic of the header is part of its text. -/
structure Json where
  header : FileHeader → Bytes
  parseHeader : Bytes → Option FileHeader
  chunk : EncryptedData → Bytes
  parseChunk : Bytes → Option EncryptedData
  indented : EncryptedData → Bytes
  parseHeader_header : ∀ value : FileHeader,
    (∀ algorithm, value.algorithm = some algorithm → algorithm.isAead = true) →
      parseHeader (header value) = some value
  parseChunk_chunk : ∀ value : EncryptedData, value.algorithm.isAead = true →
    parseChunk (chunk value) = some value
  header_fits : Fits (header (newHeader none))

structure Session where
  filePath : Bytes
  metadataPath : Bytes
  headerWritten : Bool
  isOpen : Bool
  totalBytes : Nat

structure Recorder where
  manager : Manager
  info : Store Bytes KeyInfo
  sessions : Store Bytes Session
  files : Store Bytes Bytes

structure Setting where
  aead : Aead
  json : Json
  config : Config

section

variable (setting : Setting)

def Setting.isEncryptionEnabled : Bool :=
  setting.config.enableRecordingEncryption || setting.config.enableMetadataEncryption

structure FrameOutcome where
  length : Outcome
  body : Outcome

structure Starting where
  createFails : Bool
  header : FrameOutcome
  removeFails : Bool
  encrypting : Encrypting
  saving : Saving

structure Chunk where
  header : FrameOutcome
  encrypting : Encrypting
  encrypted : FrameOutcome
  plain : Outcome

structure Stopping where
  encrypting : Encrypting
  saving : Saving

def append (files : Store Bytes Bytes) (path bytes : Bytes) : Store Bytes Bytes :=
  write files path ((files path).getD [] ++ bytes)

/-- `file.Write`; nothing is written to a closed file. -/
def writeBytes (session : Session) (outcome : Outcome) (bytes : Bytes)
    (files : Store Bytes Bytes) : Store Bytes Bytes × Bool :=
  if session.isOpen then
    match outcome with
    | none => (append files session.filePath bytes, true)
    | some count => (append files session.filePath (bytes.take count), false)
  else (files, false)

def writeFrame (session : Session) (outcome : FrameOutcome) (body : Bytes)
    (files : Store Bytes Bytes) : Store Bytes Bytes × Bool :=
  let counted := writeBytes session outcome.length (encode 4 body.length) files
  if counted.2 then writeBytes session outcome.body body counted.1 else counted

def writeHeader (outcome : FrameOutcome) (info : Option KeyInfo) (session : Session)
    (files : Store Bytes Bytes) : Store Bytes Bytes × Bool :=
  if setting.isEncryptionEnabled then
    writeFrame session outcome (setting.json.header (newHeader info)) files
  else (files, true)

/-- `updateSessionEncryptionInfo`, with the key that the encrypted data name. -/
def updateInfo (info : Store Bytes KeyInfo) (sessionID : Bytes) (encData : EncryptedData) :
    Store Bytes KeyInfo :=
  write info sessionID ⟨encData.algorithm, encData.keyID, encData.keyVersion⟩

def storeMetadata (encrypting : Encrypting) (saving : Saving) (sessionID : Bytes)
    (session : Session) (text : Bytes) (r : Recorder) : Recorder × Bool :=
  if setting.isEncryptionEnabled then
    let encrypted := encryptMetadata setting.aead setting.config encrypting r.manager text
    match encrypted.2 with
    | .error _ => ({ r with manager := encrypted.1 }, false)
    | .ok encData =>
      ({ r with
          manager := encrypted.1
          info := updateInfo r.info sessionID encData
          files := saveFile saving r.files session.metadataPath
            (setting.json.indented encData) },
        saving.succeeds)
  else ({ r with files := saveFile saving r.files session.metadataPath text }, saving.succeeds)

inductive StartError where
  /-- "recording session %s already exists" -/
  | alreadyExists
  /-- "failed to create recording file: %w" -/
  | notCreated
  /-- "failed to write encryption header: %w" -/
  | noHeader
deriving DecidableEq

/-- `StartRecording`, with the paths that session and time make; a file that exists already is
not opened. -/
def startRecording (starting : Starting) (sessionID filePath metadataPath : Bytes)
    (metadata : Option Bytes) (r : Recorder) : Recorder × Except StartError Unit :=
  if (r.sessions sessionID).isSome then (r, .error .alreadyExists)
  else if starting.createFails ∨ (r.files filePath).isSome then (r, .error .notCreated)
  else
    let session : Session :=
      { filePath, metadataPath, headerWritten := setting.isEncryptionEnabled, isOpen := true
        totalBytes := 0 }
    let headed :=
      writeHeader setting starting.header (r.info sessionID) session (write r.files filePath [])
    if headed.2 then
      match metadata with
      | none =>
        ({ r with files := headed.1, sessions := write r.sessions sessionID session }, .ok ())
      | some text =>
        let stored := storeMetadata setting starting.encrypting starting.saving sessionID session
          text { r with files := headed.1 }
        if stored.2 then
          ({ stored.1 with sessions := write r.sessions sessionID session }, .ok ())
        else
          -- The writer is closed and the file removed, but the session is registered.
          ({ stored.1 with
              files := removeFile starting.removeFails stored.1.files filePath
              sessions := write r.sessions sessionID { session with isOpen := false } },
            .ok ())
    else
      ({ r with files := removeFile starting.removeFails headed.1 filePath }, .error .noHeader)

def writeChunk (chunk : Chunk) (sessionID : Bytes) (session : Session) (audioData : Bytes)
    (r : Recorder) : Recorder × Bool :=
  if setting.isEncryptionEnabled then
    let encrypted :=
      encryptRecording setting.aead setting.config chunk.encrypting r.manager audioData
    match encrypted.2 with
    | .error _ => ({ r with manager := encrypted.1 }, false)
    | .ok encData =>
      let written := writeFrame session chunk.encrypted (setting.json.chunk encData) r.files
      ({ r with
          manager := encrypted.1
          info := updateInfo r.info sessionID encData
          files := written.1 },
        written.2)
  else
    let written := writeBytes session chunk.plain audioData r.files
    ({ r with files := written.1 }, written.2)

def writeAudio (sessionID : Bytes) (r : Recorder) (chunk : Chunk) (audioData : Bytes) :
    Recorder × Bool :=
  match r.sessions sessionID with
  | none => (r, false)
  | some session =>
    let headed :=
      if session.headerWritten then (r.files, true)
      else writeHeader setting chunk.header (r.info sessionID) session r.files
    if headed.2 then
      let written := writeChunk setting chunk sessionID session audioData
        { r with files := headed.1 }
      let counted :=
        { session with
          headerWritten := session.headerWritten || setting.isEncryptionEnabled
          totalBytes := session.totalBytes + if written.2 then audioData.length else 0 }
      ({ written.1 with sessions := write written.1.sessions sessionID counted }, written.2)
    else ({ r with files := headed.1 }, false)

/-- `StopRecording`; closing the file and storing the metadata may fail, which is only logged. -/
def stopRecording (stopping : Stopping) (sessionID text : Bytes) (r : Recorder) : Recorder × Bool :=
  match r.sessions sessionID with
  | none => (r, false)
  | some session =>
    let stored := storeMetadata setting stopping.encrypting stopping.saving sessionID session
      text r
    ({ stored.1 with
        sessions := remove stored.1.sessions sessionID
        info := remove stored.1.info sessionID },
      true)

end

theorem append_same {files : Store Bytes Bytes} {path text bytes : Bytes}
    (present : files path = some text) : append files path bytes path = some (text ++ bytes) := by
  rw [append, write_same, present]
  rfl

def written (outcome : Outcome) (bytes : Bytes) : Bytes :=
  match outcome with
  | none => bytes
  | some count => bytes.take count

def writtenFrame (outcome : FrameOutcome) (body : Bytes) : Bytes :=
  written outcome.length (encode 4 body.length) ++
    if outcome.length.isNone then written outcome.body body else []

section Writes

variable {session : Session} {files : Store Bytes Bytes} {text : Bytes}

section

variable (isOpen : session.isOpen = true) (present : files session.filePath = some text)

include isOpen present

theorem writeBytes_open (outcome : Outcome) (bytes : Bytes) :
    (writeBytes session outcome bytes files).1 session.filePath =
        some (text ++ written outcome bytes) ∧
      (writeBytes session outcome bytes files).2 = outcome.isNone := by
  unfold writeBytes
  rw [if_pos isOpen]
  cases outcome with
  | none => exact ⟨append_same present, rfl⟩
  | some count => exact ⟨append_same present, rfl⟩

theorem writeFrame_open (outcome : FrameOutcome) (body : Bytes) :
    (writeFrame session outcome body files).1 session.filePath =
        some (text ++ writtenFrame outcome body) ∧
      (writeFrame session outcome body files).2 =
        (outcome.length.isNone && outcome.body.isNone) := by
  obtain ⟨counted, succeeds⟩ :=
    writeBytes_open isOpen present outcome.length (encode 4 body.length)
  unfold writeFrame writtenFrame
  dsimp only
  rw [succeeds]
  cases counts : outcome.length.isNone with
  | true =>
    obtain ⟨whole, last⟩ := writeBytes_open isOpen counted outcome.body body
    rw [if_pos rfl, if_pos rfl, whole, last, List.append_assoc]
    exact ⟨rfl, rfl⟩
  | false =>
    rw [if_neg Bool.false_ne_true, if_neg Bool.false_ne_true, List.append_nil]
    exact ⟨counted, succeeds.trans counts⟩

end

theorem saveFile_other {saving : Saving} {path other content : Bytes} (different : other ≠ path) :
    saveFile saving files path content other = files other := by
  cases saving with
  | refused => rfl
  | _ => exact write_other different

end Writes

variable {config : Config} {m : Manager}

theorem isSupported_of_isAead {algorithm : Algorithm} (aead : algorithm.isAead = true) :
    algorithm.isSupported = true := by
  cases algorithm with
  | aes256Gcm => rfl
  | aes256Cbc => cases aead
  | chaCha20Poly1305 => rfl
  | other name => cases aead

/-! ## Keys of the configured size -/

/-- The nonces that `encrypt` draws for either cipher. -/
def nonceSize : Nat := 12

/-- The cipher of the configuration takes keys of this size. -/
structure Suits (aead : Aead) (config : Config) (keySize : Nat) : Prop where
  algorithm : config.algorithm.isAead = true
  encrypts : ∀ key nonce data, key.length = keySize → nonce.length = nonceSize →
    (aead.encrypt config.algorithm key nonce data).isSome

def Sized (keySize : Nat) (m : Manager) : Prop :=
  ∀ id key, m.keys id = some key → key.data.length = keySize

/-- A new key can be drawn and stored. -/
structure Drawn (keySize : Nat) (encrypting : Encrypting) : Prop where
  stored : encrypting.draw.writing = .done
  data : encrypting.draw.data.length = keySize
  nonce : encrypting.nonce.length = nonceSize

variable {aead : Aead} {encrypting : Encrypting} {data : Bytes} {keySize : Nat}

theorem getActiveKey_sized (supported : config.algorithm.isSupported = true)
    (sized : Sized keySize m) (drawn : Drawn keySize encrypting) :
    let found := m.getActiveKey config encrypting.orders encrypting.now encrypting.draw
      config.algorithm
    Sized keySize found.1 ∧
      ∃ key, found.2 = .ok key ∧ key.algorithm = config.algorithm ∧ key.data.length = keySize := by
  obtain ⟨id, key, cache, present, usable, -, found⟩ | generated :=
    m.getActiveKey_cases config encrypting.orders encrypting.now encrypting.draw config.algorithm
  · dsimp only
    rw [found]
    unfold Key.isUsable at usable
    rw [Bool.and_eq_true, Bool.and_eq_true] at usable
    exact ⟨sized, key, rfl, of_decide_eq_true usable.1.1, sized id key present⟩
  · dsimp only
    rw [generated, Manager.generateKey, if_pos supported, drawn.stored]
    refine ⟨fun id key present => ?_, _, rfl, rfl, drawn.data⟩
    by_cases new : id = m.next
    · rw [new] at present
      obtain rfl := Option.some.inj (write_same.symm.trans present)
      exact drawn.data
    · exact sized id key ((write_other new).symm.trans present)

/-- With keys of the size that the cipher takes, only the switch is in the way. -/
theorem encryptWith_sized (suits : Suits aead config keySize) (sized : Sized keySize m)
    (drawn : Drawn keySize encrypting) (enabled : Bool) (data : Bytes) :
    Sized keySize (encryptWith aead config enabled encrypting m data).1 ∧
      (enabled = true →
        ∃ encData, (encryptWith aead config enabled encrypting m data).2 = .ok encData) := by
  obtain ⟨still, key, found, algorithm, size⟩ :=
    getActiveKey_sized (isSupported_of_isAead suits.algorithm) sized drawn
  obtain ⟨ciphertext, sealing⟩ := Option.isSome_iff_exists.mp
    (suits.encrypts key.data encrypting.nonce data size drawn.nonce)
  have isSealed : encrypt aead encrypting.nonce data key =
      some ⟨key.algorithm, key.id, key.version, encrypting.nonce, ciphertext⟩ := by
    rw [encrypt, if_pos (algorithm ▸ suits.algorithm), algorithm, sealing]
    rfl
  unfold encryptWith
  split
  · dsimp only
    rw [found]
    dsimp only
    rw [isSealed]
    exact ⟨still, fun _ => ⟨_, rfl⟩⟩
  · rename_i disabled
    exact ⟨sized, fun isEnabled => absurd isEnabled disabled⟩

theorem encryptWith_algorithm {enabled : Bool} {encData : EncryptedData}
    (encrypted : (encryptWith aead config enabled encrypting m data).2 = .ok encData) :
    enabled = true ∧ encData.algorithm.isAead = true := by
  unfold encryptWith at encrypted
  split at encrypted
  · rename_i isEnabled
    dsimp only at encrypted
    split at encrypted
    · cases encrypted
    · split at encrypted
      · cases encrypted
      · rename_i other sealing
        obtain rfl := Except.ok.inj encrypted
        exact ⟨isEnabled, (Durability.encrypt_opens sealing).2.1⟩
  · cases encrypted

end SiprecServer.Audio.EncryptedRecording
