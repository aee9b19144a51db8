import SiprecServer.Lib.FileSystem
import SiprecServer.Lib.UnixPath

/-!
# The key store

`FileKeyStore` holds its keys in memory and in two files each, the metadata and the encrypted key
material.  A write may fail before it changes the file, or after some of it; a file that was cut
off neither parses nor decrypts.  Key IDs are drawn at random; here the number of a key among all
that were ever generated is its ID, so that no two keys share one.
-/

namespace SiprecServer.Encryption

open Lib.FileSystem Lib.UnixPath

inductive Algorithm where
  | aes256Gcm
  | aes256Cbc
  | chaCha20Poly1305
  | other (name : String)
deriving DecidableEq

def Algorithm.isSupported : Algorithm → Bool
  | .aes256Gcm => true
  | .aes256Cbc => true
  | .chaCha20Poly1305 => true
  | .other _ => false

/-- What the file of a key says; times in nanoseconds. -/
structure Metadata where
  id : Nat
  algorithm : Algorithm
  createdAt : Int
  expiresAt : Int
  version : Nat
  active : Bool
deriving DecidableEq

structure Key extends Metadata where
  data : Bytes
deriving DecidableEq

/-- The contents of a file: what was written, or only a part of it. -/
inductive Text (α : Type) where
  | whole (content : α)
  | torn
deriving DecidableEq

inductive Writing where
  | done
  /-- All is written, but closing the file reports an error. -/
  | late
  /-- The file cannot be opened. -/
  | refused
  | cutOff
deriving DecidableEq

def Writing.succeeds (writing : Writing) : Bool := writing = .done

def writeFile {α : Type} (writing : Writing) (files : Store Nat (Text α)) (id : Nat)
    (content : α) : Store Nat (Text α) :=
  match writing with
  | .done => write files id (.whole content)
  | .late => write files id (.whole content)
  | .refused => files
  | .cutOff => write files id .torn

structure KeyStore where
  keys : Store Nat Key
  metadataFiles : Store Nat (Text Metadata)
  dataFiles : Store Nat (Text Bytes)

structure KeyWriting where
  metadata : Writing
  data : Writing

def KeyWriting.done : KeyWriting := ⟨.done, .done⟩

namespace KeyStore

/-- `StoreKey`, and whether it succeeds.  The key is in memory whatever becomes of its files. -/
def storeKey (writing : KeyWriting) (store : KeyStore) (key : Key) : KeyStore × Bool :=
  let kept :=
    { store with
      keys := write store.keys key.id key
      metadataFiles := writeFile writing.metadata store.metadataFiles key.id key.toMetadata }
  if writing.metadata.succeeds then
    ({ kept with dataFiles := writeFile writing.data store.dataFiles key.id key.data },
      writing.data.succeeds)
  else (kept, false)

/-- `deactivateKey`; a failed write is only logged. -/
def deactivateKey (writing : Writing) (store : KeyStore) (keyID : Nat) : KeyStore :=
  match store.keys keyID with
  | none => store
  | some oldKey =>
    { store with
      keys := write store.keys keyID { oldKey with active := false }
      metadataFiles :=
        writeFile writing store.metadataFiles keyID { oldKey.toMetadata with active := false } }

def rotateKey (deactivating : Writing) (writing : KeyWriting) (store : KeyStore) (oldKeyID : Nat)
    (newKey : Key) : KeyStore × Bool :=
  (store.deactivateKey deactivating oldKeyID).storeKey writing newKey

def loadKey (store : KeyStore) (keyID : Nat) : Option Key :=
  match store.metadataFiles keyID, store.dataFiles keyID with
  | some (.whole metadata), some (.whole data) => some { metadata with data }
  | _, _ => none

/-- `loadKeys` of a new process; keys that cannot be loaded are skipped. -/
def loadKeys (store : KeyStore) : KeyStore := { store with keys := store.loadKey }

end KeyStore

def Key.isUsable (algorithm : Algorithm) (now : Int) (key : Key) : Bool :=
  key.algorithm = algorithm && key.active && now < key.expiresAt

def considerKey (algorithm : Algorithm) (now : Int) (activeKey : Option Key) (key : Key) :
    Option Key :=
  if key.isUsable algorithm now then
    match activeKey with
    | none => some key
    | some best => if best.createdAt < key.createdAt then some key else some best
  else activeKey

theorem writeFile_whole {α : Type} {writing : Writing} {files : Store Nat (Text α)} {id other : Nat}
    {content found : α} (whole : writeFile writing files id content other = some (.whole found)) :
    (other = id ∧ content = found) ∨ files other = some (.whole found) := by
  have written : write files id (.whole content) other = some (.whole found) →
      (other = id ∧ content = found) ∨ files other = some (.whole found) := by
    intro present
    obtain ⟨same, content⟩ | ⟨-, before⟩ := write_eq_some_iff.mp present
    · exact .inl ⟨same, Text.whole.inj content⟩
    · exact .inr before
  cases writing with
  | done => exact written whole
  | late => exact written whole
  | refused => exact .inr whole
  | cutOff =>
    obtain ⟨-, torn⟩ | ⟨-, before⟩ := write_eq_some_iff.mp whole
    · cases torn
    · exact .inr before

namespace KeyStore

variable {writing : KeyWriting} {store : KeyStore} {key : Key}

@[simp]
theorem storeKey_keys : (store.storeKey writing key).1.keys = write store.keys key.id key := by
  unfold storeKey
  split <;> rfl

@[simp]
theorem storeKey_metadataFiles :
    (store.storeKey writing key).1.metadataFiles =
      writeFile writing.metadata store.metadataFiles key.id key.toMetadata := by
  unfold storeKey
  split <;> rfl

theorem storeKey_data_whole {id : Nat} {data : Bytes}
    (whole : (store.storeKey writing key).1.dataFiles id = some (.whole data)) :
    (id = key.id ∧ key.data = data) ∨ store.dataFiles id = some (.whole data) := by
  unfold storeKey at whole
  split at whole
  · exact writeFile_whole whole
  · exact .inr whole

theorem loadKey_eq_some_iff {id : Nat} :
    store.loadKey id = some key ↔
      store.metadataFiles id = some (.whole key.toMetadata) ∧
        store.dataFiles id = some (.whole key.data) := by
  unfold loadKey
  constructor
  · intro loaded
    split at loaded
    · obtain rfl := Option.some.inj loaded
      exact ⟨‹_›, ‹_›⟩
    · cases loaded
  · rintro ⟨metadata, data⟩
    rw [metadata, data]

theorem loadKey_isSome_iff {id : Nat} :
    (store.loadKey id).isSome ↔
      (∃ metadata, store.metadataFiles id = some (.whole metadata)) ∧
        ∃ data, store.dataFiles id = some (.whole data) := by
  rw [Option.isSome_iff_exists]
  constructor
  · rintro ⟨key, loaded⟩
    obtain ⟨metadata, data⟩ := loadKey_eq_some_iff.mp loaded
    exact ⟨⟨_, metadata⟩, ⟨_, data⟩⟩
  · rintro ⟨⟨metadata, found⟩, ⟨data, foundData⟩⟩
    exact ⟨{ metadata with data }, loadKey_eq_some_iff.mpr ⟨found, foundData⟩⟩

end KeyStore

end SiprecServer.Encryption
