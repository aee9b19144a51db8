import SiprecServer.Encryption.KeyStore

/-!
# The encryption manager

`Manager` generates and rotates keys, looks for the key to encrypt with, first in its cache and
then in the key store, and finds the key of encrypted data by its ID.  The cache holds pointers to
keys of the store, so an entry of the cache is an ID here.  The clock is read once for each
operation.
-/

namespace SiprecServer.Encryption

open Lib.FileSystem Lib.UnixPath List

/-- `EncryptionConfig`; the ticker of the rotation service needs a positive interval. -/
structure Config where
  enableRecordingEncryption : Bool
  enableMetadataEncryption : Bool
  algorithm : Algorithm
  keyRotationInterval : Int
  positive : 0 < keyRotationInterval

structure Manager extends KeyStore where
  cache : Store Nat Unit
  next : Nat

structure Orders where
  ids : List Nat → List Nat
  keys : List Key → List Key
  ids_perm : ∀ list, (ids list).Perm list
  keys_perm : ∀ list, (keys list).Perm list

structure Draw where
  data : Bytes
  writing : KeyWriting

structure Rotation where
  draw : Draw
  deactivating : Writing
  writing : KeyWriting

inductive KeyError where
  /-- "unsupported algorithm: %s" -/
  | unsupported
  /-- "failed to store key: %w" -/
  | notStored
deriving DecidableEq

namespace Manager

def listKeys (m : Manager) : List Key := (List.range m.next).filterMap m.keys

def cachedIDs (m : Manager) : List Nat := (List.range m.next).filter fun id => (m.cache id).isSome

section

variable (config : Config)

def newKey (now : Int) (draw : Draw) (m : Manager) (algorithm : Algorithm) : Key where
  id := m.next
  algorithm := algorithm
  createdAt := now
  expiresAt := now + config.keyRotationInterval
  version := 1
  active := true
  data := draw.data

def generateKey (now : Int) (draw : Draw) (m : Manager) (algorithm : Algorithm) :
    Manager × Except KeyError Key :=
  if algorithm.isSupported then
    let key := m.newKey config now draw algorithm
    let stored := m.storeKey draw.writing key
    if stored.2 then
      ({ toKeyStore := stored.1, cache := write m.cache key.id (), next := m.next + 1 }, .ok key)
    else ({ toKeyStore := stored.1, cache := m.cache, next := m.next + 1 }, .error .notStored)
  else (m, .error .unsupported)

def getActiveKey (orders : Orders) (now : Int) (draw : Draw) (m : Manager) (algorithm : Algorithm) :
    Manager × Except KeyError Key :=
  match (orders.ids m.cachedIDs).findSome? fun id =>
      (m.keys id).filter (·.isUsable algorithm now) with
  | some key => (m, .ok key)
  | none =>
    match (orders.keys m.listKeys).foldl (considerKey algorithm now) none with
    | none => m.generateKey config now draw algorithm
    | some key => ({ m with cache := write m.cache key.id () }, .ok key)

def rotateNext (now : Int) (rotations : Nat → Rotation) (m : Manager) (key : Key) : Manager :=
  if key.active ∧ key.expiresAt < now then
    let rotation := rotations key.id
    let generated := m.generateKey config now rotation.draw key.algorithm
    match generated.2 with
    | .error _ => generated.1
    | .ok newKey =>
      let rotated :=
        generated.1.rotateKey rotation.deactivating rotation.writing key.id newKey
      if rotated.2 then
        { toKeyStore := rotated.1
          cache := write (remove generated.1.cache key.id) newKey.id ()
          next := generated.1.next }
      else { generated.1 with toKeyStore := rotated.1 }
  else m

def rotateKeys (orders : Orders) (now : Int) (rotations : Nat → Rotation) (m : Manager) : Manager :=
  (orders.keys m.listKeys).foldl (rotateNext config now rotations) m

end

def getKeyByID (m : Manager) (keyID : Nat) : Manager × Option Key :=
  match m.keys keyID with
  | none => (m, none)
  | some key => ({ m with cache := write m.cache keyID () }, some key)

end Manager

/-! ## Encryption -/

/-- Authenticated encryption by algorithm, key and nonce; none for a key of a wrong size. -/
structure Aead where
  encrypt : Algorithm → Bytes → Bytes → Bytes → Option Bytes
  decrypt : Algorithm → Bytes → Bytes → Bytes → Option Bytes
  decrypt_encrypt : ∀ {algorithm : Algorithm} {key nonce data ciphertext : Bytes},
    encrypt algorithm key nonce data = some ciphertext →
      decrypt algorithm key nonce ciphertext = some data

structure EncryptedData where
  algorithm : Algorithm
  keyID : Nat
  keyVersion : Nat
  nonce : Bytes
  ciphertext : Bytes
deriving DecidableEq

/-- The algorithms that `encrypt` and `decrypt` know. -/
def Algorithm.isAead : Algorithm → Bool
  | .aes256Gcm => true
  | .aes256Cbc => false
  | .chaCha20Poly1305 => true
  | .other _ => false

section

variable (aead : Aead)

def encrypt (nonce data : Bytes) (key : Key) : Option EncryptedData :=
  if key.algorithm.isAead then
    (aead.encrypt key.algorithm key.data nonce data).map fun ciphertext =>
      { algorithm := key.algorithm, keyID := key.id, keyVersion := key.version, nonce, ciphertext }
  else none

def decrypt (encData : EncryptedData) (key : Key) : Option Bytes :=
  if encData.algorithm.isAead then
    aead.decrypt encData.algorithm key.data encData.nonce encData.ciphertext
  else none

inductive EncryptError where
  /-- "recording encryption is disabled", "metadata encryption is disabled" -/
  | disabled
  /-- "failed to get encryption key: %w" -/
  | noKey (error : KeyError)
  /-- "failed to encrypt recording: %w", "failed to encrypt metadata: %w" -/
  | failed
deriving DecidableEq

structure Encrypting where
  orders : Orders
  now : Int
  draw : Draw
  nonce : Bytes

/-- `EncryptRecording` and `EncryptMetadata` under their switches. -/
def encryptWith (config : Config) (enabled : Bool) (meets : Encrypting) (m : Manager)
    (data : Bytes) : Manager × Except EncryptError EncryptedData :=
  if enabled then
    let found := m.getActiveKey config meets.orders meets.now meets.draw config.algorithm
    match found.2 with
    | .error error => (found.1, .error (.noKey error))
    | .ok key =>
      match encrypt aead meets.nonce data key with
      | none => (found.1, .error .failed)
      | some encData => (found.1, .ok encData)
  else (m, .error .disabled)

def encryptRecording (config : Config) (meets : Encrypting) (m : Manager) (audioData : Bytes) :
    Manager × Except EncryptError EncryptedData :=
  encryptWith aead config config.enableRecordingEncryption meets m audioData

def encryptMetadata (config : Config) (meets : Encrypting) (m : Manager) (metadata : Bytes) :
    Manager × Except EncryptError EncryptedData :=
  encryptWith aead config config.enableMetadataEncryption meets m metadata

def decryptRecording (m : Manager) (encData : EncryptedData) : Manager × Option Bytes :=
  let found := m.getKeyByID encData.keyID
  (found.1, found.2.bind (decrypt aead encData))

end

namespace Manager

section

variable {key : Key} {algorithm : Algorithm} {m : Manager} {now : Int}

theorem findSome_cached {orders : Orders} (found : ((orders.ids m.cachedIDs).findSome? fun id =>
      (m.keys id).filter (·.isUsable algorithm now)) = some key) :
    ∃ id, m.keys id = some key ∧ m.cache id ≠ none ∧ key.isUsable algorithm now = true := by
  obtain ⟨id, mem, usable⟩ := exists_of_findSome?_eq_some found
  obtain ⟨present, usable⟩ := Option.filter_eq_some_iff.mp usable
  have cached := (orders.ids_perm m.cachedIDs).mem_iff.mp mem
  rw [cachedIDs, mem_filter] at cached
  exact ⟨id, present, Option.isSome_iff_ne_none.mp cached.2, usable⟩

theorem foldl_considerKey {keys : List Key} {start : Option Key}
    (found : keys.foldl (considerKey algorithm now) start = some key) :
    start = some key ∨ key ∈ keys ∧ key.isUsable algorithm now = true := by
  induction keys generalizing start with
  | nil => exact .inl found
  | cons first rest ih =>
    rcases ih found with here | ⟨mem, usable⟩
    · unfold considerKey at here
      split at here
      · have usable : first.isUsable algorithm now = true := ‹_›
        cases start with
        | none =>
          obtain rfl := Option.some.inj here
          exact .inr ⟨mem_cons_self, usable⟩
        | some best =>
          dsimp only at here
          split at here
          · obtain rfl := Option.some.inj here
            exact .inr ⟨mem_cons_self, usable⟩
          · exact .inl here
      · exact .inl here
    · exact .inr ⟨mem_cons_of_mem _ mem, usable⟩

theorem mem_listKeys : key ∈ m.listKeys ↔ ∃ id < m.next, m.keys id = some key := by
  unfold listKeys
  rw [mem_filterMap]
  simp only [mem_range]

end

theorem getActiveKey_cases (config : Config) (orders : Orders) (now : Int) (draw : Draw)
    (m : Manager) (algorithm : Algorithm) :
    (∃ id key cache, m.keys id = some key ∧ key.isUsable algorithm now = true ∧
        (cache = m.cache ∨ cache = write m.cache key.id ()) ∧
        m.getActiveKey config orders now draw algorithm = ({ m with cache }, .ok key)) ∨
      m.getActiveKey config orders now draw algorithm =
        m.generateKey config now draw algorithm := by
  unfold getActiveKey
  split
  · rename_i key found
    obtain ⟨id, present, -, usable⟩ := findSome_cached found
    exact .inl ⟨id, key, m.cache, present, usable, .inl rfl, rfl⟩
  · split
    · exact .inr rfl
    · rename_i key found
      rcases foldl_considerKey found with start | ⟨mem, usable⟩
      · cases start
      · obtain ⟨id, -, present⟩ := mem_listKeys.mp ((orders.keys_perm m.listKeys).mem_iff.mp mem)
        exact .inl ⟨id, key, _, present, usable, .inr rfl, rfl⟩

end Manager

end SiprecServer.Encryption
