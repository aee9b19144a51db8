import SiprecServer.Encryption.Manager
import SiprecServer.Lib.Transducer

/-!
# Encrypted recordings across restarts

A key that encrypts is in memory, so that what it encrypted can be decrypted until the process
ends.  A new process has the keys whose two files are whole.  `StoreKey` leaves a key in memory
when its files could not be written, and `deactivateKey` overwrites the file of a key in place, so
either may cost a key that has encrypted something.
-/

namespace SiprecServer.Encryption.Durability

open Lib.FileSystem Lib.Transducer Lib.UnixPath List

inductive Event where
  | restart (orders : Orders) (now : Int) (draw : Draw)
  | generate (algorithm : Algorithm) (now : Int) (draw : Draw)
  | rotate (orders : Orders) (now : Int) (rotations : Nat → Rotation)
  | encrypt (meets : Encrypting) (audioData : Bytes)
  | decrypt (encData : EncryptedData)

structure System where
  manager : Manager
  running : Bool

def fresh : System where
  manager :=
    { keys := empty, metadataFiles := empty, dataFiles := empty, cache := empty, next := 0 }
  running := false

def loaded (m : Manager) : Manager := { m with toKeyStore := m.loadKeys, cache := empty }

/-- `NewManager` on the files; without an active key the process does not start. -/
def newManager (config : Config) (orders : Orders) (now : Int) (draw : Draw) (m : Manager) :
    System :=
  if config.enableRecordingEncryption || config.enableMetadataEncryption then
    let found := (loaded m).getActiveKey config orders now draw config.algorithm
    match found.2 with
    | .error _ => { manager := found.1, running := false }
    | .ok _ => { manager := found.1, running := true }
  else { manager := loaded m, running := true }

abbrev Sealed := EncryptedData × Bytes

variable (aead : Aead)

def act (config : Config) (m : Manager) : Event → Manager × List Sealed
  | .restart _ _ _ => (m, [])
  | .generate algorithm now draw => ((m.generateKey config now draw algorithm).1, [])
  | .rotate orders now rotations => (m.rotateKeys config orders now rotations, [])
  | .encrypt meets audioData =>
    let encrypted := encryptRecording aead config meets m audioData
    match encrypted.2 with
    | .error _ => (encrypted.1, [])
    | .ok encData => (encrypted.1, [(encData, audioData)])
  | .decrypt encData => ((decryptRecording aead m encData).1, [])

def step (config : Config) (s : System) (event : Event) : System × List Sealed :=
  match event with
  | .restart orders now draw => (newManager config orders now draw s.manager, [])
  | event =>
    if s.running then
      let acted := act aead config s.manager event
      ({ s with manager := acted.1 }, acted.2)
    else (s, [])

def note (config : Config) (s : System) (sealed : List Sealed) (event : Event) : List Sealed :=
  sealed ++ (step aead config s event).2

def Readable (s : System) (sealed : List Sealed) : Prop :=
  s.running = true → ∀ item ∈ sealed, (decryptRecording aead s.manager item.1).2 = some item.2

def AlwaysReadable (config : Config) (events : List Event) : Prop :=
  Along (tracked (step aead config) (note aead config))
    (fun state event => Readable aead (step aead config state.1 event).1
      (note aead config state.1 state.2 event))
    (fresh, []) events

/-! ## Keys and their files -/

def Held (store : KeyStore) (id : Nat) (data : Bytes) : Prop :=
  (∃ key, store.keys id = some key ∧ key.data = data) ∨ store.dataFiles id = some (.whole data)

structure Consistent (m : Manager) : Prop where
  id : ∀ {id key}, m.keys id = some key → key.id = id ∧ id < m.next
  metadata : ∀ {id metadata}, m.metadataFiles id = some (.whole metadata) → metadata.id = id
  file : ∀ {id data}, m.dataFiles id = some (.whole data) → id < m.next
  same : ∀ {id key data}, m.keys id = some key → m.dataFiles id = some (.whole data) →
    data = key.data

/-- What the operations of a process do to keys and files that exist. -/
structure Evolves (m m' : Manager) : Prop where
  consistent : Consistent m'
  next : m.next ≤ m'.next
  keys : ∀ {id}, id < m.next → ((m'.keys id).isSome ↔ (m.keys id).isSome)
  held : ∀ {id data}, id < m.next → Held m'.toKeyStore id data → Held m.toKeyStore id data

variable {id : Nat} {data : Bytes} {m' : Manager} {store : KeyStore} {draw : Draw}

section

variable {m : Manager} (consistent : Consistent m)

include consistent

theorem Consistent.below (held : Held m.toKeyStore id data) : id < m.next := by
  rcases held with ⟨key, present, -⟩ | file
  · exact (consistent.id present).2
  · exact consistent.file file

theorem Consistent.unique {key : Key} (present : m.keys id = some key)
    (held : Held m.toKeyStore id data) : data = key.data := by
  rcases held with ⟨other, presentOther, rfl⟩ | file
  · rw [Option.some.inj (presentOther.symm.trans present)]
  · exact consistent.same present file

theorem Evolves.refl : Evolves m m where
  consistent := consistent
  next := Nat.le_refl _
  keys _ := Iff.rfl
  held _ held := held

end

theorem Evolves.trans {m m'' : Manager} (first : Evolves m m') (second : Evolves m' m'') :
    Evolves m m'' where
  consistent := second.consistent
  next := Nat.le_trans first.next second.next
  keys below :=
    (second.keys (Nat.lt_of_lt_of_le below first.next)).trans (first.keys below)
  held below held :=
    first.held below (second.held (Nat.lt_of_lt_of_le below first.next) held)

theorem Evolves.cache {m : Manager} (evolves : Evolves m m') (cache : Store Nat Unit) :
    Evolves m { m' with cache } :=
  { evolves with consistent := { evolves.consistent with } }

open KeyStore

section StoreKey

variable {m : Manager} {key : Key} {next : Nat}

theorem storeKey_memory {writing : KeyWriting} {found : Key}
    (present : (store.storeKey writing key).1.keys id = some found) :
    (id = key.id ∧ key = found) ∨ (id ≠ key.id ∧ store.keys id = some found) := by
  rw [storeKey_keys] at present
  exact write_eq_some_iff.mp present

section

variable (consistent : Consistent m) (writing : KeyWriting) (cache : Store Nat Unit)
  (more : m.next ≤ next) (below : key.id < next)
  (known : key.id < m.next → ∃ old, m.keys key.id = some old ∧ old.data = key.data)

include consistent writing cache more below known

theorem consistent_storeKey :
    Consistent { toKeyStore := (m.storeKey writing key).1, cache, next } := by
  refine ⟨?_, ?_, ?_, ?_⟩
  · intro id found present
    obtain ⟨rfl, rfl⟩ | ⟨-, before⟩ := storeKey_memory present
    · exact ⟨rfl, below⟩
    · exact ⟨(consistent.id before).1, Nat.lt_of_lt_of_le (consistent.id before).2 more⟩
  · intro id metadata whole
    rw [storeKey_metadataFiles] at whole
    obtain ⟨rfl, rfl⟩ | before := writeFile_whole whole
    · rfl
    · exact consistent.metadata before
  · intro id data whole
    obtain ⟨rfl, -⟩ | before := storeKey_data_whole whole
    · exact below
    · exact Nat.lt_of_lt_of_le (consistent.file before) more
  · intro id found data present whole
    obtain ⟨rfl, rfl⟩ | ⟨different, before⟩ := storeKey_memory present
    · obtain ⟨-, rfl⟩ | file := storeKey_data_whole whole
      · rfl
      · obtain ⟨old, inMemory, same⟩ := known (consistent.below (.inr file))
        rw [← same]
        exact consistent.unique inMemory (.inr file)
    · obtain ⟨same, -⟩ | file := storeKey_data_whole whole
      · exact absurd same different
      · exact consistent.same before file

theorem evolves_storeKey : Evolves m { toKeyStore := (m.storeKey writing key).1, cache, next } := by
  refine ⟨consistent_storeKey consistent writing cache more below known, more, ?_, ?_⟩
  · intro id before
    rw [storeKey_keys]
    by_cases isKey : id = key.id
    · rw [isKey] at before ⊢
      obtain ⟨old, present, -⟩ := known before
      rw [write_same, present]
      exact Iff.rfl
    · rw [write_other isKey]
  · intro id data before held
    have old : id = key.id → Held m.toKeyStore id key.data := by
      rintro rfl
      exact .inl (known before)
    rcases held with ⟨found, present, rfl⟩ | whole
    · obtain ⟨isKey, rfl⟩ | ⟨-, present⟩ := storeKey_memory present
      · exact old isKey
      · exact .inl ⟨found, present, rfl⟩
    · obtain ⟨isKey, rfl⟩ | file := storeKey_data_whole whole
      · exact old isKey
      · exact .inr file

end

end StoreKey

open Evolves

theorem evolves_deactivateKey {m : Manager} (consistent : Consistent m) (writing : Writing)
    (id : Nat) (cache : Store Nat Unit) :
    Evolves m { toKeyStore := m.deactivateKey writing id, cache, next := m.next } := by
  unfold deactivateKey
  cases present : m.keys id with
  | none => exact (refl consistent).cache cache
  | some oldKey =>
    have memory : ∀ {other found},
        write m.keys id { oldKey with active := false } other = some found →
          ∃ before, m.keys other = some before ∧ before.id = found.id ∧
            before.data = found.data := by
      intro other found presentOther
      obtain ⟨rfl, rfl⟩ | ⟨-, before⟩ := write_eq_some_iff.mp presentOther
      · exact ⟨oldKey, present, rfl, rfl⟩
      · exact ⟨found, before, rfl, rfl⟩
    refine ⟨⟨?_, ?_, consistent.file, ?_⟩, Nat.le_refl _, ?_, ?_⟩
    · intro other found presentOther
      obtain ⟨before, presentBefore, sameID, -⟩ := memory presentOther
      rw [← sameID]
      exact consistent.id presentBefore
    · intro other metadata whole
      obtain ⟨rfl, rfl⟩ | before := writeFile_whole whole
      · exact (consistent.id present).1
      · exact consistent.metadata before
    · intro other found data presentOther file
      obtain ⟨before, presentBefore, -, sameData⟩ := memory presentOther
      rw [← sameData]
      exact consistent.same presentBefore file
    · intro other _
      dsimp only
      by_cases same : other = id
      · rw [same, write_same, present]
        exact Iff.rfl
      · rw [write_other same]
    · intro other data _ held
      rcases held with ⟨found, presentOther, rfl⟩ | file
      · obtain ⟨before, presentBefore, -, sameData⟩ := memory presentOther
        exact .inl ⟨before, presentBefore, sameData⟩
      · exact .inr file

open Manager

section Operations

variable {config : Config} {now : Int} {m : Manager}

variable (consistent : Consistent m)

include consistent

theorem evolves_generateKey (draw : Draw) (algorithm : Algorithm) :
    Evolves m (m.generateKey config now draw algorithm).1 := by
  have isNew : (m.newKey config now draw algorithm).id < m.next →
      ∃ old, m.keys (m.newKey config now draw algorithm).id = some old ∧
        old.data = (m.newKey config now draw algorithm).data :=
    fun below => absurd below (Nat.lt_irrefl _)
  unfold generateKey
  split
  · dsimp only
    split
    · exact evolves_storeKey consistent _ _ (Nat.le_succ _) (Nat.lt_succ_self _) isNew
    · exact evolves_storeKey consistent _ _ (Nat.le_succ _) (Nat.lt_succ_self _) isNew
  · exact refl consistent

omit consistent in
theorem generateKey_present {algorithm : Algorithm} {key : Key}
    (generated : (m.generateKey config now draw algorithm).2 = .ok key) :
    (m.generateKey config now draw algorithm).1.keys key.id = some key := by
  unfold generateKey at generated ⊢
  split at generated
  · rename_i supported
    rw [if_pos supported]
    dsimp only at generated ⊢
    split at generated
    · rename_i stored
      obtain rfl := Except.ok.inj generated
      rw [if_pos stored]
      rw [storeKey_keys, write_same]
    · cases generated
  · cases generated

theorem evolves_rotateKey {deactivating : Writing} {writing : KeyWriting} {oldKeyID : Nat}
    {newKey : Key} (present : m.keys newKey.id = some newKey) (cache : Store Nat Unit) :
    Evolves m
      { toKeyStore := (m.rotateKey deactivating writing oldKeyID newKey).1, cache,
        next := m.next } := by
  have deactivated := evolves_deactivateKey consistent deactivating oldKeyID m.cache
  have below := (consistent.id present).2
  refine deactivated.trans (evolves_storeKey deactivated.consistent writing cache
    (Nat.le_refl _) below fun _ => ?_)
  have still := (deactivated.keys below).mpr (Option.isSome_iff_exists.mpr ⟨_, present⟩)
  obtain ⟨old, presentOld⟩ := Option.isSome_iff_exists.mp still
  exact ⟨old, presentOld,
    consistent.unique present (deactivated.held below (.inl ⟨old, presentOld, rfl⟩))⟩

theorem evolves_rotateNext {rotations : Nat → Rotation} {key : Key} :
    Evolves m (m.rotateNext config now rotations key) := by
  unfold rotateNext
  split
  · have generated := @evolves_generateKey config now m consistent (rotations key.id).draw
      key.algorithm
    dsimp only
    split
    · exact generated
    · have present := generateKey_present ‹_›
      split
      · exact generated.trans (evolves_rotateKey generated.consistent present _)
      · exact generated.trans (evolves_rotateKey generated.consistent present _)
  · exact refl consistent

theorem evolves_rotateKeys (orders : Orders) (rotations : Nat → Rotation) :
    Evolves m (m.rotateKeys config orders now rotations) := by
  unfold rotateKeys
  generalize orders.keys m.listKeys = keys
  induction keys generalizing m with
  | nil => exact refl consistent
  | cons key rest ih =>
    have first := @evolves_rotateNext config now m consistent rotations key
    exact first.trans (ih first.consistent)

theorem evolves_getActiveKey (orders : Orders) (draw : Draw) (algorithm : Algorithm) :
    Evolves m (m.getActiveKey config orders now draw algorithm).1 := by
  obtain ⟨id, key, cache, -, -, -, found⟩ | generated :=
    m.getActiveKey_cases config orders now draw algorithm
  · rw [found]
    exact (refl consistent).cache cache
  · rw [generated]
    exact evolves_generateKey consistent draw algorithm

theorem getActiveKey_present {orders : Orders} {algorithm : Algorithm} {key : Key}
    (handed : (m.getActiveKey config orders now draw algorithm).2 = .ok key) :
    (m.getActiveKey config orders now draw algorithm).1.keys key.id = some key := by
  obtain ⟨id, found, cache, present, -, -, same⟩ | generated :=
    m.getActiveKey_cases config orders now draw algorithm
  · rw [same] at handed ⊢
    obtain rfl := Except.ok.inj handed
    rw [(consistent.id present).1]
    exact present
  · rw [generated] at handed ⊢
    exact generateKey_present handed

end Operations

section Sealing

variable {aead : Aead} {config : Config} {m : Manager}

def Opens (aead : Aead) (item : Sealed) (data : Bytes) : Prop :=
  item.1.algorithm.isAead = true ∧
    aead.decrypt item.1.algorithm data item.1.nonce item.1.ciphertext = some item.2

structure Kept (aead : Aead) (m : Manager) (item : Sealed) : Prop where
  below : item.1.keyID < m.next
  opens : ∀ {data}, Held m.toKeyStore item.1.keyID data → Opens aead item data

variable {item : Sealed}

theorem Kept.evolves (kept : Kept aead m item) (evolves : Evolves m m') : Kept aead m' item where
  below := Nat.lt_of_lt_of_le kept.below evolves.next
  opens held := kept.opens (evolves.held kept.below held)

theorem Kept.decrypts_iff (kept : Kept aead m item) :
    (decryptRecording aead m item.1).2 = some item.2 ↔ (m.keys item.1.keyID).isSome := by
  unfold decryptRecording getKeyByID
  cases present : m.keys item.1.keyID with
  | none => exact iff_of_false (fun same => by cases same) (fun same => by cases same)
  | some key =>
    have opens := kept.opens (.inl ⟨key, present, rfl⟩)
    refine iff_of_true ?_ rfl
    dsimp only [Option.bind_some]
    rw [decrypt, if_pos opens.1]
    exact opens.2

theorem encrypt_opens {nonce : Bytes} {key : Key} {encData : EncryptedData}
    (encrypted : encrypt aead nonce data key = some encData) :
    encData.keyID = key.id ∧ Opens aead (encData, data) key.data := by
  unfold encrypt at encrypted
  split at encrypted
  · obtain ⟨ciphertext, sealing, rfl⟩ := Option.map_eq_some_iff.mp encrypted
    exact ⟨rfl, ‹_›, aead.decrypt_encrypt sealing⟩
  · cases encrypted

section

variable (consistent : Consistent m)

include consistent

theorem encryptWith_spec (enabled : Bool) (meets : Encrypting) (data : Bytes) :
    Evolves m (encryptWith aead config enabled meets m data).1 ∧
      ∀ encData, (encryptWith aead config enabled meets m data).2 = .ok encData →
        Kept aead (encryptWith aead config enabled meets m data).1 (encData, data) ∧
          ((encryptWith aead config enabled meets m data).1.keys encData.keyID).isSome := by
  have evolves := @evolves_getActiveKey config meets.now m consistent meets.orders meets.draw
    config.algorithm
  unfold encryptWith
  split
  · dsimp only
    split
    · exact ⟨evolves, fun encData same => by cases same⟩
    · have present := getActiveKey_present consistent ‹_›
      split
      · exact ⟨evolves, fun encData same => by cases same⟩
      · rename_i encData encrypted
        refine ⟨evolves, fun other same => ?_⟩
        obtain rfl := Except.ok.inj same
        obtain ⟨keyID, opens⟩ := encrypt_opens encrypted
        rw [keyID, present]
        refine ⟨⟨?_, fun {data} held => ?_⟩, rfl⟩
        · dsimp only
          rw [keyID]
          exact (evolves.consistent.id present).2
        · dsimp only at held
          rw [keyID] at held
          rw [evolves.consistent.unique present held]
          exact opens
  · exact ⟨refl consistent, fun encData same => by cases same⟩

theorem act_spec (event : Event) :
    Evolves m (act aead config m event).1 ∧
      ∀ item ∈ (act aead config m event).2, Kept aead (act aead config m event).1 item ∧
        ((act aead config m event).1.keys item.1.keyID).isSome := by
  have nothing : ∀ {after : Manager}, ∀ item ∈ ([] : List Sealed),
      Kept aead after item ∧ (after.keys item.1.keyID).isSome :=
    fun item mem => absurd mem not_mem_nil
  cases event with
  | restart orders now draw => exact ⟨refl consistent, nothing⟩
  | generate algorithm now draw => exact ⟨evolves_generateKey consistent draw algorithm, nothing⟩
  | rotate orders now rotations =>
    exact ⟨evolves_rotateKeys consistent orders rotations, nothing⟩
  | encrypt meets audioData =>
    obtain ⟨evolves, sealing⟩ :=
      @encryptWith_spec aead config m consistent config.enableRecordingEncryption meets audioData
    unfold act
    dsimp only
    split
    · exact ⟨evolves, nothing⟩
    · refine ⟨evolves, fun item mem => ?_⟩
      obtain rfl := mem_singleton.mp mem
      exact sealing _ ‹_›
  | decrypt encData =>
    refine ⟨?_, nothing⟩
    unfold act decryptRecording getKeyByID
    dsimp only
    split
    · exact refl consistent
    · exact (refl consistent).cache _

/-! ## Restarts -/

def Whole (store : KeyStore) (id : Nat) : Prop :=
  (∃ metadata, store.metadataFiles id = some (.whole metadata)) ∧
    ∃ data, store.dataFiles id = some (.whole data)

theorem loaded_consistent : Consistent (loaded m) where
  id {id key} present := by
    obtain ⟨metadata, data⟩ := loadKey_eq_some_iff.mp present
    exact ⟨consistent.metadata metadata, consistent.file data⟩
  metadata := consistent.metadata
  file := consistent.file
  same {id key data} present file := by
    obtain ⟨-, same⟩ := loadKey_eq_some_iff.mp present
    exact Text.whole.inj (Option.some.inj (file.symm.trans same))

theorem newManager_evolves (orders : Orders) (now : Int) (draw : Draw) :
    Evolves (loaded m) (newManager config orders now draw m).manager := by
  have found := @evolves_getActiveKey config now (loaded m) (loaded_consistent consistent) orders
    draw config.algorithm
  unfold newManager
  split
  · dsimp only
    split <;> exact found
  · exact refl (loaded_consistent consistent)

end

theorem Kept.loaded (kept : Kept aead m item) : Kept aead (loaded m) item where
  below := kept.below
  opens held := by
    rcases held with ⟨key, present, rfl⟩ | file
    · exact kept.opens (.inr (loadKey_eq_some_iff.mp present).2)
    · exact kept.opens (.inr file)

end Sealing

section Runs

variable {aead : Aead} {config : Config}

def Restored (config : Config) (state : System × List Sealed) : Event → Prop
  | .restart orders now draw =>
    (newManager config orders now draw state.1.manager).running = true →
      ∀ item ∈ state.2, Whole state.1.manager.toKeyStore item.1.keyID
  | _ => True

structure Invariant (aead : Aead) (state : System × List Sealed) : Prop where
  consistent : Consistent state.1.manager
  kept : ∀ item ∈ state.2, Kept aead state.1.manager item
  present : state.1.running = true →
    ∀ item ∈ state.2, (state.1.manager.keys item.1.keyID).isSome

def Present (s : System) (sealed : List Sealed) : Prop :=
  s.running = true → ∀ item ∈ sealed, (s.manager.keys item.1.keyID).isSome

/-- What a step does to the keys of what was encrypted. -/
def Stepped (aead : Aead) (config : Config) (s : System) (sealed : List Sealed) (event : Event) :
    Prop :=
  Consistent (step aead config s event).1.manager ∧
    (∀ item ∈ note aead config s sealed event,
      Kept aead (step aead config s event).1.manager item) ∧
    (Present (step aead config s event).1 (note aead config s sealed event) ↔
      Restored config (s, sealed) event)

section

variable {s : System} {sealed : List Sealed} (invariant : Invariant aead (s, sealed))

include invariant

theorem restart_spec (orders : Orders) (now : Int) (draw : Draw) :
    Stepped aead config s sealed (.restart orders now draw) := by
  have evolves := @newManager_evolves config s.manager invariant.consistent orders now draw
  have same : note aead config s sealed (.restart orders now draw) = sealed :=
    append_nil sealed
  rw [Stepped, same]
  refine ⟨evolves.consistent, fun item mem => ?_, ?_⟩
  · exact (invariant.kept item mem).loaded.evolves evolves
  · refine forall_congr' fun _ => forall_congr' fun item => forall_congr' fun mem => ?_
    have below := (invariant.kept item mem).below
    exact (evolves.keys below).trans loadKey_isSome_iff

theorem step_spec (event : Event) : Stepped aead config s sealed event := by
  by_cases isRestart : ∃ orders now draw, event = .restart orders now draw
  · obtain ⟨orders, now, draw, rfl⟩ := isRestart
    exact restart_spec invariant orders now draw
  · have restored : Restored config (s, sealed) event := by
      cases event with
      | restart orders now draw => exact absurd ⟨orders, now, draw, rfl⟩ isRestart
      | _ => exact True.intro
    have stepped : step aead config s event =
        if s.running then
          ({ s with manager := (act aead config s.manager event).1 },
            (act aead config s.manager event).2)
        else (s, []) := by
      cases event with
      | restart orders now draw => exact absurd ⟨orders, now, draw, rfl⟩ isRestart
      | _ => rfl
    obtain ⟨evolves, sealing⟩ := @act_spec aead config s.manager invariant.consistent event
    unfold Stepped note Present
    rw [stepped]
    by_cases running : s.running = true
    · rw [if_pos running]
      refine ⟨evolves.consistent, fun item mem => ?_,
        iff_of_true (fun _ item mem => ?_) restored⟩
      · rcases mem_append.mp mem with before | new
        · exact (invariant.kept item before).evolves evolves
        · exact (sealing item new).1
      · rcases mem_append.mp mem with before | new
        · exact (evolves.keys (invariant.kept item before).below).mpr
            (invariant.present running item before)
        · exact (sealing item new).2
    · rw [if_neg running, append_nil]
      exact ⟨invariant.consistent, invariant.kept,
        iff_of_true (fun runs => absurd runs running) restored⟩

end

section

variable (state : System × List Sealed) (event : Event) (invariant : Invariant aead state)

include invariant

theorem step_invariant (restored : Restored config state event) :
    Invariant aead (tracked (step aead config) (note aead config) state event).1 := by
  obtain ⟨consistent, kept, present⟩ :=
    @step_spec aead config state.1 state.2 invariant event
  exact ⟨consistent, kept, present.mpr restored⟩

theorem step_readable_iff :
    Readable aead (step aead config state.1 event).1 (note aead config state.1 state.2 event) ↔
      Restored config state event := by
  obtain ⟨-, kept, present⟩ := @step_spec aead config state.1 state.2 invariant event
  refine Iff.trans ?_ present
  exact forall_congr' fun _ => forall_congr' fun item => forall_congr' fun mem =>
    (kept item mem).decrypts_iff

end

theorem consistent_fresh : Consistent fresh.manager where
  id found := by cases found
  metadata found := by cases found
  file found := by cases found
  same found := by cases found

theorem invariant_fresh : Invariant aead (fresh, []) where
  consistent := consistent_fresh
  kept _ mem := absurd mem not_mem_nil
  present _ _ mem := absurd mem not_mem_nil

/-- All that was encrypted stays readable exactly if every process that starts finds the files of
the keys that encrypted something whole. -/
theorem alwaysReadable_iff (aead : Aead) (config : Config) (events : List Event) :
    AlwaysReadable aead config events ↔
      Along (tracked (step aead config) (note aead config)) (Restored config) (fresh, [])
        events :=
  along_iff_of_invariant (Invariant aead) step_invariant step_readable_iff invariant_fresh

end Runs

/-! ## Writes that succeed -/

def Completes : Event → Prop
  | .restart _ _ draw => draw.writing = .done
  | .generate _ _ draw => draw.writing = .done
  | .rotate _ _ rotations => ∀ id, (rotations id).draw.writing = .done ∧
      (rotations id).deactivating ≠ .cutOff ∧ (rotations id).writing.metadata ≠ .cutOff ∧
        (rotations id).writing.data ≠ .cutOff
  | .encrypt meets _ => meets.draw.writing = .done
  | .decrypt _ => True

def AllWhole (m : Manager) : Prop := ∀ id < m.next, Whole m.toKeyStore id

theorem writeFile_keeps {α : Type} {writing : Writing} {files : Store Nat (Text α)} {other : Nat}
    {content : α} (intact : writing ≠ .cutOff)
    (whole : ∃ found, files other = some (.whole found)) :
    ∃ found, writeFile writing files id content other = some (.whole found) := by
  cases writing with
  | refused => exact whole
  | cutOff => exact absurd rfl intact
  | _ =>
    by_cases same : other = id
    · exact ⟨content, same ▸ write_same⟩
    · obtain ⟨found, isFound⟩ := whole
      exact ⟨found, (write_other same).trans isFound⟩

theorem Whole.deactivateKey {writing : Writing} (whole : Whole store id)
    (intact : writing ≠ .cutOff) (keyID : Nat) : Whole (store.deactivateKey writing keyID) id := by
  unfold KeyStore.deactivateKey
  split
  · exact whole
  · exact ⟨writeFile_keeps intact whole.1, whole.2⟩

theorem Whole.storeKey {writing : KeyWriting} (whole : Whole store id)
    (intact : writing.metadata ≠ .cutOff) (intactData : writing.data ≠ .cutOff) (key : Key) :
    Whole (store.storeKey writing key).1 id := by
  unfold KeyStore.storeKey
  split
  · exact ⟨writeFile_keeps intact whole.1, writeFile_keeps intactData whole.2⟩
  · exact ⟨writeFile_keeps intact whole.1, whole.2⟩

section Completed

variable {aead : Aead} {config : Config} {now : Int} {m : Manager}

section

variable (allWhole : AllWhole m)

include allWhole

theorem AllWhole.generateKey (done : draw.writing = .done) (algorithm : Algorithm) :
    AllWhole (m.generateKey config now draw algorithm).1 := by
  obtain ⟨data, writing⟩ := draw
  obtain rfl : writing = .done := done
  unfold generateKey
  split
  · intro id below
    by_cases new : id = m.next
    · rw [new]
      exact ⟨⟨_, write_same⟩, ⟨_, write_same⟩⟩
    · have before : id < m.next := Nat.lt_of_le_of_ne (Nat.lt_succ_iff.mp below) new
      exact (allWhole id before).storeKey Writing.noConfusion Writing.noConfusion _
  · exact allWhole

theorem AllWhole.rotateNext {rotations : Nat → Rotation} {key : Key}
    {orders : Orders} {time : Int} (completes : Completes (.rotate orders time rotations)) :
    AllWhole (m.rotateNext config now rotations key) := by
  obtain ⟨done, deactivating, metadata, data⟩ := completes key.id
  have generated := @AllWhole.generateKey _ config now m allWhole done key.algorithm
  unfold Manager.rotateNext
  split
  · dsimp only
    split
    · exact generated
    · split
      · intro id below
        exact ((generated id below).deactivateKey deactivating key.id).storeKey metadata data _
      · intro id below
        exact ((generated id below).deactivateKey deactivating key.id).storeKey metadata data _
  · exact allWhole

theorem AllWhole.getActiveKey (done : draw.writing = .done) (orders : Orders)
    (algorithm : Algorithm) : AllWhole (m.getActiveKey config orders now draw algorithm).1 := by
  obtain ⟨id, key, cache, -, -, -, found⟩ | generated :=
    m.getActiveKey_cases config orders now draw algorithm
  · rw [found]
    exact allWhole
  · rw [generated]
    exact allWhole.generateKey done algorithm

theorem AllWhole.act {event : Event} (completes : Completes event) :
    AllWhole (act aead config m event).1 := by
  cases event with
  | restart orders now draw => exact allWhole
  | generate algorithm now draw => exact allWhole.generateKey completes algorithm
  | rotate orders now rotations =>
    unfold Durability.act rotateKeys
    dsimp only
    generalize orders.keys m.listKeys = keys
    induction keys generalizing m with
    | nil => exact allWhole
    | cons key rest ih => exact ih (allWhole.rotateNext completes)
  | encrypt meets audioData =>
    have found := @AllWhole.getActiveKey _ config meets.now m allWhole completes meets.orders
      config.algorithm
    have encrypted : AllWhole (encryptRecording aead config meets m audioData).1 := by
      unfold encryptRecording encryptWith
      split
      · dsimp only
        split
        · exact found
        · split <;> exact found
      · exact allWhole
    unfold Durability.act
    dsimp only
    split <;> exact encrypted
  | decrypt encData =>
    unfold Durability.act decryptRecording getKeyByID
    dsimp only
    split <;> exact allWhole

end

theorem AllWhole.step {s : System} (allWhole : AllWhole s.manager) {event : Event}
    (completes : Completes event) : AllWhole (step aead config s event).1.manager := by
  unfold Durability.step
  split
  · rename_i orders now draw
    have reloaded : AllWhole (loaded s.manager) := allWhole
    unfold newManager
    split
    · dsimp only
      split <;> exact reloaded.getActiveKey completes orders config.algorithm
    · exact reloaded
  · split
    · exact allWhole.act completes
    · exact allWhole

end Completed

/-- All that was encrypted stays readable if the files of every new key are written and no file
of an old one is cut off. -/
theorem alwaysReadable_of_completes (config : Config) {events : List Event}
    (completes : ∀ event ∈ events, Completes event) : AlwaysReadable aead config events := by
  have start : Invariant aead (fresh, []) ∧ AllWhole fresh.manager :=
    ⟨invariant_fresh, fun id below => absurd below (Nat.not_lt_zero id)⟩
  have restored : ∀ (state : System × List Sealed) (event : Event),
      Invariant aead state ∧ AllWhole state.1.manager → Restored config state event := by
    rintro state event ⟨invariant, allWhole⟩
    cases event with
    | restart orders now draw =>
      exact fun _ item mem => allWhole _ (invariant.kept item mem).below
    | _ => exact True.intro
  refine Along.imp (fun state => Invariant aead state ∧ AllWhole state.1.manager) ?_ ?_ start
    (Along.of_inputs completes)
  · intro state event both done
    exact ⟨step_invariant state event both.1 (restored state event both), both.2.step done⟩
  · intro state event both _
    exact (step_readable_iff state event both.1).mpr (restored state event both)

def checksum (key : Bytes) : UInt8 := key.foldl (· + ·) 0

/-- A toy cipher for keys of two bytes: their checksum is the tag and is added to every byte. -/
def additive : Aead where
  encrypt _ key _ data :=
    if key.length = 2 then some (checksum key :: data.map (· + checksum key)) else none
  decrypt _ key _ ciphertext :=
    if key.length = 2 ∧ ciphertext.head? = some (checksum key) then
      some (ciphertext.tail.map (· - checksum key))
    else none
  decrypt_encrypt {_ key _ data _} encrypted := by
    obtain ⟨size, sealing⟩ := Option.ite_none_right_eq_some.mp encrypted
    obtain rfl := Option.some.inj sealing
    simp [size, Function.comp_def]

def shortLived : Config where
  enableRecordingEncryption := true
  enableMetadataEncryption := true
  algorithm := .aes256Gcm
  keyRotationInterval := 10
  positive := by decide

def inOrder : Orders where
  ids list := list
  keys list := list
  ids_perm list := List.Perm.refl list
  keys_perm list := List.Perm.refl list

theorem second_key_readable : AlwaysReadable additive shortLived
    [.restart inOrder 0 ⟨[1, 2], .done⟩, .encrypt ⟨inOrder, 5, ⟨[3, 4], .done⟩, []⟩ [7, 8],
      .encrypt ⟨inOrder, 20, ⟨[5, 6], .done⟩, []⟩ [9], .restart inOrder 22 ⟨[7, 8], .done⟩] :=
  alwaysReadable_of_completes additive shortLived (by simp [Completes])

/-- After the first key has expired, the next one cannot be written.  The first encryption fails,
the second finds the key in the store, and a new process does not know it. -/
theorem unwritten_key_lost :
    ¬ AlwaysReadable additive shortLived
      [.restart inOrder 0 ⟨[1, 2], .done⟩,
        .encrypt ⟨inOrder, 20, ⟨[3, 4], ⟨.refused, .done⟩⟩, []⟩ [7],
        .encrypt ⟨inOrder, 21, ⟨[5, 6], .done⟩, []⟩ [7, 8],
        .restart inOrder 22 ⟨[7, 8], .done⟩] := by
  intro always
  have readable := always.2.2.2.1 rfl _ (mem_singleton.mpr rfl)
  cases readable

end SiprecServer.Encryption.Durability
