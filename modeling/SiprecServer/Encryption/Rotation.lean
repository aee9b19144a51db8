import SiprecServer.Encryption.Manager
import SiprecServer.Lib.Transducer

/-!
# Rotating keys

`RotateKeys` replaces each active key that has expired by a new one.  The active keys before and
after a rotation correspond one to one, so two active keys of an algorithm stay two, and
`GetActiveKey` hands out the one that the map iteration comes to first.  Every operation is taken
to read the clock once, where the code reads it again for each new key.
-/

namespace SiprecServer.Encryption.Rotations

open Lib.FileSystem Lib.Transducer Lib.UnixPath List

/-! ## Histories in which every write succeeds -/

def drawn (data : Bytes) : Draw := ⟨data, .done⟩

def completed (data : Bytes) : Rotation := ⟨drawn data, .done, .done⟩

inductive Event where
  | generate (algorithm : Algorithm) (now : Int) (data : Bytes)
  | use (algorithm : Algorithm) (now : Int) (orders : Orders) (data : Bytes)
  | fetch (keyID : Nat)
  | rotate (now : Int) (orders : Orders) (data : Nat → Bytes)

def rotate (config : Config) (now : Int) (orders : Orders) (data : Nat → Bytes) (m : Manager) :
    Manager :=
  m.rotateKeys config orders now fun keyID => completed (data keyID)

def step (config : Config) (m : Manager) : Event → Manager × List (Except KeyError Key)
  | .generate algorithm now data =>
    let generated := m.generateKey config now (drawn data) algorithm
    (generated.1, [generated.2])
  | .use algorithm now orders data =>
    let found := m.getActiveKey config orders now (drawn data) algorithm
    (found.1, [found.2])
  | .fetch keyID => ((m.getKeyByID keyID).1, [])
  | .rotate now orders data => (rotate config now orders data m, [])

def start : Manager :=
  { keys := empty, metadataFiles := empty, dataFiles := empty, cache := empty, next := 0 }

structure Sound (m : Manager) : Prop where
  id : ∀ {id key}, m.keys id = some key → key.id = id ∧ id < m.next
  supported : ∀ {id key}, m.keys id = some key → key.algorithm.isSupported = true
  cached : ∀ {id key}, m.keys id = some key → key.active = true → m.cache id ≠ none

variable {key : Key}

open Manager

section Steps

variable {config : Config} {now : Int} {m : Manager}

theorem generateKey_drawn {algorithm : Algorithm} {data : Bytes}
    (supported : algorithm.isSupported = true) :
    (m.generateKey config now (drawn data) algorithm).2 =
        .ok (m.newKey config now (drawn data) algorithm) ∧
      (m.generateKey config now (drawn data) algorithm).1.keys =
        write m.keys m.next (m.newKey config now (drawn data) algorithm) ∧
      (m.generateKey config now (drawn data) algorithm).1.cache = write m.cache m.next () ∧
      (m.generateKey config now (drawn data) algorithm).1.next = m.next + 1 := by
  unfold generateKey
  rw [if_pos supported]
  exact ⟨rfl, rfl, rfl, rfl⟩

section

variable (sound : Sound m)

include sound

theorem Sound.of_fresh {m' : Manager} (id : key.id = m.next)
    (supported : key.algorithm.isSupported = true) (keys : m'.keys = write m.keys m.next key)
    (cache : m'.cache = write m.cache m.next ()) (next : m'.next = m.next + 1) : Sound m' where
  id {other found} present := by
    rw [keys] at present
    rw [next]
    obtain ⟨rfl, rfl⟩ | ⟨-, before⟩ := write_eq_some_iff.mp present
    · exact ⟨id, Nat.lt_succ_self _⟩
    · exact ⟨(sound.id before).1, Nat.lt_succ_of_lt (sound.id before).2⟩
  supported {other found} present := by
    rw [keys] at present
    obtain ⟨rfl, rfl⟩ | ⟨-, before⟩ := write_eq_some_iff.mp present
    · exact supported
    · exact sound.supported before
  cached {other found} present active := by
    rw [keys] at present
    rw [cache]
    obtain ⟨rfl, rfl⟩ | ⟨different, before⟩ := write_eq_some_iff.mp present
    · rw [write_same]
      exact Option.some_ne_none ()
    · rw [write_other different]
      exact sound.cached before active

theorem Sound.generateKey (algorithm : Algorithm) (data : Bytes) :
    Sound (m.generateKey config now (drawn data) algorithm).1 := by
  by_cases supported : algorithm.isSupported = true
  · obtain ⟨-, keys, cache, next⟩ :=
      @generateKey_drawn config now m algorithm data supported
    exact sound.of_fresh rfl supported keys cache next
  · rw [Manager.generateKey, if_neg supported]
    exact sound

theorem Sound.cache (id : Nat) : Sound { m with cache := write m.cache id () } where
  id := sound.id
  supported := sound.supported
  cached {other key} present active := by
    change write m.cache id () other ≠ none
    by_cases same : other = id
    · rw [same, write_same]
      exact Option.some_ne_none ()
    · rw [write_other same]
      exact sound.cached present active

theorem Sound.getActiveKey (orders : Orders) (algorithm : Algorithm) (data : Bytes) :
    Sound (m.getActiveKey config orders now (drawn data) algorithm).1 := by
  obtain ⟨id, key, cache, -, -, kept | cached, found⟩ | generated :=
    m.getActiveKey_cases config orders now (drawn data) algorithm
  · rw [found, kept]
    exact sound
  · rw [found, cached]
    exact sound.cache key.id
  · rw [generated]
    exact sound.generateKey algorithm data

theorem Sound.getKeyByID (keyID : Nat) : Sound (m.getKeyByID keyID).1 := by
  unfold Manager.getKeyByID
  split
  · exact sound
  · exact sound.cache keyID

def Due (now : Int) (key : Key) : Prop := key.active = true ∧ key.expiresAt < now

structure Replaced (config : Config) (now : Int) (data : Bytes) (m m' : Manager) (key : Key) :
    Prop where
  new : m'.keys m.next = some (m.newKey config now (drawn data) key.algorithm)
  old : m'.keys key.id = some { key with active := false }
  others : ∀ {id}, id ≠ m.next → id ≠ key.id → m'.keys id = m.keys id
  newCached : m'.cache m.next ≠ none
  othersCached : ∀ {id}, id ≠ m.next → id ≠ key.id → m'.cache id = m.cache id
  next : m'.next = m.next + 1

theorem rotateNext_due {data : Nat → Bytes} (present : m.keys key.id = some key)
    (due : Due now key) :
    Replaced config now (data key.id) m
      (m.rotateNext config now (fun keyID => completed (data keyID)) key) key := by
  have known := (sound.id present).2
  have apart : key.id ≠ m.next := Nat.ne_of_lt known
  obtain ⟨handed, keys, cache, next⟩ :=
    @generateKey_drawn config now m key.algorithm (data key.id) (sound.supported present)
  have found : (m.generateKey config now (drawn (data key.id)) key.algorithm).1.keys key.id =
      some key := by
    rw [keys, write_other apart]
    exact present
  have stored : ((m.generateKey config now (drawn (data key.id)) key.algorithm).1.rotateKey .done
      .done key.id (m.newKey config now (drawn (data key.id)) key.algorithm)).2 = true := rfl
  have memory : ((m.generateKey config now (drawn (data key.id)) key.algorithm).1.rotateKey .done
      .done key.id (m.newKey config now (drawn (data key.id)) key.algorithm)).1.keys =
        write (write (write m.keys m.next (m.newKey config now (drawn (data key.id)) key.algorithm))
          key.id { key with active := false }) m.next
            (m.newKey config now (drawn (data key.id)) key.algorithm) := by
    unfold KeyStore.rotateKey KeyStore.deactivateKey
    rw [found, KeyStore.storeKey_keys, keys]
    rfl
  unfold rotateNext
  rw [if_pos ⟨due.1, due.2⟩]
  dsimp only [completed]
  rw [handed]
  dsimp only
  rw [if_pos stored]
  constructor
  · dsimp only
    rw [memory, write_same]
  · dsimp only
    rw [memory, write_other apart, write_same]
  · intro id notNew notOld
    rw [memory, write_other notNew, write_other notOld, write_other notNew]
  · dsimp only [newKey]
    rw [write_same]
    exact Option.some_ne_none ()
  · intro id notNew notOld
    dsimp only [newKey]
    rw [write_other notNew, remove_other notOld, cache, write_other notNew]
  · exact next

end

variable {m' : Manager} {data : Bytes} {id : Nat}

variable (replaced : Replaced config now data m m' key)

include replaced

theorem Replaced.cases {found : Key} (foundAt : m'.keys id = some found) :
    (id = m.next ∧ found = m.newKey config now (drawn data) key.algorithm) ∨
      (id = key.id ∧ found = { key with active := false }) ∨
        (id ≠ m.next ∧ id ≠ key.id ∧ m.keys id = some found) := by
  by_cases new : id = m.next
  · rw [new, replaced.new] at foundAt
    exact .inl ⟨new, (Option.some.inj foundAt).symm⟩
  · by_cases old : id = key.id
    · rw [old, replaced.old] at foundAt
      exact .inr (.inl ⟨old, (Option.some.inj foundAt).symm⟩)
    · rw [replaced.others new old] at foundAt
      exact .inr (.inr ⟨new, old, foundAt⟩)

theorem Replaced.sound (sound : Sound m) (present : m.keys key.id = some key) : Sound m' where
  id {id found} foundAt := by
    rw [replaced.next]
    rcases replaced.cases foundAt with ⟨rfl, rfl⟩ | ⟨rfl, rfl⟩ | ⟨-, -, before⟩
    · exact ⟨rfl, Nat.lt_succ_self _⟩
    · exact ⟨rfl, Nat.lt_succ_of_lt (sound.id present).2⟩
    · exact ⟨(sound.id before).1, Nat.lt_succ_of_lt (sound.id before).2⟩
  supported {id found} foundAt := by
    have supported : key.algorithm.isSupported = true := sound.supported present
    rcases replaced.cases foundAt with ⟨-, rfl⟩ | ⟨-, rfl⟩ | ⟨-, -, before⟩
    · exact supported
    · exact supported
    · exact sound.supported before
  cached {id found} foundAt active := by
    rcases replaced.cases foundAt with ⟨rfl, -⟩ | ⟨-, rfl⟩ | ⟨new, old, before⟩
    · exact replaced.newCached
    · cases active
    · rw [replaced.othersCached new old]
      exact sound.cached before active

theorem Replaced.due {other : Key} (foundAt : m'.keys id = some other) (due : Due now other) :
    m.keys id = some other ∧ id ≠ key.id := by
  rcases replaced.cases foundAt with ⟨-, rfl⟩ | ⟨-, rfl⟩ | ⟨-, old, before⟩
  · exact absurd due.2
      (Int.not_lt.mpr (Int.le_of_lt (Int.lt_add_of_pos_right now config.positive)))
  · cases due.1
  · exact ⟨before, old⟩

end Steps

/-- The active keys of two managers correspond: each is kept, or a new key takes its place. -/
structure Handover (now : Int) (m m' : Manager) (heir : Nat → Nat) : Prop where
  next : m.next ≤ m'.next
  injective : ∀ {i j first second}, m.keys i = some first → m.keys j = some second →
    first.active = true → second.active = true → heir i = heir j → i = j
  follows : ∀ {id key}, m.keys id = some key → key.active = true →
    ∃ key', m'.keys (heir id) = some key' ∧ key'.active = true ∧
      key'.algorithm = key.algorithm ∧
        ((heir id = id ∧ key' = key) ∨
          (m.next ≤ heir id ∧ now < key'.expiresAt ∧ key.expiresAt < now))
  onto : ∀ {id key'}, m'.keys id = some key' → key'.active = true →
    ∃ before key, m.keys before = some key ∧ key.active = true ∧ heir before = id

namespace Handover

variable {now : Int} {m m' m'' : Manager} {heir heir' : Nat → Nat}

theorem refl (now : Int) (m : Manager) : Handover now m m id where
  next := Nat.le_refl _
  injective _ _ _ _ same := same
  follows {_ key} present active := ⟨key, present, active, rfl, .inl ⟨rfl, rfl⟩⟩
  onto {id key} present active := ⟨id, key, present, active, rfl⟩

theorem trans (first : Handover now m m' heir) (second : Handover now m' m'' heir') :
    Handover now m m'' (heir' ∘ heir) where
  next := Nat.le_trans first.next second.next
  injective {i j ki kj} presentI presentJ activeI activeJ same := by
    obtain ⟨ki', presentI', activeI', -⟩ := first.follows presentI activeI
    obtain ⟨kj', presentJ', activeJ', -⟩ := first.follows presentJ activeJ
    exact first.injective presentI presentJ activeI activeJ
      (second.injective presentI' presentJ' activeI' activeJ' same)
  follows {id key} present active := by
    obtain ⟨key', present', active', algorithm', kept'⟩ := first.follows present active
    obtain ⟨key'', present'', active'', algorithm'', kept''⟩ := second.follows present' active'
    refine ⟨key'', present'', active'', algorithm''.trans algorithm', ?_⟩
    rcases kept' with ⟨same, rfl⟩ | ⟨new, unexpired, due⟩
    · rcases kept'' with ⟨same', rfl⟩ | ⟨new, unexpired, due⟩
      · exact .inl ⟨same'.trans same, rfl⟩
      · exact .inr ⟨Nat.le_trans first.next new, unexpired, due⟩
    · rcases kept'' with ⟨same', rfl⟩ | ⟨-, -, expired⟩
      · refine .inr ⟨?_, unexpired, due⟩
        rw [Function.comp_apply, same']
        exact new
      · exact absurd expired (Int.not_lt.mpr (Int.le_of_lt unexpired))
  onto {id key''} present'' active'' := by
    obtain ⟨between, key', present', active', rfl⟩ := second.onto present'' active''
    obtain ⟨before, key, present, active, rfl⟩ := first.onto present' active'
    exact ⟨before, key, present, active, rfl⟩

theorem of_replaced {config : Config} {data : Bytes} (sound : Sound m)
    (present : m.keys key.id = some key) (due : Due now key)
    (replaced : Replaced config now data m m' key) :
    Handover now m m' fun id => if id = key.id then m.next else id where
  next := by
    rw [replaced.next]
    exact Nat.le_succ _
  injective {i j ki kj} presentI presentJ _ _ same := by
    have belowI := (sound.id presentI).2
    have belowJ := (sound.id presentJ).2
    split at same <;> split at same <;> omega
  follows {id kept} presentKept active := by
    have below := (sound.id presentKept).2
    by_cases old : id = key.id
    · obtain rfl : key = kept := by
        rw [old, present] at presentKept
        exact Option.some.inj presentKept
      refine ⟨m.newKey config now (drawn data) key.algorithm, ?_, rfl, rfl, .inr ⟨?_, ?_, due.2⟩⟩
      · rw [if_pos old]
        exact replaced.new
      · rw [if_pos old]
      · exact Int.lt_add_of_pos_right now config.positive
    · refine ⟨kept, ?_, active, rfl, .inl ⟨if_neg old, rfl⟩⟩
      rw [if_neg old, replaced.others (Nat.ne_of_lt below) old]
      exact presentKept
  onto {id key'} present' active' := by
    rcases replaced.cases present' with ⟨new, -⟩ | ⟨-, rfl⟩ | ⟨-, old, before⟩
    · exact ⟨key.id, key, present, due.1, (if_pos rfl).trans new.symm⟩
    · cases active'
    · exact ⟨id, key', before, active', if_neg old⟩

end Handover

section

variable {m : Manager} {config : Config} {data : Nat → Bytes} {now : Int} (sound : Sound m)

include sound

/-- The loop of `RotateKeys` over keys of the store, among them all that are due. -/
theorem foldl_rotateNext {keys : List Key} (distinct : (keys.map (·.id)).Nodup)
    (current : ∀ key ∈ keys, m.keys key.id = some key)
    (allDue : ∀ {id key}, m.keys id = some key → Due now key → key ∈ keys) :
    let rotated := keys.foldl (rotateNext config now fun keyID => completed (data keyID)) m
    Sound rotated ∧ (∃ heir, Handover now m rotated heir) ∧
      ∀ {id key}, rotated.keys id = some key → ¬ Due now key := by
  induction keys generalizing m with
  | nil =>
    exact ⟨sound, ⟨id, Handover.refl now m⟩,
      fun present due => absurd (allDue present due) not_mem_nil⟩
  | cons key rest ih =>
    rw [map_cons, nodup_cons] at distinct
    have present := current key mem_cons_self
    rw [foldl_cons]
    by_cases due : Due now key
    · have replaced := @rotateNext_due key config now m sound data present due
      have stillCurrent : ∀ other ∈ rest,
          (m.rotateNext config now (fun keyID => completed (data keyID)) key).keys other.id =
            some other := by
        intro other mem
        have before := current other (mem_cons_of_mem _ mem)
        have notOld : other.id ≠ key.id := fun same =>
          distinct.1 (mem_map.mpr ⟨other, mem, same⟩)
        rw [replaced.others (Nat.ne_of_lt (sound.id before).2) notOld]
        exact before
      obtain ⟨soundAfter, ⟨heir, handover⟩, noneDue⟩ := ih (replaced.sound sound present)
        distinct.2 stillCurrent fun {id other} after otherDue => by
          obtain ⟨before, notOld⟩ := replaced.due after otherDue
          rcases mem_cons.mp (allDue before otherDue) with rfl | later
          · exact absurd (sound.id before).1.symm notOld
          · exact later
      exact ⟨soundAfter, ⟨_, (Handover.of_replaced sound present due replaced).trans handover⟩,
        noneDue⟩
    · have skipped :
          m.rotateNext config now (fun keyID => completed (data keyID)) key = m := by
        exact if_neg due
      rw [skipped]
      have stillCurrent : ∀ other ∈ rest, m.keys other.id = some other := fun other mem =>
        current other (mem_cons_of_mem _ mem)
      refine ih sound distinct.2 stillCurrent fun {id other} after otherDue => ?_
      rcases mem_cons.mp (allDue after otherDue) with rfl | later
      · exact absurd otherDue due
      · exact later

theorem Sound.nodup_listKeys : (m.listKeys.map (·.id)).Nodup := by
  unfold listKeys
  rw [List.Nodup, pairwise_map, pairwise_filterMap]
  refine nodup_range.imp fun {i j} different first foundFirst second foundSecond same => ?_
  rw [(sound.id foundFirst).1, (sound.id foundSecond).1] at same
  exact different same

theorem rotate_spec {orders : Orders} :
    Sound (rotate config now orders data m) ∧
      (∃ heir, Handover now m (rotate config now orders data m) heir) ∧
        ∀ {id key}, (rotate config now orders data m).keys id = some key → ¬ Due now key := by
  have same := orders.keys_perm m.listKeys
  refine foldl_rotateNext sound ((same.map (·.id)).nodup_iff.mpr sound.nodup_listKeys) ?_ ?_
  · intro key mem
    obtain ⟨id, -, present⟩ := mem_listKeys.mp (same.mem_iff.mp mem)
    rw [(sound.id present).1]
    exact present
  · intro id key present _
    exact same.mem_iff.mpr (mem_listKeys.mpr ⟨id, (sound.id present).2, present⟩)

omit sound in
theorem step_sound (event : Event) (sound : Sound m) : Sound (step config m event).1 := by
  cases event with
  | generate algorithm now data => exact sound.generateKey algorithm data
  | use algorithm now orders data => exact sound.getActiveKey orders algorithm data
  | fetch keyID => exact sound.getKeyByID keyID
  | rotate now orders data => exact (rotate_spec sound).1

end

/-! ## The active key -/

def Single (m : Manager) : Prop :=
  ∀ ⦃i j first second⦄, m.keys i = some first → m.keys j = some second →
    first.active = true → second.active = true → first.algorithm = second.algorithm → i = j

theorem Handover.single_iff {now : Int} {m m' : Manager} {heir : Nat → Nat}
    (handover : Handover now m m' heir) : Single m ↔ Single m' := by
  constructor
  · intro single i' j' first' second' present' presentOther' active' activeOther' same'
    obtain ⟨i, first, present, active, rfl⟩ := handover.onto present' active'
    obtain ⟨j, second, presentOther, activeOther, rfl⟩ := handover.onto presentOther' activeOther'
    obtain ⟨heirFirst, atHeir, -, algorithm, -⟩ := handover.follows present active
    obtain ⟨heirSecond, atOther, -, algorithmOther, -⟩ :=
      handover.follows presentOther activeOther
    obtain rfl := Option.some.inj (atHeir.symm.trans present')
    obtain rfl := Option.some.inj (atOther.symm.trans presentOther')
    rw [single present presentOther active activeOther
      (algorithm.symm.trans (same'.trans algorithmOther))]
  · intro single i j first second present presentOther active activeOther same
    obtain ⟨heirFirst, atHeir, active', algorithm, -⟩ := handover.follows present active
    obtain ⟨heirSecond, atOther, activeOther', algorithmOther, -⟩ :=
      handover.follows presentOther activeOther
    exact handover.injective present presentOther active activeOther
      (single atHeir atOther active' activeOther'
        (algorithm.trans (same.trans algorithmOther.symm)))

theorem isUsable_iff {algorithm : Algorithm} {now : Int} :
    key.isUsable algorithm now = true ↔
      key.algorithm = algorithm ∧ key.active = true ∧ now < key.expiresAt := by
  unfold Key.isUsable
  rw [Bool.and_eq_true, Bool.and_eq_true, decide_eq_true_iff, decide_eq_true_iff, and_assoc]

section ActiveKey

variable {config : Config} {m : Manager} {algorithm : Algorithm} {now : Int} {data : Bytes}

variable (sound : Sound m)

include sound

theorem Sound.mem_cachedIDs {id : Nat} (present : m.keys id = some key)
    (active : key.active = true) : id ∈ m.cachedIDs := by
  unfold cachedIDs
  rw [mem_filter, mem_range]
  exact ⟨(sound.id present).2, Option.isSome_iff_ne_none.mpr (sound.cached present active)⟩

theorem getActiveKey_single (single : Single m) {id : Nat} (present : m.keys id = some key)
    (usable : key.isUsable algorithm now = true) (orders : Orders) :
    m.getActiveKey config orders now (drawn data) algorithm = (m, .ok key) := by
  have needed := isUsable_iff.mp usable
  unfold getActiveKey
  split
  · rename_i found foundAt
    obtain ⟨other, presentOther, -, usableOther⟩ := findSome_cached foundAt
    have neededOther := isUsable_iff.mp usableOther
    obtain rfl := single present presentOther needed.2.1 neededOther.2.1
      (needed.1.trans neededOther.1.symm)
    rw [Option.some.inj (present.symm.trans presentOther)]
  · rename_i notFound
    have mem := (orders.ids_perm m.cachedIDs).mem_iff.mpr
      (sound.mem_cachedIDs present needed.2.1)
    have missing := findSome?_eq_none_iff.mp notFound id mem
    rw [present, Option.filter_some, if_pos usable] at missing
    cases missing

def firstly (id : Nat) : Orders where
  ids list := list.filter (fun other => decide (other = id)) ++
    list.filter fun other => !decide (other = id)
  keys list := list
  ids_perm list := filter_append_perm _ list
  keys_perm list := List.Perm.refl list

theorem getActiveKey_firstly {id : Nat} (present : m.keys id = some key)
    (usable : key.isUsable algorithm now = true) :
    (m.getActiveKey config (firstly id) now (drawn data) algorithm).2 = .ok key := by
  have mem := sound.mem_cachedIDs present (isUsable_iff.mp usable).2.1
  have found : ((firstly id).ids m.cachedIDs).findSome?
      (fun other => (m.keys other).filter (·.isUsable algorithm now)) = some key := by
    have here : id ∈ m.cachedIDs.filter fun other => decide (other = id) :=
      mem_filter.mpr ⟨mem, decide_eq_true rfl⟩
    obtain ⟨first, rest, shape⟩ := exists_cons_of_ne_nil (ne_nil_of_mem here)
    have isID : first = id := by
      have inside : first ∈ m.cachedIDs.filter fun other => decide (other = id) := by
        rw [shape]
        exact mem_cons_self
      exact of_decide_eq_true (mem_filter.mp inside).2
    unfold firstly
    dsimp only
    rw [shape, isID, cons_append, findSome?_cons, present, Option.filter_some, if_pos usable]
  unfold getActiveKey
  rw [found]

def MostRecent (m : Manager) (algorithm : Algorithm) (now : Int) (key : Key) : Prop :=
  m.keys key.id = some key ∧ key.isUsable algorithm now = true ∧
    ∀ ⦃id other⦄, m.keys id = some other → other.isUsable algorithm now = true →
      other.createdAt ≤ key.createdAt

theorem exists_mostRecent (single : Single m) (supported : algorithm.isSupported = true)
    (data : Bytes) :
    ∃ key, ∀ orders,
      (m.getActiveKey config orders now (drawn data) algorithm).2 = .ok key ∧
        MostRecent (m.getActiveKey config orders now (drawn data) algorithm).1 algorithm now
          key := by
  by_cases exists_usable : ∃ id key, m.keys id = some key ∧ key.isUsable algorithm now = true
  · obtain ⟨id, key, present, usable⟩ := exists_usable
    refine ⟨key, fun orders => ?_⟩
    rw [getActiveKey_single sound single present usable orders]
    refine ⟨rfl, ?_, usable, fun other found presentOther usableOther => ?_⟩
    · dsimp only
      rw [(sound.id present).1]
      exact present
    · have needed := isUsable_iff.mp usable
      have neededOther := isUsable_iff.mp usableOther
      obtain rfl := single present presentOther needed.2.1 neededOther.2.1
        (needed.1.trans neededOther.1.symm)
      obtain rfl := Option.some.inj (present.symm.trans presentOther)
      exact Int.le_refl _
  · have noneUsable : ∀ {id key}, m.keys id = some key → ¬ key.isUsable algorithm now = true :=
      fun {id key} present usable => exists_usable ⟨id, key, present, usable⟩
    obtain ⟨handed, keys, -, -⟩ := @generateKey_drawn config now m algorithm data supported
    refine ⟨m.newKey config now (drawn data) algorithm, fun orders => ?_⟩
    obtain ⟨id, key, cache, present, usable, -⟩ | generated :=
      m.getActiveKey_cases config orders now (drawn data) algorithm
    · exact absurd usable (noneUsable present)
    rw [generated]
    refine ⟨handed, ?_, ?_, fun other found presentOther usableOther => ?_⟩
    · rw [keys]
      exact write_same
    · exact isUsable_iff.mpr ⟨rfl, rfl, Int.lt_add_of_pos_right now config.positive⟩
    · rw [keys] at presentOther
      obtain ⟨-, rfl⟩ | ⟨-, before⟩ := write_eq_some_iff.mp presentOther
      · exact Int.le_refl _
      · exact absurd usableOther (noneUsable before)

end ActiveKey

/-- What a rotation at a time should leave. -/
structure Rotated (config : Config) (now : Int) (before after : Manager) : Prop where
  oneNew : ∀ {algorithm i j first second}, before.next ≤ i → before.next ≤ j →
    after.keys i = some first → after.keys j = some second →
      first.isUsable algorithm now = true → second.isUsable algorithm now = true → i = j
  noneExpired : ∀ {id key}, after.keys id = some key → key.active = true → now < key.expiresAt
  mostRecent : ∀ {algorithm}, algorithm.isSupported = true → ∀ {later}, now ≤ later → ∀ data,
    ∃ key, ∀ orders,
      (after.getActiveKey config orders later (drawn data) algorithm).2 = .ok key ∧
        MostRecent (after.getActiveKey config orders later (drawn data) algorithm).1 algorithm
          later key

/-- `GetActiveKey` depends on no order only if there is at most one active key. -/
theorem Rotated.single {config : Config} {now : Int} {before after : Manager}
    (rotated : Rotated config now before after) (sound : Sound after) : Single after := by
  intro i j first second present presentOther active activeOther same
  have usable : first.isUsable first.algorithm now = true :=
    isUsable_iff.mpr ⟨rfl, active, rotated.noneExpired present active⟩
  have usableOther : second.isUsable first.algorithm now = true :=
    isUsable_iff.mpr ⟨same.symm, activeOther, rotated.noneExpired presentOther activeOther⟩
  obtain ⟨key, always⟩ := rotated.mostRecent (sound.supported present) (Int.le_refl now) []
  have here : Except.ok key = Except.ok first :=
    (always (firstly i)).1.symm.trans (getActiveKey_firstly sound present usable)
  have there : Except.ok key = Except.ok second :=
    (always (firstly j)).1.symm.trans (getActiveKey_firstly sound presentOther usableOther)
  obtain rfl := Except.ok.inj (here.symm.trans there)
  rw [← (sound.id present).1, (sound.id presentOther).1]

/-- A rotation leaves what it should exactly if each algorithm had at most one active key before,
and none that expires at that very moment. -/
theorem rotated_iff (config : Config) (history : List Event) (now : Int) (orders : Orders)
    (data : Nat → Bytes) :
    let before := (run (step config) start history).1
    Rotated config now before (rotate config now orders data before) ↔
      Single before ∧
        ∀ ⦃id key⦄, before.keys id = some key → key.active = true → key.expiresAt ≠ now := by
  intro before
  have sound : Sound before :=
    run_invariant Sound (fun m event => step_sound event) ⟨nofun, nofun, nofun⟩
  obtain ⟨soundAfter, ⟨heir, handover⟩, noneDue⟩ :=
    @rotate_spec before config data now sound orders
  constructor
  · intro rotated
    refine ⟨handover.single_iff.mpr (rotated.single soundAfter), ?_⟩
    intro id key present active atNow
    obtain ⟨key', present', active', -, kept⟩ := handover.follows present active
    rcases kept with ⟨-, rfl⟩ | ⟨-, -, due⟩
    · have unexpired := rotated.noneExpired present' active'
      omega
    · omega
  · rintro ⟨single, noneNow⟩
    have singleAfter := handover.single_iff.mp single
    refine ⟨?_, ?_, ?_⟩
    · intro algorithm i j first second _ _ present presentOther usable usableOther
      have needed := isUsable_iff.mp usable
      have neededOther := isUsable_iff.mp usableOther
      exact singleAfter present presentOther needed.2.1 neededOther.2.1
        (needed.1.trans neededOther.1.symm)
    · intro id key' present' active'
      obtain ⟨before', key, present, active, rfl⟩ := handover.onto present' active'
      obtain ⟨found, foundAt, -, -, kept⟩ := handover.follows present active
      obtain rfl := Option.some.inj (foundAt.symm.trans present')
      rcases kept with ⟨-, rfl⟩ | ⟨-, unexpired, -⟩
      · have notDue : ¬ found.expiresAt < now := fun expired => noneDue present' ⟨active', expired⟩
        have notNow := noneNow present active
        omega
      · exact unexpired
    · intro algorithm supported later _ data
      exact exists_mostRecent soundAfter singleAfter supported data

def shortLived : Config where
  enableRecordingEncryption := true
  enableMetadataEncryption := true
  algorithm := .aes256Gcm
  keyRotationInterval := 10
  positive := Int.natCast_succ_pos 9

/-- Two expired keys of one algorithm are replaced by two keys. -/
theorem two_expired_keys :
    ¬ Rotated shortLived 20
      (run (step shortLived) start
        [.generate .aes256Gcm 0 [1], .generate .aes256Gcm 1 [2]]).1
      (rotate shortLived 20 (firstly 0) (fun id => [UInt8.ofNat id])
        (run (step shortLived) start
          [.generate .aes256Gcm 0 [1], .generate .aes256Gcm 1 [2]]).1) := by
  intro rotated
  have same : 2 = 3 := @Rotated.oneNew _ _ _ _ rotated .aes256Gcm 2 3 _ _ (by decide) (by decide)
    rfl rfl (by decide) (by decide)
  cases same

end SiprecServer.Encryption.Rotations
