import SiprecServer.Lib.FileSystem
import SiprecServer.Lib.UnixPath

/-!
# Storage backends

A backend stores a copy of a file under its base name and reports the location as a text.
`MultiBackupStorage.Delete` finds the backend of a location by the scheme of the text, and each
backend reads its object back from the text.
-/

namespace SiprecServer.Backup.Storage

open Lib.FileSystem Lib.UnixPath List

/-! ## Backends -/

structure Name where
  text : Bytes
  slashless : slash ∉ text
deriving DecidableEq

structure Container where
  text : Bytes
  nonempty : text ≠ []
  slashless : slash ∉ text
  dotless : dot ∉ text
deriving DecidableEq

inductive Backend where
  | localStorage
  | s3 (bucket : Name) (folder : Bytes)
  | gcs (bucket : Name) (folder : Bytes)
  | azure (account : Name) (container : Container) (folder : Bytes)
deriving DecidableEq

inductive Kind where
  | localDisk
  | s3
  | gcs
  | azure
deriving DecidableEq

def Backend.kind : Backend → Kind
  | .localStorage => .localDisk
  | .s3 _ _ => .s3
  | .gcs _ _ => .gcs
  | .azure _ _ _ => .azure

/-- The backends of a configuration: at most one of each kind. -/
structure Backends where
  list : List Backend
  distinct : (list.map Backend.kind).Nodup

inductive Object where
  | s3 (bucket key : Bytes)
  | gcs (bucket key : Bytes)
  | azure (account container blob : Bytes)
deriving DecidableEq

structure World where
  files : Store Bytes Bytes
  objects : Store Object Bytes

def colons : Bytes := asciiBytes [':', '/', '/']

def Kind.scheme : Kind → Bytes
  | .localDisk => asciiBytes ['l', 'o', 'c', 'a', 'l']
  | .s3 => asciiBytes ['s', '3']
  | .gcs => asciiBytes ['g', 'c', 's']
  | .azure => asciiBytes ['a', 'z', 'u', 'r', 'e']

def blobHost : Bytes :=
  asciiBytes ['.', 'b', 'l', 'o', 'b', '.', 'c', 'o', 'r', 'e', '.', 'w', 'i', 'n', 'd', 'o', 'w',
    's', '.', 'n', 'e', 't']

def objectKey (folder localPath : Bytes) : Bytes :=
  if folder = [] then baseName localPath else folder ++ slash :: baseName localPath

namespace Backend

def getLocation : Backend → Bytes
  | .localStorage => Kind.localDisk.scheme
  | .s3 bucket _ => Kind.s3.scheme ++ colons ++ bucket.text
  | .gcs bucket _ => Kind.gcs.scheme ++ colons ++ bucket.text
  | .azure account container _ =>
    Kind.azure.scheme ++ colons ++ (account.text ++ blobHost ++ slash :: container.text)

def location (localPath : Bytes) : Backend → Bytes
  | .localStorage => Kind.localDisk.scheme ++ colons ++ localPath
  | .s3 bucket folder =>
    Kind.s3.scheme ++ colons ++ (bucket.text ++ slash :: objectKey folder localPath)
  | .gcs bucket folder =>
    Kind.gcs.scheme ++ colons ++ (bucket.text ++ slash :: objectKey folder localPath)
  | .azure account container folder =>
    Kind.azure.scheme ++ colons ++
      (account.text ++ blobHost ++ slash :: (container.text ++ slash ::
        objectKey folder localPath))

/-- The object that holds the copy of a file; a local backend has none of its own. -/
def object (localPath : Bytes) : Backend → Option Object
  | .localStorage => none
  | .s3 bucket folder => some (.s3 bucket.text (objectKey folder localPath))
  | .gcs bucket folder => some (.gcs bucket.text (objectKey folder localPath))
  | .azure account container folder =>
    some (.azure account.text container.text (objectKey folder localPath))

def store (localPath content : Bytes) (world : World) (backend : Backend) : World :=
  match backend.object localPath with
  | none => world
  | some object => { world with objects := write world.objects object content }

/-- `Upload` of a backend, none for an error.  A local backend does not open the file. -/
def upload (refuses : Bool) (world : World) (localPath : Bytes) (backend : Backend) :
    Option World :=
  if backend = .localStorage then some world
  else
    match world.files localPath with
    | none => none
    | some content => if refuses then none else some (backend.store localPath content world)

end Backend

/-- `MultiBackupStorage.Upload`: the locations of the backends that took the file. -/
def uploadAll (refuses : Backend → Bool) (localPath : Bytes) :
    World → List Backend → World × List Bytes
  | world, [] => (world, [])
  | world, backend :: rest =>
    match backend.upload (refuses backend) world localPath with
    | none => uploadAll refuses localPath world rest
    | some stored =>
      let others := uploadAll refuses localPath stored rest
      (others.1, backend.location localPath :: others.2)

def trimPrefix (front text : Bytes) : Bytes :=
  if front.isPrefixOf text then text.drop front.length else text

def cutSlash : Bytes → Option (Bytes × Bytes)
  | [] => none
  | byte :: rest =>
    if byte = slash then some ([], rest)
    else (cutSlash rest).map fun parts => (byte :: parts.1, parts.2)

/-- What stands before the first occurrence of a text, and what behind it. -/
def cutAt (mark : Bytes) : Bytes → Option (Bytes × Bytes)
  | [] => if mark = [] then some ([], []) else none
  | byte :: rest =>
    if mark.isPrefixOf (byte :: rest) then some ([], (byte :: rest).drop mark.length)
    else (cutAt mark rest).map fun parts => (byte :: parts.1, parts.2)

def blobNameFromLocation (container remotePath : Bytes) : Bytes :=
  match cutAt (slash :: container ++ [slash]) remotePath with
  | some (_, blob) => blob
  | none => (segments remotePath).getLast (segments_ne_nil remotePath)

/-- `Delete` of a backend; `fails` tells that the file system or the cloud refuses. -/
def Backend.delete (fails : Bool) (world : World) (remotePath : Bytes) :
    Backend → World × Except Unit Unit
  | .localStorage =>
    let path := trimPrefix (Kind.localDisk.scheme ++ colons) remotePath
    if fails ∨ world.files path = none then (world, .error ())
    else ({ world with files := remove world.files path }, .ok ())
  | .s3 _ _ =>
    match cutSlash (trimPrefix (Kind.s3.scheme ++ colons) remotePath) with
    | none => (world, .error ())
    | some (bucket, key) =>
      if fails then (world, .error ())
      else ({ world with objects := remove world.objects (.s3 bucket key) }, .ok ())
  | .gcs _ _ =>
    match cutSlash (trimPrefix (Kind.gcs.scheme ++ colons) remotePath) with
    | none => (world, .error ())
    | some (bucket, key) =>
      if fails then (world, .error ())
      else ({ world with objects := remove world.objects (.gcs bucket key) }, .ok ())
  | .azure account container _ =>
    let blob := blobNameFromLocation container.text remotePath
    if blob = [] ∨ fails then (world, .error ())
    else
      ({ world with objects := remove world.objects (.azure account.text container.text blob) },
        .ok ())

def extractScheme (path : Bytes) : Bytes :=
  if (Kind.localDisk.scheme ++ colons).isPrefixOf path then Kind.localDisk.scheme
  else
    match cutAt colons path with
    | some (scheme, _) => scheme
    | none => []

def isLower (byte : UInt8) : Bool := 97 ≤ byte && byte ≤ 122

def storageMatchesScheme (location scheme : Bytes) : Bool :=
  if scheme = [] then false
  else if location = scheme then true
  else if (scheme ++ colons).isPrefixOf location then true
  else if scheme.isPrefixOf location then
    match location.drop scheme.length with
    | [] => false
    | next :: _ => !isLower next
  else false

/-- `MultiBackupStorage.Delete`; an error of one backend does not keep the others from trying. -/
def deleteMatching (fails : Bool) (remotePath : Bytes) : World → List Backend → World × List Unit
  | world, [] => (world, [])
  | world, backend :: rest =>
    if storageMatchesScheme backend.getLocation (extractScheme remotePath) then
      let deleted := backend.delete fails world remotePath
      let others := deleteMatching fails remotePath deleted.1 rest
      (others.1, (match deleted.2 with | .error () => [()] | .ok () => []) ++ others.2)
    else deleteMatching fails remotePath world rest

inductive DeleteError where
  /-- "no storage backend configured for scheme %s" -/
  | noBackend (scheme : Bytes)
  /-- "failed to delete from some storage backends: %s" -/
  | someFailed
deriving DecidableEq

def Backends.delete (backends : Backends) (fails : Bool) (world : World) (remotePath : Bytes) :
    World × Except DeleteError Unit :=
  let scheme := extractScheme remotePath
  let deleted := deleteMatching fails remotePath world backends.list
  (deleted.1,
    if backends.list.all fun backend => !storageMatchesScheme backend.getLocation scheme then
      .error (.noBackend scheme)
    else if deleted.2 ≠ [] then .error .someFailed
    else .ok ())

theorem trimPrefix_append (front text : Bytes) : trimPrefix front (front ++ text) = text := by
  unfold trimPrefix
  rw [if_pos ( isPrefixOf_iff_prefix.mpr (prefix_append front text)), drop_left]

theorem cutSlash_append {front : Bytes} (slashless : slash ∉ front) (rest : Bytes) :
    cutSlash (front ++ slash :: rest) = some (front, rest) := by
  induction front with
  | nil => rfl
  | cons byte front ih =>
    have different : byte ≠ slash := fun same => slashless (same ▸ mem_cons_self)
    have inner := ih fun mem => slashless (mem_cons_of_mem _ mem)
    rw [cons_append, cutSlash, if_neg different, inner]
    rfl

theorem cutAt_skip {mark front : Bytes} {byte : UInt8} (absent : byte ∉ front) (rest : Bytes) :
    cutAt (byte :: mark) (front ++ rest) =
      (cutAt (byte :: mark) rest).map fun parts => (front ++ parts.1, parts.2) := by
  induction front with
  | nil =>
    rw [nil_append]
    cases cutAt (byte :: mark) rest <;> rfl
  | cons first front ih =>
    have different : byte ≠ first := fun same => absent (same ▸ mem_cons_self)
    have inner := ih fun mem => absent (mem_cons_of_mem _ mem)
    have noMark : ¬ (byte :: mark).isPrefixOf (first :: (front ++ rest)) = true := by
      simp [different]
    rw [cons_append, cutAt, if_neg noMark, inner, Option.map_map]
    rfl

theorem cutAt_here (mark rest : Bytes) (nonempty : mark ≠ []) :
    cutAt mark (mark ++ rest) = some ([], rest) := by
  obtain ⟨byte, others, rfl⟩ := exists_cons_of_ne_nil nonempty
  have found : (byte :: others).isPrefixOf (byte :: (others ++ rest)) = true := by simp
  rw [cons_append, cutAt, if_pos found, ← cons_append, drop_left]

theorem cutAt_miss {mark rest : Bytes} {byte : UInt8}
    (miss : ¬ mark.isPrefixOf (byte :: rest) = true) :
    cutAt mark (byte :: rest) = (cutAt mark rest).map fun parts => (byte :: parts.1, parts.2) := by
  rw [cutAt, if_neg miss]

theorem eq_of_slash_follows {first second rest : Bytes} (slashlessFirst : slash ∉ first)
    (slashlessSecond : slash ∉ second)
    (begins : (first ++ [slash]).isPrefixOf (second ++ slash :: rest) = true) :
    first = second := by
  obtain ⟨tail, same⟩ := isPrefixOf_iff_prefix.mp begins
  have cut := congrArg cutSlash same
  rw [append_assoc, singleton_append, cutSlash_append slashlessFirst,
    cutSlash_append slashlessSecond] at cut
  exact congrArg Prod.fst (Option.some.inj cut)

theorem blobName_location (account : Name) (container : Container) (blob : Bytes) :
    blobNameFromLocation container.text (Kind.azure.scheme ++ colons ++
      (account.text ++ blobHost ++ slash :: (container.text ++ slash :: blob))) = blob := by
  have slashlessHost : slash ∉ account.text ++ blobHost := by
    rw [mem_append]
    exact fun either => either.elim account.slashless (by decide)
  -- The host has dots, so the mark is not found at the slashes before it.
  have notHost : ¬ (slash :: container.text ++ [slash]).isPrefixOf
      (slash :: (account.text ++ blobHost ++ slash :: (container.text ++ slash :: blob))) =
        true := by
    intro found
    have same := eq_of_slash_follows container.slashless slashlessHost found
    apply container.dotless
    rw [same]
    exact mem_append_right _ (by decide)
  have notSlash : ¬ (slash :: container.text ++ [slash]).isPrefixOf
      (slash :: slash :: (account.text ++ blobHost ++
        slash :: (container.text ++ slash :: blob))) = true := by
    obtain ⟨byte, others, shape⟩ := exists_cons_of_ne_nil container.nonempty
    have different : byte ≠ slash := by
      intro same
      apply container.slashless
      rw [shape, same]
      exact mem_cons_self
    rw [shape]
    simp [different]
  have beginning : Kind.azure.scheme ++ colons =
      asciiBytes ['a', 'z', 'u', 'r', 'e', ':'] ++ [slash, slash] := by decide
  have noSlash : slash ∉ asciiBytes ['a', 'z', 'u', 'r', 'e', ':'] := by decide
  have here : cutAt (slash :: (container.text ++ [slash]))
      (slash :: (container.text ++ slash :: blob)) = some ([], blob) := by
    have found := cutAt_here (slash :: (container.text ++ [slash])) blob (cons_ne_nil _ _)
    rwa [cons_append, append_assoc, singleton_append] at found
  unfold blobNameFromLocation
  rw [beginning, append_assoc, cons_append, cutAt_skip noSlash, cons_append,
    singleton_append, ← cons_append, cutAt_miss notSlash, cutAt_miss notHost,
    cons_append, cutAt_skip slashlessHost, here]
  rfl

theorem extractScheme_location (backend : Backend) (localPath : Bytes) :
    extractScheme (backend.location localPath) = backend.kind.scheme := by
  cases backend with
  | s3 bucket folder => rfl
  | _ => rfl

variable {localPath : Bytes} {backend : Backend}

variable {first second : Backend} {list : List Backend}

theorem kind_of_location (same : first.location localPath = second.location localPath) :
    first.kind = second.kind := by
  have schemes := congrArg extractScheme same
  rw [extractScheme_location, extractScheme_location] at schemes
  generalize first.kind = kind, second.kind = other at schemes
  cases kind <;> cases other <;> first | rfl | exact absurd schemes (by decide)

theorem matches_iff (first second : Backend) :
    storageMatchesScheme first.getLocation second.kind.scheme = true ↔
      first.kind = second.kind := by
  have decided : storageMatchesScheme first.getLocation second.kind.scheme =
      decide (first.kind = second.kind) := by
    cases first <;> cases second <;> rfl
  rw [decided, decide_eq_true_iff]

theorem objectKey_ne_nil (folder localPath : Bytes) : objectKey folder localPath ≠ [] := by
  unfold objectKey baseName
  split
  · split
    · exact cons_ne_nil _ _
    · dsimp only
      split
      · exact cons_ne_nil _ _
      · assumption
  · simp

def Backend.discard (localPath : Bytes) (world : World) (backend : Backend) : World :=
  match backend.object localPath with
  | none => { world with files := remove world.files localPath }
  | some object => { world with objects := remove world.objects object }

theorem Backend.delete_location (backend : Backend) (fails : Bool) (world : World)
    (localPath : Bytes) :
    (backend.delete fails world (backend.location localPath)).1 =
      if fails then world else backend.discard localPath world := by
  cases backend with
  | localStorage =>
    unfold delete location
    rw [trimPrefix_append]
    cases fails with
    | true => rfl
    | false =>
      by_cases absent : world.files localPath = none
      · rw [if_pos (.inr absent)]
        unfold discard object
        rw [remove_absent absent]
        rfl
      · rw [if_neg (by simp [absent])]
        rfl
  | s3 bucket folder =>
    unfold delete location
    rw [trimPrefix_append, cutSlash_append bucket.slashless]
    cases fails <;> rfl
  | gcs bucket folder =>
    unfold delete location
    rw [trimPrefix_append, cutSlash_append bucket.slashless]
    cases fails <;> rfl
  | azure account container folder =>
    unfold delete location
    dsimp only
    rw [blobName_location]
    cases fails with
    | true => rw [if_pos (.inr rfl), if_pos rfl]
    | false =>
      rw [if_neg (by simp [objectKey_ne_nil])]
      rfl

open Backend

theorem deleteMatching_none {fails : Bool} {world : World}
    (absent : backend.kind ∉ list.map kind) :
    deleteMatching fails (backend.location localPath) world list = (world, []) := by
  induction list with
  | nil => rfl
  | cons first rest ih =>
    rw [map_cons, mem_cons, not_or] at absent
    have miss : ¬ storageMatchesScheme first.getLocation
        (extractScheme (backend.location localPath)) = true := by
      rw [extractScheme_location, matches_iff]
      exact fun same => absent.1 same.symm
    rw [deleteMatching, if_neg miss, ih absent.2]

theorem deleteMatching_location {fails : Bool} {world : World}
    (distinct : (list.map kind).Nodup) (mem : backend ∈ list) :
    (deleteMatching fails (backend.location localPath) world list).1 =
      if fails then world else backend.discard localPath world := by
  induction list with
  | nil => exact absurd mem not_mem_nil
  | cons first rest ih =>
    rw [map_cons, nodup_cons] at distinct
    rcases mem_cons.mp mem with rfl | later
    · have hit : storageMatchesScheme backend.getLocation
          (extractScheme (backend.location localPath)) = true := by
        rw [extractScheme_location, matches_iff]
      rw [deleteMatching, if_pos hit]
      dsimp only
      rw [deleteMatching_none distinct.1]
      exact delete_location backend fails world localPath
    · have miss : ¬ storageMatchesScheme first.getLocation
          (extractScheme (backend.location localPath)) = true := by
        rw [extractScheme_location, matches_iff]
        intro same
        exact distinct.1 (mem_map.mpr ⟨backend, later, same.symm⟩)
      rw [deleteMatching, if_neg miss]
      exact ih distinct.2 later

theorem Backends.delete_location (backends : Backends) (fails : Bool) (world : World)
    (localPath : Bytes) (mem : backend ∈ backends.list) :
    (backends.delete fails world (backend.location localPath)).1 =
      if fails then world else backend.discard localPath world :=
  deleteMatching_location backends.distinct mem

/-- The copy of a file that a backend holds; for a local backend the file itself. -/
def Backend.copy (localPath : Bytes) (world : World) (backend : Backend) : Option Bytes :=
  match backend.object localPath with
  | none => world.files localPath
  | some object => world.objects object

theorem object_kind (localPath : Bytes) (different : first.kind ≠ second.kind) :
    first.object localPath ≠ second.object localPath := by
  cases first <;> cases second <;> simp_all [kind, object]

section Copies

variable {localPath : Bytes} {world : World}

@[simp]
theorem copy_discard_same (backend : Backend) :
    backend.copy localPath (backend.discard localPath world) = none := by
  unfold Backend.copy Backend.discard
  cases backend.object localPath with
  | none => exact remove_same
  | some object => exact remove_same

theorem copy_discard_other (different : second.kind ≠ first.kind) :
    second.copy localPath (first.discard localPath world) = second.copy localPath world := by
  have objects := object_kind localPath different
  unfold Backend.copy Backend.discard
  cases mine : second.object localPath with
  | none =>
    cases theirs : first.object localPath with
    | none => exact absurd (mine.trans theirs.symm) objects
    | some object => rfl
  | some object =>
    cases theirs : first.object localPath with
    | none => rfl
    | some other =>
      refine remove_other fun same => objects ?_
      rw [mine, theirs, same]

variable {content : Bytes}

theorem copy_store_other (different : second.kind ≠ first.kind) :
    second.copy localPath (first.store localPath content world) = second.copy localPath world := by
  have objects := object_kind localPath different
  unfold copy store
  cases mine : second.object localPath with
  | none => cases theirs : first.object localPath <;> rfl
  | some object =>
    cases theirs : first.object localPath with
    | none => rfl
    | some other =>
      refine write_other fun same => objects ?_
      rw [mine, theirs, same]

variable {refuses : Backend → Bool} {holder : Backend}

theorem store_files (backend : Backend) :
    (backend.store localPath content world).files = world.files := by
  unfold store
  cases backend.object localPath <;> rfl

theorem upload_eq {refuses : Bool} (present : world.files localPath = some content)
    (backend : Backend) : backend.upload refuses world localPath =
      if backend = .localStorage ∨ refuses = false then
        some (backend.store localPath content world)
      else none := by
  unfold upload
  by_cases onDisk : backend = .localStorage
  · rw [if_pos onDisk, if_pos (.inl onDisk), onDisk]
    rfl
  · rw [if_neg onDisk, present]
    cases refuses <;> simp [onDisk]

theorem copy_uploadAll_other (present : world.files localPath = some content)
    (absent : holder.kind ∉ list.map kind) :
    holder.copy localPath (uploadAll refuses localPath world list).1 =
      holder.copy localPath world := by
  induction list generalizing world with
  | nil => rfl
  | cons first rest ih =>
    rw [map_cons, mem_cons, not_or] at absent
    rw [uploadAll, upload_eq present]
    split
    · exact ih present absent.2
    · rename_i stored taken
      split at taken
      · obtain rfl := Option.some.inj taken
        rw [ih ((congrFun (store_files first) localPath).trans present) absent.2]
        exact copy_store_other absent.1
      · cases taken

theorem uploadAll_holds (distinct : (list.map kind).Nodup)
    (present : world.files localPath = some content) (mem : holder ∈ list)
    (takes : holder = .localStorage ∨ refuses holder = false) :
    holder.location localPath ∈ (uploadAll refuses localPath world list).2 ∧
      holder.copy localPath (uploadAll refuses localPath world list).1 = some content := by
  induction list generalizing world with
  | nil => exact absurd mem not_mem_nil
  | cons first rest ih =>
    rw [map_cons, nodup_cons] at distinct
    have still : (first.store localPath content world).files localPath = some content :=
      (congrFun (store_files first) localPath).trans present
    rw [uploadAll, upload_eq present]
    rcases mem_cons.mp mem with rfl | later
    · rw [if_pos takes]
      refine ⟨mem_cons_self, ?_⟩
      rw [copy_uploadAll_other still distinct.1]
      unfold copy store
      cases holder.object localPath with
      | none => exact present
      | some object => exact write_same
    · split
      · exact ih distinct.2 present later
      · rename_i stored taken
        split at taken
        · obtain rfl := Option.some.inj taken
          obtain ⟨reported, held⟩ := ih distinct.2 still later
          exact ⟨mem_cons_of_mem _ reported, held⟩
        · cases taken

end Copies

end SiprecServer.Backup.Storage
