import Mathlib.Data.Nat.Pairing
import SiprecServer.Lib.HashChain
import SiprecServer.Lib.Transducer

/-!
# The audit chain

`AuditChainWriter` appends records to a log file, one JSON text per line, each with the hash of
the record that the same writer appended before.  A record is complete in the file if its text
is a whole line.  Appends may fail to open the file and writes may stop anywhere before the end
of the line; a writer is made anew when the process restarts.
-/

namespace SiprecServer.Compliance.AuditChain

open Lib List
open Lib.HashChain (hashOf Linked)
open Lib.Transducer (run run_nil run_cons_state Along)

structure AuditRecord (Payload Hash : Type) where
  timestamp : Nat
  payload : Payload
  prevHash : Hash
  hash : Hash
deriving DecidableEq

/-- What writes that were cut short leave behind: pieces from the beginnings of texts. -/
inductive Torn (IsText : List Char → Prop) : List Char → Prop where
  | nothing : Torn IsText []
  | piece {line front text : List Char} (before : Torn IsText line) (isText : IsText text)
      (begins : front <+: text) : Torn IsText (line ++ front)

/-- `encoding/json` and `crypto/sha256` for records whose payloads are JSON objects.  The hash
has no collisions, and texts are objects on one line that read back.  Behind the beginning of
an object, a whole object does not make an object. -/
structure Library (Payload Hash : Type) where
  emptyPayload : Payload
  /-- `json.Marshal` accepts the payload. -/
  encodable : Payload → Bool
  /-- The empty string, with which a writer starts. -/
  noHash : Hash
  /-- The hash over the text of the first three fields. -/
  sum : Nat → Payload → Hash → Hash
  marshal : AuditRecord Payload Hash → List Char
  unmarshal : List Char → Option (AuditRecord Payload Hash)
  sum_inj : ∀ {t t' : Nat} {p p' : Payload} {h h' : Hash},
    sum t p h = sum t' p' h' → t = t' ∧ p = p' ∧ h = h'
  sum_ne_noHash : ∀ {t : Nat} {p : Payload} {h : Hash}, sum t p h ≠ noHash
  marshal_ne_nil : ∀ record, marshal record ≠ []
  marshal_oneLine : ∀ record, '\n' ∉ marshal record
  unmarshal_marshal : ∀ record, encodable record.payload = true →
    unmarshal (marshal record) = some record
  unmarshal_torn : ∀ {line : List Char}, Torn (· ∈ Set.range marshal) line → line ≠ [] →
    ∀ record, unmarshal (line ++ marshal record) = none

variable {Payload Hash : Type}

structure AuditLog (Hash : Type) where
  file : List Char
  lastHash : Hash

inductive AppendError where
  /-- The payload has no JSON text. -/
  | encode
  /-- "failed to open audit chain file: %w" -/
  | openFile
  /-- "failed to write audit record: %w" -/
  | writeFile
deriving DecidableEq

inductive Outcome where
  | openFails
  /-- The write stops within the record or right before its line break. -/
  | cut (bytes : Nat)
  | complete
deriving DecidableEq

inductive Event (Payload : Type) where
  | restart
  | append (now : Nat) (payload : Option Payload) (outcome : Outcome)

section Writer

variable (lib : Library Payload Hash)

def newAuditChainWriter (file : List Char) : AuditLog Hash := ⟨file, lib.noHash⟩

def newRecord (now : Nat) (payload : Option Payload) (lastHash : Hash) : AuditRecord Payload Hash :=
  let payload := payload.getD lib.emptyPayload
  { timestamp := now, payload, prevHash := lastHash, hash := lib.sum now payload lastHash }

def append (log : AuditLog Hash) (now : Nat) (payload : Option Payload) (outcome : Outcome) :
    AuditLog Hash × Except AppendError Unit :=
  let record := newRecord lib now payload log.lastHash
  if lib.encodable record.payload then
    match outcome with
    | .openFails => (log, .error .openFile)
    | .cut bytes =>
      ({ log with file := log.file ++ (lib.marshal record).take bytes }, .error .writeFile)
    | .complete =>
      ({ file := log.file ++ (lib.marshal record ++ ['\n']), lastHash := record.hash }, .ok ())
  else (log, .error .encode)

def step (log : AuditLog Hash) : Event Payload → AuditLog Hash × List (Except AppendError Unit)
  | .restart => (newAuditChainWriter lib log.file, [])
  | .append now payload outcome =>
    let result := append lib log now payload outcome
    (result.1, [result.2])

end Writer

/-- The lines that end, and the rest; `current` is the line that was begun. -/
def readLines : (current : List Char) → List Char → List (List Char) × List Char
  | current, [] => ([], current)
  | current, c :: rest =>
    if c = '\n' then
      let later := readLines [] rest
      (current :: later.1, later.2)
    else readLines (current ++ [c]) rest

def completeRecords (lib : Library Payload Hash) (file : List Char) :
    List (AuditRecord Payload Hash) :=
  (readLines [] file).1.filterMap lib.unmarshal

theorem readLines_append (current first second : List Char) :
    readLines current (first ++ second) =
      ((readLines current first).1 ++ (readLines (readLines current first).2 second).1,
        (readLines (readLines current first).2 second).2) := by
  induction first generalizing current with
  | nil => rfl
  | cons c rest ih =>
    by_cases ends : c = '\n'
    · simp only [cons_append, readLines, if_pos ends, ih]
    · simp only [cons_append, readLines, if_neg ends, ih]

theorem readLines_within {text : List Char} (oneLine : '\n' ∉ text) (current : List Char) :
    readLines current text = ([], current ++ text) := by
  induction text generalizing current with
  | nil => rw [readLines, append_nil]
  | cons c rest ih =>
    have isNot : c ≠ '\n' := fun ends => oneLine (ends ▸ mem_cons_self)
    have later : '\n' ∉ rest := fun inside => oneLine (mem_cons_of_mem c inside)
    rw [readLines, if_neg isNot, ih later, append_assoc, singleton_append]

theorem readLines_line {text : List Char} (oneLine : '\n' ∉ text) (current : List Char) :
    readLines current (text ++ ['\n']) = ([current ++ text], []) := by
  rw [readLines_append, readLines_within oneLine]
  rfl

section Spec

variable (lib : Library Payload Hash)

def scheme : HashChain.Scheme (AuditRecord Payload Hash) Hash where
  prev := AuditRecord.prevHash
  hash := AuditRecord.hash
  start := lib.noHash
  Sealed record := record.hash = lib.sum record.timestamp record.payload record.prevHash
  determined := by
    intro a b sealedA sealedB same
    have sums := sealedA.symm.trans (same.trans sealedB)
    obtain ⟨timestamp, payload, prevHash⟩ := lib.sum_inj sums
    cases a
    cases b
    subst timestamp payload prevHash same
    rfl
  fresh := by
    intro a sealedA
    rw [sealedA]
    exact lib.sum_ne_noHash

/-- Every record carries the hash of its contents and, as previous hash, the hash of the record
before it; the first carries the empty one. -/
def Verifies (records : List (AuditRecord Payload Hash)) : Prop :=
  Linked (scheme lib) none records

/-- Other records that verify, be it that some are missing, moved or altered, end with another
hash. -/
def TamperEvident (records : List (AuditRecord Payload Hash)) : Prop :=
  ∀ other, Verifies lib other →
    hashOf (scheme lib) other.getLast? = hashOf (scheme lib) records.getLast? → other = records

/-- The appends without the text of the file: the records on lines of their own, whether a line
was begun and not ended, and the last record that the running writer appended. -/
structure Journal (Payload Hash : Type) where
  complete : List (AuditRecord Payload Hash) := []
  torn : Bool := false
  last : Option (AuditRecord Payload Hash) := none

namespace Journal

variable (journal : Journal Payload Hash)

def next (now : Nat) (payload : Option Payload) : AuditRecord Payload Hash :=
  newRecord lib now payload (hashOf (scheme lib) journal.last)

/-- A record that lands behind a line that was begun is lost with it, but its writer goes on
from it. -/
def step : Event Payload → Journal Payload Hash × List Empty
  | .restart => ({ journal with last := none }, [])
  | .append now payload outcome =>
    let record := journal.next lib now payload
    if lib.encodable record.payload then
      match outcome with
      | .openFails => (journal, [])
      | .cut bytes => ({ journal with torn := journal.torn || decide (0 < bytes) }, [])
      | .complete =>
        let complete :=
          if journal.torn then journal.complete else journal.complete ++ [record]
        ({ complete, torn := false, last := some record }, [])
    else (journal, [])

/-- A record gets a line of its own only while the writer's last record is the last complete
record of the file. -/
def Follows : Event Payload → Prop
  | .restart => True
  | .append now payload outcome =>
    lib.encodable (journal.next lib now payload).payload = true → outcome = .complete →
      journal.torn = false → journal.last = journal.complete.getLast?

end Journal

end Spec

variable {lib : Library Payload Hash}

structure Represents (lib : Library Payload Hash) (log : AuditLog Hash)
    (journal : Journal Payload Hash) : Prop where
  complete : completeRecords lib log.file = journal.complete
  line : Torn (· ∈ Set.range lib.marshal) (readLines [] log.file).2
  torn : journal.torn = true ↔ (readLines [] log.file).2 ≠ []
  lastHash : log.lastHash = hashOf (scheme lib) journal.last

theorem completeRecords_append (file text : List Char) :
    completeRecords lib (file ++ text) =
      completeRecords lib file ++
        (readLines (readLines [] file).2 text).1.filterMap lib.unmarshal := by
  unfold completeRecords
  rw [readLines_append, filterMap_append]

theorem rest_append (file text : List Char) :
    (readLines [] (file ++ text)).2 = (readLines (readLines [] file).2 text).2 := by
  rw [readLines_append]

variable {log : AuditLog Hash} {journal : Journal Payload Hash}

open Journal

section

variable (represents : Represents lib log journal)

include represents

theorem Represents.cut (record : AuditRecord Payload Hash)
    (bytes : Nat) : Represents lib { log with file := log.file ++ (lib.marshal record).take bytes }
      { journal with torn := journal.torn || decide (0 < bytes) } := by
  have oneLine : '\n' ∉ (lib.marshal record).take bytes := fun inside =>
    lib.marshal_oneLine record (mem_of_mem_take inside)
  have read := readLines_within oneLine (readLines [] log.file).2
  constructor
  · rw [completeRecords_append, read, filterMap_nil, append_nil]
    exact represents.complete
  · rw [rest_append, read]
    exact represents.line.piece ⟨record, rfl⟩ <| take_prefix _ _
  · rw [rest_append, read, Bool.or_eq_true, represents.torn, decide_eq_true_iff]
    simp [lib.marshal_ne_nil record, Nat.pos_iff_ne_zero, imp_iff_not_or]
  · exact represents.lastHash

/-- A whole write ends the last line: its record is complete if nothing stood there. -/
theorem Represents.whole {record : AuditRecord Payload Hash}
    (encodable : lib.encodable record.payload = true) :
    Represents lib
      { file := log.file ++ (lib.marshal record ++ ['\n']), lastHash := record.hash }
      { complete := if journal.torn then journal.complete else journal.complete ++ [record],
        torn := false, last := some record } := by
  have read := readLines_line (lib.marshal_oneLine record) (readLines [] log.file).2
  constructor
  · rw [completeRecords_append, read, represents.complete]
    by_cases torn : journal.torn = true
    · rw [if_pos torn]
      have lost := lib.unmarshal_torn represents.line (represents.torn.mp torn) record
      rw [filterMap_cons_none lost, filterMap_nil, append_nil]
    · rw [if_neg torn]
      have clean : (readLines [] log.file).2 = [] := not_not.mp (mt represents.torn.mpr torn)
      rw [clean, nil_append, filterMap_cons_some (lib.unmarshal_marshal record encodable),
        filterMap_nil]
  · rw [rest_append, read]
    exact .nothing
  · rw [rest_append, read]
    exact ⟨fun isTorn => absurd isTorn Bool.false_ne_true, fun isTorn => absurd rfl isTorn⟩
  · rfl

theorem step_represents (event : Event Payload) :
    Represents lib (step lib log event).1 (journal.step lib event).1 := by
  cases event with
  | restart => exact { represents with lastHash := rfl }
  | append now payload outcome =>
    have same : newRecord lib now payload log.lastHash = journal.next lib now payload := by
      unfold Journal.next
      rw [represents.lastHash]
    by_cases encodable : lib.encodable (journal.next lib now payload).payload = true
    · simp only [step, append, Journal.step, same, if_pos encodable]
      cases outcome with
      | openFails => exact represents
      | cut bytes => exact represents.cut _ bytes
      | complete => exact represents.whole encodable
    · simp only [step, append, Journal.step, same, if_neg encodable]
      exact represents

theorem run_represents (events : List (Event Payload)) :
    Represents lib (run (step lib) log events).1
      (run (Journal.step lib) journal events).1 := by
  induction events generalizing log journal with
  | nil => exact represents
  | cons event events ih =>
    exact ih (step_represents represents event)

end

theorem newRecord_sealed (now : Nat) (payload : Option Payload) (lastHash : Hash) :
    (scheme lib).Sealed (newRecord lib now payload lastHash) := rfl

def SealedLast (lib : Library Payload Hash) (journal : Journal Payload Hash) : Prop :=
  ∀ record ∈ journal.last, (scheme lib).Sealed record

section

variable (isSealed : SealedLast lib journal)

include isSealed

theorem Journal.step_sealed (event : Event Payload) :
    SealedLast lib (journal.step lib event).1 := by
  cases event with
  | restart =>
    intro record last
    cases last
  | append now payload outcome =>
    unfold Journal.step
    dsimp only
    split
    · cases outcome with
      | openFails => exact isSealed
      | cut bytes => exact isSealed
      | complete =>
        intro record last
        obtain rfl := Option.some.inj last
        exact newRecord_sealed now payload _
    · exact isSealed

theorem Journal.step_verifies_iff (event : Event Payload) :
    Verifies lib (journal.step lib event).1.complete ↔
      Verifies lib journal.complete ∧ journal.Follows lib event := by
  cases event with
  | restart => simp [Journal.step, Follows]
  | append now payload outcome =>
    unfold Journal.step Follows
    dsimp only
    by_cases encodable : lib.encodable (journal.next lib now payload).payload = true
    · rw [if_pos encodable]
      cases outcome with
      | openFails => simp
      | cut bytes => simp
      | complete =>
        by_cases torn : journal.torn = true
        · simp [torn]
        · rw [if_neg torn]
          unfold Verifies
          rw [HashChain.linked_append_singleton, Option.or_none]
          refine and_congr_right fun linked => ?_
          have links : hashOf (scheme lib) journal.last =
              hashOf (scheme lib) journal.complete.getLast? ↔
                journal.last = journal.complete.getLast? :=
            HashChain.hashOf_inj isSealed linked.last_sealed
          constructor
          · rintro ⟨prev, _⟩ _ _ _
            exact links.mp prev
          · intro follows
            exact ⟨links.mpr (follows encodable rfl (by simpa using torn)),
              newRecord_sealed now payload _⟩
    · rw [if_neg encodable]
      simp [encodable]

theorem Journal.run_verifies_iff (events : List (Event Payload)) :
    Verifies lib (run (Journal.step lib) journal events).1.complete ↔
      Verifies lib journal.complete ∧ Along (Journal.step lib) (Follows lib) journal events
    := by
  induction events generalizing journal with
  | nil => simp [Along]
  | cons event events ih =>
    rw [run_cons_state, ih (step_sealed isSealed event),
      step_verifies_iff isSealed event, Along, and_assoc]

end

/-- After any appends and restarts, the complete records of the file form a chain that betrays
every change exactly if each of them was appended by a writer whose last record was then the
last complete record of the file. -/
theorem complete_records_chained_iff (lib : Library Payload Hash) (events : List (Event Payload)) :
    (Verifies lib (completeRecords lib (run (step lib) (newAuditChainWriter lib []) events).1.file) ∧
      TamperEvident lib
        (completeRecords lib (run (step lib) (newAuditChainWriter lib []) events).1.file)) ↔
      Along (Journal.step lib) (Journal.Follows lib) {} events := by
  have start : Represents lib (newAuditChainWriter lib []) {} :=
    ⟨rfl, .nothing, by simp [newAuditChainWriter, readLines], rfl⟩
  have noLast : SealedLast lib {} := by
    intro record last
    cases last
  rw [(run_represents start events).complete]
  have chained := run_verifies_iff noLast events
  constructor
  · rintro ⟨verifies, _⟩
    exact (chained.mp verifies).2
  · intro follows
    have verifies := chained.mpr ⟨True.intro, follows⟩
    refine ⟨verifies, fun other verifiesOther same => ?_⟩
    exact verifiesOther.determined_by_last verifies same

namespace Small

def unary (n : Nat) : List Char := List.replicate n 'x'

def text (record : AuditRecord Unit Nat) : List Char :=
  '\x7b' :: (unary record.timestamp ++ ',' :: (unary record.prevHash ++
    ',' :: (unary record.hash ++ ['\x7d'])))

def number (text : List Char) : Nat × List Char :=
  ((text.takeWhile (· = 'x')).length, (text.dropWhile (· = 'x')).tail)

def read : List Char → Option (AuditRecord Unit Nat)
  | [] => none
  | first :: rest =>
    if first = '\x7b' ∧ '\x7b' ∉ rest then
      let timestamp := number rest
      let prevHash := number timestamp.2
      some ⟨timestamp.1, (), prevHash.1, (number prevHash.2).1⟩
    else none

theorem number_unary {c : Char} (isNot : c ≠ 'x') (n : Nat) (rest : List Char) :
    number (unary n ++ c :: rest) = (n, rest) := by
  have all : ∀ x ∈ unary n, decide (x = 'x') = true := by simp [unary]
  unfold number
  rw [takeWhile_append_of_pos all, dropWhile_append_of_pos all,
    takeWhile_cons_of_neg (by simpa using isNot),
    dropWhile_cons_of_neg (by simpa using isNot)]
  simp [unary]

theorem read_text (record : AuditRecord Unit Nat) : read (text record) = some record := by
  have opened : '\x7b' ∉ unary record.timestamp ++ ',' :: (unary record.prevHash ++
      ',' :: (unary record.hash ++ ['\x7d'])) := by simp [unary]
  rw [text, read, if_pos ⟨rfl, opened⟩]
  simp only [number_unary (show ',' ≠ 'x' by decide), number_unary (show '\x7d' ≠ 'x' by decide)]

def library : Library Unit Nat where
  emptyPayload := ()
  encodable _ := true
  noHash := 0
  sum t _ h := Nat.pair t h + 1
  marshal := text
  unmarshal := read
  sum_inj := by
    intro t t' p p' h h' same
    obtain ⟨times, hashes⟩ := Nat.pair_eq_pair.mp (Nat.succ.inj same)
    exact ⟨times, rfl, hashes⟩
  sum_ne_noHash := Nat.succ_ne_zero _
  marshal_ne_nil := fun record => cons_ne_nil _ _
  marshal_oneLine := by
    intro record
    simp [text, unary]
  unmarshal_marshal := fun record _ => read_text record
  unmarshal_torn := by
    intro line _ begun record
    obtain ⟨first, rest, rfl⟩ := exists_cons_of_ne_nil begun
    obtain ⟨more, opens⟩ : ∃ more, text record = '\x7b' :: more := ⟨_, rfl⟩
    rw [cons_append, read, opens]
    exact if_neg fun clean => clean.2 (mem_append_right rest mem_cons_self)

end Small

/-- A writer that starts after a restart does not know the last record of the file. -/
theorem restarted_writer_breaks_chain :
    ¬ Verifies Small.library (completeRecords Small.library
      (run (step Small.library) (newAuditChainWriter Small.library [])
        [.append 0 none .complete, .restart, .append 1 none .complete]).1.file) := by
  rintro ⟨_, _, link, _⟩
  exact absurd link (by decide)

/-- Behind the piece of a write that was cut short the next record is lost, although its append
succeeds; the record after it refers to the lost one. -/
example : completeRecords Small.library
    (run (step Small.library) (newAuditChainWriter Small.library [])
      [.append 0 none (.cut 1), .append 0 none .complete, .append 0 none .complete]).1.file =
    [⟨0, (), 1, 2⟩] := by
  decide

end SiprecServer.Compliance.AuditChain
