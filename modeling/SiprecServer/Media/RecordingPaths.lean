import Mathlib.Data.List.Nodup
import SiprecServer.Lib.UnixPath

/-!
# Names of recordings

`SanitizeCallUUID` and the two places that build file paths from it: the plain
recording of one stream, named after Call-ID and label, and the combined recording
of a call, named after the Call-ID alone.  Call-IDs and labels are lists of
characters, paths are bytes.
-/

namespace SiprecServer.Media

open Lib.UnixPath List

/-- The character classes of the Unicode tables; on ASCII they are the usual ones. -/
structure UnicodeClass where
  isLetter : Char → Bool
  isDigit : Char → Bool
  ascii : ∀ c : Char, c.val < 128 → isLetter c = c.isAlpha ∧ isDigit c = c.isDigit

namespace UnicodeClass

def keeps (classes : UnicodeClass) (c : Char) : Bool :=
  classes.isLetter c || classes.isDigit c || c == '-'

end UnicodeClass

def unknownName : Bytes := [117, 110, 107, 110, 111, 119, 110]

def wavSuffix : Bytes := [46, 119, 97, 118]

section

variable (classes : UnicodeClass)

def keptBytes (name : List Char) : Bytes :=
  (name.filter classes.keeps).flatMap String.utf8EncodeChar

def sanitizeCallUUID (uuid : List Char) : Bytes :=
  let result := keptBytes classes uuid
  let limited := if 64 < result.length then result.take 64 else result
  if limited = [] then unknownName else limited

def streamPath (recordingDir : Bytes) (callID label : List Char) : Bytes :=
  join recordingDir (sanitizeCallUUID classes (callID ++ '_' :: label) ++ wavSuffix)

def combinedPath (recordingDir firstLeg : Bytes) (callID : List Char) : Bytes :=
  let outputDir := if recordingDir ≠ [] then recordingDir else directoryOf firstLeg
  join outputDir (sanitizeCallUUID classes callID ++ wavSuffix)

end

structure RecordedCall where
  callID : List Char
  labels : List (List Char)

namespace RecordedCall

def streamPaths (classes : UnicodeClass) (recordingDir : Bytes) (call : RecordedCall) :
    List Bytes :=
  call.labels.map (streamPath classes recordingDir call.callID)

/-- All paths used for a call: its streams, and the combined recording if there are at
least two legs. -/
def paths (classes : UnicodeClass) (recordingDir : Bytes) (call : RecordedCall) : List Bytes :=
  call.streamPaths classes recordingDir ++
    match call.streamPaths classes recordingDir with
    | first :: _ :: _ => [combinedPath classes recordingDir first call.callID]
    | _ => []

def names (call : RecordedCall) : List (List Char) :=
  call.labels.map (fun label => call.callID ++ '_' :: label) ++
    if 2 ≤ call.labels.length then [call.callID] else []

end RecordedCall

theorem slash_mem_utf8EncodeChar {c : Char} (mem : slash ∈ String.utf8EncodeChar c) :
    c = '/' := by
  have nat : ∀ n, n < 256 → slash = UInt8.ofNat n → n = 47 := by
    intro n small same
    have values := congrArg UInt8.toNat same
    rw [UInt8.toNat_ofNat_of_lt' small] at values
    exact values.symm
  unfold String.utf8EncodeChar at mem
  dsimp only at mem
  split at mem
  · rename_i oneByte
    have value := nat _ (by omega) (mem_singleton.mp mem)
    apply Char.ext
    apply UInt32.toNat_inj.mp
    exact value
  · -- every byte of a longer encoding is at least 128
    exfalso
    split at mem
    · simp only [mem_cons, not_mem_nil, or_false] at mem
      rcases mem with same | same
      · have value := nat _ (by omega) same
        omega
      · have value := nat _ (by omega) same
        omega
    · split at mem
      · simp only [mem_cons, not_mem_nil, or_false] at mem
        rcases mem with same | same | same
        · have value := nat _ (by omega) same
          omega
        · have value := nat _ (by omega) same
          omega
        · have value := nat _ (by omega) same
          omega
      · simp only [mem_cons, not_mem_nil, or_false] at mem
        rcases mem with same | same | same | same
        · have value := nat _ (by omega) same
          omega
        · have value := nat _ (by omega) same
          omega
        · have value := nat _ (by omega) same
          omega
        · have value := nat _ (by omega) same
          omega

variable (classes : UnicodeClass)

theorem keeps_slash : classes.keeps '/' = false := by
  obtain ⟨letter, digit⟩ := classes.ascii '/' (by decide)
  unfold UnicodeClass.keeps
  rw [letter, digit]
  decide

theorem slash_not_mem_keptBytes (name : List Char) : slash ∉ keptBytes classes name := by
  intro mem
  obtain ⟨c, kept, encoded⟩ := mem_flatMap.mp mem
  have passed := (mem_filter.mp kept).2
  rw [slash_mem_utf8EncodeChar encoded, keeps_slash] at passed
  cases passed

def stem (classes : UnicodeClass) (name : List Char) : Bytes :=
  if keptBytes classes name = [] then unknownName else keptBytes classes name

section

variable (recordingDir : Bytes) (first second : List Char) (uuid : List Char)

theorem sanitizeCallUUID_eq : sanitizeCallUUID classes uuid = (stem classes uuid).take 64 := by
  have cut : (if 64 < (keptBytes classes uuid).length then (keptBytes classes uuid).take 64
      else keptBytes classes uuid) = (keptBytes classes uuid).take 64 := by
    split
    · rfl
    · rename_i short
      exact (take_of_length_le (Nat.le_of_not_lt short)).symm
  simp only [sanitizeCallUUID, stem]
  rw [cut]
  by_cases empty : keptBytes classes uuid = []
  · rw [if_pos empty, empty, take_nil, if_pos rfl]
    rfl
  · rw [if_neg empty, if_neg]
    intro none
    rcases take_eq_nil_iff.mp none with zero | nil
    · cases zero
    · exact empty nil

theorem sanitized_segment : Segment (sanitizeCallUUID classes uuid ++ wavSuffix) := by
  have long : 4 ≤ (sanitizeCallUUID classes uuid ++ wavSuffix).length := by
    rw [length_append]
    exact Nat.le_add_left _ _
  refine ⟨?_, ?_, ?_, ?_⟩
  · intro empty
    rw [empty] at long
    exact absurd long (by decide)
  · intro mem
    rcases mem_append.mp mem with inName | inSuffix
    · rw [sanitizeCallUUID_eq] at inName
      have inStem := mem_of_mem_take inName
      unfold stem at inStem
      split at inStem
      · exact absurd inStem (by decide)
      · exact slash_not_mem_keptBytes classes uuid inStem
    · exact absurd inSuffix (by decide)
  · intro same
    rw [same] at long
    exact absurd long (by decide)
  · intro same
    rw [same] at long
    exact absurd long (by decide)

/-- Two names differ at one of the first 64 bytes of what is kept of them; the end of a
name counts as a difference. -/
def DifferEarly (classes : UnicodeClass) (first second : List Char) : Prop :=
  ∃ index < 64, (stem classes first)[index]? ≠ (stem classes second)[index]?

theorem sanitize_ne_iff :
    sanitizeCallUUID classes first ≠ sanitizeCallUUID classes second ↔
      DifferEarly classes first second := by
  rw [sanitizeCallUUID_eq, sanitizeCallUUID_eq]
  constructor
  · intro different
    by_contra same
    apply different
    apply ext_getElem?
    intro index
    rw [getElem?_take, getElem?_take]
    split
    · rename_i inside
      by_contra apart
      exact same ⟨index, inside, apart⟩
    · rfl
  · rintro ⟨index, inside, apart⟩ same
    have there := congrArg (fun bytes => bytes[index]?) same
    rw [getElem?_take, getElem?_take, if_pos inside, if_pos inside] at there
    exact apart there

def namedPath (classes : UnicodeClass) (recordingDir : Bytes) (name : List Char) : Bytes :=
  join recordingDir (sanitizeCallUUID classes name ++ wavSuffix)

theorem namedPath_ne_iff :
    namedPath classes recordingDir first ≠ namedPath classes recordingDir second ↔
      DifferEarly classes first second := by
  unfold namedPath
  rw [← sanitize_ne_iff, ne_eq, join_eq (sanitized_segment classes first),
    join_eq (sanitized_segment classes second), append_right_inj, append_left_inj]

theorem combinedPath_eq (callID legID label : List Char) :
    combinedPath classes recordingDir (streamPath classes recordingDir legID label) callID =
      namedPath classes recordingDir callID := by
  simp only [combinedPath, namedPath]
  by_cases empty : recordingDir = []
  · have leg := sanitized_segment classes (legID ++ '_' :: label)
    have path : streamPath classes recordingDir legID label =
        sanitizeCallUUID classes (legID ++ '_' :: label) ++ wavSuffix := by
      unfold streamPath
      rw [join_eq leg, empty]
      rfl
    rw [if_neg (fun nonempty => nonempty empty), path, directoryOf_name leg.slashless, empty,
      join_eq (sanitized_segment classes callID), join_eq (sanitized_segment classes callID)]
    rfl
  · rw [if_pos empty]

theorem RecordedCall.paths_eq (call : RecordedCall) :
    call.paths classes recordingDir = call.names.map (namedPath classes recordingDir) := by
  obtain ⟨callID, labels⟩ := call
  have streams : labels.map (streamPath classes recordingDir callID) =
      (labels.map fun label => callID ++ '_' :: label).map (namedPath classes recordingDir) := by
    rw [map_map]
    rfl
  simp only [paths, names, streamPaths]
  rw [map_append, ← streams]
  congr 1
  cases labels with
  | nil => rfl
  | cons first others =>
    cases others with
    | nil => rfl
    | cons second more =>
      change [combinedPath classes recordingDir
        (streamPath classes recordingDir callID first) callID] = _
      rw [combinedPath_eq, if_pos (by simp)]
      rfl

end

/-- The paths of all recordings of a set of calls are pairwise distinct if and only if
the names they are made of differ early. -/
theorem paths_nodup_iff_differEarly (classes : UnicodeClass) (recordingDir : Bytes)
    (calls : List RecordedCall) :
    (calls.flatMap (RecordedCall.paths classes recordingDir)).Nodup ↔
      (calls.flatMap RecordedCall.names).Pairwise (DifferEarly classes) := by
  have mapped : calls.flatMap (RecordedCall.paths classes recordingDir) =
      (calls.flatMap RecordedCall.names).map (namedPath classes recordingDir) := by
    rw [map_flatMap]
    exact congrArg (fun f => calls.flatMap f)
      (funext fun call => call.paths_eq classes recordingDir)
  rw [mapped, List.Nodup, pairwise_map]
  constructor
  · intro distinct
    exact distinct.imp fun different => (namedPath_ne_iff _ _ _ _).mp different
  · intro distinct
    exact distinct.imp fun different => (namedPath_ne_iff _ _ _ _).mpr different

def asciiClass : UnicodeClass := ⟨Char.isAlpha, Char.isDigit, fun _ _ => ⟨rfl, rfl⟩⟩

/-- The calls `ab` and `a.b` record their streams `1` into the same file, and the combined
recording of `ab` with streams `_` and `2` overwrites its own first leg. -/
theorem different_recordings_share_paths :
    streamPath asciiClass [] ['a', 'b'] ['1'] = streamPath asciiClass [] ['a', '.', 'b'] ['1'] ∧
      ¬ ((⟨['a', 'b'], [['_'], ['2']]⟩ : RecordedCall).paths asciiClass []).Nodup := by
  decide

end SiprecServer.Media
