import Mathlib.Data.List.Basic
import Mathlib.Data.List.TakeWhile

/-!
# Slash-separated paths

Paths are byte strings.  `clean` is the lexical normalisation that drops empty
and `.` segments and resolves `..`; `join` puts a name under a directory and
cleans.  A name that is one proper segment survives, so joining it to a fixed
directory is appending it to a fixed text.
-/

namespace SiprecServer.Lib.UnixPath

open List

abbrev Bytes := List UInt8

def slash : UInt8 := 47

def dot : UInt8 := 46

def asciiBytes (text : List Char) : Bytes := text.map fun c => c.toNat.toUInt8

def segments : Bytes → List Bytes
  | [] => [[]]
  | byte :: rest =>
    if byte = slash then [] :: segments rest
    else
      match segments rest with
      | [] => [[byte]]
      | first :: others => (byte :: first) :: others

def pushSegment (rooted : Bool) (stack : List Bytes) (segment : Bytes) : List Bytes :=
  if segment = [] ∨ segment = [dot] then stack
  else if segment = [dot, dot] then
    match stack.getLast? with
    | some top => if top = [dot, dot] then stack ++ [segment] else stack.dropLast
    | none => if rooted then stack else stack ++ [segment]
  else stack ++ [segment]

def joinSegments : List Bytes → Bytes
  | [] => []
  | [segment] => segment
  | segment :: others => segment ++ slash :: joinSegments others

variable (path : Bytes)

def isRooted : Bool := path.head? = some slash

def cleanSegments : List Bytes :=
  (segments path).foldl (pushSegment (isRooted path)) []

def clean : Bytes :=
  if isRooted path then slash :: joinSegments (cleanSegments path)
  else if cleanSegments path = [] then [dot]
  else joinSegments (cleanSegments path)

def join (directory name : Bytes) : Bytes :=
  if directory = [] then clean name else clean (directory ++ slash :: name)

def directoryOf : Bytes :=
  clean (path.reverse.dropWhile (· != slash)).reverse

def baseName : Bytes :=
  if path = [] then [dot]
  else
    let last := ((path.reverse.dropWhile (· == slash)).takeWhile (· != slash)).reverse
    if last = [] then [slash] else last

structure Segment (name : Bytes) : Prop where
  nonempty : name ≠ []
  slashless : slash ∉ name
  notDot : name ≠ [dot]
  notDotDot : name ≠ [dot, dot]

theorem segments_slashless {path : Bytes} (slashless : slash ∉ path) : segments path = [path] := by
  induction path with
  | nil => rfl
  | cons byte rest ih =>
    have different : byte ≠ slash := fun same => slashless (same ▸ mem_cons_self)
    have inner := ih fun mem => slashless (mem_cons_of_mem _ mem)
    rw [segments, if_neg different, inner]

theorem segments_ne_nil : segments path ≠ [] := by
  cases path with
  | nil => exact cons_ne_nil _ _
  | cons byte rest =>
    unfold segments
    split
    · exact cons_ne_nil _ _
    · split
      · exact cons_ne_nil _ _
      · exact cons_ne_nil _ _

theorem segments_append_slash (first second : Bytes) :
    segments (first ++ slash :: second) = segments first ++ segments second := by
  induction first with
  | nil => rfl
  | cons byte rest ih =>
    rw [cons_append, segments, segments, ih]
    split
    · rfl
    · cases inner : segments rest with
      | nil => exact absurd inner (segments_ne_nil rest)
      | cons segment others => rfl

variable {name : Bytes}

theorem pushSegment_name (proper : Segment name) (rooted : Bool) (stack : List Bytes) :
    pushSegment rooted stack name = stack ++ [name] := by
  unfold pushSegment
  rw [if_neg (fun either => either.elim proper.nonempty proper.notDot), if_neg proper.notDotDot]

def leading (stack : List Bytes) : Bytes := stack.flatMap fun segment => segment ++ [slash]

theorem joinSegments_append (stack : List Bytes) (name : Bytes) :
    joinSegments (stack ++ [name]) = leading stack ++ name := by
  induction stack with
  | nil => rfl
  | cons segment others ih =>
    cases others with
    | nil =>
      change segment ++ slash :: name = (segment ++ [slash] ++ []) ++ name
      rw [append_nil, append_assoc]
      rfl
    | cons second more =>
      change segment ++ slash :: joinSegments (second :: more ++ [name]) = _
      rw [ih]
      change _ = (segment ++ [slash] ++ leading (second :: more)) ++ name
      rw [append_assoc, append_assoc]
      rfl

/-- What stands before the name in a joined path. -/
def joinLead (directory : Bytes) : Bytes :=
  if directory = [] then []
  else if isRooted directory then slash :: leading (cleanSegments directory)
  else leading (cleanSegments directory)

theorem clean_name (proper : Segment name) : clean name = name := by
  have relative : isRooted name = false := by
    unfold isRooted
    rw [decide_eq_false_iff_not]
    intro first
    exact proper.slashless (mem_of_head? first)
  have kept : cleanSegments name = [name] := by
    unfold cleanSegments
    rw [segments_slashless proper.slashless]
    exact pushSegment_name proper _ []
  unfold clean
  rw [relative, kept, if_neg Bool.false_ne_true, if_neg (cons_ne_nil _ _)]
  rfl

theorem join_eq (proper : Segment name) (directory : Bytes) :
    join directory name = joinLead directory ++ name := by
  unfold join joinLead
  by_cases empty : directory = []
  · rw [if_pos empty, if_pos empty, clean_name proper]
    rfl
  · obtain ⟨first, rest, shape⟩ := exists_cons_of_ne_nil empty
    have rooted : isRooted (directory ++ slash :: name) = isRooted directory := by
      rw [shape]
      rfl
    have kept : cleanSegments (directory ++ slash :: name) = cleanSegments directory ++ [name] := by
      unfold cleanSegments
      rw [segments_append_slash, foldl_append, segments_slashless proper.slashless, rooted]
      exact pushSegment_name proper _ _
    rw [if_neg empty, if_neg empty]
    unfold clean
    rw [rooted, kept, joinSegments_append]
    split
    · rfl
    · rw [if_neg (fun none => cons_ne_nil _ _ (append_eq_nil_iff.mp none).2)]

theorem directoryOf_name (slashless : slash ∉ name) : directoryOf name = [dot] := by
  have all : name.reverse.dropWhile (· != slash) = [] := by
    rw [dropWhile_eq_nil_iff]
    intro byte mem
    rw [bne_iff_ne]
    intro same
    exact slashless (same ▸ mem_reverse.mp mem)
  unfold directoryOf
  rw [all]
  rfl

end SiprecServer.Lib.UnixPath
