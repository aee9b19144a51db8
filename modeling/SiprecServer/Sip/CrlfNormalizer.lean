import Mathlib.Data.List.Infix
import SiprecServer.Lib.Expansion

/-!
# Line ends of SIP over TCP

`crlfConn.Read` normalises what one read of the connection brought, on its own: everything
up to the first blank line of the read is taken for headers, and a line feed at its start
for a bare one.  What a read does not take of the result waits for the next ones.
-/

namespace SiprecServer.Sip.CrlfNormalizer

open Lib.Expansion List

abbrev Bytes := List UInt8

def CR : UInt8 := 13

def LF : UInt8 := 10

/-- Where the body begins, right after the first blank line. -/
def findHeaderBodySplit : Bytes → Option Nat
  | [] => none
  | b :: rest =>
    if b = LF ∧ rest.head? = some LF then some 2
    else if b = LF ∧ rest.take 2 = [CR, LF] then some 3
    else (findHeaderBodySplit rest).map (· + 1)

def hasBareNewline (previous : Option UInt8) : Bytes → Bool
  | [] => false
  | b :: rest => (b = LF && previous ≠ some CR) || hasBareNewline (some b) rest

/-- The loop that writes a carriage return before every bare line feed. -/
def replaceBare (previous : Option UInt8) : Bytes → Bytes
  | [] => []
  | b :: rest =>
    if b = LF ∧ previous ≠ some CR then CR :: b :: replaceBare (some b) rest
    else b :: replaceBare (some b) rest

def normalizeCRLFBytes (data : Bytes) : Bytes :=
  if LF ∉ data then data
  else if hasBareNewline none data = false then data
  else replaceBare none data

def normalizeCRLF (data : Bytes) : Bytes :=
  match findHeaderBodySplit data with
  | none => normalizeCRLFBytes data
  | some split =>
    if data.length ≤ split then normalizeCRLFBytes data
    else
      let normalized := normalizeCRLFBytes (data.take split)
      if normalized.length = split then data else normalized ++ data.drop split

structure Call where
  size : Nat
  available : Nat

structure Conn where
  -- what has not been read from the connection
  unread : Bytes
  pending : Bytes
  -- what each read of the connection brought, and all that was returned
  reads : List Bytes
  returned : Bytes

def Conn.open (stream : Bytes) : Conn := ⟨stream, [], [], []⟩

def Conn.read (conn : Conn) (call : Call) : Conn :=
  if conn.pending ≠ [] then
    { conn with
      pending := conn.pending.drop call.size
      returned := conn.returned ++ conn.pending.take call.size }
  else
    let arrived := conn.unread.take (min call.size call.available)
    let normalized := normalizeCRLF arrived
    if arrived = [] then conn
    else if normalized.length = arrived.length then
      { conn with
        unread := conn.unread.drop arrived.length
        reads := conn.reads ++ [arrived]
        returned := conn.returned ++ arrived }
    else
      { unread := conn.unread.drop arrived.length
        pending := normalized.drop call.size
        reads := conn.reads ++ [arrived]
        returned := conn.returned ++ normalized.take call.size }

def Conn.run (stream : Bytes) (calls : List Call) : Conn := calls.foldl Conn.read (.open stream)

variable {data : Bytes} {split : Nat}

section

variable (found : findHeaderBodySplit data = some split)

include found

theorem findHeaderBodySplit_cases :
    (∃ rest, data = LF :: LF :: rest ∧ split = 2) ∨
    (∃ rest, data = LF :: CR :: LF :: rest ∧ split = 3) ∨
    (∃ b rest inner, data = b :: rest ∧ findHeaderBodySplit rest = some inner ∧
      split = inner + 1 ∧ ¬(b = LF ∧ rest.head? = some LF) ∧
      ¬(b = LF ∧ rest.take 2 = [CR, LF])) := by
  cases data with
  | nil => cases found
  | cons b rest =>
    unfold findHeaderBodySplit at found
    split at found
    next twice =>
      obtain _ | ⟨c, rest⟩ := rest
      · simp at twice
      · obtain ⟨rfl, next⟩ := twice
        cases found
        exact .inl ⟨rest, by rw [Option.some.inj next], rfl⟩
    next once =>
      split at found
      next blank =>
        obtain ⟨rfl, next⟩ := blank
        obtain _ | ⟨c, _ | ⟨d, rest⟩⟩ := rest
        · simp at next
        · simp at next
        · cases found
          simp only [take_succ_cons, take_zero, List.cons.injEq, and_true] at next
          exact .inr (.inl ⟨rest, by rw [next.1, next.2], rfl⟩)
      next unbroken =>
        obtain ⟨inner, there, rfl⟩ := Option.map_eq_some_iff.mp found
        exact .inr (.inr ⟨b, rest, inner, rfl, there, rfl, once, unbroken⟩)

theorem findHeaderBodySplit_bounds : 2 ≤ split ∧ split ≤ data.length := by
  induction data generalizing split with
  | nil => cases found
  | cons b rest ih =>
    obtain ⟨later, same, rfl⟩ | ⟨later, same, rfl⟩ | ⟨b', rest', inner, same, there, rfl, -⟩ :=
      findHeaderBodySplit_cases found
    · simp [same]
    · simp [same]
    · obtain ⟨-, rfl⟩ := List.cons.inj same
      have := ih there
      simp
      omega

/-- A blank line is found as soon as it is complete, and whatever follows. -/
theorem findHeaderBodySplit_append (more : Bytes) :
    findHeaderBodySplit (data.take split ++ more) = some split := by
  induction data generalizing split with
  | nil => cases found
  | cons b rest ih =>
    obtain ⟨later, same, rfl⟩ | ⟨later, same, rfl⟩ |
        ⟨b', rest', inner, same, there, rfl, once, unbroken⟩ := findHeaderBodySplit_cases found
    · rw [same]
      rfl
    · rw [same]
      rfl
    · obtain ⟨rfl, rfl⟩ := List.cons.inj same
      have bounds := findHeaderBodySplit_bounds there
      have ahead : (rest.take inner ++ more).take 2 = rest.take 2 := by
        rw [take_append_of_le_length (by rw [length_take]; omega), take_take,
          Nat.min_eq_left bounds.1]
      have next : (rest.take inner ++ more).head? = rest.head? := by
        have heads := congrArg List.head? ahead
        simpa [head?_take] using heads
      rw [take_succ_cons, cons_append, findHeaderBodySplit, next, ahead, if_neg once,
        if_neg unbroken, ih there]
      rfl

theorem findHeaderBodySplit_grows (more : Bytes) :
    findHeaderBodySplit (data ++ more) = some split := by
  have again := findHeaderBodySplit_append found (data.drop split ++ more)
  rwa [← append_assoc, take_append_drop] at again

end

variable {front back : Bytes}

/-- A line feed is in the header part of a buffer if no blank line ends before it. -/
theorem findHeaderBodySplit_front (found : findHeaderBodySplit (front ++ back) = some split) :
    findHeaderBodySplit front = none ↔ front.length < split := by
  constructor
  · intro none
    by_contra complete
    have early := findHeaderBodySplit_append found ((front.drop split))
    rw [take_append_of_le_length (Nat.le_of_not_lt complete), take_append_drop, none]
      at early
    cases early
  · intro short
    by_contra present
    obtain ⟨early, earlier⟩ := Option.ne_none_iff_exists'.mp present
    have bounds := findHeaderBodySplit_bounds earlier
    have := Option.some.inj (found.symm.trans (findHeaderBodySplit_grows earlier back))
    omega

theorem findHeaderBodySplit_front_none (absent : findHeaderBodySplit (front ++ back) = none) :
    findHeaderBodySplit front = none := by
  by_contra present
  obtain ⟨early, earlier⟩ := Option.ne_none_iff_exists'.mp present
  cases absent.symm.trans (findHeaderBodySplit_grows earlier back)

/-! ## What is expanded in one buffer -/

/-- The verdict of the source on a line feed, by what precedes it in the buffer. -/
def expandsAfter (front : Bytes) : Bool :=
  (findHeaderBodySplit front).isNone && front.getLast? ≠ some CR

def bareAfter (front : Bytes) : Bool := front.getLast? ≠ some CR

theorem replaceBare_eq (front data : Bytes) :
    replaceBare front.getLast? data = expand LF CR bareAfter front data := by
  induction data generalizing front with
  | nil => rfl
  | cons b rest ih =>
    have next := ih (front ++ [b])
    rw [getLast?_concat] at next
    simp [replaceBare, expand, bareAfter, next]

theorem hasBareNewline_false {previous : Option UInt8}
    (clean : hasBareNewline previous data = false) : replaceBare previous data = data := by
  induction data generalizing previous with
  | nil => rfl
  | cons b rest ih =>
    obtain ⟨here, later⟩ := Bool.or_eq_false_iff.mp clean
    have kept : ¬(b = LF ∧ previous ≠ some CR) := by simpa using here
    rw [replaceBare, if_neg kept, ih later]

theorem hasBareNewline_of_not_mem {previous : Option UInt8} (absent : LF ∉ data) :
    hasBareNewline previous data = false := by
  induction data generalizing previous with
  | nil => rfl
  | cons b rest ih =>
    obtain ⟨here, later⟩ := not_or.mp (mt mem_cons.mpr absent)
    simp [hasBareNewline, ih later, Ne.symm here]

theorem normalizeCRLFBytes_eq (data : Bytes) :
    normalizeCRLFBytes data = expand LF CR bareAfter [] data := by
  have loop : replaceBare none data = expand LF CR bareAfter [] data := replaceBare_eq [] data
  unfold normalizeCRLFBytes
  split
  next absent => rw [← loop, hasBareNewline_false (hasBareNewline_of_not_mem absent)]
  next =>
    split
    next clean => rw [← loop, hasBareNewline_false clean]
    next => exact loop

theorem LF_ne_CR : CR ≠ LF := by decide

/-- Up to the end of the headers only the byte before a line feed counts. -/
theorem expand_headers
    (headers : ∀ front back, data = front ++ LF :: back → findHeaderBodySplit front = none) :
    normalizeCRLFBytes data = expand LF CR expandsAfter [] data := by
  rw [normalizeCRLFBytes_eq]
  refine (expand_inj LF_ne_CR [] [] data).mpr fun front back split => ?_
  simp [expandsAfter, bareAfter, headers front back split]

theorem normalizeCRLF_eq (data : Bytes) :
    normalizeCRLF data = expand LF CR expandsAfter [] data := by
  unfold normalizeCRLF
  cases found : findHeaderBodySplit data with
  | none =>
    exact expand_headers fun front back split => findHeaderBodySplit_front_none (split ▸ found)
  | some split =>
    have bounds := findHeaderBodySplit_bounds found
    -- the part up to `split` is expanded like headers, the rest stays
    have whole : expand LF CR expandsAfter [] data =
        normalizeCRLFBytes (data.take split) ++ data.drop split := by
      have body : ∀ front, expandsAfter (data.take split ++ front) = false := fun front => by
        simp [expandsAfter, findHeaderBodySplit_append found front]
      have headers : ∀ front back, data.take split = front ++ LF :: back →
          findHeaderBodySplit front = none := by
        intro front back same
        have longer := congrArg List.length same
        rw [length_take, length_append, length_cons] at longer
        have inside :
            findHeaderBodySplit (front ++ (LF :: back ++ data.drop split)) = some split := by
          rw [← append_assoc, ← same, take_append_drop, found]
        exact (findHeaderBodySplit_front inside).mpr (by omega)
      rw [← take_append_drop split data, expand_append, take_append_drop,
        expand_headers headers, nil_append, expand_of_none body]
    rw [whole]
    by_cases all : data.length ≤ split
    · simp only [if_pos all, take_of_length_le all, drop_eq_nil_of_le all, append_nil]
    · simp only [if_neg all]
      split
      next short =>
        have kept : normalizeCRLFBytes (data.take split) = data.take split := by
          rw [normalizeCRLFBytes_eq] at short ⊢
          exact expand_of_length (by rw [short, length_take, Nat.min_eq_left bounds.2])
        rw [kept, take_append_drop]
      next => rfl

structure Conn.Delivers (conn : Conn) (stream : Bytes) : Prop where
  bytes : conn.returned ++ conn.pending = conn.reads.flatMap normalizeCRLF
  stream : conn.reads.flatten ++ conn.unread = stream

theorem normalizeCRLF_of_length (same : (normalizeCRLF data).length = data.length) :
    normalizeCRLF data = data := by
  rw [normalizeCRLF_eq] at same ⊢
  exact expand_of_length same

open Conn

theorem Conn.read_delivers {conn : Conn} {stream : Bytes} (delivers : conn.Delivers stream)
    (call : Call) : (conn.read call).Delivers stream := by
  obtain ⟨bytes, all⟩ := delivers
  unfold read
  split
  next waiting =>
    refine ⟨?_, all⟩
    simpa only [append_assoc, take_append_drop] using bytes
  next waiting =>
    have empty : conn.pending = [] := not_not.mp waiting
    rw [empty, append_nil] at bytes
    obtain ⟨later, taken⟩ := take_prefix (min call.size call.available) conn.unread
    generalize conn.unread.take (min call.size call.available) = arrived at taken
    have rest : conn.unread.drop arrived.length = later := by rw [← taken, drop_left]
    have moved : (conn.reads ++ [arrived]).flatten ++ later = stream := by
      rw [flatten_append, flatten_singleton, append_assoc, taken, all]
    have logged : (conn.reads ++ [arrived]).flatMap normalizeCRLF =
        conn.returned ++ normalizeCRLF arrived := by
      rw [flatMap_append, flatMap_singleton, bytes]
    simp only [rest]
    split
    next => exact ⟨by rw [empty, append_nil, bytes], all⟩
    next =>
      split
      next short =>
        refine ⟨?_, moved⟩
        rw [logged, normalizeCRLF_of_length short, empty, append_nil]
      next =>
        refine ⟨?_, moved⟩
        rw [logged, append_assoc, take_append_drop]

theorem Conn.run_delivers (stream : Bytes) (calls : List Call) :
    (Conn.run stream calls).Delivers stream := by
  have started : (Conn.open stream).Delivers stream := ⟨rfl, rfl⟩
  unfold run
  generalize Conn.open stream = conn at started
  induction calls generalizing conn with
  | nil => exact started
  | cons call rest ih => exact ih _ (read_delivers started call)

/-- Everything has been read and returned. -/
def Conn.Finished (conn : Conn) : Prop := conn.unread = [] ∧ conn.pending = []

theorem Conn.returned_eq {stream : Bytes} {calls : List Call}
    (finished : (run stream calls).Finished) :
    (run stream calls).returned =
        (run stream calls).reads.flatMap (expand LF CR expandsAfter []) ∧
      (run stream calls).reads.flatten = stream := by
  obtain ⟨bytes, all⟩ := run_delivers stream calls
  have normalise : normalizeCRLF = expand LF CR expandsAfter [] := funext normalizeCRLF_eq
  rw [finished.2, append_nil, normalise] at bytes
  rw [finished.1, append_nil] at all
  exact ⟨bytes, all⟩

/-- Where a stream of messages stands: in the headers, or in a body that ends after this byte
and some further ones. -/
inductive Frame where
  | header (seen : Bytes)
  | body (further : Nat)

section Frames

variable (contentLength : Bytes → Nat)

def Frame.afterHeaders : Nat → Frame
  | 0 => .header []
  | length + 1 => .body length

def endsHeaders (seen : Bytes) : Bool :=
  decide ([LF, LF] <:+ seen) || decide ([LF, CR, LF] <:+ seen)

def Frame.step : Frame → UInt8 → Frame
  | .header seen, b =>
    if endsHeaders (seen ++ [b]) then .afterHeaders (contentLength (seen ++ [b]))
    else .header (seen ++ [b])
  | .body further, _ => .afterHeaders further

def Frame.after (stream : Bytes) : Frame := stream.foldl (Frame.step contentLength) (.header [])

def bareHeader (stream : Bytes) : Bool :=
  match Frame.after contentLength stream with
  | .header seen => bareAfter seen
  | .body _ => false

def completed (stream : Bytes) : Bytes := expand LF CR (bareHeader contentLength) [] stream

/-- A connection returns the completed stream if every line feed of every read is expanded by what
precedes it in the read exactly if it is to be by what precedes it in the stream. -/
theorem returned_completed_iff (stream : Bytes) (calls : List Call)
    (finished : (Conn.run stream calls).Finished) :
    (Conn.run stream calls).returned = completed contentLength stream ↔
      ∀ before read after, (Conn.run stream calls).reads = before ++ read :: after →
        ∀ front back, read = front ++ LF :: back →
          expandsAfter front = bareHeader contentLength (before.flatten ++ front) := by
  obtain ⟨returned, all⟩ := returned_eq finished
  rw [returned]
  conv_lhs => rhs; rw [← all]
  exact expand_pieces_iff LF_ne_CR [] _

def splitLine : Bytes := [97, CR, LF]

/-- The line feed that comes alone is expanded, the one that comes with its line is not. -/
theorem split_line_expanded :
    (Conn.run splitLine [⟨8, 2⟩, ⟨8, 1⟩]).Finished ∧
    (Conn.run splitLine [⟨8, 2⟩, ⟨8, 1⟩]).returned = [97, CR, CR, LF] ∧
    (Conn.run splitLine [⟨8, 3⟩]).returned = [97, CR, LF] ∧
    completed (fun _ => 0) splitLine = [97, CR, LF] := by
  refine ⟨⟨by decide, by decide⟩, by decide, by decide, by decide⟩

theorem whole_line_in_one_read :
    (Conn.run splitLine [⟨8, 3⟩]).Finished ∧
      ∀ before read after, (Conn.run splitLine [⟨8, 3⟩]).reads = before ++ read :: after →
        ∀ front back, read = front ++ LF :: back →
          expandsAfter front = bareHeader (fun _ => 0) (before.flatten ++ front) :=
  ⟨⟨by decide, by decide⟩,
    (returned_completed_iff (fun _ => 0) splitLine [⟨8, 3⟩] ⟨by decide, by decide⟩).mp (by decide)⟩

open CrlfNormalizer.Frame

theorem Frame.after_append (first second : Bytes) :
    after contentLength (first ++ second) =
      second.foldl (step contentLength) (after contentLength first) :=
  foldl_append

theorem findHeaderBodySplit_of_endsHeaders {seen : Bytes} (ends : endsHeaders seen = true) :
    findHeaderBodySplit seen ≠ none := by
  simp only [endsHeaders, Bool.or_eq_true, decide_eq_true_eq] at ends
  obtain ⟨front, rfl⟩ | ⟨front, rfl⟩ := ends
  all_goals
    induction front with
    | nil => decide
    | cons b rest ih =>
      rw [cons_append, findHeaderBodySplit]
      split
      · exact Option.some_ne_none _
      · split
        · exact Option.some_ne_none _
        · exact fun absent => ih (Option.map_eq_none_iff.mp absent)

variable {data : Bytes}

theorem endsHeaders_take {split : Nat} (found : findHeaderBodySplit data = some split) :
    endsHeaders (data.take split) = true := by
  simp only [endsHeaders, Bool.or_eq_true, decide_eq_true_eq]
  induction data generalizing split with
  | nil => cases found
  | cons b rest ih =>
    obtain ⟨later, same, rfl⟩ | ⟨later, same, rfl⟩ | ⟨b', rest', inner, same, there, rfl, -⟩ :=
      findHeaderBodySplit_cases found
    · rw [same]
      exact .inl (suffix_refl _)
    · rw [same]
      exact .inr (suffix_refl _)
    · obtain ⟨rfl, rfl⟩ := List.cons.inj same
      exact (ih there).imp (·.trans (suffix_cons b _)) (·.trans (suffix_cons b _))

theorem Frame.after_headers (headers : findHeaderBodySplit front = none) :
    after contentLength front = .header front := by
  induction front using List.reverseRecOn with
  | nil => rfl
  | append_singleton front b ih =>
    have goesOn : endsHeaders (front ++ [b]) = false :=
      Bool.eq_false_iff.mpr fun ends => findHeaderBodySplit_of_endsHeaders ends headers
    rw [after_append, ih (findHeaderBodySplit_front_none headers)]
    simp [step, goesOn]

theorem Frame.after_split {split : Nat} (found : findHeaderBodySplit data = some split) :
    after contentLength (data.take split) =
      .afterHeaders (contentLength (data.take split)) := by
  have bounds := findHeaderBodySplit_bounds found
  have ends := endsHeaders_take found
  have length : (data.take split).length = split := by rw [length_take]; omega
  obtain empty | ⟨front, last, same⟩ := eq_nil_or_concat (data.take split)
  · rw [empty, length_nil] at length
    omega
  · rw [concat_eq_append] at same
    have whole : front ++ ([last] ++ data.drop split) = data := by
      rw [← append_assoc, ← same, take_append_drop]
    have headers : findHeaderBodySplit front = none := by
      rw [← whole] at found
      rw [same, length_append, length_singleton] at length
      exact (findHeaderBodySplit_front found).mpr (by omega)
    rw [same] at ends ⊢
    rw [after_append, after_headers contentLength headers]
    simp [step, ends]

theorem Frame.afterHeaders_body (length : Nat) {part : Bytes} (inside : part.length ≤ length) :
    part.foldl (step contentLength) (.afterHeaders length) =
      .afterHeaders (length - part.length) := by
  induction part generalizing length with
  | nil => rfl
  | cons b rest ih =>
    obtain _ | length := length
    · simp at inside
    · have shorter := ih length (Nat.le_of_succ_le_succ inside)
      simpa [step, afterHeaders] using shorter

def Message (data : Bytes) : Prop :=
  ∃ split, findHeaderBodySplit data = some split ∧
    data.length = split + contentLength (data.take split)

theorem Frame.after_message (message : Message contentLength data) :
    after contentLength data = .header [] := by
  obtain ⟨split, found, whole⟩ := message
  rw [← take_append_drop split data, after_append, after_split contentLength found,
    afterHeaders_body contentLength _ (by rw [length_drop]; omega), length_drop,
    show contentLength (data.take split) - (data.length - split) = 0 by omega]
  rfl

theorem Frame.after_messages {reads : List Bytes}
    (messages : ∀ read ∈ reads, Message contentLength read) :
    after contentLength reads.flatten = .header [] := by
  induction reads with
  | nil => rfl
  | cons read rest ih =>
    rw [flatten_cons, after_append,
      after_message contentLength (messages read (.head _))]
    exact ih fun later mem => messages later (.tail _ mem)

/-- In a read that is a message, what precedes a line feed in the read decides. -/
theorem expandsAfter_message (message : Message contentLength data)
    (split : data = front ++ LF :: back) : expandsAfter front = bareHeader contentLength front := by
  obtain ⟨length, found, whole⟩ := message
  unfold bareHeader
  cases headers : findHeaderBodySplit front with
  | none =>
    rw [after_headers contentLength headers]
    simp [expandsAfter, bareAfter, headers]
  | some early =>
    -- the blank line of the front is the one of the whole read, and the body goes on
    have same : early = length := by
      have again := findHeaderBodySplit_grows headers (LF :: back)
      rw [← split, found] at again
      exact (Option.some.inj again).symm
    subst same
    have bounds := findHeaderBodySplit_bounds headers
    have header : data.take early = front.take early := by
      rw [split, take_append_of_le_length bounds.2]
    rw [header] at whole
    have total := congrArg List.length split
    rw [length_append, length_cons] at total
    obtain ⟨left, remains⟩ : ∃ left,
        contentLength (front.take early) - (front.drop early).length = left + 1 :=
      Nat.exists_eq_add_one.mpr (by rw [length_drop]; omega)
    have body : after contentLength front = .body left := by
      conv_lhs => rw [← take_append_drop early front]
      rw [after_append, after_split contentLength headers,
        afterHeaders_body contentLength _ (by omega), remains]
      rfl
    simp [expandsAfter, headers, body]

theorem returned_of_messages (stream : Bytes) (calls : List Call)
    (finished : (run stream calls).Finished)
    (messages : ∀ read ∈ (run stream calls).reads, Message contentLength read) :
    (run stream calls).returned = completed contentLength stream := by
  obtain ⟨returned, all⟩ := returned_eq finished
  rw [returned]
  conv_rhs => rw [← all]
  refine (expand_pieces_iff LF_ne_CR [] _).mpr fun before read after reads front back split => ?_
  rw [reads] at messages
  have started : Frame.after contentLength before.flatten = .header [] :=
    after_messages contentLength fun earlier mem =>
      messages earlier (mem_append_left _ mem)
  have same : Frame.after contentLength (before.flatten ++ front) =
      Frame.after contentLength front := by
    rw [after_append, started]
    rfl
  have read : Message contentLength read :=
    messages read (mem_append_right _ (.head _))
  rw [expandsAfter_message contentLength read split]
  simp only [bareHeader, nil_append, same]

end Frames

/-- Two messages, each with a line feed in its body; the length is the headers' fourth byte. -/
def twoMessages : Bytes :=
  "l: 3\n\na\nbl: 2\r\n\r\n\nc".toList.map (·.toNat.toUInt8)

theorem two_messages_completed :
    (Conn.run twoMessages [⟨10, 9⟩, ⟨10, 9⟩, ⟨20, 10⟩]).returned =
      completed (fun headers => (headers.getD 3 48).toNat - 48) twoMessages := by
  refine returned_of_messages _ _ _ ⟨by decide, by decide⟩ fun read mem => ?_
  have reads : (Conn.run twoMessages [⟨10, 9⟩, ⟨10, 9⟩, ⟨20, 10⟩]).reads =
      [twoMessages.take 9, twoMessages.drop 9] := by decide
  obtain rfl | rfl := mem_pair.mp (reads ▸ mem)
  · exact ⟨6, by decide, by decide⟩
  · exact ⟨8, by decide, by decide⟩

end SiprecServer.Sip.CrlfNormalizer
