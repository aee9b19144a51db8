import SiprecServer.Lib.BinaryHeap
import SiprecServer.Lib.SerialNumber
import SiprecServer.Lib.Transducer

/-!
# The jitter buffer

`jitter_buffer.go`: packets wait in a heap ordered by the serial comparison of
their sequence numbers.  A push onto a full buffer takes the oldest packet off
again; `Pop` hands out the oldest packet when it is the expected one or has
waited too long; `Flush` empties the buffer.  Times and durations are
nanoseconds, and each call of `Pop` carries the clock reading it makes.
-/

namespace SiprecServer.Media

open Lib Lib.SerialNumber

structure RtpPacket where
  payloadType : UInt8
  sequenceNumber : UInt16
  timestamp : UInt32
  ssrc : UInt32
  payload : List UInt8
  deriving DecidableEq, Repr

structure BufferedPacket where
  packet : RtpPacket
  arrival : Int
  pcmData : List UInt8
  deriving DecidableEq, Repr

namespace BufferedPacket

def sequence (buffered : BufferedPacket) : UInt16 := buffered.packet.sequenceNumber

def less (first second : BufferedPacket) : Bool :=
  serialLess first.sequence second.sequence

end BufferedPacket

structure JitterBufferConfig where
  maxSize : Int
  maxDelay : Int

structure JitterBuffer where
  packets : Array BufferedPacket
  maxSize : Nat
  maxSize_pos : 0 < maxSize
  maxDelay : Int
  lastEmitted : UInt16
  hasEmitted : Bool
  plcCallback : Bool

def defaultMaxDelay : Int := 60 * 1000000

def newJitterBuffer (config : JitterBufferConfig) : JitterBuffer where
  packets := #[]
  maxSize := if config.maxSize ≤ 0 then 5 else config.maxSize.toNat
  maxSize_pos := by split <;> omega
  maxDelay := if config.maxDelay ≤ 0 then defaultMaxDelay else config.maxDelay
  lastEmitted := 0
  hasEmitted := false
  plcCallback := false

namespace JitterBuffer

section

variable (buffer : JitterBuffer)

def setPLCCallback (present : Bool) : JitterBuffer :=
  { buffer with plcCallback := present }

def holds (number : UInt16) : Bool :=
  buffer.packets.toList.any fun entry => entry.sequence == number

def emitOldest : JitterBuffer × Option BufferedPacket :=
  match BinaryHeap.pop BufferedPacket.less buffer.packets with
  | none => (buffer, none)
  | some (oldest, rest) =>
    ({ buffer with
        packets := rest
        lastEmitted := oldest.sequence
        hasEmitted := true }, some oldest)

def insert (entry : BufferedPacket) : JitterBuffer :=
  { buffer with packets := BinaryHeap.push BufferedPacket.less buffer.packets entry }

def push (entry : BufferedPacket) : JitterBuffer :=
  if buffer.holds entry.sequence then buffer
  else
    let inserted := buffer.insert entry
    -- the packet that `emitOldest` returns is not handed to anybody here
    if inserted.maxSize < inserted.packets.size then inserted.emitOldest.1 else inserted

end

/-- What one call of `Pop` gives: a packet or nil, and the loss count reported
to the callback, if it is called. -/
structure Popped where
  packet : Option BufferedPacket
  lost : Option Nat

section

variable (buffer : JitterBuffer)

def concealed (expected oldest : UInt16) : Option Nat :=
  if expected < oldest then
    let lost := min (oldest - expected).toNat 10
    if buffer.plcCallback ∧ 0 < lost then some lost else none
  else none

def pop (now : Int) : JitterBuffer × Popped :=
  match buffer.packets[0]? with
  | none => (buffer, ⟨none, none⟩)
  | some oldest =>
    let emitted := buffer.emitOldest
    let expected := buffer.lastEmitted + 1
    if !buffer.hasEmitted then (emitted.1, ⟨emitted.2, none⟩)
    else if oldest.sequence = expected then (emitted.1, ⟨emitted.2, none⟩)
    else if buffer.maxDelay ≤ now - oldest.arrival then
      (emitted.1, ⟨emitted.2, buffer.concealed expected oldest.sequence⟩)
    else (buffer, ⟨none, none⟩)

def flushLoop : Nat → Array BufferedPacket → List BufferedPacket × Array BufferedPacket
  | 0, packets => ([], packets)
  | fuel + 1, packets =>
    match BinaryHeap.pop BufferedPacket.less packets with
    | none => ([], packets)
    | some (oldest, rest) =>
      let later := flushLoop fuel rest
      (oldest :: later.1, later.2)

def flush : JitterBuffer × List BufferedPacket :=
  let flushed := flushLoop buffer.packets.size buffer.packets
  ({ buffer with packets := flushed.2 }, flushed.1)

def clear : JitterBuffer :=
  { buffer with packets := #[], hasEmitted := false }

inductive Call where
  | push (entry : BufferedPacket)
  | pop (now : Int)
  | flush

def call : Call → JitterBuffer × List BufferedPacket
  | .push entry => (buffer.push entry, [])
  | .pop now => ((buffer.pop now).1, (buffer.pop now).2.packet.toList)
  | .flush => buffer.flush

def calls (inputs : List Call) : JitterBuffer × List BufferedPacket :=
  Transducer.run call buffer inputs

end

variable (buffer : JitterBuffer)

theorem holds_iff (number : UInt16) :
    buffer.holds number = true ↔ ∃ entry ∈ buffer.packets.toList, entry.sequence = number := by
  unfold holds
  simp only [List.any_eq_true, beq_iff_eq]

open BinaryHeap

theorem emitOldest_eq :
    (buffer.packets = #[] ∧ buffer.emitOldest = (buffer, none)) ∨
      ∃ oldest rest, BinaryHeap.pop BufferedPacket.less buffer.packets = some (oldest, rest) ∧
        buffer.emitOldest =
          ({ buffer with
              packets := rest
              lastEmitted := oldest.sequence
              hasEmitted := true }, some oldest) := by
  unfold emitOldest
  cases popped : BinaryHeap.pop BufferedPacket.less buffer.packets with
  | none => exact Or.inl ⟨(pop_eq_none_iff _ _).mp popped, rfl⟩
  | some pair => exact Or.inr ⟨pair.1, pair.2, rfl, rfl⟩

theorem emitOldest_perm :
    (buffer.emitOldest.2.toList ++ buffer.emitOldest.1.packets.toList).Perm
      buffer.packets.toList := by
  rcases buffer.emitOldest_eq with ⟨_, equal⟩ | ⟨oldest, rest, popped, equal⟩
  · rw [equal]
    exact List.Perm.refl _
  · rw [equal]
    exact (pop_eq_some popped).2.1

section

variable (entry : BufferedPacket) (fuel : Nat) (packets : Array BufferedPacket)

theorem insert_perm : (buffer.insert entry).packets.toList.Perm (entry :: buffer.packets.toList) :=
  push_perm _ _ _

@[simp]
theorem insert_size : (buffer.insert entry).packets.size = buffer.packets.size + 1 :=
  size_push _ _ _

theorem pop_eq (now : Int) :
    ((buffer.pop now).1 = buffer.emitOldest.1 ∧
        (buffer.pop now).2.packet = buffer.emitOldest.2) ∨
      ((buffer.pop now).1 = buffer ∧ (buffer.pop now).2.packet = none) := by
  unfold pop
  split
  · exact Or.inr ⟨rfl, rfl⟩
  · dsimp only
    split
    · exact Or.inl ⟨rfl, rfl⟩
    · split
      · exact Or.inl ⟨rfl, rfl⟩
      · split
        · exact Or.inl ⟨rfl, rfl⟩
        · exact Or.inr ⟨rfl, rfl⟩

theorem flushLoop_perm :
    ((flushLoop fuel packets).1 ++ (flushLoop fuel packets).2.toList).Perm packets.toList := by
  induction fuel generalizing packets with
  | zero => exact List.Perm.refl _
  | succ fuel ih =>
    unfold flushLoop
    cases popped : BinaryHeap.pop BufferedPacket.less packets with
    | none => exact List.Perm.refl _
    | some pair =>
      obtain ⟨oldest, rest⟩ := pair
      exact ((ih rest).cons oldest).trans (pop_eq_some popped).2.1

theorem flushLoop_rest (enough : packets.size ≤ fuel) : (flushLoop fuel packets).2 = #[] := by
  induction fuel generalizing packets with
  | zero => exact Array.eq_empty_of_size_eq_zero (Nat.le_zero.mp enough)
  | succ fuel ih =>
    unfold flushLoop
    cases popped : BinaryHeap.pop BufferedPacket.less packets with
    | none => exact (pop_eq_none_iff _ _).mp popped
    | some pair =>
      obtain ⟨oldest, rest⟩ := pair
      have sizes := (pop_eq_some popped).2.2
      exact ih rest (by omega)

end

theorem flush_packets : buffer.flush.1.packets = #[] :=
  flushLoop_rest _ _ (Nat.le_refl _)

theorem flush_perm : buffer.flush.2.Perm buffer.packets.toList := by
  have moved := flushLoop_perm buffer.packets.size buffer.packets
  rw [flushLoop_rest _ _ (Nat.le_refl _), List.append_nil] at moved
  exact moved

end JitterBuffer

end SiprecServer.Media
