import SiprecServer.Media.JitterBufferRuns
import SiprecServer.Media.JitterLoss

/-!
# The heap inside the jitter buffer

The serial comparison is not transitive, so a heap under it means something only while all that is
buffered lies in one window.  The window need not be the same for the whole run.
-/

namespace SiprecServer.Media.JitterBuffer

open Lib Lib.SerialNumber Transducer BufferedPacket List

def Windowed (packets : Array BufferedPacket) : Prop :=
  ∃ base, ∀ entry ∈ packets.toList, InWindow base entry.sequence

/-- A push has the new packet and all the old ones in the array before it takes one off; no other
operation adds a packet. -/
def StaysWindowed (buffer : JitterBuffer) : Operation → Prop
  | .call (.push entry) =>
    buffer.holds entry.sequence = false → Windowed (buffer.insert entry).packets
  | .call (.pop _) => True
  | .call .flush => True
  | .setPLCCallback _ => True
  | .clear => True

structure SerialHeap (buffer : JitterBuffer) : Prop where
  ordered : ∀ (index : Nat) (above below : BufferedPacket), 0 < index →
    buffer.packets[BinaryHeap.parent index]? = some above →
      buffer.packets[index]? = some below → below.less above = false
  root : ∀ oldest, buffer.packets[0]? = some oldest →
    ∀ entry ∈ buffer.packets.toList, entry = oldest ∨ oldest.less entry = true
  distinct : (buffer.packets.toList.map sequence).Nodup
  bounded : buffer.packets.size ≤ buffer.maxSize

variable {base other : UInt16} {packets : Array BufferedPacket} {buffer : JitterBuffer}

namespace WindowHeap

/-- The order of a heap does not depend on the window that it is seen in. -/
theorem rebase (heap : WindowHeap base packets)
    (inside : ∀ entry ∈ packets.toList, InWindow other entry.sequence) :
    WindowHeap other packets := by
  refine ⟨inside, ?_, heap.distinct⟩
  intro index positive bound
  have above : BinaryHeap.parent index < packets.size :=
    Nat.lt_trans (BinaryHeap.parent_lt positive) bound
  have lower := heap.ordered index positive bound
  rw [← Nat.not_lt, ← (agrees heap.inside).key_iff bound above] at lower
  rw [← Nat.not_lt, ← (agrees inside).key_iff bound above]
  exact lower

theorem emitOldest (heap : WindowHeap base buffer.packets) :
    WindowHeap base buffer.emitOldest.1.packets := by
  rcases buffer.emitOldest_eq with ⟨_, equal⟩ | ⟨oldest, rest, popped, equal⟩
  · rw [equal]
    exact heap
  · rw [equal]
    exact heap.pop popped

theorem serialHeap (heap : WindowHeap base buffer.packets)
    (bounded : buffer.packets.size ≤ buffer.maxSize) : SerialHeap buffer := by
  refine ⟨?_, ?_, heap.distinct, bounded⟩
  · intro index above below positive isAbove isBelow
    obtain ⟨aboveLt, rfl⟩ := Array.getElem?_eq_some_iff.mp isAbove
    obtain ⟨belowLt, rfl⟩ := Array.getElem?_eq_some_iff.mp isBelow
    rw [← Bool.not_eq_true, (agrees heap.inside).key_iff belowLt aboveLt]
    exact Nat.not_lt.mpr (heap.ordered index positive belowLt)
  · intro oldest isOldest entry mem
    rcases buffer.emitOldest_eq with ⟨empty, _⟩ | ⟨first, rest, popped, _⟩
    · rw [empty] at mem
      exact absurd mem not_mem_nil
    · obtain ⟨isFirst, moved, _⟩ := BinaryHeap.pop_eq_some popped
      cases isOldest.symm.trans isFirst
      rcases mem_cons.mp (moved.mem_iff.mpr mem) with same | stays
      · exact Or.inl same
      · have firstIn := heap.inside oldest (moved.mem_iff.mp mem_cons_self)
        exact Or.inr ((less_iff_rank firstIn (heap.inside entry mem)).mpr
          (heap.pop_lt popped entry stays))

end WindowHeap

def Kept (buffer : JitterBuffer) : Prop :=
  (∃ base, WindowHeap base buffer.packets) ∧ buffer.packets.size ≤ buffer.maxSize

theorem emitOldest_size : buffer.emitOldest.1.packets.size = buffer.packets.size - 1 ∧
    buffer.emitOldest.1.maxSize = buffer.maxSize := by
  rcases buffer.emitOldest_eq with ⟨empty, equal⟩ | ⟨oldest, rest, popped, equal⟩
  · rw [equal, empty]
    exact ⟨rfl, rfl⟩
  · rw [equal, ← (BinaryHeap.pop_eq_some popped).2.2]
    exact ⟨rfl, rfl⟩

theorem Kept.emitOldest (kept : Kept buffer) : Kept buffer.emitOldest.1 := by
  obtain ⟨⟨base, heap⟩, bounded⟩ := kept
  refine ⟨⟨base, heap.emitOldest⟩, ?_⟩
  rw [emitOldest_size.1, emitOldest_size.2]
  omega

theorem Kept.of_empty (empty : buffer.packets = #[]) : Kept buffer :=
  ⟨⟨0, empty ▸ WindowHeap.empty 0⟩, by simp [empty]⟩

theorem Kept.push {entry : BufferedPacket} (kept : Kept buffer)
    (windowed : buffer.holds entry.sequence = false → Windowed (buffer.insert entry).packets) :
    Kept (buffer.push entry) := by
  unfold JitterBuffer.push
  cases known : buffer.holds entry.sequence with
  | true => exact kept
  | false =>
    obtain ⟨⟨_, heap⟩, bounded⟩ := kept
    obtain ⟨base, inside⟩ := windowed known
    have moved := buffer.insert_perm entry
    have old : ∀ other ∈ buffer.packets.toList, InWindow base other.sequence :=
      fun other mem => inside other (moved.mem_iff.mpr (mem_cons_of_mem _ mem))
    have inserted : WindowHeap base (buffer.insert entry).packets :=
      (heap.rebase old).push (inside entry (moved.mem_iff.mpr mem_cons_self))
        (fresh_of_holds known)
    simp only [Bool.false_eq_true, if_false]
    split
    · refine ⟨⟨base, inserted.emitOldest⟩, ?_⟩
      rw [emitOldest_size.1, emitOldest_size.2, insert_size]
      exact bounded
    · rename_i room
      exact ⟨⟨base, inserted⟩, Nat.not_lt.mp room⟩

theorem Kept.operate (operation : Operation) (kept : Kept buffer)
    (stays : buffer.StaysWindowed operation) : Kept (buffer.operate operation).1 := by
  cases operation with
  | setPLCCallback present => exact kept
  | clear => exact Kept.of_empty rfl
  | call input =>
    cases input with
    | push entry => exact kept.push stays
    | flush => exact Kept.of_empty buffer.flush_packets
    | pop now =>
      change Kept (buffer.pop now).1
      rcases buffer.pop_eq now with ⟨emitted, _⟩ | ⟨same, _⟩
      · rw [emitted]
        exact kept.emitOldest
      · rw [same]
        exact kept

/-- While all that is in the array at a time lies in some window, the array is a heap of distinct
numbers with the serially smallest at its root, and no push leaves it too large. -/
theorem serialHeap_of_windowed (config : JitterBufferConfig) (operations : List Operation)
    (windowed : Along operate StaysWindowed (newJitterBuffer config) operations) :
    SerialHeap (reached config operations) := by
  have kept : Kept (reached config operations) :=
    windowed.invariant Kept (fun _ operation kept => kept.operate operation) (Kept.of_empty rfl)
  obtain ⟨⟨base, heap⟩, bounded⟩ := kept
  exact heap.serialHeap bounded

/-- Three packets around a wraparound in a buffer for two. -/
theorem serialHeap_across_wrap : SerialHeap (reached ⟨2, 0⟩ [.call (.push (blankEntry 0)),
    .call (.push (blankEntry 65535)), .call (.push (blankEntry 1))]) :=
  serialHeap_of_windowed _ _ ⟨fun _ => ⟨65535, by decide⟩, fun _ => ⟨65535, by decide⟩,
    fun _ => ⟨65535, by decide⟩, True.intro⟩

end SiprecServer.Media.JitterBuffer
