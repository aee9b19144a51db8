import SiprecServer.Media.JitterBuffer

/-!
# Runs of the jitter buffer

What a whole sequence of calls hands out.  Nothing is returned that was not
taken in, and the only packets that are lost are those a push takes off a full
buffer.  Inside one window of sequence numbers the packets come out in order as
long as no packet enters a buffer with room after its turn has passed.
-/

namespace SiprecServer.Media

open Lib Lib.SerialNumber Transducer BufferedPacket List

namespace JitterBuffer

variable (buffer : JitterBuffer)

theorem calls_concat_state (before : List Call) (input : Call) :
    (buffer.calls (before ++ [input])).1 = ((buffer.calls before).1.call input).1 :=
  run_append_state buffer before [input]

theorem calls_concat_output (before : List Call) (input : Call) :
    (buffer.calls (before ++ [input])).2 =
      (buffer.calls before).2 ++ ((buffer.calls before).1.call input).2 := by
  unfold calls
  rw [run_append_output, run_cons_output, run_nil, append_nil]

section

variable (buffer : JitterBuffer)

def accepted : Call → List BufferedPacket
  | .push entry => if buffer.holds entry.sequence then [] else [entry]
  | .pop _ => []
  | .flush => []

def discarded : Call → List BufferedPacket
  | .push entry =>
    if buffer.holds entry.sequence then []
    else if buffer.maxSize < (buffer.insert entry).packets.size then
      (buffer.insert entry).emitOldest.2.toList
    else []
  | .pop _ => []
  | .flush => []

def acceptedPushes (inputs : List Call) : List BufferedPacket :=
  collect call accepted buffer inputs

def HasRoom : Call → Prop
  | .push entry => buffer.holds entry.sequence = false → buffer.packets.size < buffer.maxSize
  | .pop _ => True
  | .flush => True

end

theorem push_conserves (entry : BufferedPacket) :
    (buffer.discarded (.push entry) ++ (buffer.push entry).packets.toList).Perm
      (buffer.packets.toList ++ buffer.accepted (.push entry)) := by
  simp only [discarded, push, accepted]
  cases known : buffer.holds entry.sequence with
  | true =>
    simp only [if_true, nil_append, append_nil]
    exact List.Perm.refl _
  | false =>
    have entered : (buffer.insert entry).packets.toList.Perm
        (buffer.packets.toList ++ [entry]) :=
      (buffer.insert_perm entry).trans (perm_append_singleton entry _).symm
    simp only [Bool.false_eq_true, if_false]
    split
    · rename_i overfull
      rw [if_pos (show (buffer.insert entry).maxSize < _ from overfull)]
      exact (buffer.insert entry).emitOldest_perm.trans entered
    · rename_i room
      rw [if_neg (show ¬ (buffer.insert entry).maxSize < _ from room)]
      exact entered

theorem call_conserves (input : Call) :
    ((buffer.call input).2 ++ buffer.discarded input ++
        (buffer.call input).1.packets.toList).Perm
      (buffer.packets.toList ++ buffer.accepted input) := by
  cases input with
  | push entry => exact buffer.push_conserves entry
  | pop now =>
    simp only [call, discarded, accepted, append_nil]
    rcases buffer.pop_eq now with ⟨state, packet⟩ | ⟨state, packet⟩
    · rw [state, packet]
      exact buffer.emitOldest_perm
    · rw [state, packet]
      exact List.Perm.refl _
  | flush =>
    simp only [call, discarded, accepted, append_nil, buffer.flush_packets]
    exact buffer.flush_perm

theorem calls_conserve (inputs : List Call) :
    ((buffer.calls inputs).2 ++ collect call discarded buffer inputs ++
        (buffer.calls inputs).1.packets.toList).Perm
      (buffer.packets.toList ++ buffer.acceptedPushes inputs) := by
  have keyed := run_conserves_keys id (fun state => state.packets.toList)
    (by simpa using call_conserves) buffer inputs
  simpa [calls, acceptedPushes] using keyed

theorem emitOldest_isSome (nonempty : 0 < buffer.packets.size) :
    buffer.emitOldest.2.isSome = true := by
  rcases buffer.emitOldest_eq with ⟨empty, _⟩ | ⟨oldest, rest, _, equal⟩
  · rw [empty] at nonempty
    exact absurd nonempty (Nat.lt_irrefl 0)
  · rw [equal]
    rfl

theorem discarded_eq_nil_iff (input : Call) :
    buffer.discarded input = [] ↔ buffer.HasRoom input := by
  cases input with
  | pop now => exact ⟨fun _ => True.intro, fun _ => rfl⟩
  | flush => exact ⟨fun _ => True.intro, fun _ => rfl⟩
  | push entry =>
    simp only [discarded, HasRoom]
    cases known : buffer.holds entry.sequence with
    | true => simp
    | false =>
      simp only [Bool.false_eq_true, if_false, insert_size, forall_const]
      split
      · rename_i overfull
        obtain ⟨oldest, emitted⟩ := Option.isSome_iff_exists.mp
          ((buffer.insert entry).emitOldest_isSome (by rw [insert_size]; omega))
        rw [emitted]
        constructor
        · intro impossible
          cases impossible
        · intro room
          omega
      · rename_i room
        exact ⟨fun _ => by omega, fun _ => rfl⟩

/-- A run that ends with a flush returns each packet it took in exactly once if
and only if every push of a new sequence number found room. -/
theorem flushed_perm_acceptedPushes_iff (config : JitterBufferConfig) (plc : Bool)
    (inputs : List Call) :
    ((((newJitterBuffer config).setPLCCallback plc).calls (inputs ++ [.flush])).2.Perm
        (((newJitterBuffer config).setPLCCallback plc).acceptedPushes inputs)) ↔
      Along call HasRoom ((newJitterBuffer config).setPLCCallback plc) inputs := by
  generalize start : (newJitterBuffer config).setPLCCallback plc = buffer
  have empty : buffer.packets.toList = [] := by
    rw [← start]
    rfl
  have account := buffer.calls_conserve inputs
  rw [empty, nil_append] at account
  have emptied := (buffer.calls inputs).1.flush_perm
  rw [calls_concat_output, call, ← along_congr discarded_eq_nil_iff,
    ← collect_eq_nil_iff]
  constructor
  · intro returned
    have lengths := account.length_eq
    have returnedLength := returned.length_eq
    have emptiedLength := emptied.length_eq
    simp only [length_append] at lengths returnedLength
    exact eq_nil_of_length_eq_zero (by omega)
  · intro nothing
    rw [nothing, append_nil] at account
    exact (emptied.append_left _).trans account

def blankEntry (number : UInt16) : BufferedPacket := ⟨⟨0, number, 0, 1, []⟩, 0, []⟩

/-- With room for one packet, the second push throws the first packet away. -/
theorem one_place_buffer_loses_packet :
    ((newJitterBuffer ⟨1, 0⟩).setPLCCallback false).acceptedPushes
        [.push (blankEntry 0), .push (blankEntry 1)] = [blankEntry 0, blankEntry 1] ∧
      (((newJitterBuffer ⟨1, 0⟩).setPLCCallback false).calls
        ([.push (blankEntry 0), .push (blankEntry 1)] ++ [.flush])).2 = [blankEntry 1] := by
  decide

/-! ## Order -/

def InOrder (packets : List BufferedPacket) : Prop :=
  packets.Pairwise fun first second => first.less second = true

instance (packets : List BufferedPacket) : Decidable (InOrder packets) :=
  inferInstanceAs (Decidable (packets.Pairwise _))

/-- Every push of the run is a duplicate, meets a full buffer, or is ahead of
everything handed out before it. -/
def OnTime (buffer : JitterBuffer) (inputs : List Call) : Prop :=
  ∀ before entry after, inputs = before ++ .push entry :: after →
    (buffer.calls before).1.holds entry.sequence = true ∨
      (buffer.calls before).1.maxSize ≤ (buffer.calls before).1.packets.size ∨
        ∀ given ∈ (buffer.calls before).2, given.less entry = true

def rank (base : UInt16) (entry : BufferedPacket) : Nat := ahead base entry.sequence

theorem less_iff_rank {base : UInt16} {first second : BufferedPacket}
    (firstIn : InWindow base first.sequence) (secondIn : InWindow base second.sequence) :
    first.less second = true ↔ rank base first < rank base second :=
  serialLess_iff_of_window firstIn secondIn

structure WindowHeap (base : UInt16) (packets : Array BufferedPacket) : Prop where
  inside : ∀ entry ∈ packets.toList, InWindow base entry.sequence
  ordered : BinaryHeap.Ordered (rank base) packets
  distinct : (packets.toList.map sequence).Nodup

open BinaryHeap

namespace WindowHeap

theorem empty (base : UInt16) : WindowHeap base #[] where
  inside := fun _ mem => absurd mem not_mem_nil
  ordered := fun _ _ impossible => absurd impossible (Nat.not_lt_zero _)
  distinct := nodup_nil

theorem agrees {base : UInt16} {packets : Array BufferedPacket}
    (inside : ∀ entry ∈ packets.toList, InWindow base entry.sequence) :
    Agrees less (rank base) packets :=
  fun _ _ first second => less_iff_rank (inside _ first) (inside _ second)

theorem push {base : UInt16} {packets : Array BufferedPacket} {entry : BufferedPacket}
    (heap : WindowHeap base packets) (entryIn : InWindow base entry.sequence)
    (fresh : ∀ other ∈ packets.toList, other.sequence ≠ entry.sequence) :
    WindowHeap base (BinaryHeap.push less packets entry) := by
  have moved := push_perm less packets entry
  have both : ∀ other ∈ entry :: packets.toList, InWindow base other.sequence := by
    intro other mem
    rcases mem_cons.mp mem with rfl | old
    · exact entryIn
    · exact heap.inside other old
  constructor
  · exact fun other mem => both other (moved.mem_iff.mp mem)
  · apply push_ordered (agrees ?_) heap.ordered
    intro other mem
    rw [Array.toList_push] at mem
    exact both other ((perm_append_singleton entry _).mem_iff.mp mem)
  · rw [(moved.map _).nodup_iff, map_cons, nodup_cons]
    refine ⟨?_, heap.distinct⟩
    intro known
    obtain ⟨other, mem, same⟩ := mem_map.mp known
    exact fresh other mem same

section Pop

variable {base : UInt16} {packets rest : Array BufferedPacket} {oldest : BufferedPacket}

variable (heap : WindowHeap base packets)
  (popped : BinaryHeap.pop less packets = some (oldest, rest))

include heap popped

theorem pop : WindowHeap base rest := by
  have moved := (pop_eq_some popped).2.1
  constructor
  · exact fun other mem => heap.inside other (moved.mem_iff.mp (mem_cons_of_mem _ mem))
  · exact pop_ordered (agrees heap.inside) heap.ordered popped
  · have distinct := (moved.map sequence).nodup_iff.mpr heap.distinct
    exact (nodup_cons.mp distinct).2

theorem pop_lt : ∀ entry ∈ rest.toList, rank base oldest < rank base entry := by
  intro entry mem
  have moved := (pop_eq_some popped).2.1
  have least := pop_least heap.ordered popped entry
    (moved.mem_iff.mp (mem_cons_of_mem _ mem))
  apply Nat.lt_of_le_of_ne least
  intro same
  have distinct := (moved.map sequence).nodup_iff.mpr heap.distinct
  rw [map_cons, nodup_cons] at distinct
  have equal : oldest.sequence = entry.sequence := ahead_injective base same
  exact distinct.1 (equal ▸ mem_map_of_mem mem)

end Pop

end WindowHeap

theorem fresh_of_holds {buffer : JitterBuffer} {number : UInt16}
    (known : buffer.holds number = false) : ∀ other ∈ buffer.packets.toList,
      other.sequence ≠ number := by
  intro other mem same
  rw [(buffer.holds_iff number).mpr ⟨other, mem, same⟩] at known
  cases known

structure Delivered (base : UInt16) (packets : Array BufferedPacket)
    (given : List BufferedPacket) : Prop where
  heap : WindowHeap base packets
  inside : ∀ entry ∈ given, InWindow base entry.sequence
  increasing : given.Pairwise fun first second => rank base first < rank base second
  before : ∀ entry ∈ given, ∀ waiting ∈ packets.toList, rank base entry < rank base waiting

open JitterBuffer

namespace Delivered

variable {base : UInt16} {packets rest : Array BufferedPacket}
  {given : List BufferedPacket} {entry oldest : BufferedPacket}

section

variable (delivered : Delivered base packets given)

include delivered

theorem inOrder : InOrder given :=
  delivered.increasing.imp_of_mem fun first second lower =>
    (less_iff_rank (delivered.inside _ first) (delivered.inside _ second)).mpr lower

theorem emit (popped : BinaryHeap.pop less packets = some (oldest, rest)) :
    Delivered base rest (given ++ [oldest]) := by
  have moved := (pop_eq_some popped).2.1
  have oldestIn : oldest ∈ packets.toList := moved.mem_iff.mp mem_cons_self
  constructor
  · exact delivered.heap.pop popped
  · intro other mem
    rcases mem_append.mp mem with earlier | last
    · exact delivered.inside other earlier
    · exact mem_singleton.mp last ▸ delivered.heap.inside oldest oldestIn
  · refine pairwise_append.mpr ⟨delivered.increasing, pairwise_singleton _ _, ?_⟩
    intro earlier mem last isLast
    exact mem_singleton.mp isLast ▸ delivered.before earlier mem oldest oldestIn
  · intro other mem waiting stays
    rcases mem_append.mp mem with earlier | last
    · exact delivered.before other earlier waiting
        (moved.mem_iff.mp (mem_cons_of_mem _ stays))
    · exact mem_singleton.mp last ▸ delivered.heap.pop_lt popped waiting stays

variable (entryIn : InWindow base entry.sequence)
  (fresh : ∀ other ∈ packets.toList, other.sequence ≠ entry.sequence)

include entryIn fresh

theorem insert (later : ∀ earlier ∈ given, earlier.less entry = true) :
    Delivered base (BinaryHeap.push less packets entry) given := by
  refine ⟨delivered.heap.push entryIn fresh, delivered.inside, delivered.increasing, ?_⟩
  intro earlier mem waiting stays
  have moved := push_perm less packets entry
  rcases mem_cons.mp (moved.mem_iff.mp stays) with rfl | old
  · exact (less_iff_rank (delivered.inside _ mem) entryIn).mp (later earlier mem)
  · exact delivered.before earlier mem waiting old

/-- A new packet on a full buffer: if it stays, then a packet before it goes, and
that one was already ahead of everything handed out. -/
theorem displace
    (popped : BinaryHeap.pop less (BinaryHeap.push less packets entry) = some (oldest, rest)) :
    Delivered base rest given := by
  have pushed := delivered.heap.push entryIn fresh
  have moved := (pop_eq_some popped).2.1.trans
    (push_perm less packets entry)
  refine ⟨pushed.pop popped, delivered.inside, delivered.increasing, ?_⟩
  intro earlier mem waiting stays
  rcases mem_cons.mp (moved.mem_iff.mp (mem_cons_of_mem _ stays)) with rfl | old
  · have lower := pushed.pop_lt popped waiting stays
    rcases mem_cons.mp (moved.mem_iff.mp mem_cons_self) with same | oldestOld
    · exact absurd (same ▸ lower) (Nat.lt_irrefl _)
    · exact Nat.lt_trans (delivered.before earlier mem oldest oldestOld) lower
  · exact delivered.before earlier mem waiting old

end

theorem flushLoop (fuel : Nat) (delivered : Delivered base packets given) :
    Delivered base (flushLoop fuel packets).2
      (given ++ (flushLoop fuel packets).1) := by
  induction fuel generalizing packets given with
  | zero =>
    rw [flushLoop, append_nil]
    exact delivered
  | succ fuel ih =>
    unfold flushLoop
    cases popped : BinaryHeap.pop less packets with
    | none =>
      rw [append_nil]
      exact delivered
    | some pair =>
      have later := ih (delivered.emit popped)
      rw [append_assoc] at later
      exact later

variable {buffer : JitterBuffer} (delivered : Delivered base buffer.packets given)

include delivered

theorem emitOldest :
    Delivered base buffer.emitOldest.1.packets (given ++ buffer.emitOldest.2.toList) := by
  rcases buffer.emitOldest_eq with ⟨_, equal⟩ | ⟨oldest, rest, popped, equal⟩
  · rw [equal, Option.toList_none, append_nil]
    exact delivered
  · rw [equal, Option.toList_some]
    exact delivered.emit popped

theorem push (entryIn : InWindow base entry.sequence)
    (onTime : buffer.holds entry.sequence = true ∨ buffer.maxSize ≤ buffer.packets.size ∨
      ∀ earlier ∈ given, earlier.less entry = true) :
    Delivered base (buffer.push entry).packets given := by
  unfold JitterBuffer.push
  cases known : buffer.holds entry.sequence with
  | true => exact delivered
  | false =>
    have fresh := fresh_of_holds known
    simp only [Bool.false_eq_true, if_false]
    split
    · rcases (buffer.insert entry).emitOldest_eq with ⟨none, _⟩ | ⟨oldest, rest, popped, equal⟩
      · have sized := buffer.insert_size entry
        rw [none] at sized
        exact absurd sized (Nat.succ_ne_zero _).symm
      · rw [equal]
        exact delivered.displace entryIn fresh popped
    · rename_i room
      rw [insert_size] at room
      rcases onTime with duplicate | full | later
      · rw [known] at duplicate
        cases duplicate
      · exact absurd (Nat.lt_succ_of_le full) room
      · exact delivered.insert entryIn fresh later

end Delivered

variable {buffer : JitterBuffer}

theorem OnTime.of_append {before after : List Call} (onTime : buffer.OnTime (before ++ after)) :
    buffer.OnTime before := by
  intro earlier entry later split
  apply onTime earlier entry (later ++ after)
  rw [split, append_assoc, cons_append]

theorem calls_delivered {base : UInt16} (empty : buffer.packets = #[]) (inputs : List Call)
    (window : ∀ entry, .push entry ∈ inputs → InWindow base entry.sequence)
    (onTime : buffer.OnTime inputs) :
    Delivered base (buffer.calls inputs).1.packets (buffer.calls inputs).2 := by
  induction inputs using List.reverseRecOn with
  | nil =>
    change Delivered base buffer.packets []
    rw [empty]
    exact ⟨WindowHeap.empty base, by simp, List.Pairwise.nil, by simp⟩
  | append_singleton before input ih =>
    have delivered := ih
      (fun entry mem => window entry (mem_append_left _ mem)) onTime.of_append
    rw [calls_concat_state, calls_concat_output]
    cases input with
    | push entry =>
      rw [call, append_nil]
      exact delivered.push
        (window entry (mem_append_right _ (mem_singleton_self _)))
        (onTime before entry [] rfl)
    | pop now =>
      rw [call]
      rcases (buffer.calls before).1.pop_eq now with ⟨state, packet⟩ | ⟨state, packet⟩
      · rw [state, packet]
        exact delivered.emitOldest
      · rw [state, packet, Option.toList_none, append_nil]
        exact delivered
    | flush => exact delivered.flushLoop _

theorem less_of_flush_inOrder {before : List Call} {entry : BufferedPacket}
    (fresh : (buffer.calls before).1.holds entry.sequence = false)
    (room : (buffer.calls before).1.packets.size < (buffer.calls before).1.maxSize)
    (ordered : InOrder (buffer.calls (before ++ [.push entry] ++ [.flush])).2) :
    ∀ given ∈ (buffer.calls before).2, given.less entry = true := by
  rw [calls_concat_output, calls_concat_output, calls_concat_state] at ordered
  have pushed : (buffer.calls before).1.push entry = (buffer.calls before).1.insert entry := by
    unfold push
    rw [fresh]
    simp only [Bool.false_eq_true, if_false]
    rw [if_neg]
    rw [insert_size]
    exact Nat.not_lt.mpr room
  rw [call, call, append_nil, pushed] at ordered
  have flushed : entry ∈ ((buffer.calls before).1.insert entry).flush.2 := by
    rw [(flush_perm _).mem_iff, (insert_perm _ _).mem_iff]
    exact mem_cons_self
  intro given mem
  exact (pairwise_append.mp ordered).2.2 given mem entry flushed

/-- With all pushed sequence numbers in one window, everything handed out is in
strictly increasing serial order, at every moment of the run and also if the
buffer is flushed there, if and only if every push is on time. -/
theorem inOrder_iff_onTime (config : JitterBufferConfig) (plc : Bool) (base : UInt16)
    (inputs : List Call) (window : ∀ entry, .push entry ∈ inputs → InWindow base entry.sequence) :
    (∀ before after, inputs = before ++ after →
        InOrder (((newJitterBuffer config).setPLCCallback plc).calls before).2 ∧
          InOrder (((newJitterBuffer config).setPLCCallback plc).calls (before ++ [.flush])).2) ↔
      ((newJitterBuffer config).setPLCCallback plc).OnTime inputs := by
  generalize start : (newJitterBuffer config).setPLCCallback plc = buffer
  have empty : buffer.packets = #[] := by
    rw [← start]
    rfl
  constructor
  · intro ordered before entry after split
    cases known : (buffer.calls before).1.holds entry.sequence with
    | true => exact Or.inl rfl
    | false =>
      rcases Nat.lt_or_ge (buffer.calls before).1.packets.size
        (buffer.calls before).1.maxSize with room | full
      · have flushed := (ordered (before ++ [.push entry]) after (by simpa using split)).2
        exact Or.inr (Or.inr (less_of_flush_inOrder known room flushed))
      · exact Or.inr (Or.inl full)
  · rintro onTime before after rfl
    have delivered := calls_delivered empty before
      (fun entry member => window entry (mem_append_left _ member)) onTime.of_append
    refine ⟨delivered.inOrder, ?_⟩
    rw [calls_concat_output]
    exact (delivered.flushLoop _).inOrder

/-- Packet 4 arrives after packet 5 was handed out, and follows it. -/
theorem late_packet_out_of_order :
    (∀ entry, Call.push entry ∈ [.push (blankEntry 5), .pop 0, .push (blankEntry 4), .flush] →
        InWindow 0 entry.sequence) ∧
      (((newJitterBuffer ⟨5, 0⟩).setPLCCallback false).calls
        [.push (blankEntry 5), .pop 0, .push (blankEntry 4), .flush]).2 =
          [blankEntry 5, blankEntry 4] ∧
      ¬ InOrder [blankEntry 5, blankEntry 4] := by
  refine ⟨?_, by decide, by decide⟩
  intro entry member
  simp only [mem_cons, Call.push.injEq, reduceCtorEq, not_mem_nil, or_false,
    false_or] at member
  rcases member with rfl | rfl
  · decide
  · decide

theorem wrapping_run_in_order :
    (∀ entry, Call.push entry ∈ [.push (blankEntry 65535), .pop 0, .push (blankEntry 0)] →
        InWindow 65535 entry.sequence) ∧
      InOrder (((newJitterBuffer ⟨5, 0⟩).setPLCCallback false).calls
        ([.push (blankEntry 65535), .pop 0, .push (blankEntry 0)] ++ [.flush])).2 := by
  have window : ∀ entry,
      Call.push entry ∈ [.push (blankEntry 65535), .pop 0, .push (blankEntry 0)] →
        InWindow 65535 entry.sequence := by
    intro entry member
    simp only [mem_cons, Call.push.injEq, reduceCtorEq, not_mem_nil, or_false,
      false_or] at member
    rcases member with rfl | rfl
    · decide
    · decide
  refine ⟨window, ((inOrder_iff_onTime ⟨5, 0⟩ false 65535 _ window).mpr ?_ _ [] rfl).2⟩
  intro before entry after split
  rcases before with _ | ⟨first, _ | ⟨second, _ | ⟨third, rest⟩⟩⟩
  · cases split
    decide
  · cases split
  · cases split
    decide
  · simp at split

end JitterBuffer

end SiprecServer.Media
