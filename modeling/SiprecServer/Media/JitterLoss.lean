import SiprecServer.Media.JitterBuffer

/-!
# What the jitter buffer reports as lost

When `Pop` stops waiting it compares the emitted number with the expected one as numbers of
sixteen bits, while the heap compares them serially.  The two comparisons differ exactly when the
numbers lie on different sides of a wraparound.
-/

namespace SiprecServer.Media

open Lib Lib.SerialNumber

namespace JitterBuffer

inductive Operation where
  | setPLCCallback (present : Bool)
  | call (input : Call)
  | clear

def operate (buffer : JitterBuffer) : Operation → JitterBuffer × List BufferedPacket
  | .setPLCCallback present => (buffer.setPLCCallback present, [])
  | .call input => buffer.call input
  | .clear => (buffer.clear, [])

def reached (config : JitterBufferConfig) (operations : List Operation) : JitterBuffer :=
  (Transducer.run operate (newJitterBuffer config) operations).1

/-! ## Giving up -/

def expectedSeq (buffer : JitterBuffer) : UInt16 := buffer.lastEmitted + 1

structure GivesUp (buffer : JitterBuffer) (now : Int) (emitted : BufferedPacket) : Prop where
  oldest : buffer.packets[0]? = some emitted
  hasEmitted : buffer.hasEmitted = true
  unexpected : emitted.sequence ≠ buffer.expectedSeq
  waited : buffer.maxDelay ≤ now - emitted.arrival

/-- The number lies fewer than `2 ^ 15` steps ahead of the expected one, modulo `2 ^ 16`.  Numbers
at a distance of `2 ^ 15` are neither ahead of each other nor behind. -/
def SeriallyAhead (number expected : UInt16) : Prop :=
  0 < ahead expected number ∧ ahead expected number < 2 ^ 15

def SeriallyBehind (number expected : UInt16) : Prop := SeriallyAhead expected number

structure ReportsLoss (buffer : JitterBuffer) (now : Int) : Prop where
  ahead : ∀ emitted, buffer.GivesUp now emitted → buffer.plcCallback = true →
    SeriallyAhead emitted.sequence buffer.expectedSeq →
      (buffer.pop now).2.lost = some (min 10 (ahead buffer.expectedSeq emitted.sequence))
  behind : ∀ emitted, buffer.GivesUp now emitted →
    SeriallyBehind emitted.sequence buffer.expectedSeq → (buffer.pop now).2.lost = none

structure Unwrapped (expected number : UInt16) : Prop where
  ahead : SeriallyAhead number expected → expected < number
  behind : SeriallyBehind number expected → number < expected

variable {number expected : UInt16}

theorem seriallyAhead_iff :
    SeriallyAhead number expected ↔
      serialLess expected number = true ∧ serialLess number expected = false := by
  have expectedLt := expected.toNat_lt
  have numberLt := number.toNat_lt
  unfold SeriallyAhead
  rw [Bool.eq_false_iff, Ne, serialLess_iff, serialLess_iff, ahead_eq, ahead_eq]
  omega

section Pops

variable {buffer : JitterBuffer} {now : Int} {emitted : BufferedPacket}

section

variable (givesUp : buffer.GivesUp now emitted)

include givesUp

theorem GivesUp.pop_eq :
    buffer.pop now = (buffer.emitOldest.1,
      ⟨buffer.emitOldest.2, buffer.concealed buffer.expectedSeq emitted.sequence⟩) := by
  have unexpected : ¬ emitted.sequence = buffer.lastEmitted + 1 := givesUp.unexpected
  unfold pop
  rw [givesUp.oldest]
  dsimp only
  rw [givesUp.hasEmitted, if_neg (by decide), if_neg unexpected, if_pos givesUp.waited]
  rfl

theorem GivesUp.packet : (buffer.pop now).2.packet = some emitted := by
  rw [givesUp.pop_eq]
  have oldest := givesUp.oldest
  rcases buffer.emitOldest_eq with ⟨empty, -⟩ | ⟨first, rest, popped, result⟩
  · rw [empty] at oldest
    cases oldest
  · rw [(BinaryHeap.pop_eq_some popped).1] at oldest
    rw [result]
    exact oldest

theorem GivesUp.lost :
    (buffer.pop now).2.lost = buffer.concealed buffer.expectedSeq emitted.sequence := by
  rw [givesUp.pop_eq]

end

theorem concealed_of_lt (present : buffer.plcCallback = true) (less : expected < number) :
    buffer.concealed expected number = some (min 10 (ahead expected number)) := by
  have positive : 0 < ahead expected number := by
    refine Nat.pos_of_ne_zero fun zero => ?_
    rw [(ahead_eq_zero_iff expected number).mp zero] at less
    exact UInt16.lt_irrefl _ less
  unfold concealed
  rw [if_pos less, if_pos ⟨present, by unfold ahead at positive; omega⟩, Nat.min_comm]
  rfl

theorem concealed_of_not_lt (notLess : ¬ expected < number) :
    buffer.concealed expected number = none := if_neg notLess

/-- In every reachable state and at every time, the callback is told the truth exactly if no
wraparound lies between the expected number and the emitted one. -/
theorem reports_loss_iff (config : JitterBufferConfig) (operations : List Operation) (now : Int) :
    (reached config operations).ReportsLoss now ↔
      ∀ emitted, (reached config operations).GivesUp now emitted →
        (reached config operations).plcCallback = true →
          Unwrapped (reached config operations).expectedSeq emitted.sequence := by
  generalize reached config operations = buffer
  constructor
  · intro reports emitted givesUp present
    constructor
    · intro isAhead
      have told := reports.ahead emitted givesUp present isAhead
      rw [givesUp.lost] at told
      by_contra notLess
      rw [concealed_of_not_lt notLess] at told
      cases told
    · intro isBehind
      have told := reports.behind emitted givesUp isBehind
      rw [givesUp.lost] at told
      by_contra notLess
      have less : buffer.expectedSeq < emitted.sequence :=
        UInt16.lt_of_le_of_ne (UInt16.not_lt.mp notLess) (Ne.symm givesUp.unexpected)
      rw [concealed_of_lt present less] at told
      cases told
  · intro unwrapped
    constructor
    · intro emitted givesUp present isAhead
      rw [givesUp.lost]
      exact concealed_of_lt present ((unwrapped emitted givesUp present).ahead isAhead)
    · intro emitted givesUp isBehind
      rw [givesUp.lost]
      cases present : buffer.plcCallback with
      | false =>
        unfold concealed
        split
        · exact if_neg (by simp [present])
        · rfl
      | true =>
        have less := (unwrapped emitted givesUp present).behind isBehind
        exact concealed_of_not_lt (UInt16.lt_asymm less)

end Pops

/-- After number 65534 the buffer waits for 65535, gives up and emits number 1; nothing is
reported. -/
theorem loss_across_wrap_unreported :
    ¬ (reached ⟨5, 1⟩
      [.setPLCCallback true, .call (.push ⟨⟨0, 65534, 0, 1, []⟩, 0, []⟩), .call (.pop 0),
        .call (.push ⟨⟨0, 1, 0, 1, []⟩, 0, []⟩)]).ReportsLoss 1 := by
  intro reports
  have told := reports.ahead ⟨⟨0, 1, 0, 1, []⟩, 0, []⟩ ⟨by decide, by decide, by decide, by decide⟩
    (by decide) (by unfold SeriallyAhead; decide)
  exact absurd told (by decide)

end JitterBuffer

end SiprecServer.Media
