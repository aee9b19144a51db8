import Mathlib.Logic.Function.Basic

/-!
# Buffered channels

A channel as the number of values it holds and whether it was closed.  A send that does not
wait finds room, finds none or panics because the channel is closed; a close panics on a channel
that is closed already.
-/

namespace SiprecServer.Lib.Channel

structure Chan where
  queued : Nat := 0
  closed : Bool := false
deriving DecidableEq

inductive Sending where
  | sent (chan : Chan)
  | full
  | panics

def trySend (capacity : Nat) (chan : Chan) : Sending :=
  if chan.closed then .panics
  else if chan.queued < capacity then .sent { chan with queued := chan.queued + 1 }
  else .full

def receive (chan : Chan) : Chan := { chan with queued := chan.queued - 1 }

def close (chan : Chan) : Chan := { chan with closed := true }

theorem trySend_cases (capacity : Nat) (chan : Chan) :
    (chan.closed = true ∧ trySend capacity chan = .panics) ∨
      (chan.closed = false ∧ (trySend capacity chan = .full ∨
        trySend capacity chan = .sent { chan with queued := chan.queued + 1 })) := by
  unfold trySend
  cases closed : chan.closed with
  | true => exact .inl ⟨rfl, rfl⟩
  | false =>
    refine .inr ⟨rfl, ?_⟩
    by_cases room : chan.queued < capacity
    · exact .inr (if_pos room)
    · exact .inl (if_neg room)

end SiprecServer.Lib.Channel
