import Mathlib.Logic.Function.Iterate
import SiprecServer.Lib.Transducer

/-!
# The pool of AMQP channels

`PublishWithConfirm` takes a channel, publishes, registers one more listener for confirmations,
waits for it and gives the channel back.  The library delivers a confirmation to all listeners
that the channel ever had, in order, and waits where the buffer, of one, is full.  Calls that get
no channel, or whose `Publish` fails, are left out: they return the error and register nothing.
-/

namespace SiprecServer.Messaging

open Lib.Transducer

structure Channel where
  /-- Whether the buffer of each listener is full. -/
  listeners : List Bool := []
  /-- The library waits for a listener that nobody reads any more. -/
  stuck : Bool := false
  unconfirmed : Nat := 0
deriving DecidableEq

/-- What a confirmation does to listeners that nobody reads, and whether it gets past them. -/
def deliver : List Bool → List Bool × Bool
  | [] => ([], true)
  | true :: later => (true :: later, false)
  | false :: later => (true :: (deliver later).1, (deliver later).2)

def Channel.confirm (ch : Channel) : Channel × Bool :=
  if ch.stuck ∨ ch.unconfirmed = 0 then (ch, false)
  else
    let (listeners, passed) := deliver ch.listeners
    (⟨listeners, !passed, ch.unconfirmed - 1⟩, passed)

/-- So many confirmations arrive before the listener is registered, and one before the timeout or
none. -/
def Channel.publish (ch : Channel) (early : Nat) (inTime : Bool) : Channel × Bool :=
  let sent := { ch with unconfirmed := ch.unconfirmed + 1 }
  let registered := (fun ch => ch.confirm.1)^[early] sent
  let (waited, confirmed) := if inTime then registered.confirm else (registered, false)
  ({ waited with listeners := waited.listeners ++ [false] }, confirmed)

/-- The idle channels of each connection. -/
abbrev Pool := Nat → List Channel

structure Publish where
  /-- The one that the strategy selects. -/
  connection : Nat
  early : Nat
  inTime : Bool
  /-- Whether the connection is healthy when the channel is given back. -/
  healthy : Bool

/-- A new channel is made where none is idle. -/
def getChannel (pool : Pool) (connection : Nat) : Channel × List Channel :=
  match pool connection with
  | [] => ({}, [])
  | ch :: idle => (ch, idle)

variable (maxChannelsPerConn : Nat)

def returnChannel (healthy : Bool) (idle : List Channel) (ch : Channel) : List Channel :=
  if healthy ∧ idle.length < maxChannelsPerConn then idle ++ [ch] else idle

/-- The output tells whether the error is nil. -/
def publishWithConfirm (pool : Pool) (p : Publish) : Pool × List Bool :=
  let (ch, idle) := getChannel pool p.connection
  let (ch, confirmed) := ch.publish p.early p.inTime
  (Function.update pool p.connection (returnChannel maxChannelsPerConn p.healthy idle ch),
    [confirmed])

def newAMQPPool : Pool := fun _ => List.replicate (min 5 maxChannelsPerConn) {}

def Confirmed (pool : Pool) (p : Publish) : Prop :=
  (publishWithConfirm maxChannelsPerConn pool p).2 = [true]

/-- The confirmation finds the call waiting, on a channel with at most one earlier listener. -/
def Awaited (pool : Pool) (p : Publish) : Prop :=
  p.early = 0 ∧ p.inTime = true ∧ (getChannel pool p.connection).1.listeners.length ≤ 1

/-- What a channel is like while every call on it has been confirmed. -/
def Channel.Sound (ch : Channel) : Prop :=
  ch = {} ∨ ch = { listeners := [false] } ∨ ch = { listeners := [true, false] }

variable {ch : Channel} {early : Nat} {inTime : Bool} {pool : Pool} {maxChannelsPerConn}

theorem confirm_none (none : ch.unconfirmed = 0) : ch.confirm = (ch, false) :=
  if_pos (.inr none)

theorem Channel.Sound.publish (sound : ch.Sound) :
    ((ch.publish early inTime).2 = true ↔
        early = 0 ∧ inTime = true ∧ ch.listeners.length ≤ 1) ∧
      ((ch.publish early inTime).2 = true → (ch.publish early inTime).1.Sound) := by
  cases early with
  | zero =>
    rcases sound with rfl | rfl | rfl <;> cases inTime <;>
      simp [Channel.publish, confirm, deliver, Channel.Sound]
  | succ early =>
    have spent : ({ ch with unconfirmed := ch.unconfirmed + 1 }.confirm.1).unconfirmed = 0 := by
      rcases sound with rfl | rfl | rfl <;> rfl
    have fails : (ch.publish (early + 1) inTime).2 = false := by
      unfold Channel.publish
      dsimp only
      rw [Function.iterate_succ_apply, Function.iterate_fixed (by rw [confirm_none spent])]
      cases inTime with
      | false => rfl
      | true => rw [if_pos rfl, confirm_none spent]
    simp [fails]

def Pool.Sound (pool : Pool) : Prop := ∀ connection, ∀ ch ∈ pool connection, ch.Sound

theorem Pool.Sound.getChannel (sound : pool.Sound) (connection : Nat) :
    (getChannel pool connection).1.Sound ∧
      ∀ ch ∈ (getChannel pool connection).2, ch.Sound := by
  have idle := sound connection
  unfold Messaging.getChannel
  split
  case h_1 => exact ⟨.inl rfl, nofun⟩
  case h_2 isIdle =>
    rw [isIdle] at idle
    exact List.forall_mem_cons.mp idle

theorem confirmed_iff_awaited (pool : Pool) (p : Publish) (sound : pool.Sound) :
    Confirmed maxChannelsPerConn pool p ↔ Awaited pool p := by
  rw [Awaited, ← (sound.getChannel p.connection).1.publish.1]
  simp [Confirmed, publishWithConfirm]

theorem step_sound (pool : Pool) (p : Publish) (sound : pool.Sound) (awaited : Awaited pool p) :
    (publishWithConfirm maxChannelsPerConn pool p).1.Sound := by
  obtain ⟨taken, left⟩ := sound.getChannel p.connection
  have returned := taken.publish.2 (taken.publish.1.mpr awaited)
  intro connection ch mem
  by_cases same : connection = p.connection
  · subst same
    simp only [publishWithConfirm, Function.update_self, returnChannel] at mem
    split at mem
    · rcases List.mem_append.mp mem with idle | last
      · exact left ch idle
      · exact List.mem_singleton.mp last ▸ returned
    · exact left ch mem
  · simp only [publishWithConfirm, Function.update_of_ne same] at mem
    exact sound connection ch mem

/-- Every call returns nil exactly as long as each confirmation arrives between the registration
of the listener and the timeout and no channel is used for a third time. -/
theorem publishes_confirmed_iff (maxChannelsPerConn : Nat) (publishes : List Publish) :
    Along (publishWithConfirm maxChannelsPerConn) (Confirmed maxChannelsPerConn)
        (newAMQPPool maxChannelsPerConn) publishes ↔
      Along (publishWithConfirm maxChannelsPerConn) Awaited (newAMQPPool maxChannelsPerConn)
        publishes :=
  along_iff_of_invariant Pool.Sound step_sound confirmed_iff_awaited fun _ _ member =>
    .inl (List.eq_of_mem_replicate member)

/-- The third confirmation on a channel waits for the first listener. -/
theorem third_publish_fails :
    (run (publishWithConfirm 1) (newAMQPPool 1) (List.replicate 3 ⟨0, 0, true, true⟩)).2 =
      [true, true, false] := by
  decide

end SiprecServer.Messaging
