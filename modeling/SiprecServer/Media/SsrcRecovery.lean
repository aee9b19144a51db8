import SiprecServer.Media.SsrcLock

/-!
# Recovery from a silent SSRC change

A stream locked to one SSRC hears another one again once fifty packets of it have
come in a row, provided corrections are not blocked meanwhile.  A suspended stream
blocks them on purpose, and is then deaf to every SSRC but the old one.
-/

namespace SiprecServer.Media

open Lib Transducer List

variable {G O : Type}

namespace RtpStream

structure CountersBelow (view : LockView) (bound : Nat) : Prop where
  since : view.packetsSinceLastLockedSSRC.toNat ≤ bound
  alternates : view.alternateSSRCCount.toNat ≤ bound

variable {stream : RtpStream G O} {bound : Nat} {config : StreamConfig G O} {ssrc : UInt32}
  {dropped : Nat}

section

variable (below : CountersBelow stream.lockView bound)

include below

theorem CountersBelow.trackAlternate (ssrc : UInt32) :
    CountersBelow (stream.trackAlternate ssrc).lockView (bound + 1) := by
  have since : (stream.packetsSinceLastLockedSSRC + 1).toNat ≤ bound + 1 :=
    Nat.le_trans (toNat_succ_le _) (Nat.succ_le_succ below.since)
  simp only [RtpStream.trackAlternate]
  split
  · exact ⟨since, Nat.le_succ_of_le below.alternates⟩
  · split
    · exact ⟨since, Nat.le_trans (toNat_succ_le _) (Nat.succ_le_succ below.alternates)⟩
    · exact ⟨since, Nat.succ_le_succ (Nat.zero_le bound)⟩

theorem CountersBelow.validateSSRC (ssrc : UInt32) :
    CountersBelow (stream.validateSSRC ssrc).1.lockView (bound + 1) := by
  rcases stream.validateSSRC_cases ssrc with
    ⟨_, result⟩ | ⟨_, _, result⟩ | ⟨_, _, _, result⟩ | ⟨_, _, _, result⟩
  · rw [result]
    exact ⟨Nat.zero_le _, Nat.zero_le _⟩
  · rw [result]
    exact ⟨Nat.zero_le _, Nat.le_succ_of_le below.alternates⟩
  · rw [result]
    exact ⟨Nat.zero_le _, Nat.zero_le _⟩
  · rw [result]
    exact below.trackAlternate ssrc

omit below in
theorem monitorTick_lockView (config : StreamConfig G O) (stream : RtpStream G O) (now : Int) :
    ∃ suspended stopped, (stream.monitorTick config now).lockView =
        { stream.lockView with rtpSuspended := suspended, stopped := stopped } ∧
      (config.recordingSession = true → stopped = stream.stopped) := by
  unfold monitorTick
  split
  · exact ⟨_, _, rfl, fun _ => rfl⟩
  · split
    · exact ⟨_, _, rfl, fun _ => rfl⟩
    · split
      · split
        · exact ⟨_, _, rfl, fun _ => rfl⟩
        · rename_i notSession
          exact ⟨_, _, rfl, fun session => absurd session notSession⟩
      · exact ⟨_, _, rfl, fun _ => rfl⟩

theorem CountersBelow.step (config : StreamConfig G O) (event : Event) :
    CountersBelow (stream.step config event).1.lockView
      (bound + (stream.step config event).2.length) := by
  cases event with
  | receive packet arrival now writable =>
    dsimp only [RtpStream.step, receive, length_singleton]
    split
    · exact ⟨Nat.le_succ_of_le below.since, Nat.le_succ_of_le below.alternates⟩
    · rw [(stream.decodeAndProcess_lockView config packet arrival now false writable).1]
      exact below.validateSSRC packet.ssrc
  | drain now writable =>
    dsimp only [RtpStream.step]
    rcases stream.drain_cases config now writable with
      ⟨view, nothing⟩ | ⟨buffer, entry, _, result⟩
    · rw [view, nothing]
      exact below
    · rw [result]
      have kept : CountersBelow (stream.withBuffer (buffer.pop now).1).lockView bound := below
      rw [((stream.withBuffer (buffer.pop now).1).decodeAndProcess_lockView config entry.packet
        entry.arrival now true writable).1]
      exact kept.validateSSRC entry.packet.ssrc
  | monitorTick now =>
    obtain ⟨suspended, stopped, view, _⟩ := stream.monitorTick_lockView config now
    dsimp only [RtpStream.step]
    rw [view]
    exact { below with }
  | _ => exact { below with }

theorem CountersBelow.run (config : StreamConfig G O) (events : List Event) :
    CountersBelow (run (RtpStream.step config) stream events).1.lockView
      (bound + (run (RtpStream.step config) stream events).2.length) := by
  induction events generalizing stream bound with
  | nil => exact below
  | cons event events ih =>
    have later := ih (below.step config event)
    rw [run_cons_state, run_cons_output, length_append, ← Nat.add_assoc]
    exact later

end

section

variable (session : config.recordingSession = true) (stream : RtpStream G O)

include session

theorem step_stopped (event : Event) : (stream.step config event).1.stopped = stream.stopped := by
  cases event with
  | receive packet arrival now writable =>
    dsimp only [step, receive]
    split
    · rfl
    · have view := congrArg LockView.stopped
        (stream.decodeAndProcess_lockView config packet arrival now false writable).1
      exact view.trans (stream.validateSSRC_rest packet.ssrc).1
  | drain now writable =>
    dsimp only [step]
    rcases stream.drain_cases config now writable with
      ⟨view, _⟩ | ⟨buffer, entry, _, result⟩
    · exact congrArg LockView.stopped view
    · rw [result]
      have view := congrArg LockView.stopped
        ((stream.withBuffer (buffer.pop now).1).decodeAndProcess_lockView config entry.packet
          entry.arrival now true writable).1
      exact view.trans (validateSSRC_rest _ entry.packet.ssrc).1
  | pause pauseRecording pauseTranscription => rfl
  | resume => rfl
  | resetRemoteSSRC => rfl
  | monitorTick now =>
    obtain ⟨suspended, stopped, view, same⟩ := stream.monitorTick_lockView config now
    exact (congrArg LockView.stopped view).trans (same session)

theorem run_stopped (events : List Event) :
    (run (step config) stream events).1.stopped = stream.stopped := by
  induction events generalizing stream with
  | nil => rfl
  | cons event events ih => exact (ih _).trans (step_stopped session stream event)

end

def receives : List Event → Nat
  | [] => 0
  | .receive _ _ _ _ :: events => receives events + 1
  | _ :: events => receives events

/-- The call is neither on hold nor suspended, a received packet has the given SSRC and
no packet comes from the jitter buffer. -/
def Unblocked (ssrc : UInt32) (stream : RtpStream G O) (event : Event) : Prop :=
  stream.transcriptionPaused = false ∧ stream.rtpSuspended = false ∧
    match event with
    | .receive packet _ _ _ => packet.ssrc = ssrc
    | .drain now _ => stream.nextBuffered now = none
    | _ => True

instance (ssrc : UInt32) (stream : RtpStream G O) :
    ∀ event, Decidable (Unblocked ssrc stream event)
  | .receive packet _ _ _ =>
    inferInstanceAs (Decidable (_ ∧ stream.rtpSuspended = false ∧ packet.ssrc = ssrc))
  | .drain now _ =>
    inferInstanceAs (Decidable (_ ∧ stream.rtpSuspended = false ∧ stream.nextBuffered now = none))
  | .pause _ _ => inferInstanceAs (Decidable (_ ∧ stream.rtpSuspended = false ∧ True))
  | .resume => inferInstanceAs (Decidable (_ ∧ stream.rtpSuspended = false ∧ True))
  | .resetRemoteSSRC => inferInstanceAs (Decidable (_ ∧ stream.rtpSuspended = false ∧ True))
  | .monitorTick _ => inferInstanceAs (Decidable (_ ∧ stream.rtpSuspended = false ∧ True))

structure Unheard (ssrc : UInt32) (dropped : Nat) (view : LockView) : Prop where
  few : dropped < 50
  since : dropped ≤ view.packetsSinceLastLockedSSRC.toNat
  alternates : dropped = 0 ∨
    view.alternateSSRC = ssrc ∧ dropped ≤ view.alternateSSRCCount.toNat

theorem toNat_succ_of_lt {count : UInt32} (small : count.toNat + 1 < 2 ^ 32) :
    (count + 1).toNat = count.toNat + 1 := by
  exact Nat.mod_eq_of_lt small

theorem Unheard.drop (unheard : Unheard ssrc dropped stream.lockView)
    (below : CountersBelow stream.lockView bound) (small : bound + 1 < 2 ^ 32)
    (free : stream.correctionBlocked = false) (refused : (stream.validateSSRC ssrc).2 = false) :
    Unheard ssrc (dropped + 1) (stream.validateSSRC ssrc).1.lockView := by
  have sinceBelow : stream.packetsSinceLastLockedSSRC.toNat ≤ bound := below.since
  have countBelow : stream.alternateSSRCCount.toNat ≤ bound := below.alternates
  have sinceSeen : dropped ≤ stream.packetsSinceLastLockedSSRC.toNat := unheard.since
  have since : dropped + 1 ≤ (stream.trackAlternate ssrc).packetsSinceLastLockedSSRC.toNat := by
    have counted : (stream.trackAlternate ssrc).packetsSinceLastLockedSSRC =
        stream.packetsSinceLastLockedSSRC + 1 := by
      simp only [trackAlternate]
      split
      · rfl
      · split <;> rfl
    rw [counted, toNat_succ_of_lt (by omega)]
    exact Nat.succ_le_succ sinceSeen
  have alternates : dropped + 1 ≤ (stream.trackAlternate ssrc).alternateSSRCCount.toNat := by
    simp only [trackAlternate]
    rw [free, if_neg Bool.false_ne_true]
    rcases unheard.alternates with none | ⟨same, seen⟩
    · rw [none]
      split
      · rw [toNat_succ_of_lt (by omega)]
        exact Nat.succ_le_succ (Nat.zero_le _)
      · exact Nat.le_refl _
    · rw [if_pos (show ssrc = stream.alternateSSRC from same.symm)]
      rw [toNat_succ_of_lt (by omega)]
      exact Nat.succ_le_succ seen
  rcases stream.validateSSRC_cases ssrc with
    ⟨_, result⟩ | ⟨_, _, result⟩ | ⟨_, _, _, result⟩ | ⟨_, _, notDue, result⟩
  · rw [result] at refused
    cases refused
  · rw [result] at refused
    cases refused
  · rw [result] at refused
    cases refused
  · rw [result]
    refine ⟨?_, since, Or.inr ⟨trackAlternate_alternate ssrc free, alternates⟩⟩
    -- at fifty both thresholds would be reached
    apply Nat.lt_of_not_le
    intro reached
    have due := (correctionDue_iff (stream.trackAlternate ssrc)).mpr
      ⟨by rw [trackAlternate_blocked]; exact free, by omega, by omega⟩
    rw [notDue] at due
    cases due

theorem receives_cons (event : Event) (events : List Event) :
    receives (event :: events) = receives [event] + receives events := by
  cases event with
  | receive packet arrival now writable => exact Nat.add_comm _ _
  | _ => exact (Nat.zero_add _).symm

section

variable (unheard : Unheard ssrc dropped stream.lockView)
  (below : CountersBelow stream.lockView bound) (running : stream.stopped = false)

include unheard below running

theorem Unheard.step {event : Event} (small : bound + (stream.step config event).2.length < 2 ^ 32)
    (unblocked : Unblocked ssrc stream event)
    (refused : ∀ handled ∈ (stream.step config event).2, handled.outcome.accepted = false) :
    Unheard ssrc (dropped + receives [event]) (stream.step config event).1.lockView := by
  obtain ⟨notOnHold, active, fits⟩ := unblocked
  cases event with
  | receive packet arrival now writable =>
    have view := stream.decodeAndProcess_lockView config packet arrival now false writable
    have result : stream.step config (.receive packet arrival now writable) =
        ((stream.decodeAndProcess config packet arrival now false writable).1,
          [⟨packet, (stream.decodeAndProcess config packet arrival now false
            writable).2⟩]) := by
      dsimp only [RtpStream.step, receive]
      rw [running, if_neg Bool.false_ne_true]
    rw [result] at small refused ⊢
    have dropped' := refused _ (mem_singleton_self _)
    rw [view.2, fits] at dropped'
    rw [view.1, fits]
    exact unheard.drop below (by rw [length_singleton] at small; omega)
      (by rw [correctionBlocked, notOnHold, active]; rfl) dropped'
  | drain now writable =>
    dsimp only [RtpStream.step]
    rcases stream.drain_cases config now writable with
      ⟨view, _⟩ | ⟨buffer, entry, popped, _⟩
    · rw [view]
      exact unheard
    · rw [show stream.nextBuffered now = none from fits] at popped
      cases popped
  | pause pauseRecording pauseTranscription =>
    exact { unheard with }
  | resume => exact { unheard with }
  | resetRemoteSSRC => exact { unheard with }
  | monitorTick now =>
    obtain ⟨suspended, stopped, view, _⟩ := stream.monitorTick_lockView config now
    dsimp only [RtpStream.step]
    rw [view]
    exact { unheard with }

theorem Unheard.run {events : List Event} (session : config.recordingSession = true)
    (small : bound + (run (RtpStream.step config) stream events).2.length < 2 ^ 32)
    (unblocked : Along (RtpStream.step config) (Unblocked ssrc) stream events)
    (refused : ∀ handled ∈ (run (RtpStream.step config) stream events).2,
      handled.outcome.accepted = false) : dropped + receives events < 50 := by
  induction events generalizing stream dropped bound with
  | nil => exact unheard.few
  | cons event events ih =>
    obtain ⟨here, later⟩ := unblocked
    rw [run_cons_output, length_append] at small
    have next := unheard.step below running (by omega) here
      (fun handled mem => refused handled (mem_append_left _ mem))
    have total := ih next (below.step config event)
      ((step_stopped session stream event).trans running) (by omega) later
      (fun handled mem => refused handled (mem_append_right _ mem))
    rw [receives_cons]
    omega

end

/-- From every state that a new SIPREC stream reaches, fifty received packets in a row of
one SSRC include an accepted one, if the call is neither on hold nor suspended meanwhile,
no packet is drained from the jitter buffer between them, and fewer than `2 ^ 32` packets
have been handled. -/
theorem fifty_packets_heard (config : StreamConfig G O) (payloadType : UInt8) (codecName : String)
    (sampleRate channels : Int) (jitterBuffer : Option JitterBuffer) (before during : List Event)
    (ssrc : UInt32) (session : config.recordingSession = true)
    (small : (run (step config)
      (newStream payloadType codecName sampleRate channels jitterBuffer)
        (before ++ during)).2.length < 2 ^ 32) (fifty : 50 ≤ receives during)
    (unblocked : Along (step config) (Unblocked ssrc)
      (run (step config)
        (newStream payloadType codecName sampleRate channels jitterBuffer) before).1 during) :
    ∃ handled ∈ (run (step config) (run (step config)
        (newStream payloadType codecName sampleRate channels jitterBuffer) before).1 during).2,
      handled.outcome.accepted = true := by
  generalize new : newStream payloadType codecName sampleRate channels jitterBuffer = stream at *
  have start : CountersBelow stream.lockView 0 := by
    rw [← new]
    exact ⟨Nat.le_refl _, Nat.le_refl _⟩
  have running : stream.stopped = false := by
    rw [← new]
    rfl
  have below := start.run config before
  rw [run_append_output, length_append] at small
  by_contra deaf
  have nothing : Unheard ssrc 0 (run (step config) stream before).1.lockView :=
    ⟨by omega, Nat.zero_le _, Or.inl rfl⟩
  have count : 0 + receives during < 50 := by
    refine nothing.run below ((run_stopped session _ _).trans running) session (by omega)
      unblocked ?_
    intro handled member
    exact Bool.eq_false_iff.mpr fun accepted => deaf ⟨handled, member, accepted⟩
  omega

/-- After a timeout the stream of SSRC 1 is suspended, and fifty packets of SSRC 2 in a
row are dropped although the call is not on hold. -/
theorem suspended_stream_is_deaf :
    (run (step plainConfig) (newStream 8 "PCMA" 8000 1 none)
        [.receive (plainPacket 1 0 1) 0 0 true, .monitorTick 11]).1.transcriptionPaused = false ∧
      (run (step plainConfig) (run (step plainConfig)
          (newStream 8 "PCMA" 8000 1 none)
          [.receive (plainPacket 1 0 1) 0 0 true, .monitorTick 11]).1
        (List.replicate 50 (.receive (plainPacket 2 0 2) 12 12 true))).2 =
          List.replicate 50 ⟨plainPacket 2 0 2, .ssrcMismatch⟩ := by
  decide +kernel

theorem active_stream_hears_new_ssrc :
    ∃ handled ∈ (run (step plainConfig) (run (step plainConfig)
        (newStream 8 "PCMA" 8000 1 none) [.receive (plainPacket 1 0 1) 0 0 true]).1
        (List.replicate 50 (.receive (plainPacket 2 0 2) 5 5 true))).2,
      handled.outcome.accepted = true := by
  refine fifty_packets_heard plainConfig 8 "PCMA" 8000 1 none
    [.receive (plainPacket 1 0 1) 0 0 true]
    (List.replicate 50 (.receive (plainPacket 2 0 2) 5 5 true)) 2 rfl ?_ ?_ ?_
  · decide +kernel
  · decide
  · decide +kernel

end RtpStream

end SiprecServer.Media
