import SiprecServer.Media.RtpStream

/-!
# The SSRC lock

Only the SSRC check and the operations of the other goroutines touch the lock,
its counters and the flags that block a correction; everything after the check
leaves them alone.  On this frame rest two results about whole runs: when a lock
may move, and when a stream that keeps arriving is heard again.
-/

namespace SiprecServer.Media

open Lib

variable {G O : Type}

namespace RtpStream

structure LockView where
  remoteSSRC : UInt32
  transcriptionPaused : Bool
  rtpSuspended : Bool
  stopped : Bool
  alternateSSRC : UInt32
  alternateSSRCCount : UInt32
  packetsSinceLastLockedSSRC : UInt32

def lockView (stream : RtpStream G O) : LockView where
  remoteSSRC := stream.remoteSSRC
  transcriptionPaused := stream.transcriptionPaused
  rtpSuspended := stream.rtpSuspended
  stopped := stream.stopped
  alternateSSRC := stream.alternateSSRC
  alternateSSRCCount := stream.alternateSSRCCount
  packetsSinceLastLockedSSRC := stream.packetsSinceLastLockedSSRC

/-! ## Frame -/

section

variable (stream : RtpStream G O) (packet : RtpPacket)

def withoutAudio : RtpStream G O :=
  { stream with
    lastSeq := none
    lastTimestamp := 0
    hasLastTimestamp := false
    lastDecodedPCMSize := 0
    g729StreamDec := none
    opusStreamDec := none
    recording := [] }

theorem withoutAudio_lockView :
    stream.withoutAudio.lockView = stream.lockView := rfl

theorem writeRecording_withoutAudio (writable : Bool) (bytes : List UInt8) :
    (stream.writeRecording writable bytes).1.withoutAudio = stream.withoutAudio := by
  unfold writeRecording
  split
  · rfl
  · split <;> rfl

end

section

variable (config : StreamConfig G O) (stream : RtpStream G O)

include config stream

theorem processAudioPacket_withoutAudio (codec : CurrentCodec) (packet : RtpPacket)
    (writable : Bool) :
    (stream.processAudioPacket config codec packet writable).1.withoutAudio =
      stream.withoutAudio := by
  refine processAudioPacket_keeps (fun after => after.withoutAudio = stream.withoutAudio)
    (fun _ _ same => same) (fun _ _ same => same) ?_ rfl (fun _ _ same => same)
    (fun _ _ _ same => same)
  exact fun after bytes same => (after.writeRecording_withoutAudio writable bytes).trans same

theorem processAccepted_lockView (packet : RtpPacket) (arrival now : Int)
    (fromBuffer writable : Bool) :
    (stream.processAccepted config packet arrival now fromBuffer writable).1.lockView =
      stream.lockView := by
  have current : ((stream.noteAccepted packet arrival now).updateCodec packet).lockView =
      stream.lockView :=
    stream.noted_keeps lockView (fun _ => rfl) packet arrival now
  unfold processAccepted
  dsimp only
  split
  · exact current
  · split
    · exact current
    · split
      · exact current
      · rw [← withoutAudio_lockView, processAudioPacket_withoutAudio, withoutAudio_lockView, current]

end

def Outcome.accepted : Outcome → Bool
  | .stopped => false
  | .ssrcMismatch => false
  | _ => true

variable (config : StreamConfig G O) (stream : RtpStream G O) (packet : RtpPacket)

theorem processAccepted_accepted (arrival now : Int) (fromBuffer writable : Bool) :
    (stream.processAccepted config packet arrival now fromBuffer writable).2.accepted = true := by
  unfold processAccepted
  dsimp only
  split
  · rfl
  · split
    · rfl
    · split
      · rfl
      · simp only [processAudioPacket]
        split
        · rfl
        · split
          · rfl
          · simp only [recordPcm]
            repeat' split
            all_goals rfl

/-- `decodeAndProcess` changes the lock exactly as the check does, and accepts exactly
what the check accepts. -/
theorem decodeAndProcess_lockView (arrival now : Int) (fromBuffer writable : Bool) :
    (stream.decodeAndProcess config packet arrival now fromBuffer writable).1.lockView =
        (stream.validateSSRC packet.ssrc).1.lockView ∧
      (stream.decodeAndProcess config packet arrival now fromBuffer writable).2.accepted =
        (stream.validateSSRC packet.ssrc).2 := by
  simp only [decodeAndProcess]
  cases passed : (stream.validateSSRC packet.ssrc).2 with
  | true =>
    exact ⟨processAccepted_lockView _ _ _ _ _ _ _, processAccepted_accepted _ _ _ _ _ _ _⟩
  | false =>
    exact ⟨rfl, rfl⟩

/-! ## When a lock may move -/

/-- What an observer of the stream counts: the SSRC it is locked to, the packets
received in a row that are not from it, and, for each SSRC, the packets that
arrived since the lock while corrections were not blocked. -/
structure Audit where
  lockedTo : Option UInt32
  foreignRun : Nat
  arrivals : UInt32 → Nat

namespace Audit

def start : Audit := ⟨none, 0, fun _ => 0⟩

def lock (ssrc : UInt32) : Audit := ⟨some ssrc, 0, fun _ => 0⟩

section

variable (audit : Audit) (ssrc : UInt32)

def foreign (blocked : Bool) : Audit :=
  { audit with
    foreignRun := audit.foreignRun + 1
    arrivals := fun other =>
      if other = ssrc ∧ blocked = false then audit.arrivals other + 1 else audit.arrivals other }

def received (blocked accepted : Bool) : Audit :=
  if audit.lockedTo = some ssrc then
    { audit with
      foreignRun := 0
      arrivals := fun other =>
        if other = ssrc ∧ blocked = false then audit.arrivals other + 1
        else audit.arrivals other }
  else if accepted then lock ssrc
  else audit.foreign ssrc blocked

/-- A packet from the jitter buffer is not received again; it can only lock. -/
def drained (accepted : Bool) : Audit :=
  if accepted ∧ audit.lockedTo ≠ some ssrc then lock ssrc else audit

/-- The lock may move to this SSRC: at least thirty packets in a row did not come from
the locked one and at least fifty of the new one arrived unblocked. -/
def Permits (blocked : Bool) : Prop :=
  30 ≤ (audit.foreign ssrc blocked).foreignRun ∧ 50 ≤ (audit.foreign ssrc blocked).arrivals ssrc

end

end Audit

def auditEvent (stream : RtpStream G O) (audit : Audit) (event : Event)
    (handled : List Handled) : Audit :=
  match event, handled with
  | .receive packet _ _ _, [result] =>
    -- a stopped forwarder reads no packets
    if result.outcome = .stopped then audit
    else audit.received packet.ssrc stream.correctionBlocked result.outcome.accepted
  | .drain _ _, [result] => audit.drained result.packet.ssrc result.outcome.accepted
  | .resetRemoteSSRC, _ => { audit with lockedTo := none }
  | _, _ => audit

def auditedStep (config : StreamConfig G O) (state : RtpStream G O × Audit) (event : Event) :
    (RtpStream G O × Audit) × List Handled :=
  let next := state.1.step config event
  ((next.1, auditEvent state.1 state.2 event next.2), next.2)

/-- Every packet the step records carries the SSRC that is locked afterwards, and a
packet of another SSRC than the audited lock is accepted only if the lock may move. -/
def LockRespected (config : StreamConfig G O) (state : RtpStream G O × Audit) (event : Event) :
    Prop :=
  ∀ handled ∈ (state.1.step config event).2,
    (handled.outcome = .written →
        (state.1.step config event).1.remoteSSRC = handled.packet.ssrc) ∧
      ∀ locked, state.2.lockedTo = some locked → handled.outcome.accepted = true →
        handled.packet.ssrc ≠ locked →
          state.2.Permits handled.packet.ssrc state.1.correctionBlocked

def nextBuffered (stream : RtpStream G O) (now : Int) : Option BufferedPacket :=
  stream.jitterBuffer.bind fun buffer => (buffer.pop now).2.packet

/-- The packets that a step hands to `decodeAndProcess` have an SSRC other than zero,
and one that comes from the jitter buffer has the locked SSRC if there is a lock. -/
def OrdinarySSRC (state : RtpStream G O × Audit) : Event → Prop
  | .receive packet _ _ _ => packet.ssrc ≠ 0
  | .drain now _ =>
    ∀ entry, state.1.nextBuffered now = some entry →
      entry.packet.ssrc ≠ 0 ∧
        (state.1.remoteSSRC = 0 ∨ entry.packet.ssrc = state.1.remoteSSRC)
  | _ => True

structure Tracked (view : LockView) (audit : Audit) : Prop where
  unlocked : audit.lockedTo = none → view.remoteSSRC = 0
  locked : ∀ ssrc, audit.lockedTo = some ssrc → view.remoteSSRC = ssrc ∧ ssrc ≠ 0
  since : ∀ ssrc, audit.lockedTo = some ssrc →
    view.packetsSinceLastLockedSSRC.toNat ≤ audit.foreignRun
  alternates : ∀ ssrc, audit.lockedTo = some ssrc →
    view.alternateSSRCCount.toNat ≤ audit.arrivals view.alternateSSRC

variable {view : LockView} {audit : Audit} {stream : RtpStream G O} {ssrc : UInt32}
  {config : StreamConfig G O}

theorem Tracked.flags (tracked : Tracked view audit) (paused suspended stopped : Bool) : Tracked
      { view with transcriptionPaused := paused, rtpSuspended := suspended, stopped := stopped }
      audit :=
  { tracked with }

theorem toNat_succ_le (count : UInt32) : (count + 1).toNat ≤ count.toNat + 1 := by
  exact Nat.mod_le _ _

theorem Tracked.foreign (tracked : Tracked stream.lockView audit) (ssrc : UInt32) :
    Tracked (stream.trackAlternate ssrc).lockView
      (audit.foreign ssrc stream.correctionBlocked) := by
  have counted : ∀ locked, audit.lockedTo = some locked →
      (stream.packetsSinceLastLockedSSRC + 1).toNat ≤ audit.foreignRun + 1 := by
    intro locked isLocked
    have before : stream.packetsSinceLastLockedSSRC.toNat ≤ audit.foreignRun :=
      tracked.since locked isLocked
    exact Nat.le_trans (toNat_succ_le _) (Nat.succ_le_succ before)
  simp only [trackAlternate]
  cases blocked : stream.correctionBlocked with
  | true =>
    refine ⟨tracked.unlocked, tracked.locked, counted, ?_⟩
    intro locked isLocked
    simpa [Audit.foreign] using! tracked.alternates locked isLocked
  | false =>
    rw [if_neg Bool.false_ne_true]
    split
    · rename_i again
      refine ⟨tracked.unlocked, tracked.locked, counted, ?_⟩
      intro locked isLocked
      have before : stream.alternateSSRCCount.toNat ≤ audit.arrivals stream.alternateSSRC :=
        tracked.alternates locked isLocked
      have one := toNat_succ_le stream.alternateSSRCCount
      simpa [Audit.foreign, lockView, again] using!
        Nat.le_trans one (Nat.succ_le_succ before)
    · refine ⟨tracked.unlocked, tracked.locked, counted, ?_⟩
      simp [Audit.foreign, lockView]

theorem Tracked.lock (nonzero : ssrc ≠ 0) (remote : view.remoteSSRC = ssrc)
    (since : view.packetsSinceLastLockedSSRC = 0) (alternates : view.alternateSSRCCount = 0) :
    Tracked view (Audit.lock ssrc) where
  unlocked := by
    intro impossible
    cases impossible
  locked := by
    intro other same
    cases same
    exact ⟨remote, nonzero⟩
  since := by
    intro other _
    rw [since]
    exact Nat.zero_le _
  alternates := by
    intro other _
    rw [alternates]
    exact Nat.zero_le _

theorem Tracked.lockedTo_none (tracked : Tracked view audit) (unlocked : view.remoteSSRC = 0) :
    audit.lockedTo = none := by
  cases isLocked : audit.lockedTo with
  | none => rfl
  | some ssrc =>
    obtain ⟨remote, nonzero⟩ := tracked.locked ssrc isLocked
    exact absurd (remote ▸ unlocked) nonzero

theorem Tracked.lockedTo_some (tracked : Tracked view audit) (isLocked : view.remoteSSRC ≠ 0) :
    audit.lockedTo = some view.remoteSSRC := by
  cases known : audit.lockedTo with
  | none => exact absurd (tracked.unlocked known) isLocked
  | some ssrc => rw [(tracked.locked ssrc known).1]

theorem correctionDue_iff (stream : RtpStream G O) :
    stream.correctionDue = true ↔
      stream.correctionBlocked = false ∧ 50 ≤ stream.alternateSSRCCount.toNat ∧
        30 ≤ stream.packetsSinceLastLockedSSRC.toNat := by
  unfold correctionDue ssrcCorrectionThreshold ssrcCorrectionInactivity
  rw [Bool.and_eq_true, Bool.and_eq_true, Bool.not_eq_true', decide_eq_true_iff,
    decide_eq_true_iff, UInt32.le_iff_toNat_le, UInt32.le_iff_toNat_le, and_assoc]
  rfl

@[simp]
theorem trackAlternate_blocked (stream : RtpStream G O) (ssrc : UInt32) :
    (stream.trackAlternate ssrc).correctionBlocked = stream.correctionBlocked := by
  simp only [trackAlternate]
  split
  · rfl
  · split <;> rfl

theorem trackAlternate_alternate (ssrc : UInt32) (free : stream.correctionBlocked = false) :
    (stream.trackAlternate ssrc).alternateSSRC = ssrc := by
  simp only [trackAlternate]
  rw [free, if_neg Bool.false_ne_true]
  split
  · rename_i again
    exact again.symm
  · rfl

section

variable (tracked : Tracked stream.lockView audit)

include tracked

theorem Tracked.permits {locked : UInt32} (isLocked : audit.lockedTo = some locked)
    (due : (stream.trackAlternate ssrc).correctionDue = true) :
    audit.Permits ssrc stream.correctionBlocked := by
  obtain ⟨free, enough, silent⟩ := (correctionDue_iff _).mp due
  rw [trackAlternate_blocked] at free
  have counted := tracked.foreign ssrc
  have arrived := counted.alternates locked isLocked
  have alternate : (stream.trackAlternate ssrc).lockView.alternateSSRC = ssrc :=
    trackAlternate_alternate ssrc free
  rw [alternate] at arrived
  exact ⟨Nat.le_trans silent (counted.since locked isLocked), Nat.le_trans enough arrived⟩

theorem Tracked.validate (nonzero : ssrc ≠ 0) :
    Tracked (stream.validateSSRC ssrc).1.lockView
        (audit.received ssrc stream.correctionBlocked (stream.validateSSRC ssrc).2) ∧
      ((stream.validateSSRC ssrc).2 = true → (stream.validateSSRC ssrc).1.remoteSSRC = ssrc) ∧
      ∀ locked, audit.lockedTo = some locked → (stream.validateSSRC ssrc).2 = true →
        ssrc ≠ locked → audit.Permits ssrc stream.correctionBlocked := by
  rcases stream.validateSSRC_cases ssrc with
    ⟨unlocked, result⟩ | ⟨isLocked, own, result⟩ | ⟨isLocked, other, due, result⟩ |
      ⟨isLocked, other, _, result⟩
  · have free := tracked.lockedTo_none unlocked
    rw [result, Audit.received, free, if_neg (by simp), if_pos rfl]
    refine ⟨Tracked.lock nonzero rfl rfl rfl, fun _ => rfl, ?_⟩
    intro locked known
    cases known
  · have known : audit.lockedTo = some ssrc := own ▸ tracked.lockedTo_some isLocked
    rw [result, Audit.received, if_pos known]
    refine ⟨⟨tracked.unlocked, tracked.locked, fun _ _ => Nat.le_refl _, ?_⟩, fun _ => own.symm, ?_⟩
    · intro locked isSome
      have before := tracked.alternates locked isSome
      dsimp only
      split
      · exact Nat.le_succ_of_le before
      · exact before
    · intro locked isSome _ different
      rw [known] at isSome
      exact absurd (Option.some.inj isSome) different
  · have known := tracked.lockedTo_some isLocked
    have free : stream.correctionBlocked = false := by
      have unblocked := ((correctionDue_iff _).mp due).1
      rwa [trackAlternate_blocked] at unblocked
    have moved : (stream.trackAlternate ssrc).switchSSRC.remoteSSRC = ssrc :=
      trackAlternate_alternate ssrc free
    have elsewhere : audit.lockedTo ≠ some ssrc := by
      rw [known]
      exact fun same => other (Option.some.inj same).symm
    rw [result, Audit.received, if_neg elsewhere, if_pos rfl]
    refine ⟨Tracked.lock nonzero moved rfl rfl, fun _ => moved, ?_⟩
    intro locked isSome _ _
    exact tracked.permits isSome due
  · have elsewhere : audit.lockedTo ≠ some ssrc := by
      rw [tracked.lockedTo_some isLocked]
      exact fun same => other (Option.some.inj same).symm
    rw [result, Audit.received, if_neg elsewhere, if_neg Bool.false_ne_true]
    refine ⟨tracked.foreign ssrc, fun impossible => ?_, fun _ _ impossible => ?_⟩
    · cases impossible
    · cases impossible

theorem Tracked.validate_drained (nonzero : ssrc ≠ 0)
    (fits : stream.remoteSSRC = 0 ∨ ssrc = stream.remoteSSRC) :
    (stream.validateSSRC ssrc).2 = true ∧ (stream.validateSSRC ssrc).1.remoteSSRC = ssrc ∧
      (∀ locked, audit.lockedTo = some locked → ssrc = locked) ∧
      Tracked (stream.validateSSRC ssrc).1.lockView (audit.drained ssrc true) := by
  rcases stream.validateSSRC_cases ssrc with
    ⟨unlocked, result⟩ | ⟨isLocked, own, result⟩ | ⟨isLocked, other, _, _⟩ |
      ⟨isLocked, other, _, _⟩
  · have free := tracked.lockedTo_none unlocked
    rw [result, Audit.drained, free, if_pos ⟨rfl, by simp⟩]
    refine ⟨rfl, rfl, ?_, Tracked.lock nonzero rfl rfl rfl⟩
    intro locked known
    cases known
  · have known : audit.lockedTo = some ssrc := own ▸ tracked.lockedTo_some isLocked
    rw [result, Audit.drained, if_neg (fun both => both.2 known)]
    refine ⟨rfl, own.symm, ?_, { tracked with since := fun _ _ => Nat.zero_le _ }⟩
    intro locked isSome
    rw [known] at isSome
    exact Option.some.inj isSome
  · exact absurd fits (by simp [isLocked, other])
  · exact absurd fits (by simp [isLocked, other])

end

theorem decodeAndProcess_ne_stopped (config : StreamConfig G O) (stream : RtpStream G O)
    (packet : RtpPacket) (arrival now : Int) (fromBuffer writable : Bool) :
    (stream.decodeAndProcess config packet arrival now fromBuffer writable).2 ≠ .stopped := by
  simp only [decodeAndProcess]
  split
  · intro impossible
    have passed := processAccepted_accepted config (stream.validateSSRC packet.ssrc).1 packet
      arrival now fromBuffer writable
    rw [impossible] at passed
    cases passed
  · intro impossible
    cases impossible

theorem receive_respected (packet : RtpPacket) (arrival now : Int) (writable : Bool)
    (tracked : Tracked stream.lockView audit) (nonzero : packet.ssrc ≠ 0) :
    LockRespected config (stream, audit) (.receive packet arrival now writable) ∧
      Tracked (auditedStep config (stream, audit)
          (.receive packet arrival now writable)).1.1.lockView
        (auditedStep config (stream, audit) (.receive packet arrival now writable)).1.2 := by
  have view := stream.decodeAndProcess_lockView config packet arrival now false writable
  have ran := stream.decodeAndProcess_ne_stopped config packet arrival now false writable
  obtain ⟨kept, carried, permitted⟩ := tracked.validate nonzero
  unfold LockRespected auditedStep
  dsimp only [step, receive, auditEvent]
  cases isStopped : stream.stopped with
  | true =>
    refine ⟨?_, tracked⟩
    intro handled mem
    cases List.mem_singleton.mp mem
    refine ⟨fun impossible => ?_, fun _ _ impossible => ?_⟩
    · cases impossible
    · cases impossible
  | false =>
    rw [if_neg Bool.false_ne_true, if_neg ran]
    rw [← view.1, ← view.2] at kept
    refine ⟨?_, kept⟩
    intro handled mem
    cases List.mem_singleton.mp mem
    constructor
    · intro written
      have accepted := congrArg Outcome.accepted written
      rw [view.2] at accepted
      exact (congrArg LockView.remoteSSRC view.1).trans (carried accepted)
    · intro locked isLocked accepted different
      exact permitted locked isLocked (view.2 ▸ accepted) different

theorem drain_cases (config : StreamConfig G O) (stream : RtpStream G O) (now : Int)
    (writable : Bool) :
    ((stream.drain config now writable).1.lockView = stream.lockView ∧
        (stream.drain config now writable).2 = none) ∨
      ∃ (buffer : JitterBuffer) (entry : BufferedPacket), stream.nextBuffered now = some entry ∧
        stream.drain config now writable =
          (((stream.withBuffer (buffer.pop now).1).decodeAndProcess config entry.packet
              entry.arrival now true writable).1,
            some ⟨entry.packet, ((stream.withBuffer (buffer.pop now).1).decodeAndProcess config
              entry.packet entry.arrival now true writable).2⟩) := by
  unfold drain
  split
  · rename_i buffer _ buffered
    dsimp only
    cases popped : (buffer.pop now).2.packet with
    | none => exact Or.inl ⟨rfl, rfl⟩
    | some entry =>
      refine Or.inr ⟨buffer, entry, ?_, rfl⟩
      unfold nextBuffered
      rw [buffered]
      exact popped
  · exact Or.inl ⟨rfl, rfl⟩

theorem drain_respected (now : Int) (writable : Bool) (tracked : Tracked stream.lockView audit)
    (ordinary : OrdinarySSRC (stream, audit) (.drain now writable)) :
    LockRespected config (stream, audit) (.drain now writable) ∧
      Tracked (auditedStep config (stream, audit) (.drain now writable)).1.1.lockView
        (auditedStep config (stream, audit) (.drain now writable)).1.2 := by
  unfold LockRespected auditedStep
  dsimp only [step]
  rcases stream.drain_cases config now writable with
    ⟨view, nothing⟩ | ⟨buffer, entry, popped, result⟩
  · rw [nothing, view]
    refine ⟨fun handled mem => ?_, tracked⟩
    cases mem
  · obtain ⟨nonzero, fits⟩ := ordinary entry popped
    have kept : Tracked (stream.withBuffer (buffer.pop now).1).lockView audit := tracked
    obtain ⟨passed, carried, same, after⟩ := kept.validate_drained nonzero fits
    have view := (stream.withBuffer (buffer.pop now).1).decodeAndProcess_lockView config
      entry.packet entry.arrival now true writable
    rw [result]
    dsimp only [Option.toList_some, auditEvent]
    rw [view.2, passed, view.1]
    refine ⟨?_, after⟩
    intro handled mem
    cases List.mem_singleton.mp mem
    constructor
    · intro _
      exact (congrArg LockView.remoteSSRC view.1).trans carried
    · intro locked isLocked _ different
      exact absurd (same locked isLocked) different

theorem auditedStep_respected (state : RtpStream G O × Audit) (event : Event)
    (tracked : Tracked state.1.lockView state.2) (ordinary : OrdinarySSRC state event) :
    LockRespected config state event ∧
      Tracked (auditedStep config state event).1.1.lockView
        (auditedStep config state event).1.2 := by
  obtain ⟨stream, audit⟩ := state
  have quiet : ∀ other : Event, (stream.step config other).2 = [] →
      LockRespected config (stream, audit) other := by
    intro other nothing handled mem
    rw [nothing] at mem
    cases mem
  cases event with
  | receive packet arrival now writable =>
    exact receive_respected packet arrival now writable tracked ordinary
  | drain now writable => exact drain_respected now writable tracked ordinary
  | pause pauseRecording pauseTranscription =>
    exact ⟨quiet _ rfl, tracked.flags _ _ _⟩
  | resume => exact ⟨quiet _ rfl, tracked.flags _ _ _⟩
  | resetRemoteSSRC =>
    refine ⟨quiet _ rfl, ⟨fun _ => rfl, ?_, ?_, ?_⟩⟩
    · intro ssrc impossible
      cases impossible
    · intro ssrc impossible
      cases impossible
    · intro ssrc impossible
      cases impossible
  | monitorTick now =>
    refine ⟨quiet _ rfl, ?_⟩
    unfold auditedStep
    dsimp only [step, auditEvent, monitorTick]
    split
    · exact tracked
    · split
      · exact tracked
      · split
        · split
          · exact tracked.flags _ _ _
          · exact tracked.flags _ _ _
        · exact tracked

/-- In every run of a new stream whose packets have ordinary SSRCs, each recorded
packet carries the locked SSRC, and the lock moves without a reset only after thirty
foreign packets in a row and fifty unblocked arrivals of the new SSRC. -/
theorem lock_respected_along (config : StreamConfig G O) (stream : RtpStream G O)
    (events : List Event) (unlocked : stream.remoteSSRC = 0)
    (ordinary : Transducer.Along (auditedStep config) OrdinarySSRC (stream, .start) events) :
    Transducer.Along (auditedStep config) (LockRespected config) (stream, .start) events := by
  have start : Tracked stream.lockView Audit.start := by
    refine ⟨fun _ => unlocked, ?_, ?_, ?_⟩
    · intro ssrc impossible
      cases impossible
    · intro ssrc impossible
      cases impossible
    · intro ssrc impossible
      cases impossible
  exact ordinary.imp (fun state => Tracked state.1.lockView state.2)
    (fun state event tracked legal => (auditedStep_respected state event tracked legal).2)
    (fun state event tracked legal => (auditedStep_respected state event tracked legal).1) start

/-- SSRC 0 is taken for "no lock", so the next packet of any SSRC takes the lock. -/
theorem zero_ssrc_lock_moves_at_once :
    ¬ Transducer.Along (auditedStep plainConfig) (LockRespected plainConfig)
      (plainStream, .start)
      [.receive (plainPacket 1 0 0) 0 0 true, .receive (plainPacket 2 1 5) 0 0 true] := by
  intro respected
  have written : (⟨plainPacket 2 1 5, .written⟩ : Handled) ∈
      ((auditedStep plainConfig (plainStream, .start)
        (.receive (plainPacket 1 0 0) 0 0 true)).1.1.step plainConfig
          (.receive (plainPacket 2 1 5) 0 0 true)).2 := by
    decide
  have permitted := (respected.2.1 _ written).2 0 (by decide) rfl (by decide)
  exact absurd permitted.1 (by decide)

theorem ordinary_ssrc_run_respected :
    Transducer.Along (auditedStep plainConfig) (LockRespected plainConfig)
      (plainStream, .start)
      [.receive (plainPacket 1 0 5) 0 0 true, .receive (plainPacket 1 0 6) 0 0 true,
        .receive (plainPacket 2 1 5) 0 0 true] :=
  lock_respected_along plainConfig plainStream _ rfl
    ⟨(by decide : (5 : UInt32) ≠ 0), (by decide : (6 : UInt32) ≠ 0), (by decide : (5 : UInt32) ≠ 0),
      True.intro⟩

end RtpStream

end SiprecServer.Media
