import SiprecServer.Sip.SignallingSteps

/-!
# The CSeq of a dialog

Only BYE compares its CSeq with the remembered one.  ACK and re-INVITE overwrite it, and
UPDATE and the other requests neither read nor write it.  So the order of the requests is
what keeps the remembered CSeq from falling.
-/

namespace SiprecServer.Sip.Signalling

open Lib.Transducer

variable {G O : Type}

def accepts (config : Config G O) (server : Server G O) (message : Message)
    (env : Circumstances) : Bool :=
  match message.request with
  | .ack => server.callStates.isSome
  | _ => answersOk (handleRequest config env message server).2

def noteHighest (config : Config G O) (server : Server G O) (highest : Nat) : Event → Nat
  | .request message env =>
    if accepts config server message env then
      max (if server.callStates.isSome then highest else 0) message.cseq
    else highest
  | _ => highest

def Event.inDialogCSeq : Event → Option Nat
  | .request message _ =>
    match message.request with
    | .invite _ _ | .update _ _ | .bye => some message.cseq
    | _ => none
  | _ => none

/-- The remembered CSeq does not fall, and a re-INVITE, UPDATE or BYE behind the highest
CSeq accepted is rejected without a change. -/
structure Ordered (config : Config G O) (state : Server G O × Nat) (event : Event) : Prop where
  remembered : ∀ call < state.1.nextCall, (state.1.calls call).remoteCSeq ≤
    ((step config state.1 event).1.calls call).remoteCSeq
  late : state.1.callStates.isSome → ∀ cseq ∈ event.inDialogCSeq, cseq < state.2 →
    answersOk (step config state.1 event).2 = false ∧ (step config state.1 event).1 = state.1

def inOrder (highest : Nat) (env : Circumstances) (message : Message)
    (call : CallState) : Bool :=
  match message.request with
  | .invite content _ =>
    refusedAtOnce env content ||
      highest ≤ message.cseq && call.remoteCSeq ≤ message.cseq
  | .update _ _ => highest ≤ message.cseq
  | .bye => highest ≤ message.cseq || (refusesBye message call).isSome
  | .ack => message.cseq = 0 || call.remoteCSeq ≤ message.cseq
  | _ => true

def Advancing : Server G O × Nat → Event → Prop
  | (server, highest), .request message env =>
    ∀ call ∈ server.callStates, inOrder highest env message (server.calls call)
  | _, _ => True

instance : ∀ (state : Server G O × Nat) (event : Event), Decidable (Advancing state event)
  | (server, highest), .request message env =>
    inferInstanceAs (Decidable (∀ call ∈ server.callStates,
      inOrder highest env message (server.calls call) = true))
  | _, .reap _ | _, .pauseSession _ _ _ | _, .resumeSession _ | _, .staleSession _
  | _, .rtp _ _ _ _ _ | _, .drain _ _ _ | _, .monitorTick _ _ | _, .forwarderStops _
  | _, .otherCallEntered _ _ | _, .otherCallFinalised _ =>
    isTrue True.intro

section Steps

variable {config : Config G O} {server : Server G O} {env : Circumstances}
  {message : Message} {content : ReInvite.Request} {sessionID : String} {call highest : Nat}

variable {after : Server G O × List Observation} {event : Event}

theorem remembered_of_call {after : Server G O}
    (others : ∀ other, other ≠ call → after.calls other = server.calls other)
    (here : (server.calls call).remoteCSeq ≤ (after.calls call).remoteCSeq) (other : Nat) :
    (server.calls other).remoteCSeq ≤ (after.calls other).remoteCSeq := by
  by_cases isCall : other = call
  · rw [isCall]
    exact here
  · rw [others other isCall]

theorem InviteOutcome.remembered
    (outcome : InviteOutcome config env message content sessionID server after)
    (inOrder : ∀ call ∈ server.callStates,
      refusedAtOnce env content ∨ (server.calls call).remoteCSeq ≤ message.cseq) (other : Nat)
    (known : other < server.nextCall) :
    (server.calls other).remoteCSeq ≤ (after.1.calls other).remoteCSeq := by
  cases outcome with
  | refused refusal failed result => rw [result]
  | entered none_ result => rw [result, entered_others (Nat.ne_of_lt known)]
  | reInvited call isCall goesOn spec =>
    refine remembered_of_call spec.others ?_ other
    rw [spec.answered]
    unfold reInvitedCall
    split
    · have later := (inOrder call isCall).resolve_left (Bool.eq_false_iff.mp goesOn)
      dsimp only
      split
      · exact later
      · exact later
    · exact Nat.le_refl _

theorem EndOutcome.remembered (outcome : EndOutcome config server after) (other : Nat) :
    (server.calls other).remoteCSeq ≤ (after.1.calls other).remoteCSeq := by
  cases outcome with
  | spared responses result => rw [result]
  | ended call isCall change concluded reason now responses state observed =>
    rw [state, finalizeCall_remoteCSeq]
    refine remembered_of_call (fun _ differs => updateCall_other server call _ differs) ?_ other
    rw [updateCall_same]
    exact concluded.remoteCSeq

theorem step_remembered (advancing : Advancing (server, highest) event) (other : Nat)
    (known : other < server.nextCall) :
    (server.calls other).remoteCSeq ≤
      ((step config server event).1.calls other).remoteCSeq := by
  cases step_outcome config server event with
  | light isLight kept => exact Nat.le_of_eq (kept.dialogs other).remoteCSeq.symm
  | invites message env content sessionID isEvent isInvite outcome =>
    subst isEvent
    refine outcome.remembered (fun call isCall => ?_) other known
    have ordered := advancing call isCall
    simp only [inOrder, isInvite, Bool.or_eq_true, Bool.and_eq_true, decide_eq_true_eq]
      at ordered
    exact ordered.imp_right And.right
  | acks message env call isEvent isAck isCall result =>
    subst isEvent
    rw [result]
    refine remembered_of_call (fun _ differs => updateCall_other server call _ differs) ?_ other
    have ordered : message.cseq = 0 ∨ (server.calls call).remoteCSeq ≤ message.cseq := by
      simpa [inOrder, isAck] using advancing call isCall
    rw [updateCall_same]
    unfold CallState.acked
    split
    case isTrue given => exact ordered.resolve_left given
    case isFalse => exact Nat.le_refl _
  | ends notInvite outcome => exact outcome.remembered other

theorem refusesBye_isSuccess {state : CallState} {refusal : ReInvite.Response}
    (refused : refusesBye message state = some refusal) : refusal.isSuccess = false := by
  unfold refusesBye at refused
  split at refused
  · cases refused
    rfl
  · split at refused
    · cases refused
      rfl
    · split at refused
      · cases refused
        rfl
      · cases refused

theorem step_late (advancing : Advancing (server, highest) event)
    (isCall : server.callStates = some call) {cseq : Nat} (isCSeq : cseq ∈ event.inDialogCSeq)
    (late : cseq < highest) :
    answersOk (step config server event).2 = false ∧ (step config server event).1 = server := by
  cases event with
  | request message env =>
    have ordered := advancing call isCall
    obtain ⟨request, fromTag, toTag, number, body⟩ := message
    cases request with
    | invite content sessionID =>
      cases isCSeq
      simp only [inOrder, Bool.or_eq_true, Bool.and_eq_true, decide_eq_true_eq] at ordered
      have refused := ordered.resolve_right fun both => Nat.not_le_of_lt late both.1
      obtain ⟨refusal, failed, unchanged⟩ := handleInviteMessage_refusedAtOnce isCall refused
      simp only [step, handleRequest]
      rw [unchanged]
      exact ⟨answersOk_refusal failed, rfl⟩
    | update metadata isSDP =>
      cases isCSeq
      simp only [inOrder, decide_eq_true_eq] at ordered
      exact absurd late (Nat.not_lt_of_le ordered)
    | bye =>
      cases isCSeq
      simp only [inOrder, Bool.or_eq_true, decide_eq_true_eq] at ordered
      have refused := ordered.resolve_left (Nat.not_le_of_lt late)
      obtain ⟨refusal, isRefusal⟩ := Option.isSome_iff_exists.mp refused
      simp only [step, handleRequest, handleByeMessage, isCall, isRefusal]
      exact ⟨answersOk_refusal (refusesBye_isSuccess isRefusal), True.intro⟩
    | _ => cases isCSeq
  | _ => cases isCSeq

end Steps

/-- In a run whose re-INVITEs, UPDATEs, BYEs and ACKs come in order or are refused for
another reason, the remembered CSeq of a call never falls, and what comes late is rejected
without a change. -/
theorem cseq_never_falls (config : Config G O) (events : List Event)
    (advancing : Along (tracked (step config) (noteHighest config)) Advancing (idleServer, 0)
      events) :
    Along (tracked (step config) (noteHighest config)) (Ordered config) (idleServer, 0)
      events := by
  refine advancing.imp (fun _ => True) (fun _ _ _ _ => True.intro)
    (fun state event _ advances => ⟨step_remembered advances, ?_⟩) True.intro
  intro registered cseq isCSeq late
  obtain ⟨call, isCall⟩ := Option.isSome_iff_exists.mp registered
  exact step_late advances isCall isCSeq late

theorem orderly_call_cseq :
    Along (tracked (step plainServer) (noteHighest plainServer)) (Ordered plainServer)
      (idleServer, 0)
      [invite [1] 1 0, send .ack 1 1, invite [1] 2 2, send .ack 2 3, send .info 3 4,
        send .bye 1 5, send .bye 4 6] :=
  cseq_never_falls plainServer _ (by decide)

/-- After CSeq 5 a re-INVITE with CSeq 3 is accepted and remembered. -/
theorem late_reInvite_accepted :
    let before := (run (step plainServer) idleServer [invite [1] 5 0, send .ack 5 1]).1
    let after := step plainServer before (invite [1] 3 2)
    (before.calls 0).remoteCSeq = 5 ∧ answersOk after.2 ∧ (after.1.calls 0).remoteCSeq = 3 ∧
      ¬ Along (tracked (step plainServer) (noteHighest plainServer)) (Ordered plainServer)
        (idleServer, 0) [invite [1] 5 0, send .ack 5 1, invite [1] 3 2] := by
  refine ⟨by decide, by decide, by decide, fun ordered => ?_⟩
  exact absurd (ordered.2.2.1.remembered 0 (by decide)) (by decide)

end SiprecServer.Sip.Signalling
