import SiprecServer.Sip.DialogStates

/-!
# Requests from outside the dialog

A peer that knows the Call-ID but not the tags can send BYE, CANCEL and ACK.  BYE looks at
the To tag if there is one, and at the CSeq; CANCEL and ACK look at no tag, and CANCEL is
ignored only once the dialog is connected.
-/

namespace SiprecServer.Sip.Signalling

open Lib.Transducer

variable {G O : Type}

def Message.isForeign (message : Message) (call : CallState) : Bool :=
  message.fromTag ≠ call.remoteTag || message.toTag = "" || message.toTag ≠ call.localTag

/-- The call stays registered, keeps its state or gets connected, and works with the same
forwarders in the same state. -/
structure Unharmed (call : Nat) (before after : Server G O) : Prop where
  registered : after.callStates = some call
  state : (after.calls call).state = (before.calls call).state ∨
    (after.calls call).state = .connected
  media : (after.calls call).media = (before.calls call).media
  forwarders : after.media = before.media

def guards (message : Message) (call : CallState) : Bool :=
  match message.request with
  | .bye =>
    message.toTag ≠ "" && message.toTag ≠ call.localTag ||
      message.cseq ≠ 0 && message.cseq ≤ call.remoteCSeq
  | .cancel => call.state = .connected
  | _ => true

section Steps

variable {config : Config G O} {server : Server G O} {circumstances : Circumstances}
  {message : Message} {call : Nat}

theorem Unharmed.refl (isCall : server.callStates = some call) : Unharmed call server server :=
  ⟨isCall, .inl rfl, rfl, rfl⟩

theorem finalizeCall_harms {callID reason : String} {now : Nat} {change : CallState → CallState}
    (isOpen : (change (server.calls call)).finalized = false) :
    ¬ Unharmed call server
      (finalizeCall callID (server.updateCall call change) call reason now).1 := by
  intro unharmed
  have first : ((server.updateCall call change).calls call).finalized = false := by
    rw [updateCall_same]
    exact isOpen
  have gone := unharmed.registered
  rw [finalizeCall_first first] at gone
  cases gone

theorem refusesBye_isSome_iff {state : CallState} (isBye : message.request = .bye)
    (isOpen : state.IsOpen) (established : state.state = .connected ∨ state.state = .awaitingAck) :
    (refusesBye message state).isSome ↔ guards message state := by
  have answered : ¬ (state.state ≠ .connected ∧ state.state ≠ .terminating ∧
      state.state ≠ .awaitingAck) := by
    rintro ⟨notConnected, -, notAwaiting⟩
    exact established.elim notConnected notAwaiting
  have guarded : guards message state ↔ message.toTag ≠ "" ∧ message.toTag ≠ state.localTag ∨
      message.cseq ≠ 0 ∧ message.cseq ≤ state.remoteCSeq := by
    simp [guards, isBye]
  rw [guarded]
  unfold refusesBye
  split
  case isTrue wrongTag => exact ⟨fun _ => .inl wrongTag.2, fun _ => rfl⟩
  case isFalse rightTag =>
    split
    case isTrue behind => exact ⟨fun _ => .inr behind, fun _ => rfl⟩
    case isFalse ahead =>
      refine ⟨nofun, fun either => ?_⟩
      rcases either with wrongTag | behind
      · exact absurd ⟨isOpen.localTag, wrongTag⟩ rightTag
      · exact absurd behind ahead

end Steps

/-- In every state that overlapping handlers can reach, a BYE, CANCEL or ACK from outside the
dialog, and a CANCEL from anywhere, leaves an established call and its recording alone
exactly when it is an ACK, a CANCEL of a connected call, or a BYE with a wrong To tag or a
CSeq that is not ahead. -/
theorem foreign_request_unharmed_iff (config : Config G O) (phases : List Phase)
    (message : Message) (circumstances : Circumstances) (call : Nat)
    (method : message.request = .bye ∨ message.request = .cancel ∨ message.request = .ack) :
    let server := (run (Overlap.step config) idleOverlap phases).1.server
    server.callStates = some call →
      (server.calls call).state = .connected ∨ (server.calls call).state = .awaitingAck →
      message.isForeign (server.calls call) ∨ message.request = .cancel →
      (Unharmed call server (step config server (.request message circumstances)).1 ↔
        guards message (server.calls call)) := by
  intro server isCall established _
  have known : (run (Overlap.step config) idleOverlap phases).1.Known :=
    run_invariant Overlap.Known (fun _ phase before => Overlap.step_known before phase)
      idleOverlap_known
  have isOpen := (known.sound call isCall).2
  rcases method with isBye | isCancel | isAck
  · rw [← refusesBye_isSome_iff isBye isOpen established]
    simp only [step, handleRequest, isBye, handleByeMessage, isCall]
    cases refusesBye message (server.calls call) with
    | none =>
      exact iff_of_false (finalizeCall_harms isOpen.finalized) Bool.false_ne_true
    | some refusal => exact ⟨fun _ => rfl, fun _ => .refl isCall⟩
  · simp only [step, handleRequest, isCancel, guards, decide_eq_true_eq, handleCancelMessage, isCall]
    rcases established with connected | awaiting
    · rw [if_pos (.inl connected)]
      exact ⟨fun _ => connected, fun _ => .refl isCall⟩
    · rw [awaiting, if_neg (by decide)]
      exact iff_of_false (finalizeCall_harms isOpen.finalized) (by decide)
  · simp only [step, handleRequest, isAck, guards, iff_true]
    rw [handleAckMessage, isCall]
    constructor
    case registered => exact isCall
    case state =>
      rw [updateCall_same]
      exact .inr rfl
    case media =>
      rw [updateCall_same]
      rfl
    case forwarders => rfl

/-- A BYE with a To tag that is a guess does nothing to a connected call. -/
theorem wrong_tag_bye_unharmed :
    let server := (run (Overlap.step plainServer) idleOverlap
      [.whole (invite [1] 1 0), .whole (send .ack 1 1)]).1.server
    Unharmed 0 server (step plainServer server (.request ⟨.bye, "stranger", "guess", 9, []⟩
      { admission := .admitted, granted := 8, rendered := true, now := 2 })).1 :=
  (foreign_request_unharmed_iff plainServer _ _ _ 0 (.inl rfl) (by decide) (by decide)
    (.inl (by decide))).mpr (by decide)

/-- A stranger's BYE without a To tag ends a connected call and stops its forwarder; and a
CANCEL ends a call that has been answered with 200 and awaits its ACK. -/
theorem untagged_bye_ends_call :
    let answered := (run (Overlap.step plainServer) idleOverlap [.whole (invite [1] 1 0)]).1.server
    let connected := (step plainServer answered (send .ack 1 1)).1
    let circumstances : Circumstances :=
      { admission := .admitted, granted := 8, rendered := true, now := 2 }
    let bye : Message := ⟨.bye, "stranger", "", 9, []⟩
    let cancel : Message := ⟨.cancel, "stranger", "", 1, []⟩
    let afterBye := (step plainServer connected (.request bye circumstances)).1
    let afterCancel := (step plainServer answered (.request cancel circumstances)).1
    (connected.calls 0).state = .connected ∧ (connected.media.get 0).stream.stopped = false ∧
      bye.isForeign (connected.calls 0) ∧
      afterBye.callStates = none ∧ (afterBye.media.get 0).stream.stopped ∧
      ¬ Unharmed 0 connected afterBye ∧ ¬ Unharmed 0 answered afterCancel := by
  refine ⟨by decide, by decide, by decide, by decide, by decide, fun unharmed => ?_,
    fun unharmed => ?_⟩
  · exact absurd unharmed.registered (by decide)
  · exact absurd unharmed.registered (by decide)

end SiprecServer.Sip.Signalling
