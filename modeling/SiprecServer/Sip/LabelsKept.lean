import SiprecServer.Sip.StreamMapping

/-!
# The forwarders of the labels over a whole call

A re-INVITE maps the labels of its offer to the forwarders by position.  No two labels
ever share a forwarder.  A label that keeps its position keeps its forwarder as long as
no forwarder before it has stopped.
-/

namespace SiprecServer.Sip.Signalling

open Lib.FileSystem Lib.Transducer Media List
open Sip.ReInvite (Dialog Positioned WellMapped audioLabels)

variable {G O : Type} {config : Config G O} {server : Server G O}

/-! ## Offers -/

def Server.dialog (server : Server G O) (call : Nat) : Dialog G O :=
  ⟨(server.calls call).media, server.media⟩

section

variable (config : Config G O)

def offered (content : ReInvite.Request) : Option (List String) :=
  (ReInvite.parsedSDP config.toConfig content.sdp).map audioLabels

def noteOffer (_ : Server G O) (labels : List String) (event : Event) : List String :=
  (event.inviteContent.bind (offered config)).getD labels

def Observation.isSuccess : Observation → Bool
  | .response sent => sent.isSuccess
  | _ => true

def Successful (server : Server G O) (event : Event) : Prop :=
  event.isInvite → ∀ observed ∈ (step config server event).2, observed.isSuccess

/-- An INVITE has an offer with distinct labels, and comes when no forwarder goes on
behind one that has stopped. -/
def InPlace (server : Server G O) (event : Event) : Prop :=
  ∀ content ∈ event.inviteContent,
    (∃ labels ∈ offered config content, labels.Nodup) ∧
      ∀ call ∈ server.callStates, (server.calls call).media.rtpForwarders.Pairwise
        fun earlier later => (server.dialog call).live later → (server.dialog call).live earlier

end

instance (config : Config G O) (server : Server G O) (event : Event) :
    Decidable (Successful config server event) :=
  inferInstanceAs (Decidable (_ → _))

instance (config : Config G O) (server : Server G O) (event : Event) :
    Decidable (InPlace config server event) :=
  inferInstanceAs (Decidable (∀ content ∈ event.inviteContent, _))

/-- A label that keeps its position in the offer keeps the forwarder that goes on. -/
def Kept (config : Config G O) : Server G O × List String → Event → Prop
  | (server, labels), event =>
    event.isInvite → ∀ call ∈ server.callStates, ∀ (position : Nat) label f,
      labels[position]? = some label →
      (noteOffer config server labels event)[position]? = some label →
      (server.dialog call).call.streamForwarders label = some f →
      (server.dialog call).live f →
      let after := (step config server event).1.dialog call
      after.call.streamForwarders label = some f ∧ after.live f

section Exchanges

variable {env : Circumstances} {message : Message} {content : ReInvite.Request}
  {sessionID : String} {call : Nat} {after : Server G O × List Observation}

theorem ReInvited.dialog
    (spec : ReInvited config env message content sessionID call server after) :
    after.1.dialog call = (reEstablished config env content call server).2 := by
  rw [Server.dialog, spec.answered, reInvitedCall_media, spec.media]

theorem Accepted.dialog
    (spec : Accepted config env message content sessionID call server after) :
    after.1.dialog call = (established config env message content call server).2 := by
  rw [Server.dialog, spec.answered, spec.media]
  rfl

theorem Accepted.mapped (success : (established config env message content server.nextCall
      (storeCall message env.now server)).1.isSuccess)
    (spec : Accepted config env message content sessionID server.nextCall
      (storeCall message env.now server) after) :
    WellMapped (after.1.dialog server.nextCall) ∧
      ∃ labels ∈ offered config content,
        Positioned labels (after.1.dialog server.nextCall).call := by
  rw [spec.dialog]
  unfold established at success ⊢
  rw [storeCall_same] at success ⊢
  obtain ⟨mapped, offer, parsed, positioned⟩ := establish_mapped rfl rfl success
  refine ⟨mapped, audioLabels offer, ?_, positioned⟩
  unfold offered
  rw [parsed]
  rfl

end Exchanges

def Mapped (server : Server G O) : Prop :=
  ∀ call ∈ server.callStates, WellMapped (server.dialog call)

variable {event : Event}

theorem step_mapped (settled : Settled server) (mapped : Mapped server) :
    Mapped (step config server event).1 := by
  intro call registered
  cases step_continues settled registered with
  | same isCall forwarders next refused =>
    exact (mapped call isCall).same next forwarders.rtpForwarders forwarders.rtpForwarder
      forwarders.streamForwarders
  | reInvited isCall isInvite spec =>
    rw [spec.dialog]
    exact (mapped call isCall).reInvite
  | invited none_ isNew isInvite success spec =>
    subst isNew
    exact (Accepted.mapped success spec).1

structure Current (server : Server G O) (labels : List String) : Prop where
  settled : Settled server
  mapped : Mapped server
  positioned : ∀ call ∈ server.callStates,
    labels.Nodup ∧ Positioned labels (server.dialog call).call

theorem noteOffer_other {labels : List String} (other : event.isInvite ≠ true) :
    noteOffer config server labels event = labels := by
  unfold noteOffer
  cases content : event.inviteContent with
  | none => rfl
  | some content => simp [Event.isInvite, content] at other

section Invited

variable {env : Circumstances} {message : Message} {content : ReInvite.Request}
  {sessionID : String} {labels : List String}

theorem inviteContent_request (isInvite : message.request = .invite content sessionID) :
    (Event.request message env).inviteContent = some content := by
  simp only [Event.inviteContent, isInvite]

theorem noteOffer_invite (isInvite : message.request = .invite content sessionID) :
    noteOffer config server labels (.request message env) =
      (offered config content).getD labels := by
  rw [noteOffer, inviteContent_request isInvite]
  rfl

theorem Successful.reInvited {call : Nat} (isCall : server.callStates = some call)
    (isInvite : message.request = .invite content sessionID)
    (successful : Successful config server (.request message env)) :
    ReInvited config env message content sessionID call server
        (step config server (.request message env)) ∧
      (reEstablished config env content call server).1.isSuccess := by
  have succeeds := successful (congrArg Option.isSome (inviteContent_request isInvite))
  simp only [step, handleRequest, isInvite, handleInviteMessage] at succeeds ⊢
  split at succeeds
  case h_4 =>
    split at succeeds
    case isTrue multipart =>
      rw [isCall] at succeeds ⊢
      rw [if_pos multipart]
      have spec : ReInvited config env message content sessionID call server _ :=
        handleSiprecReInvite_spec
      refine ⟨spec, succeeds (.response _) ?_⟩
      rw [spec.response]
      exact mem_singleton.mpr rfl
    case isFalse => exact absurd (succeeds _ (mem_singleton.mpr rfl)) (by decide)
  all_goals exact absurd (succeeds _ (mem_singleton.mpr rfl)) (by decide)

end Invited

section

variable {labels : List String} (current : Current server labels)
  (successful : Successful config server event) (inPlace : InPlace config server event)

include current successful inPlace

theorem step_current :
    Current (step config server event).1 (noteOffer config server labels event) := by
  refine ⟨step_settled current.settled, step_mapped current.settled current.mapped, ?_⟩
  intro call registered
  cases step_continues current.settled registered with
  | same isCall forwarders next refused =>
    have notInvite : event.isInvite ≠ true := by
      intro isInvite
      obtain ⟨refusal, isRefused, failed⟩ := refused isInvite
      have succeeds := successful isInvite (.response refusal)
      rw [isRefused] at succeeds
      exact absurd (failed.symm.trans (succeeds (mem_singleton.mpr rfl))) (by decide)
    rw [noteOffer_other notInvite]
    obtain ⟨distinct, positioned⟩ := current.positioned call isCall
    refine ⟨distinct, ?_⟩
    unfold Positioned Server.dialog at positioned ⊢
    rw [forwarders.streamForwarders, forwarders.rtpForwarders]
    exact positioned
  | reInvited isCall isInvite spec =>
    obtain ⟨⟨offer, isOffer, distinct⟩, -⟩ := inPlace _ (inviteContent_request isInvite)
    obtain ⟨descriptions, parsed, rfl⟩ := Option.map_eq_some_iff.mp isOffer
    rw [noteOffer_invite isInvite, isOffer, Option.getD_some, spec.dialog]
    exact ⟨distinct, ReInvite.reInvite_positioned (successful.reInvited isCall isInvite).2 parsed⟩
  | invited none_ isNew isInvite success spec =>
    subst isNew
    obtain ⟨⟨offer, isOffer, distinct⟩, -⟩ := inPlace _ (inviteContent_request isInvite)
    obtain ⟨-, labels', isOffer', positioned⟩ := Accepted.mapped success spec
    cases Option.some.inj (isOffer.symm.trans isOffer')
    rw [noteOffer_invite isInvite, isOffer, Option.getD_some]
    exact ⟨distinct, positioned⟩

theorem step_kept : Kept config (server, labels) event := by
  intro isInvite call isCall position label f labelled relabelled mapped live
  cases event with
  | request message env =>
    cases request : message.request with
    | invite content sessionID =>
      obtain ⟨⟨offer, isOffer, distinct⟩, gapless⟩ := inPlace _ (inviteContent_request request)
      obtain ⟨descriptions, parsed, rfl⟩ := Option.map_eq_some_iff.mp isOffer
      obtain ⟨spec, success⟩ := successful.reInvited isCall request
      rw [noteOffer_invite request, isOffer, Option.getD_some] at relabelled
      obtain ⟨unique, positioned⟩ := current.positioned call isCall
      have listed := positioned.listed unique labelled mapped
      have alive : ∀ earlier ≤ position, ∀ g,
          (server.dialog call).call.rtpForwarders[earlier]? = some g →
            (server.dialog call).live g := by
        intro earlier before g isListed
        rcases Nat.lt_or_eq_of_le before with earlier_ | same
        · obtain ⟨inside, rfl⟩ := List.getElem?_eq_some_iff.mp isListed
          obtain ⟨inside', rfl⟩ := List.getElem?_eq_some_iff.mp listed
          exact pairwise_iff_getElem.mp (gapless call isCall) earlier position inside inside'
            earlier_ live
        · subst same
          cases Option.some.inj (listed.symm.trans isListed)
          exact live
      obtain ⟨within, -⟩ := List.getElem?_eq_some_iff.mp relabelled
      obtain ⟨kept, goesOn⟩ := ReInvite.reInvite_keeps (current.mapped call isCall) success
        parsed listed alive within
      rw [spec.dialog]
      exact ⟨(ReInvite.reInvite_positioned success parsed).forwarder distinct relabelled kept,
        goesOn⟩
    | _ => simp [Event.isInvite, Event.inviteContent, request] at isInvite
  | _ => cases isInvite

end

/-- No two labels ever share a forwarder; and in a run whose INVITEs succeed, have offers
with distinct labels and come when no forwarder goes on behind a stopped one, every label
that keeps its position keeps its forwarder. -/
theorem labels_keep_forwarders (config : Config G O) (events : List Event) :
    (∀ call ∈ (run (step config) idleServer events).1.callStates,
      Injective
        ((run (step config) idleServer events).1.calls call).media.streamForwarders) ∧
      (Along (tracked (step config) (noteOffer config))
          (fun state event =>
            Successful config state.1 event ∧ InPlace config state.1 event)
          (idleServer, []) events →
        Along (tracked (step config) (noteOffer config)) (Kept config) (idleServer, [])
          events) := by
  constructor
  · have kept : Settled (run (step config) idleServer events).1 ∧
        Mapped (run (step config) idleServer events).1 :=
      run_invariant (fun server => Settled server ∧ Mapped server)
        (fun server event before => ⟨step_settled before.1, step_mapped before.1 before.2⟩)
        ⟨idleServer_settled, nofun⟩
    exact fun call registered => (kept.2 call registered).injective
  · intro along
    exact along.imp (fun state => Current state.1 state.2)
      (fun state event current good => step_current current good.1 good.2)
      (fun state event current good => step_kept current good.1 good.2)
      ⟨idleServer_settled, nofun, nofun⟩

theorem first_label_keeps_forwarder :
    Along (tracked (step plainServer) (noteOffer plainServer)) (Kept plainServer) (idleServer, [])
      [invite [1, 2] 1 0, send .ack 1 1, .forwarderStops 1, invite [1, 2] 2 2] :=
  (labels_keep_forwarders plainServer _).2 (by decide)

/-- The first of two forwarders stops and the offer is repeated: the callee's forwarder
goes on, but it is now the caller's, and the callee gets a new one. -/
theorem callee_loses_forwarder :
    let before := (run (step plainServer) idleServer
      [invite [1, 2] 1 0, send .ack 1 1, .forwarderStops 0]).1
    let after := (step plainServer before (invite [1, 2] 2 2)).1
    ((before.calls 0).media.streamForwarders "caller",
        (before.calls 0).media.streamForwarders "callee") = (some 0, some 1) ∧
      (before.media.get 1).stream.stopped = false ∧
      ((after.calls 0).media.streamForwarders "caller",
        (after.calls 0).media.streamForwarders "callee") = (some 1, some 2) ∧
      ¬ Kept plainServer (before, ["caller", "callee"]) (invite [1, 2] 2 2) := by
  refine ⟨by decide, by decide, by decide, fun kept => ?_⟩
  have same := (kept rfl 0 (by decide) 1 "callee" 1 rfl (by decide) (by decide) (by decide)).1
  exact absurd same (by decide)

end SiprecServer.Sip.Signalling
