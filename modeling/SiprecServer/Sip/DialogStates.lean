import SiprecServer.Sip.SignallingSteps

/-!
# The states of a dialog

Handlers of one Call-ID overlap.  The states in the middle of a handler that others can
see are those of an INVITE that rings and of a BYE that has been answered and not yet
finalised; besides, a re-INVITE keeps the call that it has found.  So these handlers are
cut in two, and anything may happen between the halves.
-/

namespace SiprecServer.Sip.Signalling

open Lib.FileSystem Lib.Transducer List
open Sip.ReInvite (Response)

variable {G O : Type}

inductive Pending where
  | invite (call : Nat) (message : Message) (content : ReInvite.Request) (sessionID : String)
  | reInvite (call : Nat) (message : Message) (content : ReInvite.Request) (sessionID : String)
  | bye (call : Nat)

def Pending.call : Pending → Nat
  | .invite call .. => call
  | .reInvite call .. => call
  | .bye call => call

structure Overlap (G O : Type) where
  server : Server G O
  pending : List Pending

inductive Phase where
  /-- Something that happens from beginning to end. -/
  | whole (event : Event)
  /-- An INVITE until it rings, a re-INVITE until it has found its call. -/
  | inviteBegins (message : Message) (content : ReInvite.Request) (sessionID : String) (now : Nat)
  /-- A BYE until it is answered. -/
  | byeBegins (message : Message) (now : Nat)
  /-- The rest of a pending handler. -/
  | resumes (index : Nat) (env : Circumstances)

section

variable (config : Config G O)

def Pending.resume (env : Circumstances) (server : Server G O) :
    Pending → Server G O × List Observation
  | .invite call message content sessionID =>
    answerInvite config env message content sessionID call server
  | .reInvite call message content sessionID =>
    handleSiprecReInvite config env message content sessionID call server
  | .bye call => finalizeCall config.callID server call "terminated" env.now

section

variable (overlap : Overlap G O)

def Overlap.step : Phase → Overlap G O × List Observation
  | .whole event =>
    let after := Signalling.step config overlap.server event
    ({ overlap with server := after.1 }, after.2)
  | .inviteBegins message content sessionID now =>
    match overlap.server.callStates with
    | none =>
      (⟨storeCall message now overlap.server,
        overlap.pending ++ [.invite overlap.server.nextCall message content sessionID]⟩, [])
    | some call =>
      ({ overlap with
        pending := overlap.pending ++ [.reInvite call message content sessionID] }, [])
  | .byeBegins message now =>
    match overlap.server.callStates with
    | none => (overlap, [.response notFound])
    | some call =>
      match refusesBye message (overlap.server.calls call) with
      | some refusal => (overlap, [.response refusal])
      | none =>
        (⟨overlap.server.updateCall call (.byeAccepted message now),
          overlap.pending ++ [.bye call]⟩, [.response .ok])
  | .resumes index env =>
    match overlap.pending[index]? with
    | none => (overlap, [])
    | some handler =>
      let after := handler.resume config env overlap.server
      (⟨after.1, overlap.pending.eraseIdx index⟩, after.2)

def idleOverlap : Overlap G O := ⟨idleServer, []⟩

def DialogState.isClosed : DialogState → Bool
  | .terminating | .terminated => true
  | _ => false

def Server.state? (server : Server G O) (call : Nat) : Option DialogState :=
  if call < server.nextCall then some (server.calls call).state else none

def Server.isClosed (server : Server G O) (call : Nat) : Bool :=
  (server.state? call).any (·.isClosed)

/-- A call gets connected from the state that awaits an ACK and by a matching one only,
and a call that is closed stays so. -/
structure Orderly (acked : Nat → Prop) (before after : Server G O) : Prop where
  connects : ∀ call, before.state? call ≠ some .connected →
    after.state? call = some .connected → before.state? call = some .awaitingAck ∧ acked call
  closes : ∀ call, before.isClosed call → after.isClosed call

def Phase.invite : Phase → Option (Nat × Nat)
  | .whole (.request message env) =>
    if (Event.request message env).isInvite then
      some (overlap.server.callStates.getD overlap.server.nextCall, message.cseq)
    else none
  | .resumes index _ =>
    match overlap.pending[index]? with
    | some (.invite call message _ _) => some (call, message.cseq)
    | some (.reInvite call message _ _) => some (call, message.cseq)
    | _ => none
  | _ => none

def Phase.answered (phase : Phase) : Option (Nat × Nat) :=
  if answersOk (overlap.step config phase).2 then phase.invite overlap else none

def noteAnswer (answered : Store Nat Nat) (phase : Phase) : Store Nat Nat :=
  match phase.answered config overlap with
  | none => answered
  | some (call, cseq) => write answered call cseq

def Phase.ack : Phase → Option (Nat × Nat)
  | .whole (.request message _) =>
    match message.request with
    | .ack => overlap.server.callStates.map fun call => (call, message.cseq)
    | _ => none
  | _ => none

end

def Proper : Overlap G O × Store Nat Nat → Phase → Prop
  | (overlap, answered), phase =>
    Orderly (fun call => ∃ cseq, phase.ack overlap = some (call, cseq) ∧
        answered call = some cseq)
      overlap.server (overlap.step config phase).1.server

/-- An ACK finds the call connected, or it is awaited and has the CSeq of the INVITE; and
no INVITE is answered with success on a closed call. -/
def Expected : Overlap G O × Store Nat Nat → Phase → Prop
  | (overlap, answered), phase =>
    (∀ ack ∈ phase.ack overlap,
      overlap.server.state? ack.1 = some .connected ∨
        overlap.server.state? ack.1 = some .awaitingAck ∧ answered ack.1 = some ack.2) ∧
    ∀ invite ∈ phase.answered config overlap, overlap.server.isClosed invite.1 = false

end

/-! ## Changes of the states -/

open Server

section States

variable {before after : Server G O} {acked : Nat → Prop} {call : Nat}

structure Shift (call : Nat) (state : DialogState) (before after : Server G O) : Prop where
  there : after.state? call = some state
  others : ∀ other, other ≠ call → after.state? other = before.state? other

theorem Orderly.same (same : ∀ call, after.state? call = before.state? call) :
    Orderly acked before after where
  connects call notYet connected := absurd ((same call).symm.trans connected) notYet
  closes call closed := by
    unfold isClosed
    rw [same call]
    exact closed

theorem Orderly.refl : Orderly acked before before := .same fun _ => rfl

variable {state : DialogState} {middle : Server G O} {callID reason : String} {now : Nat}

theorem Shift.orderly_iff (shift : Shift call state before after)
    (notConnected : state ≠ .connected) :
    Orderly acked before after ↔ (before.isClosed call → state.isClosed) := by
  constructor
  · intro orderly closed
    have still := orderly.closes call closed
    rw [isClosed, shift.there] at still
    exact still
  · intro stays
    constructor
    · intro other notYet connected
      by_cases isCall : other = call
      · rw [isCall, shift.there] at connected
        exact absurd (Option.some.inj connected) notConnected
      · exact absurd ((shift.others other isCall).symm.trans connected) notYet
    · intro other closed
      unfold isClosed
      by_cases isCall : other = call
      · rw [isCall, shift.there]
        exact stays (isCall ▸ closed)
      · rw [shift.others other isCall]
        exact closed

theorem Shift.orderly_connected_iff (shift : Shift call .connected before after) :
    Orderly acked before after ↔ before.state? call = some .connected ∨
      before.state? call = some .awaitingAck ∧ acked call := by
  constructor
  · intro orderly
    by_cases already : before.state? call = some .connected
    · exact .inl already
    · exact .inr (orderly.connects call already shift.there)
  · intro expected
    constructor
    · intro other notYet connected
      by_cases isCall : other = call
      · subst isCall
        exact expected.resolve_left notYet
      · exact absurd ((shift.others other isCall).symm.trans connected) notYet
    · intro other closed
      unfold isClosed at closed ⊢
      by_cases isCall : other = call
      · subst isCall
        rcases expected with connected | ⟨awaiting, -⟩
        · rw [connected] at closed
          cases closed
        · rw [awaiting] at closed
          cases closed
      · rw [shift.others other isCall]
        exact closed

theorem Shift.trans {first second : DialogState} (one : Shift call first before middle)
    (two : Shift call second middle after) : Shift call second before after :=
  ⟨two.there, fun other differs => (two.others other differs).trans (one.others other differs)⟩

theorem Shift.closes (shift : Shift call state before after) (closed : state.isClosed) :
    Orderly acked before after := by
  refine (shift.orderly_iff ?_).mpr fun _ => closed
  rintro rfl
  cases closed

theorem Shift.of (known : call < before.nextCall) (nextCall : after.nextCall = before.nextCall)
    (there : (after.calls call).state = state)
    (others : ∀ other, other ≠ call → after.calls other = before.calls other) :
    Shift call state before after where
  there := by
    rw [state?, nextCall, if_pos known, there]
  others other differs := by
    rw [state?, state?, nextCall, others other differs]

theorem state?_congr (nextCall : after.nextCall = before.nextCall)
    (states : ∀ call, (after.calls call).state = (before.calls call).state) (call : Nat) :
    after.state? call = before.state? call := by
  rw [state?, state?, nextCall, states]

theorem updateCall_shift (change : CallState → CallState) (known : call < before.nextCall) :
    Shift call (change (before.calls call)).state before (before.updateCall call change) :=
  .of known rfl (congrArg CallState.state (updateCall_same before call change))
    fun _ differs => updateCall_other before call change differs

theorem finalizeCall_shift (known : call < before.nextCall) :
    (finalizeCall callID before call reason now).1 = before ∨
      Shift call .terminated before (finalizeCall callID before call reason now).1 := by
  unfold finalizeCall
  split
  · exact .inl rfl
  · refine .inr (.of known rfl ?_ fun other differs => ?_)
    · rw [doFinalizeCall_calls, if_pos rfl]
      rfl
    · rw [doFinalizeCall_calls, if_neg differs]

theorem finalizeCall_orderly (known : call < middle.nextCall)
    (same : ∀ call, middle.state? call = before.state? call) :
    Orderly acked before (finalizeCall callID middle call reason now).1 := by
  have outcome : (finalizeCall callID middle call reason now).1 = middle ∨ _ :=
    finalizeCall_shift known
  rcases outcome with unchanged | shift
  · rw [unchanged]
    exact .same same
  · have whole : Shift call .terminated before _ :=
      ⟨shift.there, fun other differs => (shift.others other differs).trans (same other)⟩
    exact whole.closes rfl

theorem Shift.finalizeCall_orderly (shift : Shift call state before middle)
    (known : call < middle.nextCall) (closed : state.isClosed) :
    Orderly acked before (finalizeCall callID middle call reason now).1 := by
  have outcome : (finalizeCall callID middle call reason now).1 = middle ∨ _ :=
    finalizeCall_shift known
  rcases outcome with unchanged | further
  · rw [unchanged]
    exact shift.closes closed
  · exact (shift.trans further).closes rfl

theorem Light.orderly (light : Light before after) : Orderly acked before after where
  connects call notYet connected := by
    rw [state?, light.nextCall] at connected
    rw [state?] at notYet
    split at connected
    case isTrue known =>
      rw [if_pos known] at notYet
      rcases (light.dialogs call).state with same | ⟨-, proceeding⟩
      · rw [same] at connected
        exact absurd connected notYet
      · rw [proceeding] at connected
        cases connected
    case isFalse => cases connected
  closes call closed := by
    rw [isClosed, state?, light.nextCall]
    rw [isClosed, state?] at closed
    split at closed
    case isTrue known =>
      rw [if_pos known]
      rcases (light.dialogs call).state with same | ⟨early, -⟩
      · rw [same]
        exact closed
      · rw [early] at closed
        cases closed
    case isFalse => cases closed

end States

section Invites

variable {config : Config G O} {server : Server G O} {env : Circumstances}
  {message : Message} {content : ReInvite.Request} {sessionID : String} {call : Nat}

structure Invites (call : Nat) (server : Server G O) (after : Server G O × List Observation) :
    Prop where
  succeeds : answersOk after.2 → Shift call .awaitingAck server after.1
  fails : answersOk after.2 = false → ∀ acked, Orderly acked server after.1

theorem Invites.refused {refusal : Response} (failed : refusal.isSuccess = false) :
    Invites call server (server, [.response refusal]) := by
  exact ⟨fun ok => absurd ((answersOk_refusal failed).symm.trans ok) (by decide), fun _ _ => .refl⟩

theorem answerInvite_invites (known : call < server.nextCall) :
    Invites call server
      (answerInvite config env message content sessionID call server) := by
  rcases answerInvite_cases config env message content sessionID call server with
    ⟨success, spec⟩ | ⟨success, refused⟩
  · constructor
    · intro _
      refine .of known spec.nextCall ?_ spec.others
      rw [spec.answered]
      rfl
    · intro notOk
      rw [spec.response] at notOk
      simp [answersOk, success] at notOk
  · rw [refused]
    constructor
    · intro ok
      unfold finalizeCall at ok
      split at ok <;> simp [answersOk, doFinalizeCall, success] at ok
    · intro _ acked
      refine finalizeCall_orderly known (state?_congr rfl fun other => ?_)
      by_cases isCall : other = call
      · rw [isCall, answering_same]
        rfl
      · rw [answering_other isCall]

variable {after : Server G O × List Observation} {now : Nat}

theorem ReInvited.invites
    (spec : ReInvited config env message content sessionID call server after)
    (known : call < server.nextCall) : Invites call server after := by
  by_cases success : (reEstablished config env content call server).1.isSuccess
  · constructor
    · intro _
      refine .of known spec.nextCall ?_ spec.others
      rw [spec.answered, reInvitedCall]
      split
      · rw [if_pos success]
        rfl
      case isFalse unmerged =>
        rw [reEstablished_unmerged (Bool.not_eq_true _ ▸ unmerged)] at success
        simp [Response.isSuccess] at success
    · intro notOk
      rw [spec.response] at notOk
      simp [answersOk, success] at notOk
  · constructor
    · intro ok
      rw [spec.response] at ok
      simp [answersOk, success] at ok
    · intro _ acked
      refine .same (state?_congr spec.nextCall fun other => ?_)
      by_cases isCall : other = call
      · rw [isCall, spec.answered, reInvitedCall]
        split
        · rw [if_neg success]
          rfl
        · rfl
      · rw [spec.others other isCall]

theorem storeCall_shift : Shift server.nextCall .early server (storeCall message now server) where
  there := by
    rw [state?, storeCall_same]
    exact if_pos (Nat.lt_succ_self _)
  others other differs := by
    rw [state?, state?, storeCall_other differs]
    have same : other < server.nextCall + 1 ↔ other < server.nextCall := by omega
    simp only [storeCall, same]

theorem unknown_open (server : Server G O) : server.isClosed server.nextCall = false := by
  rw [isClosed, state?, if_neg (Nat.lt_irrefl _)]
  rfl

theorem Orderly.afterStore {acked : Nat → Prop} {after : Server G O}
    (orderly : Orderly acked (storeCall message now server) after) :
    Orderly acked server after where
  connects call notYet connected := by
    have stored : Shift server.nextCall .early server (storeCall message now server) :=
      storeCall_shift
    by_cases isNew : call = server.nextCall
    · subst isNew
      have early := stored.there
      have wasAwaiting := (orderly.connects _ (by rw [early]; decide) connected).1
      rw [early] at wasAwaiting
      cases wasAwaiting
    · rw [← stored.others call isNew] at notYet ⊢
      exact orderly.connects call notYet connected
  closes call closed := by
    have stored : Shift server.nextCall .early server (storeCall message now server) :=
      storeCall_shift
    have notNew : call ≠ server.nextCall := by
      rintro rfl
      exact absurd ((unknown_open server).symm.trans closed) (by decide)
    refine orderly.closes call ?_
    rw [isClosed, stored.others call notNew]
    exact closed

theorem entered_invites :
    Invites server.nextCall server
      (answerInvite config env message content sessionID server.nextCall
        (storeCall message env.now server)) := by
  have stored : Shift server.nextCall .early server
      (storeCall message env.now server) := storeCall_shift
  have rest : Invites server.nextCall (storeCall message env.now server)
      (answerInvite config env message content sessionID server.nextCall _) :=
    answerInvite_invites (Nat.lt_succ_self _)
  constructor
  · exact fun ok => stored.trans (rest.succeeds ok)
  · exact fun notOk acked => (rest.fails notOk acked).afterStore

theorem InviteOutcome.invites
    (outcome : InviteOutcome config env message content sessionID server after)
    (known : ∀ call ∈ server.callStates, call < server.nextCall) :
    Invites (server.callStates.getD server.nextCall) server after := by
  cases outcome with
  | refused refusal failed result =>
    rw [result]
    exact .refused failed
  | entered none_ result =>
    rw [none_, result]
    exact entered_invites
  | reInvited call isCall goesOn spec =>
    rw [isCall]
    exact spec.invites (known call isCall)

end Invites

theorem EndOutcome.orderly {config : Config G O} {server : Server G O}
    {after : Server G O × List Observation} {acked : Nat → Prop}
    (outcome : EndOutcome config server after)
    (known : ∀ call ∈ server.callStates, call < server.nextCall) :
    Orderly acked server after.1 := by
  cases outcome with
  | spared responses result =>
    rw [result]
    exact .refl
  | ended call isCall change concluded reason now responses state observed =>
    have exists_ := known call isCall
    have shift : Shift call _ server (server.updateCall call change) :=
      updateCall_shift change exists_
    rw [state]
    rcases concluded.state with same | terminating
    · refine finalizeCall_orderly exists_ (state?_congr rfl fun other => ?_)
      by_cases isOther : other = call
      · rw [isOther, updateCall_same, same]
      · rw [updateCall_other _ _ _ isOther]
    · exact shift.finalizeCall_orderly exists_ (by rw [terminating]; rfl)

/-! ## Calls that exist -/

section Counted

variable {config : Config G O} {server after : Server G O} {env : Circumstances}
  {message : Message} {content : ReInvite.Request} {sessionID : String} {call : Nat}

structure CallState.IsOpen (call : CallState) : Prop where
  finalized : call.finalized = false
  localTag : call.localTag ≠ ""

def Server.Sound (server : Server G O) : Prop :=
  ∀ call ∈ server.callStates, call < server.nextCall ∧ (server.calls call).IsOpen

/-- No call is forgotten, and the registered one stays open. -/
structure Counted (server after : Server G O) : Prop where
  nextCall : server.nextCall ≤ after.nextCall
  sound : server.Sound → after.Sound

theorem Counted.trans {middle : Server G O} (one : Counted server middle)
    (two : Counted middle after) : Counted server after :=
  ⟨one.nextCall.trans two.nextCall, fun sound => two.sound (one.sound sound)⟩

theorem Counted.same (nextCall : after.nextCall = server.nextCall)
    (callStates : after.callStates = server.callStates)
    (opens : ∀ call, (server.calls call).IsOpen → (after.calls call).IsOpen) :
    Counted server after := by
  refine ⟨Nat.le_of_eq nextCall.symm, fun sound call isCall => ?_⟩
  obtain ⟨known, isOpen⟩ := sound call (callStates ▸ isCall)
  exact ⟨nextCall ▸ known, opens call isOpen⟩

theorem Counted.refl : Counted server server := .same rfl rfl fun _ isOpen => isOpen

theorem Light.counted (light : Light server after) : Counted server after :=
  .same light.nextCall light.callStates fun call isOpen =>
    ⟨(light.dialogs call).finalized.trans isOpen.finalized,
      (light.dialogs call).localTag ▸ isOpen.localTag⟩

theorem updateCall_counted {change : CallState → CallState}
    (opens : (server.calls call).IsOpen → (change (server.calls call)).IsOpen) :
    Counted server (server.updateCall call change) := by
  refine .same rfl rfl fun other isOpen => ?_
  by_cases isCall : other = call
  · rw [isCall, updateCall_same]
    exact opens (isCall ▸ isOpen)
  · rw [updateCall_other _ _ _ isCall]
    exact isOpen

theorem finalizeCall_counted {callID reason : String} {now : Nat} :
    Counted server (finalizeCall callID server call reason now).1 := by
  unfold finalizeCall
  split
  · exact .refl
  · exact ⟨Nat.le_refl _, fun _ _ isCall => absurd isCall (Option.not_mem_none _)⟩

theorem storeCall_counted {now : Nat} : Counted server (storeCall message now server) := by
  refine ⟨Nat.le_succ _, fun _ call isCall => ?_⟩
  cases isCall
  rw [storeCall_same]
  exact ⟨Nat.lt_succ_self _, rfl, generateTag_ne now⟩

theorem answerInvite_counted : Counted server
    (answerInvite config env message content sessionID call server).1 := by
  rcases answerInvite_cases config env message content sessionID call server with
    ⟨_, spec⟩ | ⟨_, refused⟩
  · refine .same spec.nextCall spec.callStates fun other isOpen => ?_
    by_cases isCall : other = call
    · subst isCall
      rw [spec.answered]
      exact ⟨isOpen.finalized, isOpen.localTag⟩
    · rw [spec.others other isCall]
      exact isOpen
  · rw [refused]
    have kept : Counted server
        (answering config env message content sessionID call server) := by
      refine .same rfl rfl fun other isOpen => ?_
      by_cases isCall : other = call
      · subst isCall
        rw [answering_same]
        exact ⟨isOpen.finalized, isOpen.localTag⟩
      · rw [answering_other isCall]
        exact isOpen
    exact kept.trans finalizeCall_counted

variable {after : Server G O × List Observation}

theorem ReInvited.counted
    (spec : ReInvited config env message content sessionID call server after) :
    Counted server after.1 := by
  refine .same spec.nextCall spec.callStates fun other isOpen => ?_
  by_cases isCall : other = call
  · subst isCall
    rw [spec.answered, reInvitedCall]
    split
    · dsimp only
      split
      · exact ⟨isOpen.finalized, isOpen.localTag⟩
      · exact ⟨isOpen.finalized, isOpen.localTag⟩
    · exact isOpen
  · rw [spec.others other isCall]
    exact isOpen

theorem InviteOutcome.counted
    (outcome : InviteOutcome config env message content sessionID server after) :
    Counted server after.1 := by
  cases outcome with
  | refused refusal failed result =>
    rw [result]
    exact .refl
  | entered none_ result =>
    rw [result]
    exact storeCall_counted.trans answerInvite_counted
  | reInvited call isCall goesOn spec => exact spec.counted

theorem EndOutcome.counted (outcome : EndOutcome config server after) : Counted server after.1 := by
  cases outcome with
  | spared responses result =>
    rw [result]
    exact .refl
  | ended call isCall change concluded reason now responses state observed =>
    have opens : (server.calls call).IsOpen → (change (server.calls call)).IsOpen :=
      fun isOpen => ⟨concluded.finalized.trans isOpen.finalized,
        concluded.localTag ▸ isOpen.localTag⟩
    rw [state]
    exact (updateCall_counted opens).trans finalizeCall_counted

theorem step_counted (config : Config G O) (server : Server G O) (event : Event) :
    Counted server (step config server event).1 := by
  cases step_outcome config server event with
  | light isLight kept => exact kept.counted
  | invites message env content sessionID isEvent isInvite outcome =>
    exact outcome.counted
  | acks message env call isEvent isAck isCall result =>
    rw [result]
    exact updateCall_counted fun isOpen => ⟨isOpen.finalized, isOpen.localTag⟩
  | ends notInvite outcome => exact outcome.counted

theorem Pending.resume_counted (handler : Pending) :
    Counted server (handler.resume config env server).1 := by
  cases handler with
  | invite call message content sessionID => exact answerInvite_counted
  | reInvite call message content sessionID => exact handleSiprecReInvite_spec.counted
  | bye call => exact finalizeCall_counted

end Counted

structure Overlap.Known (overlap : Overlap G O) : Prop where
  sound : overlap.server.Sound
  pending : ∀ handler ∈ overlap.pending, handler.call < overlap.server.nextCall

theorem idleOverlap_known : (idleOverlap : Overlap G O).Known where
  sound _ isCall := absurd isCall (Option.not_mem_none _)
  pending _ mem := absurd mem not_mem_nil

section Runs

variable {config : Config G O} {overlap : Overlap G O}

theorem Overlap.Known.registered (known : overlap.Known) (call : Nat)
    (isCall : call ∈ overlap.server.callStates) : call < overlap.server.nextCall :=
  (known.sound call isCall).1

theorem Overlap.Known.counted {server : Server G O} {pending : List Pending}
    (known : overlap.Known) (counted : Counted overlap.server server)
    (new : ∀ handler ∈ pending, handler ∈ overlap.pending ∨ handler.call < server.nextCall) :
    (Overlap.mk server pending).Known where
  sound := counted.sound known.sound
  pending handler mem := by
    rcases new handler mem with old | isNew
    · exact Nat.lt_of_lt_of_le (known.pending handler old) counted.nextCall
    · exact isNew

theorem Overlap.step_known (known : overlap.Known) (phase : Phase) :
    (overlap.step config phase).1.Known := by
  cases phase with
  | whole event =>
    exact known.counted (step_counted config overlap.server event) fun _ old => .inl old
  | inviteBegins message content sessionID now =>
    simp only [Overlap.step]
    split
    · refine known.counted storeCall_counted fun handler mem => ?_
      refine (mem_append.mp mem).imp_right fun new => ?_
      rw [mem_singleton.mp new]
      exact Nat.lt_succ_self _
    case h_2 call isCall =>
      refine known.counted .refl fun handler mem => ?_
      refine (mem_append.mp mem).imp_right fun new => ?_
      rw [mem_singleton.mp new]
      exact known.registered call isCall
  | byeBegins message now =>
    simp only [Overlap.step]
    split
    · exact known
    case h_2 call isCall =>
      split
      · exact known
      · refine known.counted (updateCall_counted fun isOpen =>
          ⟨isOpen.finalized, isOpen.localTag⟩) fun handler mem => ?_
        refine (mem_append.mp mem).imp_right fun new => ?_
        rw [mem_singleton.mp new]
        exact known.registered call isCall
  | resumes index env =>
    simp only [Overlap.step]
    split
    · exact known
    · exact known.counted (Pending.resume_counted _) fun _ mem =>
        .inl (mem_of_mem_eraseIdx mem)

theorem Invites.proper_iff {acked : Nat → Prop} {call : Nat} {server : Server G O}
    {after : Server G O × List Observation} (invites : Invites call server after) :
    Orderly acked server after.1 ↔ (answersOk after.2 → server.isClosed call = false) := by
  cases ok : answersOk after.2 with
  | false =>
    exact ⟨fun _ => nofun, fun _ => invites.fails ok acked⟩
  | true =>
    rw [(invites.succeeds ok).orderly_iff (by decide)]
    cases server.isClosed call with
    | false => exact ⟨fun _ _ => rfl, fun _ => nofun⟩
    | true =>
      exact ⟨fun closed => absurd (closed rfl) (by decide),
        fun open_ => absurd (open_ rfl) (by decide)⟩

variable {phase : Phase} {answered : Store Nat Nat}

theorem mem_answered_iff {invite : Nat × Nat} : invite ∈ phase.answered config overlap ↔
      invite ∈ phase.invite overlap ∧ answersOk (overlap.step config phase).2 := by
  unfold Phase.answered
  split
  case isTrue ok => exact ⟨fun isInvite => ⟨isInvite, ok⟩, And.left⟩
  case isFalse notOk => exact ⟨nofun, fun both => absurd both.2 notOk⟩

section

variable (noAck : phase.ack overlap = none)

include noAck

theorem expected_iff :
    Expected config (overlap, answered) phase ↔
      ∀ invite ∈ phase.invite overlap, answersOk (overlap.step config phase).2 →
        overlap.server.isClosed invite.1 = false := by
  constructor
  · intro expected invite isInvite ok
    exact expected.2 invite (mem_answered_iff.mpr ⟨isInvite, ok⟩)
  · intro open_
    refine ⟨?_, fun invite isAnswered => ?_⟩
    · rw [noAck]
      exact nofun
    · obtain ⟨isInvite, ok⟩ := mem_answered_iff.mp isAnswered
      exact open_ invite isInvite ok

theorem proper_iff_of_orderly (noInvite : phase.invite overlap = none)
    (orderly : Orderly (fun call => ∃ cseq, phase.ack overlap = some (call, cseq) ∧
      answered call = some cseq) overlap.server (overlap.step config phase).1.server) :
    Proper config (overlap, answered) phase ↔ Expected config (overlap, answered) phase := by
  rw [expected_iff noAck, noInvite]
  exact ⟨fun _ => nofun, fun _ => orderly⟩

theorem proper_iff_of_invites {call cseq : Nat}
    (isInvite : phase.invite overlap = some (call, cseq)) (invites : Invites call overlap.server
      ((overlap.step config phase).1.server, (overlap.step config phase).2)) :
    Proper config (overlap, answered) phase ↔ Expected config (overlap, answered) phase := by
  rw [expected_iff noAck, isInvite]
  refine invites.proper_iff.trans ⟨fun open_ invite isThis ok => ?_, fun open_ ok => ?_⟩
  · cases isThis
    exact open_ ok
  · exact open_ (call, cseq) rfl ok

end

theorem ack_proper_iff {message : Message} {env : Circumstances} (known : overlap.Known)
    (isAck : message.request = .ack) :
    Proper config (overlap, answered) (.whole (.request message env)) ↔
      Expected config (overlap, answered) (.whole (.request message env)) := by
  have noInvite : Phase.invite overlap (.whole (.request message env)) = none := by
    simp [Phase.invite, Event.isInvite, Event.inviteContent, isAck]
  have handled : ((overlap.step config (.whole (.request message env))).1.server) =
      (handleAckMessage env message overlap.server).1 := by
    simp only [Overlap.step, step, handleRequest, isAck]
  cases registered : overlap.server.callStates with
  | none =>
    have noAck : Phase.ack overlap (.whole (.request message env)) = none := by
      simp [Phase.ack, isAck, registered]
    refine proper_iff_of_orderly noAck noInvite ?_
    rw [handled, handleAckMessage, registered]
    exact .refl
  | some call =>
    have ack : Phase.ack overlap (.whole (.request message env)) =
        some (call, message.cseq) := by
      simp [Phase.ack, isAck, registered]
    have shift : Shift call .connected overlap.server
        (overlap.step config (.whole (.request message env))).1.server := by
      rw [handled, handleAckMessage, registered]
      exact updateCall_shift (.acked message env.now) (known.registered call registered)
    refine shift.orderly_connected_iff.trans ⟨fun awaited => ⟨?_, ?_⟩, fun expected => ?_⟩
    · intro pair isPair
      cases ack.symm.trans isPair
      refine awaited.imp_right fun answered => ?_
      obtain ⟨awaiting, cseq, same, matching⟩ := answered
      cases ack.symm.trans same
      exact ⟨awaiting, matching⟩
    · intro invite isAnswered
      rw [mem_answered_iff, noInvite] at isAnswered
      cases isAnswered.1
    · exact (expected.1 _ ack).imp_right fun answered => ⟨answered.1, _, ack, answered.2⟩

theorem whole_proper_iff (known : overlap.Known) (event : Event) :
    Proper config (overlap, answered) (.whole event) ↔
      Expected config (overlap, answered) (.whole event) := by
  by_cases light : event.isLight
  · have kept : Light overlap.server (step config overlap.server event).1 := step_light light
    have neither : Phase.ack overlap (.whole event) = none ∧
        Phase.invite overlap (.whole event) = none := by
      cases event with
      | request message env =>
        obtain ⟨request, fromTag, toTag, cseq, body⟩ := message
        cases request with
        | invite content sessionID => cases light
        | ack => cases light
        | _ => exact ⟨rfl, rfl⟩
      | _ => exact ⟨rfl, rfl⟩
    exact proper_iff_of_orderly neither.1 neither.2 kept.orderly
  · cases event with
    | request message env =>
      obtain ⟨request, fromTag, toTag, cseq, body⟩ := message
      cases request with
      | invite content sessionID =>
        exact proper_iff_of_invites rfl rfl
          (handleInviteMessage_outcome.invites known.registered)
      | ack => exact ack_proper_iff known rfl
      | bye =>
        exact proper_iff_of_orderly rfl rfl (handleByeMessage_outcome.orderly known.registered)
      | cancel =>
        exact proper_iff_of_orderly rfl rfl
          (handleCancelMessage_outcome.orderly known.registered)
      | _ => exact absurd rfl light
    | reap now =>
      exact proper_iff_of_orderly rfl rfl (reapStaleDialogs_outcome.orderly known.registered)
    | _ => exact absurd rfl light

theorem phase_proper_iff (known : overlap.Known) (phase : Phase) :
    Proper config (overlap, answered) phase ↔ Expected config (overlap, answered) phase := by
  cases phase with
  | whole event => exact whole_proper_iff known event
  | inviteBegins message content sessionID now =>
    refine proper_iff_of_orderly rfl rfl ?_
    simp only [Overlap.step]
    split
    · refine (storeCall_shift.orderly_iff (by decide)).mpr fun closed => ?_
      exact absurd ((unknown_open _).symm.trans closed) (by decide)
    · exact .refl
  | byeBegins message now =>
    refine proper_iff_of_orderly rfl rfl ?_
    simp only [Overlap.step]
    split
    · exact .refl
    case h_2 call isCall =>
      split
      · exact .refl
      · exact (updateCall_shift (.byeAccepted message now) (known.registered call isCall)).closes
          rfl
  | resumes index env =>
    cases isPending : overlap.pending[index]? with
    | none =>
      refine proper_iff_of_orderly rfl (by simp only [Phase.invite, isPending]) ?_
      simp only [Overlap.step, isPending]
      exact .refl
    | some handler =>
      have exists_ := known.pending handler (mem_of_getElem? isPending)
      cases handler with
      | invite call message content sessionID =>
        have isInvite : Phase.invite overlap (.resumes index env) =
            some (call, message.cseq) := by
          simp only [Phase.invite, isPending]
        refine proper_iff_of_invites rfl isInvite ?_
        simp only [Overlap.step, isPending]
        exact answerInvite_invites exists_
      | reInvite call message content sessionID =>
        have isInvite : Phase.invite overlap (.resumes index env) =
            some (call, message.cseq) := by
          simp only [Phase.invite, isPending]
        refine proper_iff_of_invites rfl isInvite ?_
        simp only [Overlap.step, isPending]
        exact handleSiprecReInvite_spec.invites exists_
      | bye call =>
        refine proper_iff_of_orderly rfl (by simp only [Phase.invite, isPending]) ?_
        simp only [Overlap.step, isPending]
        exact finalizeCall_orderly exists_ fun _ => rfl

/-- The dialog reaches its connected state by an ACK that matches and from the state that
awaits it, and stays closed once it is, exactly in the runs in which every ACK on a call
that is not connected is awaited and matches, and no INVITE is answered with success on a
closed call. -/
theorem dialog_states_proper_iff (config : Config G O) (phases : List Phase) :
    Along (tracked (Overlap.step config) (noteAnswer config)) (Proper config)
        (idleOverlap, empty) phases ↔
      Along (tracked (Overlap.step config) (noteAnswer config)) (Expected config)
        (idleOverlap, empty) phases := by
  constructor
  · intro proper
    exact proper.imp (fun state => state.1.Known)
      (fun state phase known _ => Overlap.step_known known phase)
      (fun state phase known => (phase_proper_iff known phase).mp) idleOverlap_known
  · intro expected
    exact expected.imp (fun state => state.1.Known)
      (fun state phase known _ => Overlap.step_known known phase)
      (fun state phase known => (phase_proper_iff known phase).mpr) idleOverlap_known

/-- The INVITE has CSeq 1, the ACK 7: the dialog is connected all the same. -/
theorem foreign_ack_connects :
    let before := (run (Overlap.step plainServer) idleOverlap [.whole (invite [1] 1 0)]).1
    let ack := Phase.whole (send .ack 7 1)
    before.server.state? 0 = some .awaitingAck ∧
      ((before.step plainServer ack).1.server.state? 0) = some .connected ∧
      ¬ Along (tracked (Overlap.step plainServer) (noteAnswer plainServer)) (Proper plainServer)
        (idleOverlap, empty) [.whole (invite [1] 1 0), ack] := by
  refine ⟨by decide, by decide, fun proper => ?_⟩
  obtain ⟨cseq, isAck, matching⟩ := (proper.2.1.connects 0 (by decide) (by decide)).2
  have seven : some 7 = some cseq := congrArg (Option.map Prod.snd) isAck
  cases seven
  exact absurd matching (by decide)

-- An ACK that comes while the BYE that overtook it is finalised reopens the dialog.
example :
    let before := (run (Overlap.step plainServer) idleOverlap
      [.whole (invite [1] 1 0), .byeBegins ⟨.bye, "caller", generateTag 0, 2, []⟩ 1]).1
    before.server.state? 0 = some .terminating ∧
      (before.step plainServer (.whole (send .ack 1 2))).1.server.state? 0 =
        some .connected := by
  decide

end Runs

end SiprecServer.Sip.Signalling
