import SiprecServer.Sip.CallLifecycle

/-!
# Orderly runs and the stages of a call

A run of the handlers is orderly if finalisation and the changes of a call's media
never overlap, a new call does not meet an unfinished one, and the two registries use
one key.  In an orderly run the server is always at one of a few stages: no unfinished
call, one open call that at most one handler works on, or one call that one handler is
finalising.  Each stage says which forwarders may still hold ports.
-/

namespace SiprecServer.Sip.Lifecycle

namespace Point

def call : Point → Option Nat
  | .request _ => none
  | .inviteNew => none
  | .inviteStored call => some call
  | .inviteEarly call => some call
  | .inviteAllocating call _ _ => some call
  | .invitePublished call _ _ => some call
  | .inviteAnswering call => some call
  | .inviteAnswered call => some call
  | .reInvite call => some call
  | .reInviteAllocating call _ _ _ => some call
  | .reInvitePublishing call _ _ => some call
  | .reInviteAnswering call => some call
  | .byeAccepted call => some call
  | .closing call => some call
  | .finalizing call _ => some call

def isMedia : Point → Bool
  | .inviteStored _ => true
  | .inviteEarly _ => true
  | .inviteAllocating _ _ _ => true
  | .invitePublished _ _ _ => true
  | .inviteAnswering _ => true
  | .inviteAnswered _ => true
  | .reInvite _ => true
  | .reInviteAllocating _ _ _ _ => true
  | .reInvitePublishing _ _ _ => true
  | .reInviteAnswering _ => true
  | _ => false

def isFinalizing : Point → Bool
  | .finalizing _ _ => true
  | _ => false

def works (point : Point) : Bool := point.isMedia || point.isFinalizing

/-- The forwarders that may hold ports while a handler at this point works on a call:
those it holds itself, or else those of the call state. -/
def held (call : CallState) : Point → List Nat
  | .inviteStored _ => []
  | .inviteEarly _ => []
  | .inviteAllocating _ _ forwarders => forwarders
  | .invitePublished _ _ forwarders => forwarders
  | .reInviteAllocating _ _ _ forwarders => forwarders
  | .reInvitePublishing _ _ forwarders => forwarders
  | _ => call.primary

def Consistent (call : CallState) : Point → Prop
  | .invitePublished _ _ forwarders => forwarders ⊆ call.primary
  | .reInviteAllocating _ _ existing forwarders =>
    existing ≤ forwarders.length ∧ forwarders.take existing ⊆ call.primary
  | _ => True

end Point

def Server.NoneAt (server : Server) (kind : Point → Bool) : Prop :=
  ∀ thread < server.nextThread, ∀ point ∈ server.handlers thread, kind point = false

instance (server : Server) (kind : Point → Bool) : Decidable (server.NoneAt kind) :=
  inferInstanceAs (Decidable (∀ thread < server.nextThread,
    ∀ point ∈ server.handlers thread, kind point = false))

def keepsKey (callID sessionID : String) : Prop := sessionID = "" ∨ sessionID = callID

instance (callID sessionID : String) : Decidable (keepsKey callID sessionID) :=
  inferInstanceAs (Decidable (_ ∨ _))

def OrderlyAt (callID : String) (server : Server) (outcome : Outcome) : Point → Prop
  -- A re-INVITE finds no other handler at work on the call.
  | .request .invite =>
    outcome ≠ .fails → server.callStates.isSome → server.NoneAt Point.works
  -- A new call is stored when there is none and no finalisation is going on.
  | .inviteNew =>
    outcome ≠ .fails → server.callStates = none ∧ server.NoneAt Point.isFinalizing
  | .inviteEarly _ =>
    match outcome with
    | .offer sessionID _ => keepsKey callID sessionID
    | _ => True
  -- Forwarders that a re-INVITE drops have released their ports.
  | .reInvite call =>
    match outcome with
    | .reoffer sessionID stopped _ _ _ =>
      (∀ f ∈ stopped, server.ports f = none) ∧
        ((server.calls call).sessionID = none → ∀ id ∈ sessionID, keepsKey callID id)
    | _ => True
  -- A re-INVITE that cannot allocate a forwarder has not allocated any.
  | .reInviteAllocating _ streams existing forwarders =>
    forwarders.length < streams.length → outcome = .fails → forwarders.length ≤ existing
  -- Finalisation begins when no INVITE or re-INVITE of the call is in progress.
  | .closing call =>
    (server.calls call).finalizeOnce = .idle → server.NoneAt Point.isMedia
  | _ => True

def Orderly (callID : String) (server : Server) : Action → Prop
  | .proceed thread outcome =>
    ∀ point ∈ server.handlers thread, OrderlyAt callID server outcome point
  | _ => True

instance (callID : String) (server : Server) (outcome : Outcome) :
    ∀ point, Decidable (OrderlyAt callID server outcome point)
  | .request .invite => inferInstanceAs (Decidable (_ → _ → _))
  | .request .ack | .request .bye | .request .cancel | .request .update
  | .request .reap => isTrue True.intro
  | .inviteNew => inferInstanceAs (Decidable (_ → _ ∧ _))
  | .inviteEarly _ =>
    match outcome with
    | .offer _ _ => inferInstanceAs (Decidable (keepsKey _ _))
    | .succeeds | .fails | .reoffer _ _ _ _ _ | .srtpMissing _ => isTrue True.intro
  | .reInvite _ =>
    match outcome with
    | .reoffer _ _ _ _ _ => inferInstanceAs (Decidable (_ ∧ _))
    | .succeeds | .fails | .offer _ _ | .srtpMissing _ => isTrue True.intro
  | .reInviteAllocating _ _ _ _ => inferInstanceAs (Decidable (_ → _ → _))
  | .closing _ => inferInstanceAs (Decidable (_ → _))
  | .inviteStored _ | .inviteAllocating _ _ _ | .invitePublished _ _ _ | .inviteAnswering _
  | .inviteAnswered _ | .reInvitePublishing _ _ _ | .reInviteAnswering _ | .byeAccepted _
  | .finalizing _ _ => isTrue True.intro

instance (callID : String) (server : Server) : ∀ action, Decidable (Orderly callID server action)
  | .proceed _ _ => inferInstanceAs (Decidable (∀ point ∈ _, OrderlyAt _ _ _ point))
  | .arrive _ | .forwarderExits _ => isTrue True.intro

/-! ## Stages -/

inductive Stage where
  | absent
  | open (call : Nat) (worker : Option (Nat × Point))
  | ending (call thread : Nat) (phase : Phase)

namespace Stage

def call : Stage → Option Nat
  | .absent => none
  | .open call _ => some call
  | .ending call _ _ => some call

def thread : Stage → Option Nat
  | .absent => none
  | .open _ worker => worker.map (·.1)
  | .ending _ thread _ => some thread

def entry : Stage → Option Nat
  | .absent => none
  | .open call _ => some call
  | .ending _ _ .active => none
  | .ending call _ _ => some call

def held (calls : Nat → CallState) : Stage → List Nat
  | .absent => []
  | .open call none => (calls call).primary
  | .open call (some (_, point)) => point.held (calls call)
  | .ending call _ .primary => (calls call).primary
  | .ending _ _ _ => []

def Local (callID : String) (server : Server) : Stage → Prop
  | .absent => True
  | .open call worker =>
    (server.calls call).finalizeOnce = .idle ∧
      (server.calls call).activeKey callID = callID ∧
      ∀ thread point, worker = some (thread, point) →
        server.handlers thread = some point ∧ point.isMedia ∧ point.call = some call ∧
          point.Consistent (server.calls call)
  | .ending call thread phase =>
    (server.calls call).finalizeOnce = .running ∧
      server.handlers thread = some (.finalizing call phase)

end Stage

/-- The handlers are known, they have looked up known calls, and only `worker` works. -/
structure Attended (server : Server) (worker : Option Nat) : Prop where
  threads : ∀ thread point, server.handlers thread = some point → thread < server.nextThread
  known : ∀ thread point, server.handlers thread = some point → ∀ call ∈ point.call,
    call < server.nextCall
  workers : ∀ thread point, server.handlers thread = some point → point.works →
    worker = some thread

structure Fits (callID : String) (server : Server) (stage : Stage) : Prop where
  attended : Attended server stage.thread
  current : ∀ call ∈ stage.call, call < server.nextCall
  finished : ∀ call < server.nextCall, stage.call ≠ some call →
    (server.calls call).finalizeOnce = .done
  ports : ∀ f call, server.ports f = some call →
    stage.call = some call ∧ f ∈ stage.held server.calls
  active : ∀ key call, server.activeCalls key = some call → stage.call = some call ∧ key = callID
  entry : server.callStates = stage.entry
  here : stage.Local callID server

def Tidy (callID : String) (server : Server) : Prop := ∃ stage, Fits callID server stage

theorem idleServer_tidy (callID : String) : Tidy callID idleServer := by
  refine ⟨.absent, ⟨?_, ?_, ?_⟩, ?_, ?_, ?_, ?_, rfl, True.intro⟩
  · intro thread point at_
    cases at_
  · intro thread point at_
    cases at_
  · intro thread point at_
    cases at_
  · intro call mem
    cases mem
  · intro call small
    exact absurd small (Nat.not_lt_zero _)
  · intro f call held
    cases held
  · intro key call stored
    cases stored

section Changes

variable {callID : String} {server : Server} {stage : Stage} {thread : Nat} {point : Point}

theorem goto_same (next : Option Point) : (server.goto thread next).handlers thread = next :=
  if_pos rfl

variable {other : Nat} {next : Option Point} {before after : CallState}

theorem goto_other (different : other ≠ thread) (next : Option Point) :
    (server.goto thread next).handlers other = server.handlers other := if_neg different

theorem goto_handlers (at_ : (server.goto thread next).handlers other = some point) :
    (other = thread ∧ point ∈ next) ∨ (other ≠ thread ∧ server.handlers other = some point) := by
  by_cases same : other = thread
  · rw [same, goto_same] at at_
    exact Or.inl ⟨same, at_⟩
  · rw [goto_other same] at at_
    exact Or.inr ⟨same, at_⟩

theorem Attended.goto {worker newWorker : Option Nat} {after : Server}
    (attended : Attended server worker) (standing : server.handlers thread = some point)
    (handlers : after.handlers = (server.goto thread next).handlers)
    (nextThread : after.nextThread = server.nextThread)
    (nextCall : server.nextCall ≤ after.nextCall)
    (onCall : ∀ point ∈ next, (∀ call ∈ point.call, call < after.nextCall) ∧
      (point.works → newWorker = some thread))
    (others : ∀ other, other ≠ thread → worker = some other → newWorker = some other) :
    Attended after newWorker := by
  refine ⟨?_, ?_, ?_⟩ <;> intro other point at_ <;> rw [handlers] at at_ <;>
    rcases goto_handlers at_ with ⟨rfl, mem⟩ | ⟨different, before⟩
  · exact nextThread ▸ attended.threads other _ standing
  · exact nextThread ▸ attended.threads other point before
  · exact (onCall point mem).1
  · exact fun call mem =>
      Nat.lt_of_lt_of_le (attended.known other point before call mem) nextCall
  · exact (onCall point mem).2
  · exact fun works => others other different (attended.workers other point before works)

def Calm (server : Server) (next : Option Point) : Prop :=
  ∀ point ∈ next, point.works = false ∧ ∀ call ∈ point.call, call < server.nextCall

theorem Fits.bystander (fits : Fits callID server stage)
    (standing : server.handlers thread = some point) (calm : point.works = false)
    (staysCalm : Calm server next) :
    Fits callID (server.goto thread next) stage := by
  refine { fits with attended := ?_, here := ?_ }
  · refine fits.attended.goto standing rfl rfl (Nat.le_refl _) ?_ fun other _ same => same
    intro point mem
    obtain ⟨stillCalm, known⟩ := staysCalm point mem
    exact ⟨known, fun works => absurd works (Bool.eq_false_iff.mp stillCalm)⟩
  · have kept : ∀ other working, server.handlers other = some working → working.works →
        (server.goto thread next).handlers other = some working := by
      intro other working at_ works
      refine (goto_other ?_ next).trans at_
      rintro rfl
      cases at_.symm.trans standing
      exact absurd works (Bool.eq_false_iff.mp calm)
    cases stage with
    | absent => exact True.intro
    | «open» call worker =>
      obtain ⟨idle, key, atWork⟩ := fits.here
      refine ⟨idle, key, fun other working same => ?_⟩
      obtain ⟨at_, media, rest⟩ := atWork other working same
      exact ⟨kept other working at_ (by rw [Point.works, media]; rfl), media, rest⟩
    | ending call other phase =>
      obtain ⟨running, at_⟩ := fits.here
      exact ⟨running, kept other _ at_ rfl⟩

/-- The stages depend on a call state through its forwarders, its session and its once. -/
structure SameMedia (before after : CallState) : Prop where
  primary : after.primary = before.primary
  session : after.sessionID = before.sessionID
  once : after.finalizeOnce = before.finalizeOnce

theorem consistent_congr (same : after.primary = before.primary) {point : Point}
    (consistent : point.Consistent before) : point.Consistent after := by
  cases point <;> simp_all [Point.Consistent]

theorem held_congr {before after : Nat → CallState}
    (same : ∀ call, SameMedia (before call) (after call)) (stage : Stage) :
    stage.held after = stage.held before := by
  cases stage with
  | absent => rfl
  | «open» call worker =>
    cases worker with
    | none => exact (same call).primary
    | some worker =>
      obtain ⟨thread, point⟩ := worker
      cases point <;> first | rfl | exact (same call).primary
  | ending call thread phase =>
    cases phase with
    | primary => exact (same call).primary
    | _ => rfl

theorem activeKey_congr (same : after.sessionID = before.sessionID) :
    after.activeKey callID = before.activeKey callID := by
  rw [CallState.activeKey, CallState.activeKey, same]

variable (fits : Fits callID server stage)

include fits

theorem Fits.sameMedia {calls : Nat → CallState}
    (same : ∀ call, SameMedia (server.calls call) (calls call)) :
    Fits callID { server with calls } stage := by
  refine { fits with attended := ?_, finished := ?_, ports := ?_, here := ?_ }
  · exact { fits.attended with }
  · intro call small other
    exact (same call).once.trans (fits.finished call small other)
  · intro f call held
    have inside := fits.ports f call held
    rw [← held_congr same] at inside
    exact inside
  · cases stage with
    | absent => exact True.intro
    | «open» call worker =>
      obtain ⟨idle, key, atWork⟩ := fits.here
      refine ⟨(same call).once.trans idle, (activeKey_congr (same call).session).trans key, ?_⟩
      intro other point worker
      obtain ⟨at_, media, onCall, consistent⟩ := atWork other point worker
      exact ⟨at_, media, onCall, consistent_congr (same call).primary consistent⟩
    | ending call other phase =>
      obtain ⟨running, at_⟩ := fits.here
      exact ⟨(same call).once.trans running, at_⟩

theorem Fits.setState (call : Nat) (state : DialogState) :
    Fits callID (server.setState call state) stage := by
  refine fits.sameMedia fun other => ?_
  split
  · exact ⟨rfl, rfl, rfl⟩
  · exact ⟨rfl, rfl, rfl⟩

omit fits in
theorem cleanUp_ports {forwarders : List Nat} {f call : Nat} :
    (server.cleanUp forwarders).ports f = some call ↔
      f ∉ forwarders ∧ server.ports f = some call := by
  by_cases mem : f ∈ forwarders
  · simp [Server.cleanUp, mem]
  · simp [Server.cleanUp, mem]

theorem Fits.cleanUp (forwarders : List Nat) : Fits callID (server.cleanUp forwarders) stage :=
  { fits with
    attended := { fits.attended with }
    ports := fun f call held => fits.ports f call (cleanUp_ports.mp held).2
    here := fits.here }

end Changes

end SiprecServer.Sip.Lifecycle
