import SiprecServer.Cdr.CdrService
import SiprecServer.Lib.Registry
import SiprecServer.Lib.Transducer
import SiprecServer.Sip.RecordingSession

/-!
# The CDRs of the calls

A call starts a CDR under the session ID of its metadata and ends the CDR under this ID
when it is finalised.  The calls of a server run at the same time: the events are what
their handlers do to the sessions and to the CDR service, in any order that one call
allows.
-/

namespace SiprecServer.Sip.CallRecords

open Lib.FileSystem Lib.Registry Lib.Transducer Cdr List
open Sip.ReInvite (RSMetadata RecordingSession updateRecordingSession)

structure CallSession where
  id : String
  session : RecordingSession

/-- How far `handleSiprecInvite` has come with the session it created. -/
inductive Invite where
  | entered
  | sessionStored (id : String)
  | cdrStarted (id : String) (startTime : Nat)
deriving DecidableEq

/-- The state of `finalizeOnce`; `done` once the CDR has been dealt with. -/
inductive Finalization where
  | idle
  | running (reason : String)
  | done
deriving DecidableEq

structure Call where
  callID : String
  remoteAddr : String
  transport : String
  recordingSession : Option CallSession := none
  invite : Invite := .entered
  finalizeOnce : Finalization := .idle

structure Server where
  calls : Store Nat Call
  nextCall : Nat
  service : CDRService

def Server.started : Server := ⟨empty, 0, ⟨empty, some []⟩⟩

structure Config extends Cdr.Config where
  rfc3339 : Nat → String
  toLower : String → String

inductive Event where
  | inviteEntered (callID remoteAddr transport : String)
  | sessionStored (call : Nat) (session : CallSession)
  | cdrStarted (call now : Nat)
  -- the identifiers of the vendor that the INVITE names, by column
  | cdrDescribed (call : Nat) (identifiers : List (String × String)) (now : Nat)
  -- a re-INVITE also brings the session to create if there is none, an UPDATE does not
  | metadataMerged (call : Nat) (metadata : RSMetadata) (created : Option CallSession) (now : Nat)
  | finalizing (call : Nat) (reason : String) (now : Nat)
  | cdrEnded (call now : Nat) (failure : Option String)

/-! ## What the handlers do -/

def Server.setCall (server : Server) (call : Nat) (state : Call) : Server :=
  { server with calls := write server.calls call state }

def Server.enter (server : Server) (state : Call) : Server :=
  { server.setCall server.nextCall state with nextCall := server.nextCall + 1 }

def sessionUpdate (session : RecordingSession) (texts : List (String × String)) : CDRUpdate :=
  { participantCount :=
      if 0 < session.participants.length then some session.participants.length else none
    streamCount :=
      if 0 < session.mediaStreamTypes.length then some session.mediaStreamTypes.length else none
    texts := writeAll empty texts }

section

variable (config : Config)

/-- Nothing is updated for a session that says nothing; errors are logged. -/
def describeSession (id : String) (session : RecordingSession) (texts : List (String × String))
    (now : Nat) (service : CDRService) : CDRService :=
  if 0 < session.participants.length ∨ 0 < session.mediaStreamTypes.length ∨ texts ≠ [] then
    (updateSession config.toConfig id (sessionUpdate session texts) now service).2
  else service

section

variable (server : Server)

def mergeMetadata (call : Nat) (state : Call) (metadata : RSMetadata)
    (created : Option CallSession) (now : Nat) : Server :=
  match state.recordingSession with
  | none => server.setCall call { state with recordingSession := created }
  | some old =>
    let session := updateRecordingSession config.rfc3339 now metadata old.session
    { server.setCall call { state with recordingSession := some ⟨old.id, session⟩ } with
      service := describeSession config old.id session [] now server.service }

def closingState (reason state : String) : String :=
  if reason = "" then state
  else if reason = "terminated" then "terminated"
  else if reason = "cancelled" then
    if state = "" ∨ state = "active" then "cancelled" else state
  else if state = "" then reason
  else state

def closeSession (reason : String) (now : Nat) (session : RecordingSession) : RecordingSession :=
  { session with
    recordingState := closingState reason session.recordingState
    endTime := some now
    updatedAt := now
    extendedMetadata := write session.extendedMetadata "termination_reason" reason }

def startFinalizing (call : Nat) (state : Call) (reason : String) (now : Nat) : Server :=
  match state.finalizeOnce with
  | .idle =>
    server.setCall call
      { state with
        finalizeOnce := .running reason
        recordingSession := state.recordingSession.map fun old =>
          { old with session := closeSession reason now old.session } }
  | _ => server

def statusFor (text : String) (otherwise : Status) : Status :=
  if text = "cancelled" then .partly
  else if text = "failed" ∨ text = "error" then .failed
  else otherwise

def finalStatus (recordingState reason : String) : Status :=
  statusFor (config.toLower reason) (statusFor (config.toLower recordingState) .completed)

/-- The CDR is ended for a call that has a session; errors are logged. -/
def endCDR (reason : String) (failure : Option String) (now : Nat) :
    Option CallSession → CDRService → CDRService
  | none, service => service
  | some recording, service =>
    let status := finalStatus config recording.session.recordingState reason
    let errorMessage := if status = .failed ∧ reason ≠ "" then some reason else none
    (endSession config.toConfig recording.id status errorMessage failure now service).2

def finishFinalizing (call : Nat) (state : Call) (failure : Option String) (now : Nat) : Server :=
  match state.finalizeOnce with
  | .running reason =>
    { server.setCall call { state with finalizeOnce := .done } with
      service := endCDR config reason failure now state.recordingSession server.service }
  | _ => server

/-- An INVITE stores its session once, and then starts the CDR under the ID of this session. -/
def storeSession (call : Nat) (state : Call) (recording : CallSession) : Server :=
  match state.invite with
  | .entered =>
    server.setCall call
      { state with recordingSession := some recording, invite := .sessionStored recording.id }
  | _ => server

def startCDR (call : Nat) (state : Call) (now : Nat) : Server :=
  match state.invite with
  | .sessionStored id =>
    { server.setCall call { state with invite := .cdrStarted id now } with
      service := startSession id state.callID state.remoteAddr state.transport now
        server.service }
  | _ => server

def describeCDR (state : Call) (identifiers : List (String × String)) (now : Nat) : Server :=
  match state.invite, state.recordingSession with
  | .cdrStarted id _, some recording =>
    { server with
      service := describeSession config id recording.session identifiers now server.service }
  | _, _ => server

def handle (state : Call) : Event → Server
  | .inviteEntered _ _ _ => server
  | .sessionStored call recording => storeSession server call state recording
  | .cdrStarted call now => startCDR server call state now
  | .cdrDescribed _ identifiers now => describeCDR config server state identifiers now
  | .metadataMerged call metadata created now =>
    mergeMetadata config server call state metadata created now
  | .finalizing call reason now => startFinalizing server call state reason now
  | .cdrEnded call now failure => finishFinalizing config server call state failure now

def Event.call : Event → Option Nat
  | .inviteEntered _ _ _ => none
  | .sessionStored call _ => some call
  | .cdrStarted call _ => some call
  | .cdrDescribed call _ _ => some call
  | .metadataMerged call _ _ _ => some call
  | .finalizing call _ _ => some call
  | .cdrEnded call _ _ => some call

def step (event : Event) : Server × List Empty :=
  match event with
  | .inviteEntered callID remoteAddr transport =>
    (server.enter { callID, remoteAddr, transport }, [])
  | event =>
    match event.call.bind server.calls with
    | none => (server, [])
    | some state => (handle config server state event, [])

/-! ## Whose CDRs they are -/

def Call.record (state : Call) : Option Origin :=
  match state.invite with
  | .cdrStarted id startTime => some ⟨id, state.callID, state.remoteAddr, startTime⟩
  | _ => none

def Call.gone (state : Call) : Bool := state.finalizeOnce = .done

def Call.opened (state : Call) : Option Origin := if state.gone then none else state.record

def Call.settled (state : Call) : Option Origin := if state.gone then state.record else none

def Server.opened : Store Nat Origin := fun call =>
  (server.calls call).bind Call.opened

def Server.settled : Store Nat Origin := fun call =>
  (server.calls call).bind Call.settled

/-- The calls that are gone and for which a CDR was started, in the order of the CDRs of
their own that are stored for them. -/
def Settles (calls : List Nat) : Prop :=
  calls.Nodup ∧ (∀ call, call ∈ calls ↔ server.settled call ≠ none) ∧
    server.service.stored.map (some ·.origin) = calls.map server.settled

end

theorem Settles.congr {before after : Server} {calls : List Nat} (settles : Settles before calls)
    (settled : after.settled = before.settled) (repo : after.service.repo = before.service.repo) :
    Settles after calls := by
  unfold Settles CDRService.stored at settles ⊢
  rw [settled, repo]
  exact settles

structure OwnRecords (server : Server) : Prop where
  stored : ∃ calls, Settles server calls
  active : ∀ id cdr, server.service.activeCDRs id = some cdr →
    ∃ call, server.opened call = some cdr.origin

structure Undisturbed (call : Nat) (before after : Server) : Prop where
  stored : before.service.stored <+: after.service.stored
  others : ∀ other origin, other ≠ call → before.opened other = some origin →
    after.service.activeCDRs origin.sessionID = before.service.activeCDRs origin.sessionID

def KeepsRecords (server : Server) (event : Event) : Prop :=
  OwnRecords (step config server event).1 ∧
    ∀ call now failure, event = .cdrEnded call now failure →
      Undisturbed call server (step config server event).1

end

/-- The CDR is started before the call is finalised and under an ID that no active CDR has. -/
def Call.mayStart (service : CDRService) (state : Call) : Bool :=
  match state.invite with
  | .sessionStored id => !state.gone && (service.activeCDRs id).isNone
  | _ => true

def Call.mayEnd (service : CDRService) (state : Call) : Bool :=
  match state.record, state.recordingSession with
  | none, some recording => (service.activeCDRs recording.id).isNone
  | _, _ => true

def keptApart (server : Server) : Event → Bool
  | .cdrStarted call _ => (server.calls call).all (Call.mayStart server.service)
  | .cdrEnded call _ _ => (server.calls call).all (Call.mayEnd server.service)
  | _ => true

def Event.written : Event → Bool
  | .cdrEnded _ _ failure => failure.isNone
  | _ => true

/-! ## Sessions and stages of a call -/

def Invite.id : Invite → Option String
  | .entered => none
  | .sessionStored id => some id
  | .cdrStarted id _ => some id

def Call.consistent (state : Call) : Prop :=
  ∀ id, state.invite.id = some id → state.recordingSession.map CallSession.id = some id

structure Consistent (server : Server) : Prop where
  calls : ∀ {call state}, server.calls call = some state → state.consistent
  fresh : ∀ {call}, server.nextCall ≤ call → server.calls call = none

variable {config : Config} {server before after : Server} {call : Nat} {state old : Call}

open Call

theorem Call.record_of_invite (noCDR : ∀ id startTime, state.invite ≠ .cdrStarted id startTime) :
    state.record = none := by
  unfold record
  split
  case h_1 id startTime started => exact absurd started (noCDR id startTime)
  case h_2 => rfl

theorem Call.opened_of_present (present : state.gone = false) : state.opened = state.record := by
  rw [opened, present]
  rfl

theorem Call.settled_of_present (present : state.gone = false) : state.settled = none := by
  rw [settled, present]
  rfl

theorem Call.opened_of_noRecord (noRecord : state.record = none) : state.opened = none := by
  rw [opened, noRecord, ite_self]

theorem Call.settled_of_noRecord (noRecord : state.record = none) : state.settled = none := by
  rw [settled, noRecord, ite_self]

section

variable (isConsistent : Consistent server)

include isConsistent

theorem Consistent.setCall (isCall : server.calls call = some old)
    (stateConsistent : state.consistent) : Consistent (server.setCall call state) where
  calls {other found} isFound := by
    obtain ⟨-, rfl⟩ | ⟨-, isFound⟩ := write_eq_some_iff.mp isFound
    · exact stateConsistent
    · exact isConsistent.calls isFound
  fresh {other} later := by
    change write server.calls call state other = none
    rw [write_other]
    · exact isConsistent.fresh later
    · rintro rfl
      rw [isConsistent.fresh later] at isCall
      cases isCall

omit isConsistent in
theorem Consistent.congr (isConsistent : Consistent before) (calls : after.calls = before.calls)
    (nextCall : after.nextCall = before.nextCall) : Consistent after where
  calls isFound := isConsistent.calls (calls ▸ isFound)
  fresh later := calls ▸ isConsistent.fresh (nextCall ▸ later)

theorem Consistent.storeSession {recording : CallSession}
    (isCall : server.calls call = some state) :
    Consistent (storeSession server call state recording) := by
  unfold CallRecords.storeSession
  split
  · refine isConsistent.setCall isCall ?_
    rintro _ ⟨⟩
    rfl
  · exact isConsistent

variable {now : Nat} {reason : String} {event : Event} {service : CDRService} {origin : Origin}

theorem Consistent.startCDR (isCall : server.calls call = some state) :
    Consistent (startCDR server call state now) := by
  unfold CallRecords.startCDR
  split
  case h_1 id stored =>
    have isSession := isConsistent.calls isCall id (by rw [stored]; rfl)
    refine (isConsistent.setCall isCall ?_).congr rfl rfl
    rintro _ ⟨⟩
    exact isSession
  case h_2 => exact isConsistent

theorem Consistent.describeCDR {identifiers : List (String × String)} :
    Consistent (describeCDR config server state identifiers now) := by
  unfold CallRecords.describeCDR
  split
  · exact isConsistent.congr rfl rfl
  · exact isConsistent

end

theorem Call.consistent.withSession (isConsistent : state.consistent)
    {recordingSession : Option CallSession} {finalizeOnce : Finalization}
    (sameID : state.recordingSession ≠ none →
      recordingSession.map CallSession.id = state.recordingSession.map CallSession.id) :
    { state with recordingSession, finalizeOnce }.consistent := by
  intro id isID
  have present := isConsistent id isID
  refine (sameID ?_).trans present
  intro missing
  rw [missing] at present
  cases present

section

variable (isConsistent : Consistent server) (isCall : server.calls call = some state)

include isConsistent isCall

theorem Consistent.mergeMetadata {metadata : RSMetadata} {created : Option CallSession} :
    Consistent (mergeMetadata config server call state metadata created now) := by
  have stateConsistent := isConsistent.calls isCall
  unfold CallRecords.mergeMetadata
  cases session : state.recordingSession with
  | none =>
    exact isConsistent.setCall isCall
      (stateConsistent.withSession fun present => absurd session present)
  | some recording =>
    refine (isConsistent.setCall isCall (stateConsistent.withSession fun _ => ?_)).congr rfl rfl
    rw [session]
    rfl

theorem Consistent.startFinalizing : Consistent (startFinalizing server call state reason now) := by
  unfold CallRecords.startFinalizing
  split
  · refine isConsistent.setCall isCall
      ((isConsistent.calls isCall).withSession fun _ => ?_)
    cases state.recordingSession <;> rfl
  · exact isConsistent

theorem Consistent.finishFinalizing {failure : Option String} :
    Consistent (finishFinalizing config server call state failure now) := by
  unfold CallRecords.finishFinalizing
  split
  · have isDone : { state with finalizeOnce := .done }.consistent :=
      (isConsistent.calls isCall).withSession fun _ => rfl
    exact (isConsistent.setCall isCall isDone).congr rfl rfl
  · exact isConsistent

end

theorem Consistent.handle (isConsistent : Consistent server) (isEvent : event.call = some call)
    (isCall : server.calls call = some state) : Consistent (handle config server state event) := by
  cases event with
  | inviteEntered callID remoteAddr transport => cases isEvent
  | sessionStored call recording =>
    cases isEvent
    exact isConsistent.storeSession isCall
  | cdrStarted call now =>
    cases isEvent
    exact isConsistent.startCDR isCall
  | cdrDescribed call identifiers now => exact isConsistent.describeCDR
  | metadataMerged call metadata created now =>
    cases isEvent
    exact isConsistent.mergeMetadata isCall
  | finalizing call reason now =>
    cases isEvent
    exact isConsistent.startFinalizing isCall
  | cdrEnded call now failure =>
    cases isEvent
    exact isConsistent.finishFinalizing isCall

theorem Consistent.enter (isConsistent : Consistent server) (entered : state.invite = .entered) :
    Consistent (server.enter state) where
  calls {other found} isFound := by
    obtain ⟨-, rfl⟩ | ⟨-, isFound⟩ := write_eq_some_iff.mp isFound
    · intro id isID
      rw [entered] at isID
      cases isID
    · exact isConsistent.calls isFound
  fresh {other} later := by
    change write server.calls server.nextCall state other = none
    rw [write_other (Nat.ne_of_gt later)]
    exact isConsistent.fresh (Nat.le_of_succ_le later)

theorem step_cases (config : Config) (server : Server) (event : Event) :
    (∃ state : Call, state.invite = .entered ∧ (step config server event).1 = server.enter state) ∨
    (∃ call state, event.call = some call ∧ server.calls call = some state ∧
      (step config server event).1 = handle config server state event) ∨
    (step config server event).1 = server := by
  cases isCall : event.call with
  | none =>
    cases event with
    | inviteEntered callID remoteAddr transport => exact .inl ⟨_, rfl, rfl⟩
    | _ => cases isCall
  | some call =>
    right
    have isStep : step config server event =
        match event.call.bind server.calls with
        | none => (server, [])
        | some state => (handle config server state event, []) := by
      cases event with
      | inviteEntered callID remoteAddr transport => cases isCall
      | _ => rfl
    rw [isStep, isCall, Option.bind_some]
    cases isState : server.calls call with
    | none => exact .inr rfl
    | some state => exact .inl ⟨call, state, rfl, isState, rfl⟩

theorem step_consistent (isConsistent : Consistent server) (event : Event) :
    Consistent (step config server event).1 := by
  rcases step_cases config server event with
    ⟨state, entered, isStep⟩ | ⟨call, state, isEvent, isCall, isStep⟩ | isStep
  · rw [isStep]
    exact isConsistent.enter entered
  · rw [isStep]
    exact isConsistent.handle isEvent isCall
  · rw [isStep]
    exact isConsistent

/-! ## Steps that leave the CDRs with their calls -/

structure Quiet (before after : Server) : Prop where
  opened : after.opened = before.opened
  settled : after.settled = before.settled
  active : after.service.active = before.service.active
  repo : after.service.repo = before.service.repo

/-- `opened` and `settled` read the calls one by one. -/
theorem setCall_read (read : Call → Option Origin) :
    (fun other => ((server.setCall call state).calls other).bind read) =
      fun other => if other = call then read state else (server.calls other).bind read := by
  funext other
  unfold Server.setCall write
  dsimp only
  split <;> rfl

theorem setCall_read_same {read : Call → Option Origin}
    (same : read state = (server.calls call).bind read) :
    (fun other => ((server.setCall call state).calls other).bind read) =
      fun other => (server.calls other).bind read := by
  rw [setCall_read]
  funext other
  split
  case isTrue isCall => rw [isCall, same]
  case isFalse => rfl

section

variable (isCall : server.calls call = some state)

include isCall

theorem opened_of_calls : server.opened call = state.opened := by
  unfold Server.opened
  rw [isCall]
  rfl

theorem settled_of_calls : server.settled call = state.settled := by
  unfold Server.settled
  rw [isCall]
  rfl

theorem opened_of_noRecord (noRecord : state.record = none) : server.opened call = none :=
  (opened_of_calls isCall).trans (Call.opened_of_noRecord noRecord)

theorem settled_of_noRecord (noRecord : state.record = none) : server.settled call = none :=
  (settled_of_calls isCall).trans (Call.settled_of_noRecord noRecord)

end

theorem Quiet.refl : Quiet server server := ⟨rfl, rfl, rfl, rfl⟩

theorem setCall_quiet (opened : state.opened = server.opened call)
    (settled : state.settled = server.settled call)
    (active : service.active = server.service.active) (repo : service.repo = server.service.repo) :
    Quiet server { server.setCall call state with service } :=
  ⟨setCall_read_same opened, setCall_read_same settled, active, repo⟩

theorem setCall_quiet_of_noRecord (idle : server.opened call = none)
    (unsettled : server.settled call = none) (noRecord : state.record = none)
    (same : service = server.service) :
    Quiet server { server.setCall call state with service } := by
  subst same
  exact setCall_quiet ((Call.opened_of_noRecord noRecord).trans idle.symm)
    ((Call.settled_of_noRecord noRecord).trans unsettled.symm) rfl rfl

theorem describeSession_keeps {id : String} {session : RecordingSession}
    {texts : List (String × String)} :
    (describeSession config id session texts now service).active = service.active ∧
      (describeSession config id session texts now service).repo = service.repo := by
  unfold describeSession
  split
  · refine ⟨updateSession_active, ?_⟩
    unfold updateSession
    split <;> rfl
  · exact ⟨rfl, rfl⟩

theorem enter_quiet (isConsistent : Consistent server) (entered : state.invite = .entered) :
    Quiet server (server.enter state) := by
  have missing := isConsistent.fresh (Nat.le_refl server.nextCall)
  have noRecord : state.record = none := record_of_invite (by rw [entered]; exact nofun)
  have idle : server.opened server.nextCall = none := by rw [Server.opened, missing]; rfl
  have unsettled : server.settled server.nextCall = none := by rw [Server.settled, missing]; rfl
  obtain ⟨opened, settled, -, -⟩ := setCall_quiet_of_noRecord idle unsettled noRecord rfl
  exact ⟨opened, settled, rfl, rfl⟩

section

variable (isCall : server.calls call = some state)

include isCall

theorem storeSession_quiet {recording : CallSession} :
    Quiet server (storeSession server call state recording) := by
  unfold storeSession
  split
  case h_1 entered =>
    have noRecord : state.record = none := record_of_invite (by rw [entered]; exact nofun)
    exact setCall_quiet_of_noRecord (opened_of_noRecord isCall noRecord)
      (settled_of_noRecord isCall noRecord) rfl rfl
  case h_2 => exact .refl

omit isCall in
theorem describeCDR_quiet {identifiers : List (String × String)} :
    Quiet server (describeCDR config server state identifiers now) := by
  unfold describeCDR
  split
  · exact ⟨rfl, rfl, describeSession_keeps.1, describeSession_keeps.2⟩
  · exact .refl

theorem mergeMetadata_quiet {metadata : RSMetadata} {created : Option CallSession} :
    Quiet server (mergeMetadata config server call state metadata created now) := by
  unfold mergeMetadata
  split
  · exact setCall_quiet (opened_of_calls isCall).symm (settled_of_calls isCall).symm rfl rfl
  · exact setCall_quiet (opened_of_calls isCall).symm (settled_of_calls isCall).symm
      describeSession_keeps.1 describeSession_keeps.2

theorem startFinalizing_quiet : Quiet server (startFinalizing server call state reason now) := by
  unfold startFinalizing
  split
  case h_1 idle =>
    have present : state.gone = false := by
      unfold gone
      rw [idle]
      rfl
    refine setCall_quiet ?_ ?_ rfl rfl
    · rw [opened_of_calls isCall, opened_of_present present]
      rfl
    · rw [settled_of_calls isCall, settled_of_present present]
      rfl
  case h_2 => exact .refl

end

/-! ## The CDRs and their calls -/

structure Accounts (server : Server) : Prop where
  repo : server.service.repo.isSome
  registers : Registers Origin.sessionID server.opened server.service.active
  settles : ∃ calls, Settles server calls

theorem Accounts.ownRecords (accounts : Accounts server) : OwnRecords server where
  stored := accounts.settles
  active id cdr isActive := by
    have isOrigin : server.service.active id = some cdr.origin := by
      unfold CDRService.active
      rw [isActive]
      rfl
    exact (accounts.registers.owned isOrigin).2

theorem Quiet.accounts (quiet : Quiet before after) (accounts : Accounts before) :
    Accounts after where
  repo := quiet.repo ▸ accounts.repo
  registers := by
    rw [quiet.opened, quiet.active]
    exact accounts.registers
  settles := by
    obtain ⟨calls, settles⟩ := accounts.settles
    exact ⟨calls, settles.congr quiet.settled quiet.repo⟩

theorem setCall_opens (opens : state.opened = some origin) :
    (server.setCall call state).opened = write server.opened call origin := by
  refine (setCall_read _).trans ?_
  rw [opens]
  rfl

theorem setCall_closes (closes : state.opened = none) :
    (server.setCall call state).opened = remove server.opened call := by
  refine (setCall_read _).trans ?_
  rw [closes]
  rfl

theorem startCDR_accounts (accounts : Accounts server) (isCall : server.calls call = some state)
    (mayStart : state.mayStart server.service) : Accounts (startCDR server call state now) := by
  unfold startCDR
  split
  case h_2 => exact accounts
  case h_1 id stored =>
    unfold Call.mayStart at mayStart
    simp only [stored, Bool.and_eq_true, Bool.not_eq_true', Option.isNone_iff_eq_none] at mayStart
    obtain ⟨present, free⟩ := mayStart
    have noRecord : state.record = none := record_of_invite (by rw [stored]; exact nofun)
    have idle := opened_of_noRecord isCall noRecord
    have unsettled := settled_of_noRecord isCall noRecord
    refine ⟨accounts.repo, ?_, ?_⟩
    · have fresh : server.service.active
          (Origin.sessionID ⟨id, state.callID, state.remoteAddr, now⟩) = none :=
        Option.map_eq_none_iff.mpr free
      have opens : { state with invite := .cdrStarted id now }.opened =
          some ⟨id, state.callID, state.remoteAddr, now⟩ := opened_of_present present
      rw [startSession_active]
      exact (setCall_opens opens).symm ▸ accounts.registers.enter idle fresh
    · obtain ⟨calls, settles⟩ := accounts.settles
      have stays : { state with invite := .cdrStarted id now }.settled = none :=
        settled_of_present present
      exact ⟨calls, settles.congr (setCall_read_same (stays.trans unsettled.symm)) rfl⟩

theorem Call.consistent.record (isConsistent : state.consistent)
    (isRecord : state.record = some origin) :
    state.recordingSession.map CallSession.id = some origin.sessionID := by
  unfold Call.record at isRecord
  split at isRecord
  case h_1 id startTime started =>
    cases isRecord
    exact isConsistent id (by rw [started]; rfl)
  case h_2 => cases isRecord

theorem Settles.append {calls : List Nat} {cdr : CDR} (settles : Settles server calls)
    (unsettled : server.settled call = none) (becomes : state.settled = some origin)
    (isOrigin : cdr.origin = origin) (stored : service.stored = server.service.stored ++ [cdr]) :
    Settles { server.setCall call state with service } (calls ++ [call]) := by
  obtain ⟨distinct, members, rows⟩ := settles
  have absent : call ∉ calls := fun mem => (members call).mp mem unsettled
  have settled : ∀ other, Server.settled { server.setCall call state with service } other =
      if other = call then some origin else server.settled other := by
    intro other
    rw [← becomes]
    exact congrFun (setCall_read _) other
  refine ⟨?_, ?_, ?_⟩
  · exact nodup_append.mpr ⟨distinct, nodup_singleton call, by grind⟩
  · intro other
    rw [settled, mem_append, mem_singleton]
    by_cases same : other = call
    · simp [same]
    · simp [same, members]
  · have before : calls.map (Server.settled { server.setCall call state with service }) =
        calls.map server.settled := by
      refine map_congr_left fun other mem => ?_
      rw [settled, if_neg]
      rintro rfl
      exact absent mem
    rw [stored, map_append, map_append, before, rows, map_singleton,
      map_singleton, settled, if_pos rfl, isOrigin]

theorem Undisturbed.of_service (same : after.service = before.service) :
    Undisturbed call before after where
  stored := same ▸ prefix_refl _
  others _ _ _ _ := same ▸ rfl

theorem endCDR_noRecord {failure : Option String} (mayEnd : state.mayEnd service)
    (noRecord : state.record = none) :
    endCDR config reason failure now state.recordingSession service = service := by
  unfold Call.mayEnd at mayEnd
  rw [noRecord] at mayEnd
  cases session : state.recordingSession with
  | none => rfl
  | some recording =>
    rw [session] at mayEnd
    have missing := Option.isNone_iff_eq_none.mp mayEnd
    simp only [endCDR, endSession, missing]

theorem endCDR_record (isConsistent : state.consistent) (isRecord : state.record = some origin)
    (isActive : service.active origin.sessionID = some origin) (configured : service.repo.isSome) :
    ∃ cdr : CDR, cdr.origin = origin ∧
      endCDR config reason none now state.recordingSession service =
        { activeCDRs := remove service.activeCDRs origin.sessionID
          repo := some (service.stored ++ [cdr]) } := by
  obtain ⟨recording, session, sameID⟩ := Option.map_eq_some_iff.mp (isConsistent.record isRecord)
  rw [session, ← sameID]
  exact endSession_stored (sameID ▸ isActive) configured

section

variable (accounts : Accounts server) (isConsistent : Consistent server)

include accounts isConsistent

theorem finishFinalizing_accounts (isCall : server.calls call = some state)
    (mayEnd : state.mayEnd server.service) :
    Accounts (finishFinalizing config server call state none now) ∧
      Undisturbed call server (finishFinalizing config server call state none now) := by
  unfold finishFinalizing
  split
  case h_2 => exact ⟨accounts, .of_service rfl⟩
  case h_1 reason running =>
    have present : state.gone = false := by
      rw [gone, running]
      rfl
    cases isRecord : state.record with
    | none =>
      have same : endCDR config reason none now state.recordingSession server.service = _ :=
        endCDR_noRecord mayEnd isRecord
      refine ⟨Quiet.accounts (setCall_quiet_of_noRecord ?_ ?_ ?_ same) accounts, .of_service same⟩
      · exact opened_of_noRecord isCall isRecord
      · exact settled_of_noRecord isCall isRecord
      · exact isRecord
    | some origin =>
      have isOpen : server.opened call = some origin := by
        rw [opened_of_calls isCall, opened_of_present present, isRecord]
      have unsettled : server.settled call = none := by
        rw [settled_of_calls isCall, settled_of_present present]
      obtain ⟨cdr, isOrigin, ended⟩ : ∃ cdr : CDR, cdr.origin = origin ∧
          endCDR config reason none now state.recordingSession server.service = _ :=
        endCDR_record (isConsistent.calls isCall) isRecord (accounts.registers.found isOpen)
          accounts.repo
      rw [ended]
      refine ⟨⟨rfl, ?_, ?_⟩, ⟨prefix_append _ _, ?_⟩⟩
      · have closes : { state with finalizeOnce := .done }.opened = none := rfl
        rw [active_remove]
        exact (setCall_closes closes).symm ▸ accounts.registers.leave isOpen
      · obtain ⟨calls, settles⟩ := accounts.settles
        exact ⟨calls ++ [call], settles.append unsettled isRecord isOrigin rfl⟩
      · intro other found different isOpen'
        exact remove_other (accounts.registers.other_key isOpen different isOpen')

theorem handle_accounts (isEvent : event.call = some call) (isCall : server.calls call = some state)
    (written : event.written) (apart : keptApart server event) :
    Accounts (handle config server state event) ∧
      ∀ call now failure, event = .cdrEnded call now failure →
        Undisturbed call server (handle config server state event) := by
  cases event with
  | inviteEntered callID remoteAddr transport => cases isEvent
  | sessionStored call recording =>
    cases isEvent
    exact ⟨(storeSession_quiet isCall).accounts accounts, nofun⟩
  | cdrStarted call now =>
    cases isEvent
    rw [keptApart, isCall, Option.all_some] at apart
    exact ⟨startCDR_accounts accounts isCall apart, nofun⟩
  | cdrDescribed call identifiers now => exact ⟨describeCDR_quiet.accounts accounts, nofun⟩
  | metadataMerged call metadata created now =>
    cases isEvent
    exact ⟨(mergeMetadata_quiet isCall).accounts accounts, nofun⟩
  | finalizing call reason now =>
    cases isEvent
    exact ⟨(startFinalizing_quiet isCall).accounts accounts, nofun⟩
  | cdrEnded call now failure =>
    cases isEvent
    rw [keptApart, isCall, Option.all_some] at apart
    obtain rfl : failure = none := Option.isNone_iff_eq_none.mp written
    obtain ⟨kept, undisturbed⟩ := finishFinalizing_accounts accounts isConsistent isCall apart
    refine ⟨kept, ?_⟩
    rintro _ _ _ ⟨⟩
    exact undisturbed

theorem step_accounts (written : event.written) (apart : keptApart server event) :
    Accounts (step config server event).1 ∧
      ∀ call now failure, event = .cdrEnded call now failure →
        Undisturbed call server (step config server event).1 := by
  rcases step_cases config server event with
    ⟨state, entered, isStep⟩ | ⟨call, state, isEvent, isCall, isStep⟩ | isStep
  · rw [isStep]
    exact ⟨(enter_quiet isConsistent entered).accounts accounts, fun _ _ _ _ => .of_service rfl⟩
  · rw [isStep]
    exact handle_accounts accounts isConsistent isEvent isCall written apart
  · rw [isStep]
    exact ⟨accounts, fun _ _ _ _ => .of_service rfl⟩

end

theorem started_accounts : Accounts .started where
  repo := rfl
  registers := ⟨nofun, nofun, nofun⟩
  settles := ⟨[], nodup_nil, fun _ => ⟨nofun, fun some_ => absurd rfl some_⟩, rfl⟩

/-- If every write succeeds, and no CDR is started for a call that is gone or started or
ended under the session ID of another call's active CDR, every call has its own. -/
theorem cdr_per_call (config : Config) (events : List Event)
    (written : ∀ event ∈ events, event.written)
    (apart : Along (step config) (fun server event => keptApart server event) .started events) :
    Along (step config) (KeepsRecords config) .started events := by
  have both := (Along.of_inputs written).and apart
  refine both.imp (fun server => Accounts server ∧ Consistent server) ?_ ?_
    ⟨started_accounts, nofun, fun _ => rfl⟩
  · intro server event invariant good
    exact ⟨(step_accounts invariant.1 invariant.2 good.1 good.2).1,
      step_consistent invariant.2 event⟩
  · intro server event invariant good
    obtain ⟨kept, undisturbed⟩ : Accounts (step config server event).1 ∧ _ :=
      step_accounts invariant.1 invariant.2 good.1 good.2
    exact ⟨kept.ownRecords, undisturbed⟩

def plainConfig : Config :=
  { redactPII := id, fileSize := fun _ => none, rfc3339 := fun _ => "", toLower := id }

def starts (call : Nat) (callID remoteAddr sessionID : String) (now : Nat) : List Event :=
  [.inviteEntered callID remoteAddr "udp", .sessionStored call ⟨sessionID, {}⟩,
    .cdrStarted call now]

def ends (call now : Nat) : List Event :=
  [.finalizing call "terminated" now, .cdrEnded call now none]

def distinctSessions : List Event :=
  starts 0 "call-a" "192.0.2.1" "session-1" 10 ++ starts 1 "call-b" "192.0.2.2" "session-2" 20 ++
    ends 0 30 ++ ends 1 40

theorem distinct_sessions_kept :
    (∀ event ∈ distinctSessions, event.written) ∧
    Along (step plainConfig) (fun server event => keptApart server event) .started
      distinctSessions ∧
    Along (step plainConfig) (KeepsRecords plainConfig) .started distinctSessions := by
  have written : ∀ event ∈ distinctSessions, event.written := by decide
  have apart : Along (step plainConfig) (fun server event => keptApart server event) .started
      distinctSessions := by
    decide
  exact ⟨written, apart, cdr_per_call plainConfig distinctSessions written apart⟩

def sharedSession : List Event :=
  starts 0 "call-a" "192.0.2.1" "session-1" 10 ++ starts 1 "call-b" "192.0.2.2" "session-1" 20 ++
    ends 0 30 ++ ends 1 40

/-- The call that ends first has the CDR of the other stored, and its own is lost. -/
theorem shared_session_loses_cdr :
    (∀ event ∈ sharedSession, event.written) ∧
    ¬ Along (step plainConfig) (KeepsRecords plainConfig) .started sharedSession ∧
    (run (step plainConfig) .started sharedSession).1.service.stored.map (·.callID) = ["call-b"] := by
  refine ⟨by decide, ?_, by decide⟩
  intro kept
  -- the eighth event ends the first call
  have undisturbed := kept.2.2.2.2.2.2.2.1.2 0 30 none rfl
  have same := undisturbed.others 1 ⟨"session-1", "call-b", "192.0.2.2", 20⟩ (by decide) (by decide)
  exact absurd (congrArg Option.isSome same) (by decide)

end SiprecServer.Sip.CallRecords
