import SiprecServer.Siprec.SessionUpdate
import SiprecServer.Siprec.Validation

/-!
# Documents that the server makes

Three functions make an rs-metadata document from a recording session: one for failovers, one
for changes of state and one for the response to an INVITE.  None of them writes a session
element, and validation asks for one.
-/

namespace SiprecServer.Siprec.Metadata

open Lib.Text
open Sip.ReInvite (CommunicationID Participant)

structure RecordedSession extends toUpdated : SiprecServer.Siprec.RecordingSession where
  id : String
  sipID : String := ""
  failoverID : String := ""
  replacesSessionID : String := ""
  sdpStreamLabels : List String := []
  createdAt : Nat := 0
  isValid : Bool := false

variable (lower : Char → Char)

/-- `strings.ToLower` goes rune by rune. -/
def toLower (text : String) : String := String.ofList (text.toList.map lower)

def withScheme (scheme value : String) : String :=
  if scheme.toList <+: (toLower lower value).toList then value else scheme ++ value

def normalizeCommunicationURI (commID : CommunicationID) : String :=
  let value := trimSpace commID.value
  if value = "" then ""
  else if toLower lower (trimSpace commID.type) = "sip" then withScheme lower "sip:" value
  else if toLower lower (trimSpace commID.type) = "tel" then withScheme lower "tel:" value
  else value

section Participants

variable (lower : Char → Char) (participant : Participant)

def shownName : String := orElse participant.displayName participant.name

def nameEntry (uri : String) : RSNameID :=
  { aor := uri
    uri
    display := shownName participant
    names := if participant.name = "" then [] else [participant.name] }

def toAor (commID : CommunicationID) : Aor :=
  let uri := normalizeCommunicationURI lower commID
  { value := uri, uri, display := commID.displayName, priority := commID.priority }

def toRSParticipant : RSParticipant :=
  { id := participant.id
    name := participant.name
    displayName := shownName participant
    role := participant.role
    aor := participant.communicationIDs.map (toAor lower)
    nameInfos :=
      if participant.communicationIDs = [] then
        if shownName participant = "" then [] else [nameEntry participant ""]
      else participant.communicationIDs.map fun commID =>
        nameEntry participant (normalizeCommunicationURI lower commID) }

def toMinimalRSParticipant : RSParticipant :=
  let uris := participant.communicationIDs.head?.toList.map (normalizeCommunicationURI lower)
  { id := participant.id
    name := participant.name
    displayName := shownName participant
    role := participant.role
    aor := uris.map fun uri => { value := uri, uri }
    nameInfos := uris.map (nameEntry participant) }

end Participants

section Documents

variable (lower : Char → Char) (session : RecordedSession)

/-- The `uuid` is generated if the session has no failover ID. -/
def createFailoverMetadata (uuid : String) : RSMetadata :=
  RSMetadata.normalize
    { sessionID := session.id
      state := session.recordingState
      sequence := session.sequenceNumber + 1
      reason := "failover"
      reasonRef := "urn:ietf:params:xml:ns:recording:1:failover"
      sessionRecordingAssoc :=
        { sessionID := session.id, fixedID := orElse session.failoverID uuid, callID := session.id }
      participants := session.participants.map (toRSParticipant lower) }

def generateStateChangeMetadata (newState reason : String) : RSMetadata :=
  RSMetadata.normalize
    { sessionID := session.id
      state := newState
      sequence := session.sequenceNumber + 1
      reason
      sessionRecordingAssoc := { sessionID := session.id, fixedID := session.failoverID }
      participants := session.participants.map (toMinimalRSParticipant lower) }

def responseStream (index : Nat) (label : String) : Stream :=
  { label
    streamID := "stream-" ++ toString (index + 1)
    type := (session.mediaStreamTypes[index]?).getD ""
    mode := "separate" }

def responseLabels : List String :=
  if session.sdpStreamLabels = [] then
    session.mediaStreamTypes.mapIdx fun index _ => toString (index + 1)
  else session.sdpStreamLabels

def responseMetadata (rfc3339 : Nat → String) : RSMetadata :=
  { sessionID := session.id
    state := orElse session.recordingState "active"
    sequence := session.sequenceNumber + 1
    reason := session.stateReason
    reasonRef := session.stateReasonRef
    expires := (session.stateExpires.map rfc3339).getD ""
    participants := session.participants.map (toRSParticipant lower)
    sessionGroupAssociations := session.sessionGroups
    policyUpdates := session.policyUpdates
    sessionRecordingAssoc := { sessionID := session.id, callID := session.sipID }
    streams := (responseLabels session).mapIdx (responseStream session) }

def createMetadataResponse (metadata : RSMetadata) : RSMetadata :=
  RSMetadata.normalize
    { metadata with
      state := orElse (trimSpace metadata.state) "active"
      sequence := if metadata.sequence ≤ 0 then 1 else metadata.sequence }

end Documents

inductive Occasion
  | failover (uuid : String)
  | stateChange (newState reason : String)
  | response (rfc3339 : Nat → String)

def generated (session : RecordedSession) : Occasion → RSMetadata
  | .failover uuid => createFailoverMetadata lower session uuid
  | .stateChange newState reason => generateStateChangeMetadata lower session newState reason
  | .response rfc3339 => createMetadataResponse (responseMetadata lower session rfc3339)

/-- `ValidateSiprecMessage` relaxes nothing. -/
def strict : ValidationOptions := { allowMissingParticipants := false }

theorem not_accepted_of_no_sessions {library : Library} {options : ValidationOptions}
    {m : RSMetadata} (absent : m.sessions = []) : accepted library options m = false := by
  refine Bool.eq_false_iff.mpr fun isAccepted => ?_
  have clean := clean_of_accepted isAccepted
  simp only [validate, checkAssociations, clean_append] at clean
  obtain ⟨-, ⟨⟨⟨⟨-, sessions⟩, -⟩, -⟩, -⟩, -⟩ := clean
  rw [checkSessions, if_pos absent] at sessions
  exact not_clean_error sessions

/-- No session has a document that the server would accept. -/
theorem generated_never_accepted (library : Library) (lower : Char → Char)
    (session : RecordedSession) (occasion : Occasion) :
    accepted library strict (generated lower session occasion) = false :=
  not_accepted_of_no_sessions (by cases occasion <;> rfl)

/-- Of a session with nothing missing, the documents lack a session element, and the one for
failovers gives a reason that is not supported. -/
theorem generated_errors :
    let library : Library := ⟨id, fun _ => .ok 0, id⟩
    let session : RecordedSession :=
      { id := "session-1"
        sipID := "call-1"
        failoverID := "failover-1"
        recordingState := "active"
        mediaStreamTypes := ["audio"]
        participants :=
          [{ id := "p1", name := "Alice", displayName := "", role := "active", joinTime := 0
             recordingAware := true, consentObtained := true
             communicationIDs := [⟨"sip", "sip:alice@example.com", "", 0, 0⟩] }] }
    let errors occasion :=
      errorTexts (validate library strict (generated Char.toLower session occasion))
    errors (.stateChange "paused" "manual") = ["no <session> elements provided"] ∧
      errors (.response fun _ => "") = ["no <session> elements provided"] ∧
      errors (.failover "uuid") = ["unsupported recording reason: failover",
        "reason failover is not valid for state active", "no <session> elements provided"] := by
  decide +kernel

end SiprecServer.Siprec.Metadata
