import SiprecServer.Lib.Text

/-!
# Metadata documents

The rs-metadata document as it is decoded, its normalisation and the completion from SIP
signalling.  Elements and attributes that no function here reads are left out.
-/

namespace SiprecServer.Siprec

structure SessionGroupAssociation where
  sessionGroupID : String
  sessionID : String
  role : String
deriving DecidableEq

structure PolicyUpdate where
  policyID : String
  status : String
  acknowledged : Bool
  timestamp : String
deriving DecidableEq

namespace Metadata

open Lib.Text

structure XMLName where
  space : String := ""
  localName : String := ""
deriving DecidableEq

structure Aor where
  value : String
  uri : String := ""
  display : String := ""
  priority : Int := 0
deriving DecidableEq

structure RSNameID where
  aor : String := ""
  uri : String := ""
  display : String := ""
  names : List String := []
deriving DecidableEq

structure RSParticipant where
  id : String := ""
  legacyID : String := ""
  nameID : String := ""
  name : String := ""
  displayName : String := ""
  aor : List Aor := []
  nameInfos : List RSNameID := []
  role : String := ""
  send : List String := []
  receive : List String := []
deriving DecidableEq

structure Stream where
  label : String := ""
  labelElement : String := ""
  streamID : String := ""
  streamIDAlt : String := ""
  id : String := ""
  session : String := ""
  sessionAlt : String := ""
  mode : String := ""
  modeElement : String := ""
  type : String := ""
  participantRef : List String := []
  mixedStreams : List String := []
deriving DecidableEq

structure RSAssociation where
  sessionID : String := ""
  sessionIDAlt : String := ""
  group : String := ""
  groupAlt : String := ""
  callID : String := ""
  callIDAlt : String := ""
  fixedID : String := ""
  identityRef : String := ""
deriving DecidableEq

structure RSSession where
  id : String := ""
  legacyID : String := ""
  participantRefs : List String := []
  streamRefs : List String := []
deriving DecidableEq

structure RSRecordingSession where
  id : String := ""
  sessionID : String := ""
  state : String := ""
  reason : String := ""
deriving DecidableEq

structure RSParticipantStreamAssoc where
  participant : String := ""
  participantID : String := ""
  stream : String := ""
  streamID : String := ""
  send : List String := []
  receive : List String := []
  direction : String := ""
deriving DecidableEq

structure RSParticipantSessionAssoc where
  participantID : String := ""
  sessionID : String := ""
deriving DecidableEq

structure Group where
  id : String := ""
  legacyID : String := ""
  participantRefs : List String := []
  legacyParticipantRef : List String := []
deriving DecidableEq

structure RSMetadata where
  xmlName : XMLName := {}
  dataMode : String := ""
  dataModeAlt : String := ""
  sessionID : String := ""
  state : String := ""
  reason : String := ""
  sequence : Int := 0
  reasonRef : String := ""
  expires : String := ""
  group : List Group := []
  sessions : List RSSession := []
  recordingSessions : List RSRecordingSession := []
  participants : List RSParticipant := []
  streams : List Stream := []
  participantStreamAssoc : List RSParticipantStreamAssoc := []
  participantSessionAssoc : List RSParticipantSessionAssoc := []
  sessionRecordingAssoc : RSAssociation := {}
  sessionGroupAssociations : List SessionGroupAssociation := []
  policyUpdates : List PolicyUpdate := []
  filledFields : List String := []
deriving DecidableEq

def Group.normalize (group : Group) : Group :=
  { group with
    id := orElse group.id group.legacyID
    legacyID := ""
    participantRefs := group.participantRefs ++ group.legacyParticipantRef
    legacyParticipantRef := [] }

def RSSession.normalize (session : RSSession) : RSSession :=
  { session with id := orElse session.id session.legacyID, legacyID := "" }

def RSRecordingSession.normalize (session : RSRecordingSession) : RSRecordingSession :=
  { session with sessionID := orElse session.sessionID session.id }

def RSNameID.contact (info : RSNameID) : Option Aor :=
  if info.aor ≠ "" ∨ info.uri ≠ "" then
    some { value := orElse info.aor info.uri, uri := info.uri, display := info.display }
  else none

def firstNonBlank (texts : List String) : String :=
  ((texts.map trimSpace).find? (· ≠ "")).getD ""

def RSParticipant.normalize (participant : RSParticipant) : RSParticipant :=
  let name := orElse participant.name (firstNonBlank (participant.nameInfos.flatMap (·.names)))
  { participant with
    id := orElse participant.id participant.legacyID
    legacyID := ""
    aor :=
      if participant.aor = [] then participant.nameInfos.filterMap RSNameID.contact
      else participant.aor
    name
    displayName :=
      orElse participant.displayName
        (orElse name (firstNonBlank (participant.nameInfos.head?.toList.map (·.display)))) }

def Stream.normalize (stream : Stream) : Stream :=
  { stream with
    streamID := orElse stream.streamID (orElse stream.streamIDAlt stream.id)
    label := orElse stream.label stream.labelElement
    mode := orElse stream.mode stream.modeElement
    session := orElse stream.session stream.sessionAlt
    streamIDAlt := ""
    id := ""
    labelElement := ""
    modeElement := ""
    sessionAlt := "" }

def RSAssociation.normalize (assoc : RSAssociation) : RSAssociation :=
  { assoc with
    sessionID := orElse assoc.sessionID assoc.sessionIDAlt
    group := orElse assoc.group assoc.groupAlt
    callID := orElse assoc.callID assoc.callIDAlt
    sessionIDAlt := ""
    groupAlt := ""
    callIDAlt := "" }

def firstNonEmpty (texts : List String) : String := (texts.find? (· ≠ "")).getD ""

def RSMetadata.normalize (m : RSMetadata) : RSMetadata :=
  let sessions := m.sessions.map RSSession.normalize
  let recordingSessions := m.recordingSessions.map RSRecordingSession.normalize
  let sessionRecordingAssoc := m.sessionRecordingAssoc.normalize
  { m with
    dataMode := orElse m.dataMode m.dataModeAlt
    dataModeAlt := ""
    group := m.group.map Group.normalize
    sessions
    recordingSessions
    state := orElse m.state (firstNonEmpty (recordingSessions.map (·.state)))
    reason := orElse m.reason (firstNonEmpty (recordingSessions.map (·.reason)))
    participants := m.participants.map RSParticipant.normalize
    streams := m.streams.map Stream.normalize
    sessionRecordingAssoc
    sessionID := firstNonEmpty
      ([m.sessionID, sessionRecordingAssoc.sessionID] ++ sessions.head?.toList.map (·.id) ++
        recordingSessions.head?.toList.flatMap fun session => [session.sessionID, session.id]) }

structure FillContext where
  callID : String
  sessionID : String
  callingParticipant : String

def callingParticipantID : String := "calling-participant"

def filledSessionID : String := "session_id"

def filledParticipant : String := "participant"

/-- The session ID goes wherever it is missing, if there is at most one session. -/
def fillSessionID (context : FillContext) (m : RSMetadata) : RSMetadata :=
  let sessionID := orElse (trimSpace context.sessionID) (trimSpace context.callID)
  if trimSpace m.sessionID = "" ∧ sessionID ≠ "" ∧ m.sessions.length ≤ 1 then
    { m with
      sessionID
      sessions :=
        match m.sessions with
        | [] => [{ id := sessionID }]
        | session :: rest =>
          (if trimSpace session.id = "" then { session with id := sessionID } else session) :: rest
      sessionRecordingAssoc :=
        if trimSpace m.sessionRecordingAssoc.sessionID = "" then
          { m.sessionRecordingAssoc with
            sessionID
            callID :=
              if trimSpace m.sessionRecordingAssoc.callID = "" then trimSpace context.callID
              else m.sessionRecordingAssoc.callID }
        else m.sessionRecordingAssoc
      participantSessionAssoc := m.participantSessionAssoc.map fun assoc =>
        if trimSpace assoc.sessionID = "" then { assoc with sessionID } else assoc
      filledFields := m.filledFields ++ [filledSessionID] }
  else m

section

variable (parseNameAddr : String → Option (String × String)) (context : FillContext)
  (m : RSMetadata)

/-- A document without participants gets the calling one, if its address can be read. -/
def fillParticipant : RSMetadata :=
  if m.participants = [] then
    match parseNameAddr context.callingParticipant with
    | none => m
    | some (display, uri) =>
      { m with
        participants :=
          [{ id := callingParticipantID, name := display, displayName := display
             aor := [{ value := uri }] }]
        filledFields := m.filledFields ++ [filledParticipant] }
  else m

def fillMissing : RSMetadata :=
  fillParticipant parseNameAddr context (fillSessionID context m)

end

theorem fillMissing_streams {parseNameAddr : String → Option (String × String)}
    {context : FillContext} {m : RSMetadata} :
    (fillMissing parseNameAddr context m).streams = m.streams := by
  have first : (fillSessionID context m).streams = m.streams := by
    unfold fillSessionID
    dsimp only
    split <;> rfl
  unfold fillMissing fillParticipant
  split
  · split <;> exact first
  · exact first

end Metadata

end SiprecServer.Siprec
