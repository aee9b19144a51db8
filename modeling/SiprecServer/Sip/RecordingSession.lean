import SiprecServer.Lib.FileSystem

/-!
# The recording session and its updates

`updateRecordingSession` merges the metadata of a re-INVITE into the session of the
call.  Fields that no update touches are left out; a nil `ExtendedMetadata` is the
empty one, and one update reads the clock once.
-/

namespace SiprecServer.Sip.ReInvite

open Lib.FileSystem

structure Aor where
  value : String
  display : String
  priority : Int
deriving DecidableEq

structure RSParticipant where
  id : String
  name : String
  displayName : String
  role : String
  aor : List Aor
deriving DecidableEq

structure RSMetadata where
  state : String := ""
  reason : String := ""
  reasonRef : String := ""
  sequence : Int := 0
  direction : String := ""
  participants : List RSParticipant := []
  -- the types of the streams
  streams : List String := []
  filledFields : List String := []
deriving DecidableEq

def callingParticipantID : String := "calling-participant"

def filledParticipant : String := "participant"

def RSMetadata.participantSynthesized (metadata : RSMetadata) (id : String) : Bool :=
  id = callingParticipantID ∧ filledParticipant ∈ metadata.filledFields

structure CommunicationID where
  type : String
  value : String
  displayName : String
  priority : Int
  validFrom : Nat
deriving DecidableEq

structure Participant where
  id : String
  name : String
  displayName : String
  role : String
  joinTime : Nat
  recordingAware : Bool
  consentObtained : Bool
  communicationIDs : List CommunicationID
deriving DecidableEq

@[ext]
structure RecordingSession where
  sequenceNumber : Int := 0
  updatedAt : Nat := 0
  endTime : Option Nat := none
  recordingState : String := ""
  direction : String := ""
  participants : List Participant := []
  mediaStreamTypes : List String := []
  extendedMetadata : Store String String := empty

def commaFields (text : String) : List String :=
  (text.toList.splitOn ',').map String.ofList

def trimCommas (text : List Char) : List Char :=
  ((text.dropWhile (· = ',')).reverse.dropWhile (· = ',')).reverse

def mergeFilledFields (previous : String) (filled : List String) : String :=
  let fields := filled.foldl
    (fun fields field => if field ∈ fields then fields else fields ++ [field])
    (commaFields previous)
  String.ofList (trimCommas ([','].intercalate (fields.map String.toList)))

section Updates

variable (rfc3339 : Nat → String) (now : Nat) (metadata : RSMetadata)

def toCommunicationID (aor : Aor) : CommunicationID :=
  { type := if "tel:".toList.isPrefixOf aor.value.toList then "tel" else "sip"
    value := aor.value
    displayName := aor.display
    priority := aor.priority
    validFrom := now }

def toParticipant (participant : RSParticipant) : Participant :=
  { id := participant.id
    name := participant.name
    displayName := participant.displayName
    role := participant.role
    joinTime := now
    recordingAware := !metadata.participantSynthesized participant.id
    consentObtained := !metadata.participantSynthesized participant.id
    communicationIDs := participant.aor.map (toCommunicationID now) }

def recordFilledFields (extended : Store String String) : Store String String :=
  if metadata.filledFields = [] then extended
  else
    write extended "metadata_filled_fields"
      (mergeFilledFields ((extended "metadata_filled_fields").getD "") metadata.filledFields)

def recordTransition (oldState : String) (extended : Store String String) : Store String String :=
  if metadata.state = "terminated" then
    if metadata.reason = "" then extended
    else write extended "termination_reason" metadata.reason
  else if metadata.state = "paused" then write extended "pause_time" (rfc3339 now)
  else if metadata.state = "active" ∧ oldState = "paused" then
    write extended "resume_time" (rfc3339 now)
  else extended

def recordReason (extended : Store String String) : Store String String :=
  let extended :=
    if metadata.reason = "" then extended else write extended "reason" metadata.reason
  if metadata.reasonRef = "" then extended
  else write extended "reason_ref" metadata.reasonRef

def updateRecordingSession (session : RecordingSession) : RecordingSession :=
  { sequenceNumber :=
      if 0 < metadata.sequence then metadata.sequence else session.sequenceNumber
    updatedAt := now
    endTime := if metadata.state = "terminated" then some now else session.endTime
    recordingState := if metadata.state = "" then session.recordingState else metadata.state
    direction := if metadata.direction = "" then session.direction else metadata.direction
    -- The participants and the streams are rebuilt if the request names any.
    participants :=
      if metadata.participants = [] then session.participants
      else metadata.participants.map (toParticipant now metadata)
    mediaStreamTypes :=
      if metadata.streams = [] then session.mediaStreamTypes else metadata.streams
    extendedMetadata :=
      recordReason metadata
        (recordTransition rfc3339 now metadata session.recordingState
          (recordFilledFields metadata session.extendedMetadata)) }

structure SessionKept (session : RecordingSession) : Prop where
  updatedAt : session.updatedAt = now
  sequence : 0 < metadata.sequence → session.sequenceNumber = metadata.sequence
  state : metadata.state ≠ "" → session.recordingState = metadata.state
  endTime : metadata.state = "terminated" → session.endTime = some now
  direction : metadata.direction ≠ "" → session.direction = metadata.direction
  participants : metadata.participants ≠ [] →
    session.participants = metadata.participants.map (toParticipant now metadata)
  streams : metadata.streams ≠ [] → session.mediaStreamTypes = metadata.streams
  filledFields : metadata.filledFields ≠ [] →
    session.extendedMetadata "metadata_filled_fields" = some (mergeFilledFields
      ((session.extendedMetadata "metadata_filled_fields").getD "") metadata.filledFields)
  termination : metadata.state = "terminated" → metadata.reason ≠ "" →
    session.extendedMetadata "termination_reason" = some metadata.reason
  pause : metadata.state = "paused" →
    session.extendedMetadata "pause_time" = some (rfc3339 now)
  reason : metadata.reason ≠ "" → session.extendedMetadata "reason" = some metadata.reason
  reasonRef : metadata.reasonRef ≠ "" →
    session.extendedMetadata "reason_ref" = some metadata.reasonRef

variable {rfc3339 now metadata} {extended : Store String String} {oldState key : String}

theorem recordTransition_other (notTermination : key ≠ "termination_reason")
    (notPause : key ≠ "pause_time") (notResume : key ≠ "resume_time") :
    recordTransition rfc3339 now metadata oldState extended key = extended key := by
  unfold recordTransition
  repeat' split
  · rfl
  · exact write_other notTermination
  · exact write_other notPause
  · exact write_other notResume
  · rfl

theorem recordReason_other (notReason : key ≠ "reason") (notRef : key ≠ "reason_ref") :
    recordReason metadata extended key = extended key := by
  unfold recordReason
  by_cases noReason : metadata.reason = "" <;> by_cases noRef : metadata.reasonRef = "" <;>
    simp [noReason, noRef, write_other notReason, write_other notRef]

theorem recordReason_eq_self (reason : metadata.reason ≠ "" → extended "reason" = some metadata.reason)
    (reasonRef : metadata.reasonRef ≠ "" → extended "reason_ref" = some metadata.reasonRef) :
    recordReason metadata extended = extended := by
  have first : (if metadata.reason = "" then extended
      else write extended "reason" metadata.reason) = extended := by
    split
    · rfl
    case isFalse some_ => exact write_eq_self_iff.mpr (reason some_)
  unfold recordReason
  rw [first]
  split
  · rfl
  case isFalse some_ => exact write_eq_self_iff.mpr (reasonRef some_)

/-- A transition that is recorded already; resuming would change the state itself. -/
theorem recordTransition_eq_self (state : metadata.state ≠ "" → oldState = metadata.state)
    (termination : metadata.state = "terminated" → metadata.reason ≠ "" →
      extended "termination_reason" = some metadata.reason)
    (pause : metadata.state = "paused" → extended "pause_time" = some (rfc3339 now)) :
    recordTransition rfc3339 now metadata oldState extended = extended := by
  unfold recordTransition
  split
  case isTrue terminated =>
    split
    · rfl
    case isFalse some_ => exact write_eq_self_iff.mpr (termination terminated some_)
  case isFalse =>
    split
    case isTrue paused => exact write_eq_self_iff.mpr (pause paused)
    case isFalse =>
      split
      case isTrue resumes =>
        obtain ⟨active, paused⟩ := resumes
        have same := state (active ▸ by decide)
        rw [active, paused] at same
        exact absurd same (by decide)
      case isFalse => rfl

theorem extended_of_same {session : RecordingSession}
    (same : recordReason metadata (recordTransition rfc3339 now metadata session.recordingState
      (recordFilledFields metadata session.extendedMetadata)) = session.extendedMetadata) :
    (metadata.filledFields ≠ [] →
      session.extendedMetadata "metadata_filled_fields" = some (mergeFilledFields
        ((session.extendedMetadata "metadata_filled_fields").getD "") metadata.filledFields)) ∧
    (metadata.state = "terminated" → metadata.reason ≠ "" →
      session.extendedMetadata "termination_reason" = some metadata.reason) ∧
    (metadata.state = "paused" →
      session.extendedMetadata "pause_time" = some (rfc3339 now)) ∧
    (metadata.reason ≠ "" → session.extendedMetadata "reason" = some metadata.reason) ∧
    (metadata.reasonRef ≠ "" →
      session.extendedMetadata "reason_ref" = some metadata.reasonRef) := by
  refine ⟨fun some_ => ?_, fun terminated some_ => ?_, fun paused => ?_, fun some_ => ?_,
    fun some_ => ?_⟩
  · have here := congrFun same "metadata_filled_fields"
    rw [recordReason_other (by decide) (by decide),
      recordTransition_other (by decide) (by decide) (by decide), recordFilledFields, if_neg some_,
      write_same] at here
    exact here.symm
  · have here := congrFun same "termination_reason"
    rw [recordReason_other (by decide) (by decide), recordTransition, if_pos terminated,
      if_neg some_, write_same] at here
    exact here.symm
  · have here := congrFun same "pause_time"
    rw [recordReason_other (by decide) (by decide), recordTransition, paused,
      if_neg (by decide), if_pos rfl, write_same] at here
    exact here.symm
  · have here := congrFun same "reason"
    unfold recordReason at here
    split at here
    · exact here.symm.trans write_same
    · exact (here.symm.trans (write_other (by decide))).trans write_same
  · have here := congrFun same "reason_ref"
    unfold recordReason at here
    rw [if_neg some_, write_same] at here
    exact here.symm

theorem updateRecordingSession_eq_self_iff {session : RecordingSession} :
    updateRecordingSession rfc3339 now metadata session = session ↔
      SessionKept rfc3339 now metadata session := by
  simp only [RecordingSession.ext_iff, updateRecordingSession, ite_eq_right_iff, ite_eq_left_iff]
  constructor
  · rintro ⟨sequence, updatedAt, endTime, state, direction, participants, streams, extended⟩
    obtain ⟨filledFields, termination, pause, reason, reasonRef⟩ := extended_of_same extended
    exact ⟨updatedAt.symm, fun given => (sequence given).symm, fun given => (state given).symm,
      fun given => (endTime given).symm, fun given => (direction given).symm,
      fun given => (participants given).symm, fun given => (streams given).symm, filledFields,
      termination, pause, reason, reasonRef⟩
  · intro kept
    refine ⟨fun given => (kept.sequence given).symm, kept.updatedAt.symm,
      fun given => (kept.endTime given).symm, fun given => (kept.state given).symm,
      fun given => (kept.direction given).symm, fun given => (kept.participants given).symm,
      fun given => (kept.streams given).symm, ?_⟩
    have filled : recordFilledFields metadata session.extendedMetadata =
        session.extendedMetadata := by
      unfold recordFilledFields
      split
      · rfl
      case isFalse some_ => exact write_eq_self_iff.mpr (kept.filledFields some_)
    rw [filled, recordTransition_eq_self kept.state kept.termination kept.pause,
      recordReason_eq_self kept.reason kept.reasonRef]

end Updates

/-- What `generateSiprecResponse` leaves in the session once the answer is rendered. -/
def RecordingSession.answered (now : Nat) (session : RecordingSession) : RecordingSession :=
  { session with
    sequenceNumber :=
      if 0 < session.sequenceNumber + 1 then session.sequenceNumber + 1
      else session.sequenceNumber
    recordingState := if session.recordingState = "" then "active" else session.recordingState
    updatedAt := now }

end SiprecServer.Sip.ReInvite
