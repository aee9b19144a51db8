import SiprecServer.Lib.Versioned
import SiprecServer.Sip.RecordingSession
import SiprecServer.Siprec.RsMetadata

/-!
# Metadata documents that come late

Two functions merge an rs-metadata document into a recording session: the one of the SIP
server, which stores every sequence number it is given, and `UpdateRecordingSession`,
which stores the highest.  Neither skips the rest of a document because of its number.
-/

namespace SiprecServer.Siprec

open Lib.FileSystem Lib.Transducer Lib.Versioned
open Sip.ReInvite (Aor CommunicationID Participant)

structure RSParticipant extends Sip.ReInvite.RSParticipant where
  nameID : String := ""

structure PolicyAckStatus where
  status : String
  acknowledged : Bool
  reportedAt : Nat
  rawTimestamp : String

structure RSMetadata where
  state : String := ""
  reason : String := ""
  reasonRef : String := ""
  expires : String := ""
  sequence : Int := 0
  participants : List RSParticipant := []
  sessionGroupAssociations : List SessionGroupAssociation := []
  policyUpdates : List PolicyUpdate := []

/-- The fields that only `UpdateRecordingSession` knows, beside those of the SIP server. -/
structure RecordingSession extends Sip.ReInvite.RecordingSession where
  associatedTime : Nat := 0
  stateReason : String := ""
  stateReasonRef : String := ""
  stateExpires : Option Nat := none
  sessionGroups : List SessionGroupAssociation := []
  sessionGroupRoles : Store String String := empty
  policyUpdates : List PolicyUpdate := []
  policyStates : Store String PolicyAckStatus := empty

structure Library where
  trimSpace : String → String
  toLower : String → String
  parseRFC3339 : String → Option Nat

structure MapOrder where
  order : List Participant → List Participant
  isPerm : ∀ participants, (order participants).Perm participants

def sipCommunicationIDs (aor : List Aor) : List CommunicationID :=
  aor.map fun aor => ⟨"sip", aor.value, "", 0, 0⟩

def updatedParticipant (new : RSParticipant) (existing : Participant) : Participant :=
  { existing with
    name := if new.name = "" then existing.name else new.name
    displayName := if new.nameID = "" then existing.displayName else new.nameID
    communicationIDs :=
      if new.aor = [] then existing.communicationIDs else sipCommunicationIDs new.aor }

def newParticipant (new : RSParticipant) : Participant :=
  { id := new.id
    name := new.name
    displayName := new.displayName
    role := new.role
    joinTime := 0
    recordingAware := false
    consentObtained := false
    communicationIDs := sipCommunicationIDs new.aor }

/-- The participants by ID; of two with one ID the later one counts. -/
def existingMap (participants : List Participant) : List Participant :=
  participants.foldl (fun map participant => map.filter (·.id ≠ participant.id) ++ [participant]) []

def processParticipants : List Participant → List RSParticipant →
    List Participant × List Participant
  | map, [] => ([], map)
  | map, new :: rest =>
    match map.find? (·.id = new.id) with
    | some existing =>
      let processed := processParticipants (map.filter (·.id ≠ new.id)) rest
      (updatedParticipant new existing :: processed.1, processed.2)
    | none =>
      let processed := processParticipants map rest
      (newParticipant new :: processed.1, processed.2)

def updateParticipants (mapOrder : MapOrder) (existing : List Participant)
    (new : List RSParticipant) : List Participant :=
  let processed := processParticipants (existingMap existing) new
  processed.1 ++ mapOrder.order processed.2

section Update

variable (library : Library)

/-- A text that is not blank is stored in a field and under two keys. -/
def storeText (text first second : String) (extended : Store String String) : Store String String :=
  if library.trimSpace text = "" then extended
  else write (write extended first (library.trimSpace text)) second (library.trimSpace text)

def updateGroups (associations : List SessionGroupAssociation) (session : RecordingSession) :
    RecordingSession :=
  if associations = [] then session
  else
    { session with
      sessionGroups := associations
      sessionGroupRoles :=
        writeAll empty (associations.map fun group => (group.sessionGroupID, group.role))
      extendedMetadata :=
        writeAll session.extendedMetadata
          (associations.map fun group => ("session_group_" ++ group.sessionGroupID, group.role)) }

def policyAckStatus (now : Nat) (policy : PolicyUpdate) : PolicyAckStatus :=
  let rawTimestamp := library.trimSpace policy.timestamp
  { status := library.toLower (library.trimSpace policy.status)
    acknowledged := policy.acknowledged
    reportedAt :=
      if rawTimestamp = "" then now else (library.parseRFC3339 rawTimestamp).getD now
    rawTimestamp }

def recordPolicy (now : Nat) (extended : Store String String) (policy : PolicyUpdate) :
    Store String String :=
  let status := policyAckStatus library now policy
  let statusKey := "policy_" ++ policy.policyID ++ "_status"
  let extended := write (write extended statusKey status.status) (statusKey ++ "_ack")
    (if policy.acknowledged then "true" else "false")
  if status.rawTimestamp = "" then remove extended (statusKey ++ "_timestamp")
  else write extended (statusKey ++ "_timestamp") status.rawTimestamp

def updatePolicies (now : Nat) (policies : List PolicyUpdate) (session : RecordingSession) :
    RecordingSession :=
  if policies = [] then session
  else
    { session with
      policyUpdates := policies
      policyStates :=
        writeAll empty (policies.map fun policy =>
          (policy.policyID, policyAckStatus library now policy))
      extendedMetadata := policies.foldl (recordPolicy library now) session.extendedMetadata }

def updateState (metadata : RSMetadata) (session : RecordingSession) : RecordingSession :=
  let reason := library.trimSpace metadata.reason
  let reasonRef := library.trimSpace metadata.reasonRef
  let expires := library.trimSpace metadata.expires
  { session with
    recordingState := if metadata.state = "" then session.recordingState else metadata.state
    stateReason := if reason = "" then session.stateReason else reason
    stateReasonRef := if reasonRef = "" then session.stateReasonRef else reasonRef
    stateExpires :=
      if expires = "" then session.stateExpires
      else (library.parseRFC3339 expires).or session.stateExpires
    extendedMetadata :=
      storeText library metadata.expires "state_expires" "expires"
        (storeText library metadata.reasonRef "state_reason_ref" "reason_ref"
          (storeText library metadata.reason "state_reason" "reason" session.extendedMetadata)) }

/-- A document without a number bootstraps a session without one. -/
def nextSequence (sequence stored : Int) : Int :=
  if 0 < sequence then if stored ≤ sequence then sequence else stored
  else if stored = 0 then 1
  else stored

def updateRecordingSession (mapOrder : MapOrder) (now : Nat) (metadata : RSMetadata)
    (existing : RecordingSession) : RecordingSession :=
  let stated := updateState library metadata existing
  let joined :=
    { stated with
      participants := updateParticipants mapOrder existing.participants metadata.participants }
  let updated := updatePolicies library now metadata.policyUpdates
    (updateGroups metadata.sessionGroupAssociations joined)
  { updated with
    sequenceNumber := nextSequence metadata.sequence existing.sequenceNumber
    associatedTime := now
    updatedAt := now }

end Update

/-! ## Deliveries -/

structure Delivery where
  metadata : RSMetadata
  now : Nat
  mapOrder : MapOrder

def sessionUpdates (library : Library) : Updates RecordingSession Delivery where
  number delivery := delivery.metadata.sequence
  stored session := session.sequenceNumber
  apply session delivery :=
    updateRecordingSession library delivery.mapOrder delivery.now delivery.metadata session

structure ServerDelivery where
  metadata : Sip.ReInvite.RSMetadata
  now : Nat

def serverUpdates (rfc3339 : Nat → String) :
    Updates Sip.ReInvite.RecordingSession ServerDelivery where
  number delivery := delivery.metadata.sequence
  stored session := session.sequenceNumber
  apply session delivery :=
    Sip.ReInvite.updateRecordingSession rfc3339 delivery.now delivery.metadata session

def Timely (library : Library) (state : RecordingSession × List Int) (delivery : Delivery) : Prop :=
  (sessionUpdates library).isLate state.2 delivery = false

/-- No document with a higher number has been delivered, and the number is not below the
one that is stored. -/
def ServerTimely (rfc3339 : Nat → String) (state : Sip.ReInvite.RecordingSession × List Int)
    (delivery : ServerDelivery) : Prop :=
  (serverUpdates rfc3339).isLate state.2 delivery = false ∧
    (0 < delivery.metadata.sequence → state.1.sequenceNumber ≤ delivery.metadata.sequence)

instance (library : Library) (state : RecordingSession × List Int) (delivery : Delivery) :
    Decidable (Timely library state delivery) :=
  inferInstanceAs (Decidable (_ = false))

instance (rfc3339 : Nat → String) (state : Sip.ReInvite.RecordingSession × List Int)
    (delivery : ServerDelivery) : Decidable (ServerTimely rfc3339 state delivery) :=
  inferInstanceAs (Decidable (_ = false ∧ _))

section Runs

variable {library : Library} {rfc3339 : Nat → String}

theorem le_nextSequence (sequence stored : Int) : stored ≤ nextSequence sequence stored := by
  unfold nextSequence
  split
  · split
    case isTrue ahead => exact ahead
    case isFalse => exact Int.le_refl stored
  · split
    case isTrue isZero =>
      rw [isZero]
      decide
    case isFalse => exact Int.le_refl stored

/-- Both functions respect the numbers when the documents come in order, and as long as the
clock moves on only then; and the number that `UpdateRecordingSession` stores never falls. -/
theorem metadata_in_order (library : Library) (rfc3339 : Nat → String) :
    (serverUpdates rfc3339).RespectedWhen (ServerTimely rfc3339)
        (fun state delivery => state.1.updatedAt ≠ delivery.now) ∧
      (sessionUpdates library).RespectedWhen (Timely library)
        (fun state delivery => state.1.updatedAt ≠ delivery.now) ∧
      ∀ session deliveries, (sessionUpdates library).Deliveries
        (fun state delivery => state.1.sequenceNumber ≤
          ((sessionUpdates library).apply state.1 delivery).sequenceNumber)
        session deliveries := by
  refine ⟨.of_steps ?_ ?_, .of_steps ?_ ?_, fun session deliveries => .always ?_⟩
  · refine fun state delivery timely =>
      ⟨?_, fun isLate => absurd (timely.1.symm.trans isLate) Bool.false_ne_true⟩
    simp only [serverUpdates, Sip.ReInvite.updateRecordingSession]
    split
    case isTrue given => exact timely.2 given
    case isFalse => exact Int.le_refl _
  · refine fun state delivery advances respects =>
      ⟨Updates.not_late_of_respects (·.updatedAt) (·.now) rfl advances respects, fun given => ?_⟩
    have kept := respects.stored
    simp only [serverUpdates, Sip.ReInvite.updateRecordingSession, if_pos given] at kept
    exact kept
  · exact fun state delivery timely => ⟨le_nextSequence _ _,
      fun isLate => absurd (timely.symm.trans isLate) Bool.false_ne_true⟩
  · exact fun state delivery advances respects =>
      Updates.not_late_of_respects (·.updatedAt) (·.now) rfl advances respects
  · exact fun state delivery => le_nextSequence _ _

end Runs

def plainLibrary : Library := ⟨id, id, fun _ => none⟩

def document (sequence : Int) (state participant : String) : RSMetadata :=
  { sequence, state, participants := [⟨⟨participant, participant, "", "", []⟩, ""⟩] }

def serverDocument (sequence : Int) (state participant : String) : Sip.ReInvite.RSMetadata :=
  { sequence, state, participants := [⟨participant, participant, "", "", []⟩] }

def givenOrder : MapOrder := ⟨id, fun _ => List.Perm.refl _⟩

theorem documents_in_order :
    (serverUpdates fun _ => "").Respectful {}
        [⟨serverDocument 1 "active" "alice", 1⟩, ⟨serverDocument 2 "paused" "bob", 2⟩] ∧
      (sessionUpdates plainLibrary).Respectful {}
        [⟨document 1 "active" "alice", 1, givenOrder⟩, ⟨document 2 "paused" "bob", 2, givenOrder⟩] :=
  ⟨(metadata_in_order plainLibrary fun _ => "").1.sufficient _ _ (by decide),
    (metadata_in_order plainLibrary fun _ => "").2.1.sufficient _ _ (by decide)⟩

/-- The documents 2 and 1 in this order: the server stores the number, the state and the
participants of the late one, and `UpdateRecordingSession` its state. -/
theorem late_document_applied :
    let server := [ServerDelivery.mk (serverDocument 2 "paused" "bob") 1,
      ⟨serverDocument 1 "active" "alice", 2⟩].foldl (serverUpdates fun _ => "").apply {}
    let session := [Delivery.mk (document 2 "paused" "bob") 1 givenOrder,
      ⟨document 1 "active" "alice", 2, givenOrder⟩].foldl (sessionUpdates plainLibrary).apply {}
    server.sequenceNumber = 1 ∧ server.recordingState = "active" ∧
      server.participants.map (·.id) = ["alice"] ∧
      session.sequenceNumber = 2 ∧ session.recordingState = "active" ∧
      session.participants.map (·.id) = ["alice", "bob"] ∧
      ¬ (serverUpdates fun _ => "").Respectful {}
        [⟨serverDocument 2 "paused" "bob", 1⟩, ⟨serverDocument 1 "active" "alice", 2⟩] ∧
      ¬ (sessionUpdates plainLibrary).Respectful {}
        [⟨document 2 "paused" "bob", 1, givenOrder⟩,
          ⟨document 1 "active" "alice", 2, givenOrder⟩] := by
  refine ⟨by decide, by decide, by decide, by decide, by decide, by decide, ?_, ?_⟩
  · exact fun respectful => absurd respectful.steps.2.1.stored (by decide)
  · intro respectful
    have unchanged := respectful.steps.2.1.late (by decide)
    exact absurd (congrArg (·.recordingState) unchanged) (by decide)

end SiprecServer.Siprec
