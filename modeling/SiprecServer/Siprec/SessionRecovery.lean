import SiprecServer.Siprec.GeneratedMetadata

/-!
# Recovery of sessions

A session is recovered from the failover document of the one before it, and that may happen
again and again.  Identity survives every chain of failovers.  Addresses come back with the
type "sip" and in the form of their URI, so they survive only if they had both before.
-/

namespace SiprecServer.Siprec.Metadata

open Lib.Text List
open Sip.ReInvite (CommunicationID Participant)

def sipAddress (value : String) : CommunicationID :=
  { type := "sip", value, displayName := "", priority := 0, validFrom := 0 }

def RSNameID.address (info : RSNameID) : Option String :=
  let value := orElse info.aor info.uri
  if trimSpace value = "" then none else some value

def convertRSParticipantToParticipant (p : RSParticipant) : Participant :=
  { id := p.id
    name := p.name
    displayName := orElse p.displayName (orElse p.nameID (orElse p.name
      (((p.nameInfos.head?).map fun info => trimSpace info.display).getD "")))
    role := p.role
    joinTime := 0
    recordingAware := false
    consentObtained := false
    communicationIDs :=
      if p.aor = [] then (p.nameInfos.filterMap RSNameID.address).map sipAddress
      else p.aor.map fun aor => sipAddress aor.value }

inductive RecoveryError
  | nilMetadata
  | missingFields (hasSessionID hasFixedID : Bool)
  | withoutParticipants (sessionID failoverID : String)
deriving DecidableEq

def parseFailoverMetadata (metadata : RSMetadata) : Except RecoveryError (String × String) :=
  let originalSessionID := metadata.sessionID
  let failoverID := metadata.sessionRecordingAssoc.fixedID
  if originalSessionID = "" ∨ failoverID = "" then
    .error (.missingFields (originalSessionID ≠ "") (failoverID ≠ ""))
  else .ok (originalSessionID, failoverID)

/-- A session without participants is returned with an error. -/
def recoverSession (now : Nat) : Option RSMetadata → Option RecordedSession × Option RecoveryError
  | none => (none, some .nilMetadata)
  | some metadata =>
    match parseFailoverMetadata metadata with
    | .error error => (none, some error)
    | .ok (originalSessionID, failoverID) =>
      let session : RecordedSession :=
        { id := originalSessionID
          failoverID
          recordingState := metadata.state
          sequenceNumber := metadata.sequence
          associatedTime := now
          replacesSessionID := originalSessionID
          createdAt := now
          updatedAt := now
          isValid := true
          participants := metadata.participants.map convertRSParticipantToParticipant }
      (some session,
        if metadata.participants = [] then
          some (.withoutParticipants originalSessionID failoverID)
        else none)

inductive ContinuityError
  | nilSessions
  | sessionIDMismatch (original recovered : String)
  | failoverIDMismatch (original recovered : String)
  | missingParticipants (ids : List String)
deriving DecidableEq

def validateSessionContinuity :
    Option RecordedSession → Option RecordedSession → Option ContinuityError
  | some original, some recovered =>
    let missing := (original.participants.map (·.id)).filter fun id =>
      id ∉ recovered.participants.map (·.id)
    if original.id ≠ recovered.id then some (.sessionIDMismatch original.id recovered.id)
    else if original.failoverID ≠ "" ∧ recovered.failoverID ≠ "" ∧
        original.failoverID ≠ recovered.failoverID then
      some (.failoverIDMismatch original.failoverID recovered.failoverID)
    else if missing ≠ [] then some (.missingParticipants missing)
    else none
  | _, _ => some .nilSessions

/-! ## Chains of failovers -/

structure Failover where
  uuid : String
  nonempty : uuid ≠ ""
  now : Nat

variable (participant : Participant)

section Chains

variable (lower : Char → Char)

def failover (session : RecordedSession) (event : Failover) :
    Option RecordedSession × Option RecoveryError :=
  recoverSession event.now (some (createFailoverMetadata lower session event.uuid))

def identity : String × String := (participant.id, participant.name)

def addresses : List (String × String) :=
  participant.communicationIDs.map fun commID => (commID.value, commID.type)

def SameIdentities (participants others : List Participant) : Prop :=
  participants.map identity = others.map identity

def SameContacts (participants others : List Participant) : Prop :=
  SameIdentities participants others ∧ participants.map addresses = others.map addresses

/-- Every session of the chain has the ID of the original and the same participants, and
continues the one before it. -/
def KeepsSession (Same : List Participant → List Participant → Prop) (original : RecordedSession) :
    RecordedSession → List Failover → Prop
  | _, [] => True
  | session, event :: events =>
    ∃ recovered, failover lower session event = (some recovered, none) ∧
      recovered.id = original.id ∧
      Same recovered.participants original.participants ∧
      validateSessionContinuity (some session) (some recovered) = none ∧
      KeepsSession Same original recovered events

/-- An address that failovers leave as it is: its type is `sip`, no blanks stand around it, and it
is empty or begins with the scheme, in letters of either case. -/
def Canonical (commID : CommunicationID) : Prop :=
  commID.type = "sip" ∧ normalizeCommunicationURI lower commID = commID.value

instance (commID : CommunicationID) : Decidable (Canonical lower commID) :=
  inferInstanceAs (Decidable (_ ∧ _))

end Chains

variable {session : RecordedSession}

section Recovered

variable {lower : Char → Char}

def recoveredParticipant (lower : Char → Char) (participant : Participant) : Participant :=
  convertRSParticipantToParticipant (toRSParticipant lower participant).normalize

theorem recovered_identity :
    identity (recoveredParticipant lower participant) = identity participant := by
  -- a name that is missing is in no name entry either
  have name_kept : orElse participant.name
      (firstNonBlank ((toRSParticipant lower participant).nameInfos.flatMap (·.names))) =
        participant.name := by
    by_cases absent : participant.name = ""
    · have none_named : (toRSParticipant lower participant).nameInfos.flatMap (·.names) = [] := by
        refine flatMap_eq_nil_iff.mpr fun info mem => ?_
        unfold toRSParticipant at mem
        split at mem
        · split at mem
          · cases mem
          · cases mem_singleton.mp mem
            simp [nameEntry, absent]
        · obtain ⟨commID, -, rfl⟩ := mem_map.mp mem
          simp [nameEntry, absent]
      rw [none_named, absent]
      rfl
    · exact orElse_of_ne absent
  exact Prod.ext (orElse_right_empty participant.id) name_kept

theorem recovered_addresses :
    addresses (recoveredParticipant lower participant) =
      participant.communicationIDs.map fun commID =>
        (normalizeCommunicationURI lower commID, "sip") := by
  unfold addresses recoveredParticipant convertRSParticipantToParticipant RSParticipant.normalize
    toRSParticipant
  by_cases absent : participant.communicationIDs = []
  · -- the one name entry has no address
    by_cases unnamed : shownName participant = "" <;>
      simp [absent, unnamed, nameEntry, RSNameID.contact, RSNameID.address]
  · simp [absent, toAor, sipAddress, Function.comp_def]

theorem failover_recovers (named : session.id ≠ "") (manned : session.participants ≠ [])
    (event : Failover) :
    ∃ recovered, failover lower session event = (some recovered, none) ∧
      recovered.id = session.id ∧
      recovered.failoverID = orElse session.failoverID event.uuid ∧
      recovered.participants = session.participants.map (recoveredParticipant lower) := by
  have sessionID : (createFailoverMetadata lower session event.uuid).sessionID = session.id := by
    simp [createFailoverMetadata, RSMetadata.normalize, firstNonEmpty, named]
  have fixedID : (createFailoverMetadata lower session event.uuid).sessionRecordingAssoc.fixedID =
      orElse session.failoverID event.uuid := rfl
  have nonempty : orElse session.failoverID event.uuid ≠ "" := by
    unfold orElse
    split
    case isTrue => exact event.nonempty
    case isFalse present => exact present
  have parsed : parseFailoverMetadata (createFailoverMetadata lower session event.uuid) =
      .ok (session.id, orElse session.failoverID event.uuid) := by
    unfold parseFailoverMetadata
    rw [sessionID, fixedID, if_neg (not_or.mpr ⟨named, nonempty⟩)]
  have participants : (createFailoverMetadata lower session event.uuid).participants =
      (session.participants.map (toRSParticipant lower)).map RSParticipant.normalize := rfl
  have some_left : (createFailoverMetadata lower session event.uuid).participants ≠ [] := by
    simpa [participants] using manned
  unfold failover recoverSession
  dsimp only
  rw [parsed]
  dsimp only
  rw [if_neg some_left]
  refine ⟨_, rfl, rfl, rfl, ?_⟩
  rw [participants, map_map, map_map]
  rfl

theorem continuity_of_recovered {recovered : RecordedSession} {event : Failover}
    (sameID : recovered.id = session.id)
    (sameFailover : recovered.failoverID = orElse session.failoverID event.uuid)
    (sameParticipants : recovered.participants.map identity = session.participants.map identity) :
    validateSessionContinuity (some session) (some recovered) = none := by
  have ids : recovered.participants.map (·.id) = session.participants.map (·.id) := by
    have first := congrArg (List.map Prod.fst) sameParticipants
    rwa [map_map, map_map] at first
  have kept : ¬ (session.failoverID ≠ "" ∧ recovered.failoverID ≠ "" ∧
      session.failoverID ≠ recovered.failoverID) := by
    rintro ⟨present, -, different⟩
    rw [sameFailover, orElse_of_ne present] at different
    exact different rfl
  unfold validateSessionContinuity
  dsimp only
  rw [if_neg (not_not.mpr sameID.symm), if_neg kept, ids, if_neg]
  simp

theorem addresses_kept_iff (participants : List Participant) :
    (participants.map (recoveredParticipant lower)).map addresses = participants.map addresses ↔
      ∀ participant ∈ participants, ∀ commID ∈ participant.communicationIDs,
        Canonical lower commID := by
  rw [map_map, map_inj_left]
  refine forall₂_congr fun participant _ => ?_
  rw [Function.comp_apply, recovered_addresses, addresses, map_inj_left]
  refine forall₂_congr fun commID _ => ?_
  rw [Prod.mk.injEq, Canonical, and_comm, eq_comm]

end Recovered

variable {lower : Char → Char}

theorem canonical_of_addresses {participants others : List Participant}
    (same : participants.map addresses = others.map addresses)
    (canonical : ∀ participant ∈ others, ∀ commID ∈ participant.communicationIDs,
      Canonical lower commID) :
    ∀ participant ∈ participants, ∀ commID ∈ participant.communicationIDs,
      Canonical lower commID := by
  intro participant mem commID inside
  have listed : addresses participant ∈ others.map addresses := by
    rw [← same]
    exact mem_map_of_mem mem
  obtain ⟨other, otherMember, alike⟩ := mem_map.mp listed
  have address : (commID.value, commID.type) ∈ addresses other := by
    rw [alike]
    exact mem_map_of_mem inside
  obtain ⟨otherID, otherInside, equal⟩ := mem_map.mp address
  obtain ⟨value, type⟩ := Prod.mk.inj equal
  obtain ⟨sip, fixed⟩ := canonical other otherMember otherID otherInside
  refine ⟨type ▸ sip, ?_⟩
  have uri : normalizeCommunicationURI lower commID = normalizeCommunicationURI lower otherID := by
    unfold normalizeCommunicationURI
    rw [value, type]
  rw [uri, fixed, value]

theorem keeps_session_of_step {Same : List Participant → List Participant → Prop}
    {original : RecordedSession} (named : original.id ≠ "")
    (identities : ∀ {participants}, Same participants original.participants →
      SameIdentities participants original.participants)
    (kept : ∀ {participants}, Same participants original.participants →
      Same (participants.map (recoveredParticipant lower)) original.participants)
    (sameID : session.id = original.id) (same : Same session.participants original.participants)
    (manned : original.participants ≠ []) (events : List Failover) :
    KeepsSession lower Same original session events := by
  induction events generalizing session with
  | nil => trivial
  | cons event events ih =>
    have alike := identities same
    have still_manned : session.participants ≠ [] := fun none_left => by
      rw [SameIdentities, none_left, map_nil, eq_comm, map_eq_nil_iff] at alike
      exact manned alike
    obtain ⟨recovered, result, recoveredID, failoverID, participants⟩ :=
      failover_recovers (sameID ▸ named) still_manned event
    have recovered_same : Same recovered.participants original.participants :=
      participants ▸ kept same
    have continued := continuity_of_recovered recoveredID failoverID
      ((identities recovered_same).trans alike.symm)
    exact ⟨recovered, result, recoveredID.trans sameID, recovered_same, continued,
      ih (recoveredID.trans sameID) recovered_same⟩

theorem recovered_sameIdentities {participants others : List Participant}
    (same : SameIdentities participants others) :
    SameIdentities (participants.map (recoveredParticipant lower)) others := by
  unfold SameIdentities at same ⊢
  rw [← same, map_map]
  exact map_congr_left fun participant _ => recovered_identity participant

/-- Failovers always keep the ID, the participants and the continuity of a session; they keep
the addresses if and only if there are no failovers or all addresses are canonical. -/
theorem keeps_session_iff (lower : Char → Char) (session : RecordedSession)
    (named : session.id ≠ "") (manned : session.participants ≠ []) (events : List Failover) :
    KeepsSession lower SameIdentities session session events ∧
      (KeepsSession lower SameContacts session session events ↔
        events = [] ∨ ∀ participant ∈ session.participants,
          ∀ commID ∈ participant.communicationIDs, Canonical lower commID) := by
  refine ⟨keeps_session_of_step named id recovered_sameIdentities rfl rfl manned events, ?_, ?_⟩
  · intro keeps
    cases events with
    | nil => exact .inl rfl
    | cons event events =>
      obtain ⟨recovered, result, -, ⟨-, contacts⟩, -⟩ := keeps
      obtain ⟨recovered', result', -, -, participants⟩ := failover_recovers named manned event
      cases result.symm.trans result'
      rw [participants] at contacts
      exact .inr ((addresses_kept_iff _).mp contacts)
  · rintro (rfl | canonical)
    · trivial
    · refine keeps_session_of_step named And.left ?_ rfl ⟨rfl, rfl⟩ manned events
      intro participants same
      have still := canonical_of_addresses same.2 canonical
      exact ⟨recovered_sameIdentities same.1, ((addresses_kept_iff _).mpr still).trans same.2⟩

def sampleSession (type value : String) : RecordedSession :=
  { id := "session-1"
    participants :=
      [{ id := "p1", name := "Alice", displayName := "", role := "active", joinTime := 0
         recordingAware := true, consentObtained := true
         communicationIDs := [⟨type, value, "", 0, 0⟩] }] }

def sampleFailover : Failover := ⟨"uuid-1", by decide, 0⟩

theorem sip_address_kept :
    KeepsSession Char.toLower SameContacts (sampleSession "sip" "sip:alice@example.com")
      (sampleSession "sip" "sip:alice@example.com") [sampleFailover, sampleFailover] := by
  refine (keeps_session_iff _ _ (by decide) (by decide) _).2.mpr (.inr ?_)
  decide +kernel

/-- A telephone number becomes a SIP address, and a telephone number of SIP. -/
theorem tel_address_changes :
    ((failover Char.toLower (sampleSession "tel" "+15550100") sampleFailover).1.map fun recovered =>
        recovered.participants.map addresses) = some [[("tel:+15550100", "sip")]] ∧
      (((failover Char.toLower (sampleSession "tel" "+15550100") sampleFailover).1.bind
        fun recovered => (failover Char.toLower recovered sampleFailover).1).map fun recovered =>
          recovered.participants.map addresses) = some [[("sip:tel:+15550100", "sip")]] := by
  decide +kernel

end SiprecServer.Siprec.Metadata
