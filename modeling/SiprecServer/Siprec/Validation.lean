import SiprecServer.Siprec.RsMetadata

/-!
# Validation of metadata documents

`ValidateSiprecMessageWithOptions` reports errors and warnings in the order in which it
comes across them.  A document without errors is accepted.
-/

namespace SiprecServer.Siprec.Metadata

open Lib.Text List

/-! ## Findings -/

inductive Finding where
  | error (text : String)
  | warning (text : String)
deriving DecidableEq

def Finding.isError : Finding → Bool
  | .error _ => true
  | .warning _ => false

def errorIf (condition : Prop) [Decidable condition] (text : String) : List Finding :=
  if condition then [.error text] else []

def warningIf (condition : Prop) [Decidable condition] (text : String) : List Finding :=
  if condition then [.warning text] else []

/-- The library functions that validation calls; `quote` is the verb `%q`. -/
structure Library where
  toLower : String → String
  parseRFC3339 : String → Except String Nat
  quote : String → String

def timeError : Except String Nat → Option String
  | .error text => some text
  | .ok _ => none

structure ValidationOptions where
  allowMissingParticipants : Bool

def checkEach {α : Type} (key : α → Option String) (check : List String → α → List Finding) :
    List String → List α → List Finding
  | _, [] => []
  | seen, element :: rest =>
    check seen element ++ checkEach key check ((key element).toList ++ seen) rest

def nonEmpty (text : String) : Option String := if text = "" then none else some text

def normalizedParticipantID (participant : RSParticipant) : String :=
  firstNonBlank [participant.id, participant.legacyID, participant.nameID]

def normalizedStreamID (stream : Stream) : String :=
  firstNonBlank [stream.streamID, stream.streamIDAlt, stream.id]

def normalizedStreamLabel (stream : Stream) : String :=
  firstNonBlank [stream.label, stream.labelElement, normalizedStreamID stream]

def normalizedAssocSessionID (assoc : RSAssociation) : String :=
  firstNonBlank [assoc.sessionID, assoc.sessionIDAlt]

def RSMetadata.participantIDs (m : RSMetadata) : List String :=
  (m.participants.map normalizedParticipantID).filter (· ≠ "")

def RSMetadata.streamIDs (m : RSMetadata) : List String :=
  (m.streams.map normalizedStreamID).filter (· ≠ "")

def allowedRecordingStates : List String :=
  ["pending", "initializing", "active", "paused", "partial", "inactive", "resuming", "recovering",
    "completed", "terminated", "error", "unknown"]

def allowedRecordingReasons : List String :=
  ["normal", "manual", "error", "failure", "system-failure", "media-failure", "resource-exhausted",
    "policy", "timeout", "emergency", "cancelled"]

def stateReasonMatrix : List (String × List String) :=
  [("pending", ["normal", "manual", "policy", "resource-exhausted"]),
    ("initializing", ["normal", "manual", "policy"]),
    ("active", ["normal", "manual", "policy", "emergency"]),
    ("paused", ["manual", "policy", "resource-exhausted", "system-failure"]),
    ("partial", ["manual", "policy", "resource-exhausted", "system-failure"]),
    ("inactive", ["normal", "manual", "policy"]),
    ("resuming", ["normal", "manual"]),
    ("recovering", ["manual", "system-failure", "error"]),
    ("completed", ["normal", "manual", "policy"]),
    ("terminated", ["normal", "manual", "error", "failure", "system-failure", "media-failure",
      "resource-exhausted", "policy", "timeout", "emergency", "cancelled"]),
    ("error", ["error", "failure", "system-failure", "media-failure"])]

def allowedPolicyStatuses : List String :=
  ["pending", "applied", "acknowledged", "rejected", "accepted", "denied", "revoked", "deferred",
    "error"]

def allowedParticipantRoles : List String := ["active", "passive", "focus", "mixer", "observer"]

def recordingNamespace : String := "urn:ietf:params:xml:ns:recording:1"

section Checks

variable (library : Library)

def lowerTrim (text : String) : String := library.toLower (trimSpace text)

variable (m : RSMetadata)

def checkRoot : List Finding :=
  let space := trimSpace m.xmlName.space
  let localName := trimSpace m.xmlName.localName
  warningIf (space ≠ "" ∧ space ≠ recordingNamespace) ("unexpected metadata namespace: " ++ space) ++
  warningIf (space = "") "metadata XML missing namespace declaration" ++
  errorIf (localName ≠ "" ∧ localName ≠ "recording") ("unexpected root element: " ++ localName)

def checkSessionID (sessionID : String) : List Finding :=
  errorIf (sessionID = "") "missing recording session ID" ++
  errorIf (255 < sessionID.utf8ByteSize) "session ID exceeds maximum allowed length"

def checkReason (state reason : String) : List Finding :=
  if reason = "" then errorIf (state = "error") "error state must include a reason"
  else
    errorIf (reason ∉ allowedRecordingReasons) ("unsupported recording reason: " ++ m.reason) ++
    match stateReasonMatrix.lookup state with
    | none => []
    | some allowed =>
      errorIf (reason ∉ allowed) ("reason " ++ library.quote reason ++
        " is not valid for state " ++ library.quote state)

def checkState : List Finding :=
  let state := lowerTrim library m.state
  let reason := lowerTrim library m.reason
  let reasonRef := trimSpace m.reasonRef
  warningIf (state = "")
    "missing recording state attribute; will default to 'active' in responses" ++
  errorIf (state ≠ "" ∧ state ∉ allowedRecordingStates) ("invalid recording state: " ++ m.state) ++
  errorIf (state = "terminated" ∧ reason = "") "termination reason not provided" ++
  checkReason library m state reason ++
  warningIf (reasonRef ≠ "" ∧ ¬ (recordingNamespace ++ ":").toList.isPrefixOf reasonRef.toList)
    ("reasonref uses non-standard namespace: " ++ m.reasonRef) ++
  warningIf (reasonRef ≠ "" ∧ reason = "") "reasonref provided without reason attribute"

def checkSequence : List Finding :=
  errorIf (m.sequence < 0) "invalid sequence number" ++
  match nonEmpty (trimSpace m.expires) with
  | none => []
  | some expires =>
    match timeError (library.parseRFC3339 expires) with
    | none => []
    | some text => [.warning ("expires attribute is not RFC3339 timestamp: " ++ text)]

/-! ## Participants and streams -/

def checkAor (id : String) (aor : Aor) : List Finding :=
  let uri := trimSpace aor.uri
  errorIf (trimSpace aor.value = "") ("participant " ++ id ++ " includes empty AOR value") ++
  warningIf (uri ≠ "" ∧ ':' ∉ uri.toList)
    ("participant " ++ id ++ " has invalid URI format for AOR " ++ aor.uri)

def RSParticipant.hasContact (participant : RSParticipant) : Bool :=
  participant.aor.any (fun aor => trimSpace aor.value ≠ "") ||
    participant.nameInfos.any fun info => trimSpace info.aor ≠ "" || trimSpace info.uri ≠ ""

def checkParticipant (seen : List String) (participant : RSParticipant) : List Finding :=
  let id := normalizedParticipantID participant
  let role := lowerTrim library participant.role
  if id = "" then [.error "participant missing id attribute"]
  else
    errorIf (id ∈ seen) ("duplicate participant id detected: " ++ id) ++
    participant.aor.flatMap (checkAor id) ++
    errorIf (¬ participant.hasContact)
      ("participant " ++ id ++ " missing address-of-record or nameID contact info") ++
    errorIf (role ≠ "" ∧ role ∉ allowedParticipantRoles)
      ("participant " ++ id ++ " has invalid role: " ++ participant.role)

variable (options : ValidationOptions)

section

variable (m : RSMetadata)

def checkParticipants : List Finding :=
  (if m.participants = [] then
    if options.allowMissingParticipants then
      [.warning "no participants provided in metadata (continuing without participants)"]
    else [.error "no participants provided in metadata"]
  else []) ++
  checkEach (fun participant => nonEmpty (normalizedParticipantID participant))
    (checkParticipant library) [] m.participants

def checkGroup (participantIDs : List String) (group : Group) : List Finding :=
  let id := trimSpace group.id
  if id = "" then [.error "group missing id attribute"]
  else group.participantRefs.flatMap fun ref =>
    warningIf (trimSpace ref ∉ participantIDs)
      ("group " ++ id ++ " references unknown participant " ++ ref)

def allowedStreamTypes : List String := ["audio", "video", "text", "message", "application"]

def checkStream (seen : List String) (stream : Stream) : List Finding :=
  let streamID := normalizedStreamID stream
  errorIf (normalizedStreamLabel stream = "") "stream missing label attribute" ++
  errorIf (streamID = "") "stream missing streamid attribute" ++
  errorIf (streamID ≠ "" ∧ streamID ∈ seen) ("duplicate streamid detected: " ++ streamID) ++
  warningIf (stream.type = "") ("stream " ++ streamID ++ " missing type attribute") ++
  errorIf (stream.type ≠ "" ∧ stream.type ∉ allowedStreamTypes)
    ("stream " ++ stream.label ++ " has invalid type: " ++ stream.type) ++
  warningIf (stream.mode = "mixed" ∧ stream.mixedStreams = [])
    ("mixed stream " ++ stream.label ++ " has no source streams defined")

def checkStreams : List Finding :=
  checkEach (fun stream => nonEmpty (normalizedStreamID stream)) checkStream [] m.streams

def groupKey (assoc : SessionGroupAssociation) : String :=
  trimSpace assoc.sessionGroupID ++ "::" ++ trimSpace assoc.sessionID

variable (sessionID : String)

def checkSessionGroup (seen : List String) (assoc : SessionGroupAssociation) : List Finding :=
  let assocID := trimSpace assoc.sessionID
  errorIf (trimSpace assoc.sessionGroupID = "")
    "sessiongroupassoc missing sessiongroupid attribute" ++
  errorIf (assocID = "") "sessiongroupassoc missing sessionid attribute" ++
  warningIf (assocID ≠ "" ∧ sessionID ≠ "" ∧ assocID ≠ sessionID)
    ("sessiongroupassoc references mismatched sessionid " ++ assocID ++ " (expected " ++ sessionID ++
      ")") ++
  warningIf (groupKey assoc ∈ seen)
    ("duplicate sessiongroup association detected for " ++ groupKey assoc)

def checkPolicyTimestamp (policyID timestamp : String) : List Finding :=
  match nonEmpty (trimSpace timestamp) with
  | none => []
  | some text =>
    match timeError (library.parseRFC3339 text) with
    | none => []
    | some cause => [.error ("policy " ++ policyID ++ " timestamp not RFC3339: " ++ cause)]

def checkPolicyUpdate (seen : List String) (update : PolicyUpdate) : List Finding :=
  let policyID := trimSpace update.policyID
  let status := lowerTrim library update.status
  errorIf (policyID = "") "policy update missing policyid attribute" ++
  warningIf (policyID ≠ "" ∧ policyID ∈ seen) ("duplicate policy update entry for " ++ policyID) ++
  errorIf (status = "") ("policy " ++ policyID ++ " missing status attribute") ++
  errorIf (status ≠ "" ∧ status ∉ allowedPolicyStatuses)
    ("policy " ++ policyID ++ " uses unsupported status " ++ library.quote status) ++
  checkPolicyTimestamp library policyID update.timestamp ++
  if update.acknowledged then
    warningIf (status = "pending")
      ("policy " ++ policyID ++ " acknowledged while still pending") ++
    warningIf (trimSpace update.timestamp = "")
      ("policy " ++ policyID ++ " acknowledged without timestamp")
  else
    warningIf (status = "acknowledged" ∨ status = "applied")
      ("policy " ++ policyID ++ " status " ++ library.quote status ++
        " reported without acknowledgement flag")

def checkRecordingAssoc (assoc : RSAssociation) : List Finding :=
  if assoc = {} then
    [.warning "missing session recording association element (non-RFC-compliant SRC – continuing)"]
  else
    let assocID := normalizedAssocSessionID assoc
    errorIf (assocID = "") "missing session ID in recording association" ++
    warningIf (assocID ≠ "" ∧ sessionID ≠ "" ∧ assocID ≠ sessionID)
      ("recording association sessionid (" ++ assocID ++ ") does not match metadata session (" ++
        sessionID ++ ")") ++
    warningIf (trimSpace assoc.callID = "" ∧ trimSpace assoc.callIDAlt = "" ∧
        trimSpace assoc.fixedID = "")
      "session association missing both call-ID and fixed-ID"

def sessionElementID (session : RSSession) : String := firstNonBlank [session.id, session.legacyID]

def checkSession (session : RSSession) : List Finding :=
  let id := sessionElementID session
  if id = "" then [.error "session element missing session_id attribute"]
  else
    session.participantRefs.flatMap (fun ref =>
      errorIf (trimSpace ref ∉ m.participantIDs ∧ m.participantIDs ≠ [])
        ("session " ++ id ++ " references unknown participant " ++ ref)) ++
    session.streamRefs.flatMap fun ref =>
      errorIf (trimSpace ref ∉ m.streamIDs ∧ m.streamIDs ≠ [])
        ("session " ++ id ++ " references unknown stream " ++ ref)

def checkSessions : List Finding :=
  if m.sessions = [] then [.error "no <session> elements provided"]
  else if sessionID = "" then []
  else
    m.sessions.flatMap (checkSession m) ++
    errorIf (sessionID ∉ m.sessions.map sessionElementID)
      "no session element matches recording session ID"

def checkGroupAgain (assoc : SessionGroupAssociation) : List Finding :=
  errorIf (trimSpace assoc.sessionGroupID = "") "session group association missing sessiongroupid" ++
  errorIf (trimSpace assoc.sessionID = "") "session group association missing sessionid"

def checkPolicyAgain (update : PolicyUpdate) : List Finding :=
  errorIf (trimSpace update.policyID = "") "policy update missing policyid" ++
  errorIf (trimSpace update.status = "") ("policy " ++ update.policyID ++ " missing status")

def checkParticipantSession (assoc : RSParticipantSessionAssoc) : List Finding :=
  let participantID := trimSpace assoc.participantID
  let assocID := trimSpace assoc.sessionID
  errorIf (participantID = "") "participantsessionassoc missing participant_id" ++
  errorIf (participantID ≠ "" ∧ participantID ∉ m.participantIDs)
    ("participantsessionassoc references unknown participant " ++ participantID) ++
  errorIf (assocID = "") "participantsessionassoc missing session_id" ++
  warningIf (assocID ≠ "" ∧ sessionID ≠ "" ∧ assocID ≠ sessionID)
    ("participantsessionassoc references mismatched sessionid " ++ assocID ++ " (expected " ++
      sessionID ++ ")")

def RSParticipantStreamAssoc.streamRefs (assoc : RSParticipantStreamAssoc) : List String :=
  (([assoc.stream, assoc.streamID] ++ assoc.send ++ assoc.receive).map trimSpace).filter (· ≠ "")

def checkParticipantStream (assoc : RSParticipantStreamAssoc) : List Finding :=
  let participantID := firstNonBlank [assoc.participant, assoc.participantID]
  errorIf (participantID = "") "participantstreamassoc missing participant reference" ++
  errorIf (participantID ≠ "" ∧ participantID ∉ m.participantIDs)
    ("participantstreamassoc references unknown participant " ++ participantID) ++
  errorIf (assoc.streamRefs = []) "participantstreamassoc missing stream reference" ++
  assoc.streamRefs.flatMap fun ref =>
    errorIf (ref ∉ m.streamIDs ∧ m.streamIDs ≠ [])
      ("participantstreamassoc references unknown stream " ++ ref)

def checkHeader : List Finding :=
  checkRoot m ++
  checkSessionID (trimSpace m.sessionID) ++
  checkState library m ++
  checkSequence library m

def checkElements : List Finding :=
  checkParticipants library options m ++
  m.group.flatMap (checkGroup m.participantIDs) ++
  checkStreams m ++
  checkEach (some ∘ groupKey) (checkSessionGroup (trimSpace m.sessionID)) []
    m.sessionGroupAssociations ++
  checkEach (fun update => nonEmpty (trimSpace update.policyID)) (checkPolicyUpdate library) []
    m.policyUpdates

def checkAssociations : List Finding :=
  let sessionID := trimSpace m.sessionID
  checkRecordingAssoc sessionID m.sessionRecordingAssoc ++
  checkSessions m sessionID ++
  m.sessionGroupAssociations.flatMap checkGroupAgain ++
  m.policyUpdates.flatMap checkPolicyAgain ++
  m.participantSessionAssoc.flatMap (checkParticipantSession m sessionID) ++
  m.participantStreamAssoc.flatMap (checkParticipantStream m)

def validate : List Finding :=
  checkHeader library m ++ checkElements library options m ++ checkAssociations m

def accepted : Bool :=
  (validate library options m).all (!·.isError)

end

structure Filling where
  parseNameAddr : String → Option (String × String)
  context : FillContext

def fill : Option Filling → RSMetadata → RSMetadata
  | none, m => m
  | some filling, m => fillMissing filling.parseNameAddr filling.context m

def errorTexts (findings : List Finding) : List String :=
  findings.filterMap fun
    | .error text => some text
    | .warning _ => none

def parseSiprecMetadata (filling : Option Filling) (decoded : RSMetadata) :
    Except String RSMetadata :=
  let m := fill filling decoded.normalize
  if accepted library options m then .ok m
  else .error ("critical SIPREC metadata validation failure: [" ++
    " ".intercalate (errorTexts (validate library options m)) ++ "]")

end Checks

variable {library : Library} {options : ValidationOptions} {filling : Option Filling}
  {decoded m : RSMetadata}

section

variable (parsed : parseSiprecMetadata library options filling decoded = .ok m)

include parsed

theorem parsed_accepted : accepted library options m ∧ m = fill filling decoded.normalize := by
  unfold parseSiprecMetadata at parsed
  dsimp only at parsed
  split at parsed
  case isTrue isAccepted =>
    cases parsed
    exact ⟨isAccepted, rfl⟩
  case isFalse => cases parsed

theorem parsed_streams : m.streams = decoded.streams.map Stream.normalize := by
  rw [(parsed_accepted parsed).2]
  cases filling with
  | none => rfl
  | some filling => exact fillMissing_streams

end

/-! ## Findings without errors -/

def Clean (findings : List Finding) : Prop := ∀ text, .error text ∉ findings

@[simp]
theorem clean_append {first second : List Finding} :
    Clean (first ++ second) ↔ Clean first ∧ Clean second := by
  simp only [Clean, mem_append, not_or, forall_and]

@[simp]
theorem clean_flatMap {α : Type} {elements : List α} {check : α → List Finding} :
    Clean (elements.flatMap check) ↔ ∀ element ∈ elements, Clean (check element) := by
  simp only [Clean, mem_flatMap, not_exists, not_and]
  exact ⟨fun clean element mem text => clean text element mem,
    fun clean text element mem => clean element mem text⟩

variable {text : String}

@[simp]
theorem clean_errorIf {condition : Prop} [Decidable condition] :
    Clean (errorIf condition text) ↔ ¬ condition := by
  by_cases holds : condition <;> simp [Clean, errorIf, holds]

@[simp]
theorem clean_warningIf {condition : Prop} [Decidable condition] :
    Clean (warningIf condition text) := by
  by_cases holds : condition <;> simp [Clean, warningIf, holds]

@[simp]
theorem not_clean_error : ¬ Clean [.error text] := fun clean =>
  clean text (.head _)

theorem clean_checkEach_mem {α : Type} {key : α → Option String}
    {check : List String → α → List Finding} {elements : List α} {seen : List String}
    (clean : Clean (checkEach key check seen elements)) {element : α}
    (mem : element ∈ elements) : ∃ before, Clean (check before element) := by
  induction elements generalizing seen with
  | nil => cases mem
  | cons first rest ih =>
    rw [checkEach, clean_append] at clean
    obtain rfl | later := mem_cons.mp mem
    · exact ⟨seen, clean.1⟩
    · exact ih clean.2 later

theorem clean_of_accepted (isAccepted : accepted library options m) :
    Clean (validate library options m) := by
  intro text found
  have fine := all_eq_true.mp isAccepted _ found
  simp [Finding.isError] at fine

/-- The checks that results about accepted documents depend on, each without errors. -/
structure CleanChecks (library : Library) (m : RSMetadata) : Prop where
  state : Clean (checkState library m)
  participants : Clean (checkEach
    (fun participant => nonEmpty (normalizedParticipantID participant))
    (checkParticipant library) [] m.participants)
  streams : Clean (checkStreams m)
  participantSessions : ∀ assoc ∈ m.participantSessionAssoc,
    Clean (checkParticipantSession m (trimSpace m.sessionID) assoc)
  participantStreams : ∀ assoc ∈ m.participantStreamAssoc, Clean (checkParticipantStream m assoc)

theorem cleanChecks_of_accepted (isAccepted : accepted library options m) :
    CleanChecks library m := by
  have clean := clean_of_accepted isAccepted
  simp only [validate, checkHeader, checkElements, checkParticipants, checkAssociations,
    clean_append, clean_flatMap] at clean
  obtain ⟨⟨header, elements⟩, associations⟩ := clean
  exact ⟨header.1.2, elements.1.1.1.1.2, elements.1.1.2, associations.1.2, associations.2⟩

namespace CleanChecks

variable (checks : CleanChecks library m)

include checks

theorem participantID {participant : RSParticipant} (mem : participant ∈ m.participants) :
    normalizedParticipantID participant ≠ "" := by
  intro missing
  obtain ⟨before, clean⟩ := clean_checkEach_mem checks.participants mem
  simp [checkParticipant, missing] at clean

theorem streamID {stream : Stream} (mem : stream ∈ m.streams) :
    normalizedStreamID stream ≠ "" := by
  intro missing
  obtain ⟨before, clean⟩ := clean_checkEach_mem checks.streams mem
  simp [checkStream, missing] at clean

theorem participantRef {assoc : RSParticipantStreamAssoc}
    (mem : assoc ∈ m.participantStreamAssoc) :
    firstNonBlank [assoc.participant, assoc.participantID] ≠ "" := by
  intro missing
  have clean := checks.participantStreams assoc mem
  simp [checkParticipantStream, missing] at clean

end CleanChecks

theorem exists_of_firstNonBlank {texts : List String} (present : firstNonBlank texts ≠ "") :
    ∃ text ∈ texts, text ≠ "" := by
  unfold firstNonBlank at present
  cases found : (texts.map trimSpace).find? (· ≠ "") with
  | none =>
    rw [found] at present
    exact absurd rfl present
  | some trimmed =>
    obtain ⟨text, mem, isTrimmed⟩ := mem_map.mp (mem_of_find?_eq_some found)
    refine ⟨text, mem, ?_⟩
    rintro rfl
    have notEmpty := find?_some found
    rw [← isTrimmed, trimSpace_empty] at notEmpty
    cases notEmpty

theorem parsed_streamID (parsed : parseSiprecMetadata library options filling decoded = .ok m)
    {stream : Stream} (mem : stream ∈ m.streams) : stream.streamID ≠ "" := by
  obtain ⟨text, isText, nonempty⟩ :=
    exists_of_firstNonBlank ((cleanChecks_of_accepted (parsed_accepted parsed).1).streamID mem)
  rw [parsed_streams parsed] at mem
  obtain ⟨raw, -, rfl⟩ := mem_map.mp mem
  -- normalisation has emptied the other places of an ID
  rcases mem_cons.mp isText with rfl | others
  · exact nonempty
  · simp only [Stream.normalize, mem_cons, not_mem_nil, or_false, or_self] at others
    exact absurd others nonempty

end SiprecServer.Siprec.Metadata
