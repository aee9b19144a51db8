import SiprecServer.Siprec.Validation

/-!
# What acceptance says about a document

Validation makes sure of the identifiers of participants and streams, and of most references
to them.  It warns about sessions that are referred to under another ID, and does not look at
the references of stream elements, at repeated session elements, or at reasons for states
without a row in the table.
-/

namespace SiprecServer.Siprec.Metadata

open Lib.Text List

def RSMetadata.sessionIDs (m : RSMetadata) : List String := m.sessions.map sessionElementID

structure UniqueIdentifiers (m : RSMetadata) : Prop where
  sessions : m.sessionIDs.Nodup
  participants : (m.participants.map normalizedParticipantID).Nodup
  streams : (m.streams.map normalizedStreamID).Nodup

section

variable (m : RSMetadata)

def RSMetadata.sessionRefs : List String :=
  m.participantSessionAssoc.map (fun assoc => trimSpace assoc.sessionID) ++
    (if m.sessionRecordingAssoc = {} then []
      else [normalizedAssocSessionID m.sessionRecordingAssoc]) ++
    m.sessionGroupAssociations.map (fun assoc => trimSpace assoc.sessionID) ++
    (m.streams.map fun stream => firstNonBlank [stream.session, stream.sessionAlt]).filter (· ≠ "")

def RSMetadata.assocParticipantRefs : List String :=
  m.participantSessionAssoc.map (fun assoc => trimSpace assoc.participantID) ++
    m.participantStreamAssoc.map fun assoc => firstNonBlank [assoc.participant, assoc.participantID]

def RSMetadata.streamParticipantRefs : List String :=
  m.streams.flatMap fun stream => stream.participantRef.map trimSpace

def RSMetadata.assocStreamRefs : List String :=
  m.participantStreamAssoc.flatMap RSParticipantStreamAssoc.streamRefs

def RSMetadata.mixedStreamRefs : List String :=
  m.streams.flatMap fun stream => stream.mixedStreams.map trimSpace

end

structure ResolvedReferences (m : RSMetadata) : Prop where
  sessions : ∀ ref ∈ m.sessionRefs, ref ∈ m.sessionIDs
  participants : ∀ ref ∈ m.assocParticipantRefs ++ m.streamParticipantRefs, ref ∈ m.participantIDs
  streams : ∀ ref ∈ m.assocStreamRefs ++ m.mixedStreamRefs, ref ∈ m.streamIDs

section

variable (library : Library)

def StateTableAllows (m : RSMetadata) : Prop :=
  lowerTrim library m.reason = "" ∨
    ∃ allowed, stateReasonMatrix.lookup (lowerTrim library m.state) = some allowed ∧
      lowerTrim library m.reason ∈ allowed

structure Sound (m : RSMetadata) : Prop where
  identifiers : UniqueIdentifiers m
  references : ResolvedReferences m
  stateTable : StateTableAllows library m

/-- What acceptance leaves open. -/
structure Unchecked (m : RSMetadata) : Prop where
  sessionsOnce : m.sessionIDs.Nodup
  sessionRefs : ∀ ref ∈ m.sessionRefs, ref ∈ m.sessionIDs
  streamParticipants : ∀ ref ∈ m.streamParticipantRefs, ref ∈ m.participantIDs
  mixedStreams : ∀ ref ∈ m.mixedStreamRefs, ref ∈ m.streamIDs
  streamsPresent : m.streams = [] → m.participantStreamAssoc = []
  rowless : lowerTrim library m.state = "" ∨ lowerTrim library m.state = "unknown" →
    lowerTrim library m.reason = ""

end

theorem nodup_of_clean_checkEach {α : Type} {name : α → String}
    {check : List String → α → List Finding}
    (repeated : ∀ seen element, name element ∈ seen → ¬ Clean (check seen element))
    {elements : List α} {seen : List String} (named : ∀ element ∈ elements, name element ≠ "")
    (clean : Clean (checkEach (fun element => nonEmpty (name element)) check seen elements)) :
    (elements.map name).Nodup ∧ ∀ element ∈ elements, name element ∉ seen := by
  induction elements generalizing seen with
  | nil => exact ⟨nodup_nil, fun element mem => by cases mem⟩
  | cons element rest ih =>
    have isKey : nonEmpty (name element) = some (name element) := if_neg (named element (.head _))
    rw [checkEach, clean_append, isKey] at clean
    obtain ⟨distinct, fresh⟩ :=
      ih (fun other mem => named other (.tail _ mem)) clean.2
    have unseen : name element ∉ seen := fun old => repeated seen element old clean.1
    have apart : ∀ other ∈ rest, name other ≠ name element ∧ name other ∉ seen := by
      simpa [not_or] using fresh
    constructor
    · refine nodup_cons.mpr ⟨fun again => ?_, distinct⟩
      obtain ⟨other, mem, same⟩ := mem_map.mp again
      exact (apart other mem).1 same
    · intro other mem
      obtain rfl | mem := mem_cons.mp mem
      · exact unseen
      · exact (apart other mem).2

namespace CleanChecks

variable {library : Library} {m : RSMetadata} (checks : CleanChecks library m)

include checks

theorem participants_nodup : (m.participants.map normalizedParticipantID).Nodup := by
  refine (nodup_of_clean_checkEach ?_ (fun _ => checks.participantID) checks.participants).1
  intro seen participant old clean
  unfold checkParticipant at clean
  dsimp only at clean
  split at clean
  · exact not_clean_error clean
  · simp only [clean_append, clean_errorIf] at clean
    exact clean.1.1.1 old

theorem streams_nodup : (m.streams.map normalizedStreamID).Nodup := by
  refine (nodup_of_clean_checkEach ?_ (fun _ => checks.streamID) checks.streams).1
  intro seen stream old clean
  simp only [checkStream, clean_append, clean_errorIf, clean_warningIf, not_and] at clean
  obtain ⟨⟨⟨⟨⟨-, present⟩, unseen⟩, -⟩, -⟩, -⟩ := clean
  exact unseen present old

theorem assocParticipants : ∀ ref ∈ m.assocParticipantRefs, ref ∈ m.participantIDs := by
  intro ref mem
  obtain inSession | inStream := mem_append.mp mem
  · obtain ⟨assoc, isAssoc, rfl⟩ := mem_map.mp inSession
    have clean := checks.participantSessions assoc isAssoc
    simp only [checkParticipantSession, clean_append, clean_errorIf, clean_warningIf, not_and,
      not_not] at clean
    obtain ⟨⟨⟨present, known⟩, -⟩, -⟩ := clean
    exact known present
  · obtain ⟨assoc, isAssoc, rfl⟩ := mem_map.mp inStream
    have clean := checks.participantStreams assoc isAssoc
    simp only [checkParticipantStream, clean_append, clean_errorIf, not_and, not_not] at clean
    obtain ⟨⟨⟨present, known⟩, -⟩, -⟩ := clean
    exact known present

theorem assocStream_refs {assoc : RSParticipantStreamAssoc}
    (isAssoc : assoc ∈ m.participantStreamAssoc) :
    assoc.streamRefs ≠ [] ∧ ∀ ref ∈ assoc.streamRefs, m.streamIDs ≠ [] → ref ∈ m.streamIDs := by
  have clean := checks.participantStreams assoc isAssoc
  simp only [checkParticipantStream, clean_append, clean_errorIf, clean_flatMap, not_and,
    not_not] at clean
  obtain ⟨⟨-, present⟩, known⟩ := clean
  refine ⟨present, fun ref mem streams => ?_⟩
  by_contra unknown
  exact streams (known ref mem unknown)

theorem assocStreams_iff :
    (∀ ref ∈ m.assocStreamRefs, ref ∈ m.streamIDs) ↔
      (m.streams = [] → m.participantStreamAssoc = []) := by
  constructor
  · intro known none_left
    refine eq_nil_iff_forall_not_mem.mpr fun assoc isAssoc => ?_
    obtain ⟨ref, rest, shape⟩ := exists_cons_of_ne_nil (checks.assocStream_refs isAssoc).1
    have listed := known ref (mem_flatMap.mpr ⟨assoc, isAssoc, shape ▸ .head _⟩)
    rw [RSMetadata.streamIDs, none_left] at listed
    cases listed
  · intro present ref mem
    obtain ⟨assoc, isAssoc, inside⟩ := mem_flatMap.mp mem
    refine (checks.assocStream_refs isAssoc).2 ref inside fun none_named => ?_
    cases streams : m.streams with
    | nil => cases present streams ▸ isAssoc
    | cons stream rest =>
      have named := checks.streamID (streams ▸ .head rest : stream ∈ m.streams)
      rw [RSMetadata.streamIDs, streams] at none_named
      simp [named] at none_named

theorem stateTable_iff :
    StateTableAllows library m ↔
      (lowerTrim library m.state = "" ∨ lowerTrim library m.state = "unknown" →
        lowerTrim library m.reason = "") := by
  have rows : ∀ state ∈ allowedRecordingStates, state ≠ "unknown" →
      stateReasonMatrix.lookup state ≠ none := by decide
  have clean := checks.state
  simp only [checkState, clean_append, clean_errorIf, clean_warningIf, not_and, not_not] at clean
  obtain ⟨⟨⟨⟨⟨-, known⟩, -⟩, reasons⟩, -⟩, -⟩ := clean
  unfold StateTableAllows
  constructor
  · rintro (absent | ⟨allowed, row, -⟩)
    · exact fun _ => absent
    · rintro (missing | unknown)
      · rw [missing] at row
        cases row
      · rw [unknown] at row
        cases row
  · intro rowless
    by_cases absent : lowerTrim library m.reason = ""
    · exact .inl absent
    · rw [checkReason, if_neg absent, clean_append] at reasons
      cases row : stateReasonMatrix.lookup (lowerTrim library m.state) with
      | none =>
        by_cases missing : lowerTrim library m.state = ""
        · exact .inl (rowless (.inl missing))
        · by_contra
          refine rows _ (known missing) (fun unknown => ?_) row
          exact absent (rowless (.inr unknown))
      | some allowed =>
        rw [row] at reasons
        exact .inr ⟨allowed, rfl, not_not.mp (clean_errorIf.mp reasons.2)⟩

end CleanChecks

/-- An accepted document is sound if and only if what acceptance leaves open is so. -/
theorem accepted_sound_iff {library : Library} {options : ValidationOptions} {m : RSMetadata}
    (isAccepted : accepted library options m) : Sound library m ↔ Unchecked library m := by
  have checks := cleanChecks_of_accepted isAccepted
  constructor
  · intro sound
    exact
      { sessionsOnce := sound.identifiers.sessions
        sessionRefs := sound.references.sessions
        streamParticipants := fun ref member =>
          sound.references.participants ref (mem_append_right _ member)
        mixedStreams := fun ref member =>
          sound.references.streams ref (mem_append_right _ member)
        streamsPresent := checks.assocStreams_iff.mp fun ref member =>
          sound.references.streams ref (mem_append_left _ member)
        rowless := checks.stateTable_iff.mp sound.stateTable }
  · intro unchecked
    refine ⟨⟨unchecked.sessionsOnce, checks.participants_nodup, checks.streams_nodup⟩,
      ⟨unchecked.sessionRefs, ?_, ?_⟩, checks.stateTable_iff.mpr unchecked.rowless⟩
    · intro ref member
      exact (mem_append.mp member).elim (checks.assocParticipants ref)
        (unchecked.streamParticipants ref)
    · intro ref member
      exact (mem_append.mp member).elim
        (checks.assocStreams_iff.mpr unchecked.streamsPresent ref) (unchecked.mixedStreams ref)

def sampleDocument (sessions : List RSSession) : RSMetadata :=
  { sessionID := "s1"
    state := "active"
    sessions
    participants := [{ id := "p1", aor := [{ value := "sip:alice@example.com" }] }]
    streams := [{ label := "1", streamID := "st1", type := "audio" }]
    participantStreamAssoc := [{ participant := "p1", stream := "st1" }]
    participantSessionAssoc := [{ participantID := "p1", sessionID := "s1" }]
    sessionRecordingAssoc := { sessionID := "s1" } }

def sampleLibrary : Library := ⟨id, fun _ => .ok 0, id⟩

theorem sampleDocument_sound :
    accepted sampleLibrary { allowMissingParticipants := false } (sampleDocument [{ id := "s1" }]) ∧
      Sound sampleLibrary (sampleDocument [{ id := "s1" }]) := by
  have isAccepted : accepted sampleLibrary { allowMissingParticipants := false }
      (sampleDocument [{ id := "s1" }]) := by decide +kernel
  refine ⟨isAccepted, (accepted_sound_iff isAccepted).mpr ⟨?_, ?_, ?_, ?_, ?_, ?_⟩⟩ <;>
    decide +kernel

theorem repeated_session_accepted :
    accepted sampleLibrary { allowMissingParticipants := false }
        (sampleDocument [{ id := "s1" }, { id := "s1" }]) ∧
      ¬ (sampleDocument [{ id := "s1" }, { id := "s1" }]).sessionIDs.Nodup := by
  decide +kernel

end SiprecServer.Siprec.Metadata
