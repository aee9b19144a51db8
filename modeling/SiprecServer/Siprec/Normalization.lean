import SiprecServer.Siprec.Validation

/-!
# Normalisation and completion of documents

`Normalize` moves values from the legacy fields to the primary ones and is idempotent.  It looks
for texts that are empty and validation for texts that are blank, so it can lose an identifier
that validation would have found.  `FillMissing` keeps a normalised document normalised.
-/

namespace SiprecServer.Siprec.Metadata

open Lib.Text List

@[simp]
theorem firstNonEmpty_cons (text : String) (texts : List String) :
    firstNonEmpty (text :: texts) = orElse text (firstNonEmpty texts) := by
  by_cases absent : text = "" <;> simp [firstNonEmpty, orElse, absent]

@[simp]
theorem firstNonBlank_nil : firstNonBlank [] = "" := rfl

@[simp]
theorem firstNonBlank_cons (text : String) (texts : List String) :
    firstNonBlank (text :: texts) = orElse (trimSpace text) (firstNonBlank texts) := by
  by_cases absent : trimSpace text = "" <;> simp [firstNonBlank, orElse, absent]

theorem Group.normalize_comp : Group.normalize ∘ Group.normalize = Group.normalize := by
  funext group
  simp [Group.normalize]

theorem RSSession.normalize_comp :
    RSSession.normalize ∘ RSSession.normalize = RSSession.normalize := by
  funext session
  simp [RSSession.normalize]

theorem RSRecordingSession.normalize_comp :
    RSRecordingSession.normalize ∘ RSRecordingSession.normalize = RSRecordingSession.normalize := by
  funext session
  simp [RSRecordingSession.normalize]

theorem Stream.normalize_comp : Stream.normalize ∘ Stream.normalize = Stream.normalize := by
  funext stream
  simp [Stream.normalize]

theorem RSParticipant.normalize_comp :
    RSParticipant.normalize ∘ RSParticipant.normalize = RSParticipant.normalize := by
  funext participant
  by_cases named : participant.aor = [] <;> simp [RSParticipant.normalize, named]

open Metadata.RSMetadata

theorem RSMetadata.normalize_comp :
    normalize ∘ normalize = normalize := by
  funext m
  simp [normalize, RSAssociation.normalize, Group.normalize_comp,
    RSParticipant.normalize_comp, Stream.normalize_comp, RSSession.normalize_comp,
    RSRecordingSession.normalize_comp]

theorem normalize_idempotent (m : RSMetadata) : m.normalize.normalize = m.normalize :=
  congrFun normalize_comp m

/-! ## Effective identifiers -/

/-- What validation identifies the parts of a document by. -/
def effectiveIDs (m : RSMetadata) : List String × List (String × String) × String :=
  (m.participants.map normalizedParticipantID,
    m.streams.map fun stream => (normalizedStreamID stream, normalizedStreamLabel stream),
    normalizedAssocSessionID m.sessionRecordingAssoc)

/-- A blank that is not empty keeps `Normalize` from using the fields after it, while validation
goes on to them. -/
def Hides (text : String) : Prop := text ≠ "" ∧ trimSpace text = ""

def RSParticipant.Unhidden (participant : RSParticipant) : Prop :=
  Hides participant.id → trimSpace participant.legacyID = "" ∨
    trimSpace participant.legacyID = trimSpace participant.nameID

variable (stream : Stream)

/-- No identifier of the stream stands behind a blank one. -/
def Stream.Unhidden : Prop :=
  (Hides stream.streamID → trimSpace stream.streamIDAlt = "" ∧ trimSpace stream.id = "") ∧
    (stream.streamID = "" → Hides stream.streamIDAlt → trimSpace stream.id = "") ∧
    (Hides stream.label → trimSpace stream.labelElement = "" ∨
      trimSpace stream.labelElement =
        firstNonBlank [stream.streamID, stream.streamIDAlt, stream.id])

def RSAssociation.Unhidden (assoc : RSAssociation) : Prop :=
  Hides assoc.sessionID → trimSpace assoc.sessionIDAlt = ""

theorem fallback_kept_iff (first second rest : String) :
    orElse (trimSpace (orElse first second)) rest =
        orElse (trimSpace first) (orElse (trimSpace second) rest) ↔
      (Hides first → trimSpace second = "" ∨ trimSpace second = rest) := by
  unfold Hides
  by_cases empty : first = ""
  · simp [empty]
  · by_cases blank : trimSpace first = ""
    · by_cases bare : trimSpace second = "" <;> simp [orElse, empty, blank, bare, eq_comm]
    · simp [orElse, empty, blank]

theorem firstNonBlank_trimmed (texts : List String) :
    trimSpace (firstNonBlank texts) = firstNonBlank texts := by
  induction texts with
  | nil => exact trimSpace_empty
  | cons text texts ih =>
    rw [firstNonBlank_cons, orElse]
    split
    · exact ih
    · exact trimSpace_trimSpace text

theorem normalizedParticipantID_normalize_iff (participant : RSParticipant) :
    normalizedParticipantID participant.normalize = normalizedParticipantID participant ↔
      participant.Unhidden := by
  have chain :=
    fallback_kept_iff participant.id participant.legacyID (trimSpace participant.nameID)
  simpa [normalizedParticipantID, RSParticipant.normalize, RSParticipant.Unhidden] using chain

theorem normalizedStreamID_normalize_iff :
    normalizedStreamID stream.normalize = normalizedStreamID stream ↔
      (Hides stream.streamID → trimSpace stream.streamIDAlt = "" ∧ trimSpace stream.id = "") ∧
        (stream.streamID = "" → Hides stream.streamIDAlt → trimSpace stream.id = "") := by
  by_cases empty : stream.streamID = ""
  · have chain := fallback_kept_iff stream.streamIDAlt stream.id ""
    simpa [normalizedStreamID, Stream.normalize, Hides, empty] using chain
  · by_cases blank : trimSpace stream.streamID = ""
    · have both (first second : String) : "" = orElse first second ↔ first = "" ∧ second = "" := by
        by_cases absent : first = "" <;> simp [orElse, absent, eq_comm]
      simp [normalizedStreamID, Stream.normalize, Hides, orElse_of_ne empty, empty, blank, both]
    · simp [normalizedStreamID, Stream.normalize, Hides, orElse_of_ne empty, orElse_of_ne blank,
        empty, blank]

theorem normalizedStreamLabel_eq :
    normalizedStreamLabel stream =
      orElse (trimSpace stream.label)
        (orElse (trimSpace stream.labelElement) (normalizedStreamID stream)) := by
  have trimmed : trimSpace (normalizedStreamID stream) = normalizedStreamID stream :=
    firstNonBlank_trimmed _
  simp [normalizedStreamLabel, trimmed]

theorem stream_normalize_iff :
    normalizedStreamID stream.normalize = normalizedStreamID stream ∧
        normalizedStreamLabel stream.normalize = normalizedStreamLabel stream ↔
      stream.Unhidden := by
  have label (sameID : normalizedStreamID stream.normalize = normalizedStreamID stream) :
      normalizedStreamLabel stream.normalize = normalizedStreamLabel stream ↔
        (Hides stream.label → trimSpace stream.labelElement = "" ∨
          trimSpace stream.labelElement = normalizedStreamID stream) := by
    rw [normalizedStreamLabel_eq stream.normalize, normalizedStreamLabel_eq stream, sameID]
    exact fallback_kept_iff stream.label stream.labelElement (normalizedStreamID stream)
  rw [and_congr_right label, normalizedStreamID_normalize_iff, and_assoc]
  rfl

/-- Normalizing keeps the identifiers exactly if no blank hides one. -/
theorem normalize_effectiveIDs_iff (m : RSMetadata) :
    effectiveIDs m.normalize = effectiveIDs m ↔
      (∀ participant ∈ m.participants, participant.Unhidden) ∧
        (∀ stream ∈ m.streams, stream.Unhidden) ∧ m.sessionRecordingAssoc.Unhidden := by
  have assoc : normalizedAssocSessionID m.sessionRecordingAssoc.normalize =
      normalizedAssocSessionID m.sessionRecordingAssoc ↔ m.sessionRecordingAssoc.Unhidden := by
    have chain := fallback_kept_iff m.sessionRecordingAssoc.sessionID
      m.sessionRecordingAssoc.sessionIDAlt ""
    simpa [normalizedAssocSessionID, RSAssociation.normalize, RSAssociation.Unhidden] using chain
  simp [effectiveIDs, RSMetadata.normalize, assoc, normalizedParticipantID_normalize_iff,
    stream_normalize_iff]

/-- The identifier of a participant whose `participant_id` is a single blank is lost. -/
def hiddenParticipant : RSMetadata := { participants := [{ id := " ", legacyID := "alice" }] }

theorem hiddenParticipant_loses_id :
    effectiveIDs hiddenParticipant = (["alice"], [], "") ∧
      effectiveIDs hiddenParticipant.normalize = ([""], [], "") := by
  decide

/-! ## The fill step -/

/-- Only a blank text is replaced. -/
def Kept (before after : String) : Prop := trimSpace before ≠ "" → after = before

theorem Kept.of_blank {before after : String} (blank : trimSpace before = "") : Kept before after :=
  fun nonblank => absurd blank nonblank

theorem Kept.refl (text : String) : Kept text text := fun _ => rfl

/-- What a document may become when it is filled, and what is noted about that. -/
structure Completed (before after : RSMetadata) : Prop where
  sessionID : Kept before.sessionID after.sessionID
  sessions : ∀ (index : Nat) (session : RSSession), before.sessions[index]? = some session →
    ∃ id, after.sessions[index]? = some { session with id } ∧ Kept session.id id
  recordingAssoc : ∃ sessionID callID,
    after.sessionRecordingAssoc = { before.sessionRecordingAssoc with sessionID, callID } ∧
      Kept before.sessionRecordingAssoc.sessionID sessionID ∧
      Kept before.sessionRecordingAssoc.callID callID
  participantAssoc : ∀ (index : Nat) (assoc : RSParticipantSessionAssoc),
    before.participantSessionAssoc[index]? = some assoc →
      ∃ sessionID, after.participantSessionAssoc[index]? = some { assoc with sessionID } ∧
        Kept assoc.sessionID sessionID
  participants : before.participants <+: after.participants
  filledFields : after.filledFields = before.filledFields ++
    (if after.sessionID = before.sessionID then [] else [filledSessionID]) ++
    (if after.participants = before.participants then [] else [filledParticipant])
  others : after =
    { before with
      sessionID := after.sessionID
      sessions := after.sessions
      sessionRecordingAssoc := after.sessionRecordingAssoc
      participantSessionAssoc := after.participantSessionAssoc
      participants := after.participants
      filledFields := after.filledFields }

/-- Everything that refers to the session has an identifier. -/
def Identified (m : RSMetadata) : Prop :=
  (∀ session ∈ m.sessions, trimSpace session.id ≠ "") ∧
    trimSpace m.sessionRecordingAssoc.sessionID ≠ "" ∧
    ∀ assoc ∈ m.participantSessionAssoc, trimSpace assoc.sessionID ≠ ""

section Filling

variable {context : FillContext} {m : RSMetadata}

abbrev FillContext.fillID (context : FillContext) : String :=
  orElse (trimSpace context.sessionID) (trimSpace context.callID)

abbrev FillsID (context : FillContext) (m : RSMetadata) : Prop :=
  trimSpace m.sessionID = "" ∧ context.fillID ≠ "" ∧ m.sessions.length ≤ 1

theorem fillID_trimmed : trimSpace context.fillID = context.fillID := by
  unfold FillContext.fillID orElse
  split <;> exact trimSpace_trimSpace _

theorem fillSessionID_of_not (kept : ¬ FillsID context m) : fillSessionID context m = m :=
  if_neg kept

theorem fillSessionID_identified (fills : FillsID context m) :
    (fillSessionID context m).sessionID = context.fillID ∧
      Identified (fillSessionID context m) := by
  have nonblank : trimSpace context.fillID ≠ "" := by
    rw [fillID_trimmed]
    exact fills.2.1
  rw [fillSessionID, if_pos fills]
  dsimp only
  refine ⟨rfl, ?_, ?_, ?_⟩
  · cases listed : m.sessions with
    | nil => simpa using nonblank
    | cons session rest =>
      have alone : rest = [] := by simpa [listed] using fills.2.2
      by_cases blank : trimSpace session.id = "" <;> simp [alone, blank, nonblank]
  · by_cases blank : trimSpace m.sessionRecordingAssoc.sessionID = "" <;>
      simp [blank, nonblank]
  · intro assoc mem
    obtain ⟨old, -, rfl⟩ := mem_map.mp mem
    by_cases blank : trimSpace old.sessionID = "" <;> simp [blank, nonblank]

theorem normalize_of_identified {sessionID : String} {sessions : List RSSession}
    {sessionRecordingAssoc : RSAssociation}
    {participantSessionAssoc : List RSParticipantSessionAssoc} {filledFields : List String}
    (normal : m.normalize = m) (given : sessionID ≠ "")
    (sessionsFixed : sessions.map RSSession.normalize = sessions)
    (assocFixed : sessionRecordingAssoc.normalize = sessionRecordingAssoc) :
    RSMetadata.normalize { m with sessionID, sessions, sessionRecordingAssoc,
                                  participantSessionAssoc, filledFields } =
      { m with sessionID, sessions, sessionRecordingAssoc, participantSessionAssoc,
               filledFields } := by
  obtain ⟨texts, parts⟩ : ∃ texts,
      RSMetadata.normalize { m with sessionID, sessions, sessionRecordingAssoc,
                                    participantSessionAssoc, filledFields } =
        { m.normalize with
          sessionID := firstNonEmpty (sessionID :: texts)
          sessions := sessions.map RSSession.normalize
          sessionRecordingAssoc := sessionRecordingAssoc.normalize
          participantSessionAssoc
          filledFields } := ⟨_, rfl⟩
  rw [parts, normal, firstNonEmpty_cons, orElse_of_ne given, sessionsFixed, assocFixed]

theorem fillSessionID_normal (normal : m.normalize = m) :
    (fillSessionID context m).normalize = fillSessionID context m := by
  by_cases fills : FillsID context m
  · have sessions : m.sessions.map RSSession.normalize = m.sessions :=
      congrArg sessions normal
    have assoc : m.sessionRecordingAssoc.normalize = m.sessionRecordingAssoc :=
      congrArg sessionRecordingAssoc normal
    rw [fillSessionID, if_pos fills]
    apply normalize_of_identified normal fills.2.1
    · split
      · simp [RSSession.normalize]
      case _ session rest listed =>
        rw [listed, map_cons, List.cons.injEq] at sessions
        have bare : session.legacyID = "" := (congrArg RSSession.legacyID sessions.1).symm
        split
        · simp [RSSession.normalize, bare, sessions.2]
        · rw [map_cons, sessions.1, sessions.2]
    · split
      · have sessionBare : "" = _ := congrArg RSAssociation.sessionIDAlt assoc
        have groupBare : "" = _ := congrArg RSAssociation.groupAlt assoc
        have callBare : "" = _ := congrArg RSAssociation.callIDAlt assoc
        simp [RSAssociation.normalize, ← sessionBare, ← groupBare, ← callBare]
      · exact assoc
  · rwa [fillSessionID_of_not fills]

theorem fillSessionID_done : ¬ FillsID context (fillSessionID context m) := by
  by_cases fills : FillsID context m
  · rintro ⟨blank, given, -⟩
    rw [(fillSessionID_identified fills).1, fillID_trimmed] at blank
    exact given blank
  · rwa [fillSessionID_of_not fills]

theorem fillSessionID_completed : Completed m (fillSessionID context m) := by
  by_cases fills : FillsID context m
  · have changed : context.fillID ≠ m.sessionID := by
      intro same
      have blank := fills.1
      rw [← same, fillID_trimmed] at blank
      exact fills.2.1 blank
    rw [fillSessionID, if_pos fills]
    dsimp only
    refine ⟨.of_blank fills.1, ?_, ?_, ?_, prefix_rfl, by simp [changed], by dsimp only⟩
    · intro index session found
      cases listed : m.sessions with
      | nil => simp [listed] at found
      | cons first rest =>
        rw [listed] at found
        cases index with
        | succ index => exact ⟨session.id, by simpa using found, .refl _⟩
        | zero =>
          cases found
          by_cases blank : trimSpace session.id = ""
          · exact ⟨context.fillID, by simp [blank], .of_blank blank⟩
          · exact ⟨session.id, by simp [blank], .refl _⟩
    · by_cases blank : trimSpace m.sessionRecordingAssoc.sessionID = ""
      · rw [if_pos blank]
        exact ⟨_, _, rfl, .of_blank blank, fun nonblank => if_neg nonblank⟩
      · rw [if_neg blank]
        exact ⟨_, _, rfl, .refl _, .refl _⟩
    · intro index assoc found
      by_cases blank : trimSpace assoc.sessionID = ""
      · exact ⟨context.fillID, by simp [found, blank], .of_blank blank⟩
      · exact ⟨assoc.sessionID, by simp [found, blank], .refl _⟩
  · rw [fillSessionID_of_not fills]
    exact ⟨.refl _, fun _ _ found => ⟨_, found, .refl _⟩, ⟨_, _, rfl, .refl _, .refl _⟩,
      fun _ _ found => ⟨_, found, .refl _⟩, prefix_rfl, by simp, rfl⟩

section Participant

variable {parseNameAddr : String → Option (String × String)}

theorem fillParticipant_cases (parseNameAddr : String → Option (String × String))
    (context : FillContext) (m : RSMetadata) :
    fillParticipant parseNameAddr context m = m ∨
      ∃ added : RSParticipant, added.normalize = added ∧ m.participants = [] ∧
        fillParticipant parseNameAddr context m =
          { m with
            participants := [added], filledFields := m.filledFields ++ [filledParticipant] } := by
  unfold fillParticipant
  split
  case isTrue absent =>
    split
    · exact .inl rfl
    · exact .inr ⟨_, by simp [RSParticipant.normalize], absent, rfl⟩
  case isFalse => exact .inl rfl

theorem fillParticipant_normal (normal : m.normalize = m) :
    (fillParticipant parseNameAddr context m).normalize =
      fillParticipant parseNameAddr context m := by
  obtain kept | ⟨added, fixed, -, filled⟩ := fillParticipant_cases parseNameAddr context m
  · rw [kept, normal]
  · rw [filled]
    change { m.normalize with
      participants := [added.normalize]
      filledFields := m.filledFields ++ [filledParticipant] } = _
    rw [normal, fixed]

theorem fillMissing_completed : Completed m (fillMissing parseNameAddr context m) := by
  have first := @fillSessionID_completed context m
  have same : (fillSessionID context m).participants = m.participants := by
    unfold fillSessionID
    dsimp only
    split <;> rfl
  obtain kept | ⟨added, -, absent, filled⟩ :=
    fillParticipant_cases parseNameAddr context (fillSessionID context m)
  · rwa [fillMissing, kept]
  · rw [fillMissing, filled]
    generalize fillSessionID context m = middle at first same absent
    exact
      { first with
        participants := by simp [← same, absent]
        filledFields := by simp [first.filledFields, ← same, absent]
        others := congrArg (fun document : RSMetadata =>
          { document with
            participants := [added]
            filledFields := middle.filledFields ++ [filledParticipant] }) first.others }

theorem fillMissing_identified :
    (fillMissing parseNameAddr context m).sessionID ≠ m.sessionID →
      Identified (fillMissing parseNameAddr context m) := by
  have first : (fillSessionID context m).sessionID ≠ m.sessionID →
      Identified (fillSessionID context m) := by
    intro changed
    by_cases fills : FillsID context m
    · exact (fillSessionID_identified fills).2
    · rw [fillSessionID_of_not fills] at changed
      exact absurd rfl changed
  unfold fillMissing
  generalize fillSessionID context m = middle at first
  obtain kept | ⟨added, -, -, filled⟩ := fillParticipant_cases parseNameAddr context middle
  · rwa [kept]
  · rw [filled]
    exact first

theorem fillMissing_twice :
    fillMissing parseNameAddr context (fillMissing parseNameAddr context m) =
      fillMissing parseNameAddr context m := by
  have done := @fillSessionID_done context m
  unfold fillMissing
  generalize fillSessionID context m = middle at done
  obtain kept | ⟨added, -, -, filled⟩ := fillParticipant_cases parseNameAddr context middle
  · rw [kept, fillSessionID_of_not done, kept]
  · rw [filled, fillSessionID_of_not]
    · exact if_neg (cons_ne_nil _ _)
    · exact done

end Participant

end Filling

/-- Filling replaces blanks only and notes what it filled; the result is normal, and filling it
again changes nothing. -/
theorem fillMissing_correct (parseNameAddr : String → Option (String × String))
    (context : FillContext) (m : RSMetadata) :
    let filled := fillMissing parseNameAddr context m.normalize
    Completed m.normalize filled ∧
      (filled.sessionID ≠ m.normalize.sessionID → Identified filled) ∧
      filled.normalize = filled ∧ fillMissing parseNameAddr context filled = filled :=
  ⟨fillMissing_completed, fillMissing_identified,
    fillParticipant_normal (fillSessionID_normal (congrFun normalize_comp m)),
    fillMissing_twice⟩

end SiprecServer.Siprec.Metadata
