import SiprecServer.Lib.FileSystem
import SiprecServer.Siprec.Validation

/-!
# Who is heard in a stream

`ResolveStreamParticipant` looks for the participant of a stream by the label of the
stream: in the associations, in the stream elements and in the send lists of the
participants.  References may name a stream by its ID or by its label; only the send
elements of associations are read both ways, and then whichever way they are meant.
-/

namespace SiprecServer.Siprec.Metadata

open Lib.FileSystem Lib.Text RSParticipantStreamAssoc List

/-! ## Resolution -/

def Stream.effectiveLabel (stream : Stream) : String := orElse stream.label stream.streamID

def RSParticipantStreamAssoc.streamRef (assoc : RSParticipantStreamAssoc) : String :=
  orElse assoc.stream assoc.streamID

def RSParticipantStreamAssoc.participantRef (assoc : RSParticipantStreamAssoc) : String :=
  orElse assoc.participant assoc.participantID

def Stream.idAndLabel (stream : Stream) : Option (String × String) :=
  if stream.streamID ≠ "" ∧ stream.label ≠ "" then some (stream.streamID, stream.label) else none

section

variable (m : RSMetadata)

def RSMetadata.streamIDToLabel : Store String String :=
  writeAll empty (m.streams.filterMap Stream.idAndLabel)

def RSParticipantStreamAssoc.matched (idToLabel : Store String String) (label : String)
    (assoc : RSParticipantStreamAssoc) : Bool :=
  assoc.streamRef = label ||
    assoc.send.any fun ref => ref = label || idToLabel ref = some label

def RSMetadata.findParticipant (ref : String) : Option RSParticipant :=
  m.participants.find? (·.id = ref)

/-- The associations come first. -/
def RSMetadata.associated (label : String) : Option RSParticipant :=
  m.participantStreamAssoc.findSome? fun assoc =>
    if assoc.matched m.streamIDToLabel label ∧ assoc.participantRef ≠ "" then
      m.findParticipant assoc.participantRef
    else none

/-- Then the first participant that a stream element refers to. -/
def RSMetadata.referenced (label : String) : Option RSParticipant :=
  m.streams.findSome? fun stream =>
    if stream.effectiveLabel = label then stream.participantRef.head?.bind m.findParticipant
    else none

def RSMetadata.resolveStreamParticipant (streamLabel : String) : Option RSParticipant :=
  if streamLabel = "" then none
  else ((m.associated streamLabel).or (m.referenced streamLabel)).or
    (m.participants.find? (streamLabel ∈ ·.send))

structure SessionInfo where
  id : String
  extendedMetadata : Store String String

def streamBase (streamLabel : String) (session : Option SessionInfo) : Store String String :=
  let label := write empty "stream_label" streamLabel
  match session with
  | none => label
  | some session =>
    let base := if session.id = "" then label else write label "session_id" session.id
    fun key => (session.extendedMetadata key).or (base key)

def writeNonEmpty (store : Store String String) (key text : String) : Store String String :=
  if text = "" then store else write store key text

def RSParticipant.firstAor (participant : RSParticipant) : String :=
  match participant.aor with
  | [] => ""
  | aor :: _ => orElse aor.value aor.uri

def describeParticipant (participant : RSParticipant) (base : Store String String) :
    Store String String :=
  let named := writeNonEmpty base "participant_name"
    (orElse participant.displayName participant.name)
  let withRole := writeNonEmpty named "participant_role" participant.role
  writeNonEmpty withRole "participant_aor" participant.firstAor

def buildStreamMetadata (streamLabel : String) (rsMeta : Option RSMetadata)
    (session : Option SessionInfo) : Store String String :=
  let base := streamBase streamLabel session
  match rsMeta.bind (·.resolveStreamParticipant streamLabel) with
  | none => base
  | some participant => describeParticipant participant base

inductive Naming where
  | byID | byLabel
deriving DecidableEq

def Naming.name : Naming → Stream → String
  | .byID, stream => stream.streamID
  | .byLabel, stream => stream.effectiveLabel

def RSMetadata.streamReferences : List String :=
  m.participantStreamAssoc.flatMap (fun assoc =>
    [assoc.streamRef].filter (· ≠ "") ++ assoc.send ++ assoc.receive) ++
  m.participants.flatMap fun participant => participant.send ++ participant.receive

end

section Meaning

-- the directions of associations whose participant only receives
variable (receiveOnly : String → Bool) (naming : Naming) (m : RSMetadata)

def RSParticipantStreamAssoc.sends (assoc : RSParticipantStreamAssoc) (stream : Stream) : Bool :=
  (assoc.streamRef = naming.name stream && !receiveOnly assoc.direction) ||
    naming.name stream ∈ assoc.send

def Sends (participant : RSParticipant) (stream : Stream) : Bool :=
  m.participantStreamAssoc.any (fun assoc =>
    assoc.participantRef = participant.id && assoc.sends receiveOnly naming stream) ||
  participant.id ∈ stream.participantRef ||
  naming.name stream ∈ participant.send

/-- Streams have distinct names and one sender each, and references name streams. -/
structure Described : Prop where
  ids : (m.streams.map (·.streamID)).Nodup
  labels : (m.streams.map (·.effectiveLabel)).Nodup
  sender : ∀ stream ∈ m.streams, ∃ participant ∈ m.participants,
    Sends receiveOnly naming m participant stream ∧
      ∀ other ∈ m.participants, Sends receiveOnly naming m other stream → other = participant
  named : ∀ ref ∈ m.streamReferences, ∃ stream ∈ m.streams, naming.name stream = ref

structure Attributed (stream : Stream) : Prop where
  resolved : ∀ participant ∈ m.participants, Sends receiveOnly naming m participant stream →
    m.resolveStreamParticipant stream.effectiveLabel = some participant
  published : ∀ participant ∈ m.participants, Sends receiveOnly naming m participant stream →
    ∀ session, buildStreamMetadata stream.effectiveLabel (some m) session =
      describeParticipant participant (streamBase stream.effectiveLabel session)

end Meaning

/-! ## References read as meant -/

/-- The association is taken for one of the stream: its attribute is the label, or a send
element is the label or the ID. -/
def RSParticipantStreamAssoc.takenFor (stream : Stream) (assoc : RSParticipantStreamAssoc) : Bool :=
  assoc.streamRef = stream.effectiveLabel || stream.effectiveLabel ∈ assoc.send ||
    stream.streamID ∈ assoc.send

/-- No association that is taken for one of the stream and not its first reference names a
participant. -/
def Unreferenced (m : RSMetadata) (stream : Stream) : Prop :=
  ∀ participant ∈ m.participants, stream.participantRef.head? ≠ some participant.id ∧
    ∀ assoc ∈ m.participantStreamAssoc, assoc.takenFor stream →
      participant.id ≠ assoc.participantRef

/-- Every participant that an association taken for one of the stream names sends it, and if the
stream is not referred to otherwise, those who have its label in their send lists do. -/
structure ReadAsMeant (receiveOnly : String → Bool) (naming : Naming) (m : RSMetadata)
    (stream : Stream) : Prop where
  associations : ∀ assoc ∈ m.participantStreamAssoc, assoc.takenFor stream →
    ∀ participant ∈ m.participants, participant.id = assoc.participantRef →
      Sends receiveOnly naming m participant stream
  sendLists : Unreferenced m stream →
    (∃ participant ∈ m.participants, stream.effectiveLabel ∈ participant.send) ∧
      ∀ participant ∈ m.participants, stream.effectiveLabel ∈ participant.send →
        Sends receiveOnly naming m participant stream

/-- The document with its associations and participants in another order. -/
def RSMetadata.reordered (m : RSMetadata) (assocs : List RSParticipantStreamAssoc)
    (participants : List RSParticipant) : RSMetadata :=
  { m with participantStreamAssoc := assocs, participants }

variable {library : Library} {options : ValidationOptions} {filling : Option Filling}
  {decoded m : RSMetadata} {receiveOnly : String → Bool} {naming : Naming} {stream : Stream}

theorem eq_of_label (labels : (m.streams.map (·.effectiveLabel)).Nodup) {first second : Stream}
    (isFirst : first ∈ m.streams) (isSecond : second ∈ m.streams)
    (same : first.effectiveLabel = second.effectiveLabel) : first = second :=
  inj_on_of_nodup_map labels isFirst isSecond same

theorem mem_idAndLabel {id label : String} :
    (id, label) ∈ m.streams.filterMap Stream.idAndLabel ↔
      ∃ stream ∈ m.streams, stream.streamID = id ∧ stream.label = label ∧ id ≠ "" ∧ label ≠ "" := by
  simp only [mem_filterMap, Stream.idAndLabel, Option.ite_none_right_eq_some,
    Option.some.injEq, Prod.mk.injEq]
  grind

theorem idAndLabel_sublist (streams : List Stream) :
    ((streams.filterMap Stream.idAndLabel).map Prod.fst).Sublist (streams.map (·.streamID)) := by
  induction streams with
  | nil => exact List.Sublist.slnil
  | cons stream rest ih =>
    by_cases both : stream.streamID ≠ "" ∧ stream.label ≠ ""
    · have isPair : stream.idAndLabel = some (stream.streamID, stream.label) := if_pos both
      rw [filterMap_cons_some isPair]
      exact ih.cons_cons _
    · have noPair : stream.idAndLabel = none := if_neg both
      rw [filterMap_cons_none noPair]
      exact ih.cons _

theorem streamIDToLabel_eq_some_iff (ids : (m.streams.map (·.streamID)).Nodup) {id label : String} :
    m.streamIDToLabel id = some label ↔
      ∃ stream ∈ m.streams, stream.streamID = id ∧ stream.label = label ∧ id ≠ "" ∧ label ≠ "" := by
  rw [← mem_idAndLabel]
  constructor
  · intro found
    exact (writeAll_mem found).resolve_left nofun
  · exact writeAll_of_mem (ids.sublist (idAndLabel_sublist m.streams))

theorem effectiveLabel_ne (hasID : stream.streamID ≠ "") : stream.effectiveLabel ≠ "" := by
  unfold Stream.effectiveLabel orElse
  split
  · exact hasID
  · assumption

theorem participantRef_ne (isAccepted : accepted library options m)
    {assoc : RSParticipantStreamAssoc} (mem : assoc ∈ m.participantStreamAssoc) :
    assoc.participantRef ≠ "" := by
  obtain ⟨text, isText, nonempty⟩ :=
    exists_of_firstNonBlank ((cleanChecks_of_accepted isAccepted).participantRef mem)
  unfold participantRef orElse
  simp only [mem_cons, not_mem_nil, or_false] at isText
  split
  case isTrue missing =>
    rcases isText with rfl | rfl
    · exact absurd missing nonempty
    · exact nonempty
  case isFalse present => exact present

theorem findSome?_of_only {α β : Type} {f : α → Option β} {elements : List α} {element : α}
    (mem : element ∈ elements) (only : ∀ other ∈ elements, other ≠ element → f other = none) :
    elements.findSome? f = f element := by
  cases found : elements.findSome? f with
  | none => exact (findSome?_eq_none_iff.mp found element mem).symm
  | some answer =>
    obtain ⟨other, isOther, isAnswer⟩ := exists_of_findSome?_eq_some found
    by_cases same : other = element
    · rw [← same, isAnswer]
    · rw [only other isOther same] at isAnswer
      cases isAnswer

/-- The stream is found by its ID and by its label. -/
structure Distinguished (m : RSMetadata) (stream : Stream) : Prop where
  ids : (m.streams.map (·.streamID)).Nodup
  labels : (m.streams.map (·.effectiveLabel)).Nodup
  mem : stream ∈ m.streams
  hasID : stream.streamID ≠ ""

section

variable (distinguished : Distinguished m stream)

include distinguished

theorem Distinguished.read_iff {ref : String} :
    (ref = stream.effectiveLabel ∨ m.streamIDToLabel ref = some stream.effectiveLabel) ↔
      ref = stream.effectiveLabel ∨ ref = stream.streamID := by
  rw [streamIDToLabel_eq_some_iff distinguished.ids]
  constructor
  · rintro (isLabel | ⟨other, isOther, isID, isLabel, -, nonempty⟩)
    · exact .inl isLabel
    · have sameLabel : other.effectiveLabel = stream.effectiveLabel := by
        rw [Stream.effectiveLabel, isLabel, orElse_of_ne nonempty]
      rw [eq_of_label distinguished.labels isOther distinguished.mem sameLabel] at isID
      exact .inr isID.symm
  · rintro (isLabel | isID)
    · exact .inl isLabel
    · by_cases noLabel : stream.label = ""
      · left
        rw [isID, Stream.effectiveLabel, noLabel, orElse_empty]
      · right
        refine ⟨stream, distinguished.mem, isID.symm, ?_, isID ▸ distinguished.hasID,
          effectiveLabel_ne distinguished.hasID⟩
        rw [Stream.effectiveLabel, orElse_of_ne noLabel]

theorem Distinguished.matched_iff {assoc : RSParticipantStreamAssoc} :
    assoc.matched m.streamIDToLabel stream.effectiveLabel ↔ assoc.takenFor stream := by
  unfold matched takenFor
  simp only [Bool.or_eq_true, decide_eq_true_eq, any_eq_true, or_assoc]
  refine or_congr_right ?_
  constructor
  · rintro ⟨ref, isRef, isRead⟩
    rcases distinguished.read_iff.mp isRead with rfl | rfl
    · exact .inl isRef
    · exact .inr isRef
  · rintro (isRef | isRef)
    · exact ⟨_, isRef, .inl rfl⟩
    · exact ⟨_, isRef, distinguished.read_iff.mpr (.inr rfl)⟩

theorem Distinguished.referenced_eq :
    m.referenced stream.effectiveLabel = stream.participantRef.head?.bind m.findParticipant := by
  unfold RSMetadata.referenced
  rw [findSome?_of_only distinguished.mem, if_pos rfl]
  intro other isOther different
  refine if_neg fun same => ?_
  exact different (eq_of_label distinguished.labels isOther distinguished.mem same)

/-- The search for the stream in a document whose associations all name someone. -/
theorem Distinguished.resolve_eq
    (refs : ∀ assoc ∈ m.participantStreamAssoc, assoc.participantRef ≠ "") :
    m.resolveStreamParticipant stream.effectiveLabel =
      ((m.participantStreamAssoc.findSome? fun assoc =>
        if assoc.takenFor stream then m.findParticipant assoc.participantRef else none).or
      (stream.participantRef.head?.bind m.findParticipant)).or
      (m.participants.find? (stream.effectiveLabel ∈ ·.send)) := by
  unfold RSMetadata.resolveStreamParticipant RSMetadata.associated
  rw [if_neg (effectiveLabel_ne distinguished.hasID), distinguished.referenced_eq,
    ← head?_filterMap, ← head?_filterMap]
  congr 3
  refine filterMap_congr fun assoc isAssoc => ?_
  simp [distinguished.matched_iff, refs assoc isAssoc]

end

variable {participant : RSParticipant}

theorem findParticipant_some {ref : String} (found : m.findParticipant ref = some participant) :
    participant ∈ m.participants ∧ participant.id = ref := by
  have isID := find?_some found
  exact ⟨mem_of_find?_eq_some found, of_decide_eq_true isID⟩

theorem unreferenced_iff : Unreferenced m stream ↔
    (m.participantStreamAssoc.findSome? fun assoc =>
      if assoc.takenFor stream then m.findParticipant assoc.participantRef else none) = none ∧
    stream.participantRef.head?.bind m.findParticipant = none := by
  unfold Unreferenced RSMetadata.findParticipant
  simp only [findSome?_eq_none_iff, Option.bind_eq_none_iff, find?_eq_none, decide_eq_true_eq,
    ite_eq_right_iff]
  grind

theorem ReadAsMeant.resolved (meant : ReadAsMeant receiveOnly naming m stream)
    (distinguished : Distinguished m stream)
    (refs : ∀ assoc ∈ m.participantStreamAssoc, assoc.participantRef ≠ "") :
    ∃ participant ∈ m.participants, Sends receiveOnly naming m participant stream ∧
      m.resolveStreamParticipant stream.effectiveLabel = some participant := by
  rw [distinguished.resolve_eq refs]
  cases associated : m.participantStreamAssoc.findSome? fun assoc =>
      if assoc.takenFor stream then m.findParticipant assoc.participantRef else none with
  | some found =>
    obtain ⟨assoc, isAssoc, isFound⟩ := exists_of_findSome?_eq_some associated
    obtain ⟨taken, isFound⟩ := Option.ite_none_right_eq_some.mp isFound
    obtain ⟨isParticipant, isID⟩ := findParticipant_some isFound
    have sends := meant.associations assoc isAssoc taken found isParticipant isID
    exact ⟨found, isParticipant, sends, rfl⟩
  | none =>
    cases referenced : stream.participantRef.head?.bind m.findParticipant with
    | some found =>
      obtain ⟨ref, isFirst, isFound⟩ := Option.bind_eq_some_iff.mp referenced
      obtain ⟨isParticipant, isID⟩ := findParticipant_some isFound
      have isReference : found.id ∈ stream.participantRef := isID ▸ mem_of_head? isFirst
      exact ⟨found, isParticipant, by simp [Sends, isReference], rfl⟩
    | none =>
      obtain ⟨⟨sender, isSender, isLabel⟩, all⟩ :=
        meant.sendLists (unreferenced_iff.mpr ⟨associated, referenced⟩)
      obtain ⟨found, isFound⟩ : ∃ found, m.participants.find? (stream.effectiveLabel ∈ ·.send) =
          some found :=
        Option.isSome_iff_exists.mp (find?_isSome.mpr ⟨sender, isSender, decide_eq_true isLabel⟩)
      have isParticipant := mem_of_find?_eq_some isFound
      have inList := find?_some isFound
      exact ⟨found, isParticipant, all found isParticipant (of_decide_eq_true inList), isFound⟩

theorem attributed_of_resolved
    (unique : ∀ other ∈ m.participants, Sends receiveOnly naming m other stream →
      other = participant)
    (resolved : m.resolveStreamParticipant stream.effectiveLabel = some participant) :
    Attributed receiveOnly naming m stream := by
  constructor
  · intro other isOther sends
    rw [resolved, unique other isOther sends]
  · intro other isOther sends session
    unfold buildStreamMetadata
    rw [Option.bind_some, resolved, unique other isOther sends]

section Reordered

variable {assocs : List RSParticipantStreamAssoc} {participants : List RSParticipant}

theorem sends_reordered (sameAssocs : assocs ~ m.participantStreamAssoc) :
    Sends receiveOnly naming (m.reordered assocs participants) participant stream =
      Sends receiveOnly naming m participant stream := by
  unfold Sends
  rw [show (m.reordered assocs participants).participantStreamAssoc = assocs from rfl,
    sameAssocs.any_eq]

variable (sameAssocs : assocs ~ m.participantStreamAssoc)
  (sameParticipants : participants ~ m.participants)

include sameAssocs sameParticipants

theorem unreferenced_reordered : Unreferenced (m.reordered assocs participants) stream ↔
    Unreferenced m stream := by
  simp only [Unreferenced, RSMetadata.reordered, sameAssocs.mem_iff, sameParticipants.mem_iff]

theorem ReadAsMeant.reordered (meant : ReadAsMeant receiveOnly naming m stream) :
    ReadAsMeant receiveOnly naming (m.reordered assocs participants) stream := by
  constructor
  · intro assoc isAssoc taken participant isParticipant isID
    rw [sends_reordered sameAssocs]
    exact meant.associations assoc (sameAssocs.subset isAssoc) taken participant
      (sameParticipants.subset isParticipant) isID
  · intro unreferenced
    obtain ⟨⟨sender, isSender, isLabel⟩, all⟩ :=
      meant.sendLists ((unreferenced_reordered sameAssocs sameParticipants).mp unreferenced)
    refine ⟨⟨sender, sameParticipants.symm.subset isSender, isLabel⟩, ?_⟩
    intro participant isParticipant inList
    rw [sends_reordered sameAssocs]
    exact all participant (sameParticipants.subset isParticipant) inList

end Reordered

/-- Whichever reference is read as one of the stream, in some order it is read first. -/
theorem readAsMeant_of_resolved
    (refs : ∀ assocs, assocs ~ m.participantStreamAssoc → ∀ assoc ∈ assocs,
      assoc.participantRef ≠ "")
    (distinguished : ∀ assocs participants, Distinguished (m.reordered assocs participants) stream)
    {sender : RSParticipant} (isSender : sender ∈ m.participants)
    (sends : Sends receiveOnly naming m sender stream)
    (resolved : ∀ assocs participants, assocs ~ m.participantStreamAssoc →
      participants ~ m.participants →
      (m.reordered assocs participants).resolveStreamParticipant stream.effectiveLabel =
        some sender) :
    ReadAsMeant receiveOnly naming m stream := by
  constructor
  · intro assoc isAssoc taken participant isParticipant isID
    -- the association and the participant come first
    have first := resolved _ _ (perm_cons_erase isAssoc).symm (perm_cons_erase isParticipant).symm
    rw [(distinguished _ _).resolve_eq (refs _ (perm_cons_erase isAssoc).symm)] at first
    simp only [RSMetadata.findParticipant, RSMetadata.reordered, taken, ↓reduceIte, isID,
      decide_true, find?_cons_of_pos, Option.isSome_some, findSome?_cons_of_isSome,
      Option.some_or, Option.some.injEq] at first
    rw [first, sends]
  · intro unreferenced
    have inLists : ∀ participants, participants ~ m.participants →
        participants.find? (stream.effectiveLabel ∈ ·.send) = some sender := by
      intro participants same
      obtain ⟨unassociated, unknown⟩ :=
        unreferenced_iff.mp ((unreferenced_reordered (.refl _) same).mpr unreferenced)
      have found := resolved _ _ (.refl _) same
      rwa [(distinguished m.participantStreamAssoc participants).resolve_eq (refs _ (.refl _)),
        unassociated, unknown] at found
    have inList := find?_some (inLists _ (.refl _))
    refine ⟨⟨sender, isSender, of_decide_eq_true inList⟩, ?_⟩
    intro participant isParticipant isLabel
    have first := inLists _ (perm_cons_erase isParticipant).symm
    rw [find?_cons, decide_eq_true isLabel] at first
    cases first
    exact sends

def plainLibrary : Library :=
  { toLower := id, parseRFC3339 := fun _ => .ok 0, quote := id }

def twoStreams (streams : List Stream) (assocs : List RSParticipantStreamAssoc) : RSMetadata :=
  { sessionID := "session"
    sessions := [{ id := "session" }]
    participants := [{ id := "alice", displayName := "alice", aor := [{ value := "sip:alice" }] },
      { id := "bob", displayName := "bob", aor := [{ value := "sip:bob" }] }]
    streams
    participantStreamAssoc := assocs }

def sendElements : RSMetadata :=
  twoStreams [{ streamID := "s1", label := "1" }, { streamID := "s2", label := "2" }]
    [{ participantID := "alice", send := ["s1"], receive := ["s2"] },
      { participantID := "bob", send := ["s2"], receive := ["s1"] }]

def recvonly (direction : String) : Bool := direction = "recvonly"

/-- The associations name the streams by ID in attributes, and each ID is the label of the
other stream. -/
def crossedNames : RSMetadata :=
  twoStreams [{ streamID := "1", label := "2" }, { streamID := "2", label := "1" }]
    [{ participantID := "alice", streamID := "1" }, { participantID := "bob", streamID := "2" }]

end SiprecServer.Siprec.Metadata
