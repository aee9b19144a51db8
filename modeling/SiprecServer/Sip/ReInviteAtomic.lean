import SiprecServer.Sip.ReInviteMedia

/-!
# What a refused re-INVITE leaves behind

A re-INVITE that is refused before its metadata is merged changes nothing.  Every later
exit keeps what the stages before it have done, so nothing has changed only if each of
those stages found nothing to do.
-/

namespace SiprecServer.Sip.ReInvite

open Lib.FileSystem Media List

variable {G O : Type}

structure Unchanged (before after : Dialog G O) : Prop where
  session : after.call.session = before.call.session
  sdp : after.call.sdp = before.call.sdp
  rtpForwarders : after.call.rtpForwarders = before.call.rtpForwarders
  rtpForwarder : after.call.rtpForwarder = before.call.rtpForwarder
  streamForwarders : after.call.streamForwarders = before.call.streamForwarders
  ports : ∀ f, (after.media.get f).allocated = (before.media.get f).allocated
  locks : ∀ f ∈ before.call.primary,
    (after.media.get f).stream.remoteSSRC = (before.media.get f).stream.remoteSSRC

theorem Unchanged.refl (dialog : Dialog G O) : Unchanged dialog dialog :=
  ⟨rfl, rfl, rfl, rfl, rfl, fun _ => rfl, fun _ _ => rfl⟩

/-- The forwarders that the offer asks for are the ones of the call, stream by stream. -/
structure Matching (mediaConfig : MediaConfig) (parsed : Option (List MediaDescription))
    (dialog : Dialog G O) : Prop where
  count : dialog.call.rtpForwarders.length = (audioStreams parsed).length
  first : dialog.call.rtpForwarder = dialog.call.rtpForwarders.head?
  streams : dialog.call.streamForwarders =
    wantedStreams mediaConfig parsed (fun f => (dialog.media.get f).srtpKeys)
      dialog.call.rtpForwarders

/-- The forwarders stay as they are: there is nothing to match, no forwarder can be
created where one is missing, or all of them match already. -/
def MediaKept (config : Config) (granted : Nat) (sdp : Option Bytes) (dialog : Dialog G O) : Prop :=
  (dialog.call.rtpForwarder = none ∧ sdp.getD [] = []) ∨
    ∀ mediaConfig ∈ config.mediaConfig,
      let streams := audioStreams (parsedSDP config sdp)
      (dialog.call.primary.length < streams.length ∧ granted = 0) ∨
        Matching mediaConfig (parsedSDP config sdp) dialog

structure NoneDead (dialog : Dialog G O) : Prop where
  rtpForwarder : ∀ f ∈ dialog.call.rtpForwarder, dialog.live f
  rtpForwarders : ∀ f ∈ dialog.call.rtpForwarders, dialog.live f
  streamForwarders : ∀ label, ∀ f ∈ dialog.call.streamForwarders label, dialog.live f

def SameSDP (sdp : Option Bytes) (dialog : Dialog G O) : Prop :=
  ∀ offered ∈ sdp, dialog.call.sdp = some offered ∧
    ∀ f ∈ dialog.call.primary, (dialog.media.get f).stream.remoteSSRC = 0

def MetadataKept (config : Config) (now : Nat) (call : Call) : Option (Option RSMetadata) → Prop
  | some (some metadata) =>
    ∃ session, call.session = some session ∧ SessionKept config.rfc3339 now metadata session
  | _ => True

/-- No stage of the handler finds anything to do. -/
structure Harmless (config : Config) (now granted : Nat) (request : Request)
    (dialog : Dialog G O) : Prop where
  metadata : MetadataKept config now dialog.call request.metadata
  sdp : SameSDP request.sdp dialog
  noneDead : NoneDead dialog
  media : MediaKept config granted request.sdp dialog

theorem Matching.some {mediaConfig : MediaConfig} {parsed : Option (List MediaDescription)}
    {dialog : Dialog G O} (matching : Matching mediaConfig parsed dialog) :
    dialog.call.rtpForwarders ≠ [] :=
  ne_nil_of_length_pos (matching.count ▸ audioStreams_pos parsed)

variable {metadata : Option (Option RSMetadata)}

section Stages

variable {config : Config} {now : Nat} {call : Call} {dialog : Dialog G O}
  {sdp : Option Bytes}

section

variable {refreshed : Call} (succeeds : refreshSession config now call metadata = some refreshed)

include succeeds

theorem refreshSession_iff :
    refreshed.session = call.session ↔ MetadataKept config now call metadata := by
  cases metadata with
  | none =>
    cases succeeds
    exact ⟨fun _ => True.intro, fun _ => rfl⟩
  | some parsed =>
    cases parsed with
    | none => cases succeeds
    | some metadata =>
      cases succeeds
      cases known : call.session with
      | none => simp [MetadataKept, known]
      | some session =>
        simp only [MetadataKept, known, Option.some.injEq, exists_eq_left']
        exact updateRecordingSession_eq_self_iff

theorem refreshSession_rest : ∃ session, refreshed = { call with session } := by
  cases metadata with
  | none =>
    cases succeeds
    exact ⟨call.session, rfl⟩
  | some parsed =>
    cases parsed with
    | none => cases succeeds
    | some metadata =>
      cases succeeds
      exact ⟨_, rfl⟩

end

theorem storeSDP_live (f : Nat) : (storeSDP sdp dialog).live f = dialog.live f := by
  cases sdp with
  | none => rfl
  | some sdp =>
    exact congrArg (! ·) (dialog.media.resetRemoteSSRC_rest dialog.call.primary f).1

end Stages

/-! ## Between the stages -/

theorem optionFilter_eq_self {α : Type} {keeps : α → Bool} {option : Option α} :
    option.filter keeps = option ↔ ∀ value ∈ option, keeps value = true := by
  cases option with
  | none => exact ⟨fun _ => nofun, fun _ => rfl⟩
  | some value => simp

structure Prepared (offered : Option Bytes) (refreshed : Option RecordingSession)
    (dialog current : Dialog G O) : Prop where
  session : current.call.session = refreshed
  sdp : current.call.sdp = offered.or dialog.call.sdp
  rtpForwarder : current.call.rtpForwarder = dialog.call.rtpForwarder.filter dialog.live
  rtpForwarders : current.call.rtpForwarders = dialog.call.rtpForwarders.filter dialog.live
  streamForwarders : current.call.streamForwarders =
    fun label => (dialog.call.streamForwarders label).filter dialog.live
  next : current.media.next = dialog.media.next
  ports : ∀ f, (current.media.get f).allocated = (dialog.media.get f).allocated
  keys : ∀ f, (current.media.get f).srtpKeys = (dialog.media.get f).srtpKeys
  unlocked : offered.isSome → ∀ f ∈ dialog.call.primary,
    (current.media.get f).stream.remoteSSRC = 0
  locks : offered = none → current.media = dialog.media

theorem dropDead_prepared {config : Config} {now : Nat} {offered : Option Bytes}
    {dialog : Dialog G O} {refreshed : Call}
    (succeeds : refreshSession config now dialog.call metadata = some refreshed) :
    Prepared offered refreshed.session dialog
      (dropDead (storeSDP offered { dialog with call := refreshed })) := by
  obtain ⟨session, rfl⟩ := refreshSession_rest succeeds
  cases offered with
  | none => exact ⟨rfl, rfl, rfl, rfl, rfl, rfl, fun _ => rfl, fun _ => rfl, nofun, fun _ => rfl⟩
  | some sdp =>
    have live : (storeSDP (some sdp) ⟨{ dialog.call with session }, dialog.media⟩).live =
        dialog.live := funext storeSDP_live
    refine ⟨rfl, rfl, ?_, ?_, ?_, rfl, fun f => ?_, fun f => ?_, fun _ f mem => ?_, nofun⟩
    · exact congrArg dialog.call.rtpForwarder.filter live
    · exact congrArg (dialog.call.rtpForwarders.filter ·) live
    · exact congrArg (fun live label => (dialog.call.streamForwarders label).filter live) live
    · exact (dialog.media.resetRemoteSSRC_rest _ f).2.1
    · exact (dialog.media.resetRemoteSSRC_rest _ f).2.2
    · exact Forwarders.resetRemoteSSRC_lock mem

namespace Prepared

variable {offered : Option Bytes} {refreshed : Option RecordingSession}
  {dialog current : Dialog G O} {config : Config} {mediaConfig : MediaConfig}
  {parsed : Option (List MediaDescription)} {granted : Nat}
  (prepared : Prepared offered refreshed dialog current)

include prepared

theorem kept (noneDead : NoneDead dialog) :
    current.call.rtpForwarder = dialog.call.rtpForwarder ∧
      current.call.rtpForwarders = dialog.call.rtpForwarders ∧
      current.call.streamForwarders = dialog.call.streamForwarders := by
  refine ⟨?_, ?_, ?_⟩
  · rw [prepared.rtpForwarder, optionFilter_eq_self]
    exact noneDead.rtpForwarder
  · rw [prepared.rtpForwarders, filter_eq_self]
    exact noneDead.rtpForwarders
  · rw [prepared.streamForwarders]
    funext label
    exact optionFilter_eq_self.mpr (noneDead.streamForwarders label)

theorem noneDead (rtpForwarder : current.call.rtpForwarder = dialog.call.rtpForwarder)
    (rtpForwarders : current.call.rtpForwarders = dialog.call.rtpForwarders)
    (streamForwarders : current.call.streamForwarders = dialog.call.streamForwarders) :
    NoneDead dialog := by
  rw [prepared.rtpForwarder, optionFilter_eq_self] at rtpForwarder
  rw [prepared.rtpForwarders, filter_eq_self] at rtpForwarders
  rw [prepared.streamForwarders] at streamForwarders
  exact ⟨rtpForwarder, rtpForwarders,
    fun label => optionFilter_eq_self.mp (congrFun streamForwarders label)⟩

theorem primary_kept (noneDead : NoneDead dialog) : current.call.primary = dialog.call.primary := by
  obtain ⟨rtpForwarder, rtpForwarders, -⟩ := prepared.kept noneDead
  rw [Call.primary, Call.primary, rtpForwarder, rtpForwarders]

section

variable (enough : (audioStreams parsed).length ≤ current.call.primary.length)

include enough

theorem list_kept
    (list : current.call.primary.take (audioStreams parsed).length = dialog.call.rtpForwarders) :
    current.call.rtpForwarders = dialog.call.rtpForwarders := by
  have some_ := audioStreams_pos parsed
  by_cases empty : current.call.rtpForwarders = []
  · -- Then the old list would be the single forwarder, which is live.
    have primary : current.call.primary = current.call.rtpForwarder.toList := by
      rw [Call.primary, if_neg (not_not.mpr empty)]
    rw [primary] at enough list
    cases single : current.call.rtpForwarder with
    | none =>
      rw [single] at enough
      exact absurd (Nat.lt_of_lt_of_le some_ enough) (Nat.lt_irrefl _)
    | some f =>
      rw [single, Option.toList_some, take_of_length_le some_] at list
      obtain ⟨-, live⟩ := Option.filter_eq_some_iff.mp (prepared.rtpForwarder.symm.trans single)
      rw [prepared.rtpForwarders, ← list, filter_singleton, live] at empty
      cases empty
  · have primary : current.call.primary = current.call.rtpForwarders := by
      rw [Call.primary, if_pos empty]
    rw [primary] at enough list
    have shorter : current.call.rtpForwarders.length ≤ (audioStreams parsed).length := by
      rw [← length_take_of_le enough, list, prepared.rtpForwarders]
      exact length_filter_le _ _
    rwa [take_of_length_le shorter] at list

theorem matching (unchanged : Unchanged dialog
      (assignForwarders mediaConfig parsed current.call.primary current).2) :
    NoneDead dialog ∧ Matching mediaConfig parsed dialog := by
  have list : current.call.primary.take (audioStreams parsed).length =
      dialog.call.rtpForwarders :=
    (assignForwarders_rtpForwarders _).symm.trans unchanged.rtpForwarders
  have count : dialog.call.rtpForwarders.length = (audioStreams parsed).length := by
    rw [← list, length_take_of_le enough]
  have some_ : dialog.call.rtpForwarders ≠ [] :=
    ne_nil_of_length_pos (count ▸ audioStreams_pos parsed)
  have same : current.call.rtpForwarders = dialog.call.rtpForwarders :=
    prepared.list_kept enough list
  have primary : current.call.primary = dialog.call.rtpForwarders := by
    rw [Call.primary, same, if_pos some_]
  have first : dialog.call.rtpForwarder = dialog.call.rtpForwarders.head? := by
    have final : (current.call.primary.take (audioStreams parsed).length).head?.or
        current.call.rtpForwarder = dialog.call.rtpForwarder :=
      (assignForwarders_rtpForwarder _).symm.trans unchanged.rtpForwarder
    rw [list, head?_eq_some_head some_, Option.some_or] at final
    rw [← final, head?_eq_some_head some_]
  have live : ∀ f ∈ dialog.call.rtpForwarders, dialog.live f := by
    rw [prepared.rtpForwarders, filter_eq_self] at same
    exact same
  have streams := unchanged.streamForwarders
  rw [primary, assignForwarders_streams count] at streams
  simp only [prepared.keys] at streams
  refine ⟨⟨fun f mem => live f ?_, live, fun label f found => live f ?_⟩,
    ⟨count, first, streams.symm⟩⟩
  · exact mem_of_mem_head? (first ▸ mem)
  · rw [← streams] at found
    cases parsed with
    | none => exact assignLegs_mem found
    | some descriptions => exact assigned_mem found

end

theorem same (sameSDP : SameSDP offered dialog) :
    current.call.sdp = dialog.call.sdp ∧ ∀ f ∈ dialog.call.primary,
      (current.media.get f).stream.remoteSSRC = (dialog.media.get f).stream.remoteSSRC := by
  cases offered with
  | none =>
    refine ⟨prepared.sdp, fun f _ => ?_⟩
    rw [prepared.locks rfl]
  | some sdp =>
    obtain ⟨stored, unlocked⟩ := sameSDP sdp rfl
    refine ⟨prepared.sdp.trans stored.symm, fun f mem => ?_⟩
    rw [prepared.unlocked rfl f mem, unlocked f mem]

section

variable (session : refreshed = dialog.call.session) (sameSDP : SameSDP offered dialog)

include session sameSDP

theorem reassigned (noneDead : NoneDead dialog) (matching : Matching mediaConfig parsed dialog) :
    Unchanged dialog (assignForwarders mediaConfig parsed current.call.primary current).2 := by
  obtain ⟨sdp, locks⟩ := prepared.same sameSDP
  have all := take_of_length_le (Nat.le_of_eq matching.count)
  have primary : current.call.primary = dialog.call.rtpForwarders := by
    rw [prepared.primary_kept noneDead, Call.primary, if_pos matching.some]
  rw [primary]
  refine ⟨?_, ?_, ?_, ?_, ?_, fun f => ?_, fun f mem => ?_⟩
  · rw [(assignForwarders_rest _).1, prepared.session, session]
  · rw [(assignForwarders_rest _).2, sdp]
  · rw [assignForwarders_rtpForwarders, all]
  · rw [assignForwarders_rtpForwarder, all, matching.first,
      head?_eq_some_head matching.some, Option.some_or]
  · rw [assignForwarders_streams matching.count, matching.streams]
    simp only [prepared.keys]
  · rw [assignForwarders_ports (Nat.le_of_eq matching.count), prepared.ports]
  · rw [assignForwarders_lock, locks f mem]

/-- Where the handler stops before the forwarders, only dropped ones can be missed. -/
theorem stopped_iff : Unchanged dialog current ↔ NoneDead dialog := by
  obtain ⟨sdp, locks⟩ := prepared.same sameSDP
  constructor
  · intro unchanged
    exact prepared.noneDead unchanged.rtpForwarder unchanged.rtpForwarders
      unchanged.streamForwarders
  · intro noneDead
    obtain ⟨rtpForwarder, rtpForwarders, streamForwarders⟩ := prepared.kept noneDead
    exact ⟨prepared.session.trans session, sdp, rtpForwarders, rtpForwarder, streamForwarders,
      prepared.ports, locks⟩

theorem matchStreams_iff :
    Unchanged dialog (matchStreams mediaConfig parsed granted current).2 ↔
      NoneDead dialog ∧
        ((dialog.call.primary.length < (audioStreams parsed).length ∧ granted = 0) ∨
          Matching mediaConfig parsed dialog) := by
  rcases Nat.lt_or_ge current.call.primary.length (audioStreams parsed).length with
    missing | enough
  · by_cases none_ : granted = 0
    · subst none_
      rw [matchStreams_none missing, prepared.stopped_iff session sameSDP]
      refine ⟨fun noneDead => ⟨noneDead, Or.inl ⟨?_, rfl⟩⟩, And.left⟩
      rw [← prepared.primary_kept noneDead]
      exact missing
    · -- The next forwarder held no ports before and holds them now.
      have created : ((matchStreams mediaConfig parsed granted current).2.media.get
          current.media.next).allocated = true := matchStreams_allocates missing none_
      have free := dialog.media.fresh dialog.media.next (Nat.le_refl _)
      constructor
      · intro unchanged
        rw [prepared.next, unchanged.ports, free] at created
        cases created
      · rintro ⟨noneDead, ⟨-, isNone⟩ | matching⟩
        · exact absurd isNone none_
        · rw [prepared.primary_kept noneDead, Call.primary, if_pos matching.some] at missing
          exact absurd matching.count (Nat.ne_of_lt missing)
  · rw [matchStreams_enough enough]
    constructor
    · intro unchanged
      obtain ⟨noneDead, matching⟩ := prepared.matching enough unchanged
      exact ⟨noneDead, Or.inr matching⟩
    · rintro ⟨noneDead, ⟨missing, -⟩ | matching⟩
      · rw [prepared.primary_kept noneDead] at enough
        exact absurd missing (Nat.not_lt.mpr enough)
      · exact prepared.reassigned session sameSDP noneDead matching

theorem updateMedia_iff :
    Unchanged dialog (updateMedia config granted offered current).2 ↔
      NoneDead dialog ∧ MediaKept config granted offered dialog := by
  unfold updateMedia
  split
  case isTrue nothing =>
    rw [prepared.stopped_iff session sameSDP]
    refine ⟨fun noneDead => ⟨noneDead, Or.inl ?_⟩, And.left⟩
    rw [← (prepared.kept noneDead).1]
    exact nothing
  case isFalse something =>
    cases configured : config.mediaConfig with
    | none =>
      rw [prepared.stopped_iff session sameSDP]
      refine ⟨fun noneDead => ⟨noneDead, Or.inr fun mediaConfig isConfig => ?_⟩, And.left⟩
      rw [configured] at isConfig
      cases isConfig
    | some mediaConfig =>
      rw [prepared.matchStreams_iff session sameSDP]
      constructor
      · rintro ⟨noneDead, kept⟩
        refine ⟨noneDead, Or.inr fun other isConfig => ?_⟩
        rw [configured] at isConfig
        cases isConfig
        exact kept
      · rintro ⟨noneDead, nothing | kept⟩
        · rw [← (prepared.kept noneDead).1] at nothing
          exact absurd nothing something
        · exact ⟨noneDead, kept mediaConfig configured⟩

end

theorem unchanged_iff :
    Unchanged dialog (updateMedia config granted offered current).2 ↔
      refreshed = dialog.call.session ∧ SameSDP offered dialog ∧ NoneDead dialog ∧
        MediaKept config granted offered dialog := by
  constructor
  · intro unchanged
    have session : refreshed = dialog.call.session := by
      rw [← unchanged.session, updateMedia_rest.1, prepared.session]
    have sameSDP : SameSDP offered dialog := by
      rintro sdp ⟨⟩
      refine ⟨?_, fun f mem => ?_⟩
      · rw [← unchanged.sdp, updateMedia_rest.2, prepared.sdp, Option.some_or]
      · rw [← unchanged.locks f mem]
        exact updateMedia_unlocked (prepared.unlocked rfl f mem)
    exact ⟨session, sameSDP, (prepared.updateMedia_iff session sameSDP).mp unchanged⟩
  · rintro ⟨session, sameSDP, kept⟩
    exact (prepared.updateMedia_iff session sameSDP).mpr kept

end Prepared

def RefusedFirst (env : Circumstances) (request : Request) : Prop :=
  env.admission ≠ .admitted ∨ request.multipartMixed = false ∨
    request.metadata = some none

section Refused

variable {config : Config} {env : Circumstances} {request : Request}
  {dialog : Dialog G O}

theorem handleSiprecReInvite_late {refreshed : Call}
    (succeeds : refreshSession config env.now dialog.call request.metadata =
      some refreshed)
    (refused : (handleSiprecReInvite config env request dialog).1.isSuccess = false) :
    (handleSiprecReInvite config env request dialog).2 =
      (updateMedia config env.granted request.sdp
        (dropDead (storeSDP request.sdp { dialog with call := refreshed }))).2 := by
  unfold handleSiprecReInvite at refused ⊢
  simp only [succeeds] at refused ⊢
  split at refused
  case h_1 refusal after exits => simp only [exits]
  case h_2 after exits =>
    simp only [exits]
    unfold answer at refused ⊢
    repeat' split
    all_goals simp_all [Response.isSuccess, Response.ok]

theorem refreshSession_none (call : Call) {now : Nat} :
    refreshSession config now call metadata = none ↔ metadata = some none := by
  rcases metadata with _ | _ | metadata <;> simp [refreshSession]

theorem handleSiprecReInvite_iff
    (refused : (handleSiprecReInvite config env request dialog).1.isSuccess = false) :
    Unchanged dialog (handleSiprecReInvite config env request dialog).2 ↔
      request.metadata = some none ∨
        Harmless config env.now env.granted request dialog := by
  cases succeeds : refreshSession config env.now dialog.call request.metadata with
  | none =>
    have invalid := (refreshSession_none dialog.call).mp succeeds
    unfold handleSiprecReInvite
    rw [succeeds]
    exact ⟨fun _ => Or.inl invalid, fun _ => Unchanged.refl dialog⟩
  | some refreshed =>
    rw [handleSiprecReInvite_late succeeds refused, (dropDead_prepared succeeds).unchanged_iff,
      refreshSession_iff succeeds]
    constructor
    · rintro ⟨metadata, sdp, noneDead, media⟩
      exact Or.inr ⟨metadata, sdp, noneDead, media⟩
    · rintro (invalid | harmless)
      · rw [(refreshSession_none dialog.call).mpr invalid] at succeeds
        cases succeeds
      · exact ⟨harmless.metadata, harmless.sdp, harmless.noneDead, harmless.media⟩

end Refused

/-- A refused re-INVITE leaves everything as it was exactly if it is refused first, or if no
stage of the handler finds anything to do. -/
theorem refused_reInvite_unchanged_iff (config : Config) (circumstances : Circumstances)
    (request : Request) (dialog : Dialog G O)
    (refused : (handleInviteMessage config circumstances request dialog).1.isSuccess = false) :
    Unchanged dialog (handleInviteMessage config circumstances request dialog).2 ↔
      RefusedFirst circumstances request ∨
        Harmless config circumstances.now circumstances.granted request dialog := by
  unfold handleInviteMessage at refused ⊢
  cases admission : circumstances.admission with
  | admitted =>
    simp only [admission] at refused ⊢
    cases multipart : request.multipartMixed with
    | false =>
      exact ⟨fun _ => Or.inl (Or.inr (Or.inl multipart)), fun _ => Unchanged.refl dialog⟩
    | true =>
      rw [multipart, if_pos rfl] at refused
      rw [if_pos rfl, handleSiprecReInvite_iff refused]
      simp [RefusedFirst, admission, multipart]
  | _ =>
    have first : RefusedFirst circumstances request := Or.inl (by simp [admission])
    exact ⟨fun _ => Or.inl first, fun _ => Unchanged.refl dialog⟩

def threeStreams : Config where
  mediaConfig := some ⟨false⟩
  multipartResponse := false
  parseSDP _ := some
    [⟨"audio", some "caller", false⟩, ⟨"audio", some "callee", false⟩, ⟨"audio", none, false⟩]
  createRecordingSession _ := {}
  rfc3339 _ := ""

def oneLeg (remoteSSRC : UInt32) : Dialog Unit Unit where
  call :=
    { session := some { recordingState := "active", updatedAt := 1 }
      sdp := some [1]
      rtpForwarders := [0]
      rtpForwarder := some 0
      streamForwarders := write empty "caller" 0 }
  media :=
    { get := fun f =>
        { stream := { remoteSSRC := if f = 0 then remoteSSRC else 0 }
          srtpKeys := false
          allocated := f = 0 }
      next := 1
      fresh := fun _ later => decide_eq_false (Nat.ne_of_gt later) }

/-- A repeated offer that no forwarder can be created for is refused without a trace. -/
theorem repeated_offer_unchanged :
    Unchanged (oneLeg 0) (handleInviteMessage threeStreams ⟨.admitted, 0, true, 2⟩
      ⟨true, some [1], none⟩ (oneLeg 0)).2 := by
  refine (refused_reInvite_unchanged_iff threeStreams ⟨.admitted, 0, true, 2⟩
    ⟨true, some [1], none⟩ (oneLeg 0) (by decide)).mpr (Or.inr ⟨True.intro, ?_, ?_, ?_⟩)
  · rintro sdp ⟨⟩
    decide
  · refine ⟨by decide, by decide, fun label f found => ?_⟩
    rfl
  · refine Or.inr ?_
    rintro mediaConfig ⟨⟩
    exact Or.inl (by decide)

/-- A re-INVITE that pauses the recording and asks for two more forwarders while no port
pair is to be had: it is answered with 500, yet the session is paused, the SDP replaced
and the SSRC lock cleared. -/
theorem unserved_reInvite_changes :
    let result := handleInviteMessage threeStreams ⟨.admitted, 0, true, 2⟩
      ⟨true, some [2], some (some { state := "paused" })⟩ (oneLeg 7)
    result.1 = ⟨500, "Internal Server Error"⟩ ∧
      ((oneLeg 7).call.session.map (·.recordingState), result.2.call.session.map (·.recordingState))
        = (some "active", some "paused") ∧
      (((oneLeg 7).media.get 0).stream.remoteSSRC, (result.2.media.get 0).stream.remoteSSRC)
        = (7, 0) ∧
      ¬ Unchanged (oneLeg 7) result.2 := by
  refine ⟨by decide, by decide, by decide, fun unchanged => ?_⟩
  exact absurd unchanged.sdp (by decide)

end SiprecServer.Sip.ReInvite
