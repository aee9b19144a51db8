import SiprecServer.Media.LegAlignment
import SiprecServer.Sip.FinalizeCall

/-!
# The legs that reach the combiner

While the forwarders of a call are cleaned up one after another, the files of all legs stay where
the settings of the forwarders leave them.  The combined recording then has every leg as a channel,
if no leg was dropped before and the legs are mono recordings of one rate.
-/

namespace SiprecServer.Sip

open Lib.FileSystem Lib.UnixPath Media List

def reach (reached : List Nat) (id : Nat) : List Nat :=
  if id ∈ reached then reached else reached ++ [id]

def CallMedia.reached (call : CallMedia) : List Nat :=
  call.streamForwarders.foldl reach (call.primary.foldl reach [])

def CallMedia.recorded (call : CallMedia) : List Nat :=
  call.reached ++ call.dropped

section Call

variable (forwarders : Nat → CallForwarder) (world : World) (content : Nat → Bytes)

/-- The recordings of these forwarders are finished WAV files under separate paths, and the
settings of the forwarders leave them there. -/
structure SeparateLegs (ids : List Nat) : Prop where
  leaves : ∀ id ∈ ids, (forwarders id).LeavesFile
  named : ∀ id ∈ ids, ∃ name, (forwarders id).recordingPath = name ++ wavSuffix
  present : ∀ id ∈ ids, world.files (forwarders id).recordingPath = some (content id)
  distinct : ∀ id ∈ ids, ∀ other ∈ ids,
    (forwarders id).recordingPath = (forwarders other).recordingPath → id = other

/-- The legs of the forwarders reached so far are collected, and everything is in its place. -/
structure Reached (ids reached : List Nat) (state : Finalizing) : Prop where
  leaves : ∀ id ∈ ids, (state.forwarders id).LeavesFile
  timing : ∀ id ∈ ids, (state.forwarders id).leg = (forwarders id).leg
  files : ∀ id ∈ ids, state.world.files (forwarders id).recordingPath = some (content id)
  legs : state.legs = reached.map fun id => (forwarders id).leg

end Call

section Steps

variable {Frame : Type} {tools : Tools Frame} {env : Nat → Circumstances}
  {forwarders : Nat → CallForwarder} {world : World} {content : Nat → Bytes}
  {ids reached : List Nat} {state : Finalizing}

variable {id other : Nat} {list : List Nat}

theorem CallForwarder.cleanedUp_leaves {f : CallForwarder} (leaves : f.LeavesFile) :
    (f.cleanedUp f.recordingPath).LeavesFile ∧ (f.cleanedUp f.recordingPath).leg = f.leg := by
  unfold cleanedUp
  split
  · exact ⟨leaves, rfl⟩
  · exact ⟨⟨rfl, leaves.unmarked, leaves.unconverted, leaves.kept⟩, rfl⟩

theorem mem_reach : other ∈ reach reached id ↔ other ∈ reached ∨ other = id := by
  rw [reach]
  split
  next mem =>
      constructor
      · exact Or.inl
      · rintro (before | same)
        · exact before
        · exact same ▸ mem
  next => rw [mem_append, mem_singleton]

theorem mem_foldl_reach : other ∈ list.foldl reach reached ↔ other ∈ reached ∨ other ∈ list := by
  induction list generalizing reached with
  | nil => simp
  | cons id rest ih => rw [foldl_cons, ih, mem_reach, mem_cons, or_assoc]

section

variable (separate : SeparateLegs forwarders world content ids)
  (invariant : Reached forwarders content ids reached state)
  (reachedInside : ∀ other ∈ reached, other ∈ ids)

include separate invariant reachedInside

theorem Reached.path_mem_iff (inside : id ∈ ids) :
    (forwarders id).recordingPath ∈ state.legs.map (·.path) ↔ id ∈ reached := by
  rw [invariant.legs, map_map, mem_map]
  constructor
  · rintro ⟨other, before, same⟩
    exact separate.distinct other (reachedInside other before) id inside same ▸ before
  · exact fun before => ⟨id, before, rfl⟩

theorem Reached.step (fromMap : Bool) (inside : id ∈ ids) (again : id ∈ reached → fromMap = true) :
    Reached forwarders content ids (reach reached id) (collectLeg tools env fromMap state id) := by
  have leaves := invariant.leaves id inside
  have timing := invariant.timing id inside
  have path : (state.forwarders id).recordingPath = (forwarders id).recordingPath :=
    congrArg LegTiming.path timing
  have cleaned := CallForwarder.cleanedUp_leaves leaves
  rw [collectLeg, leaves.cleanup_path]
  refine ⟨?_, ?_, ?_, ?_⟩
  · intro other otherInside
    dsimp only
    split
    · exact cleaned.1
    · exact invariant.leaves other otherInside
  · intro other otherInside
    dsimp only
    split
    case isTrue same => rw [same, cleaned.2, timing]
    case isFalse => exact invariant.timing other otherInside
  · intro other otherInside
    obtain ⟨name, named⟩ := separate.named other otherInside
    have kept := invariant.files other otherInside
    rw [named] at kept ⊢
    exact (leaves.cleanup_file name).trans kept
  · have known : state.legs.any (·.path == (state.forwarders id).recordingPath) = true ↔
        id ∈ reached := by
      rw [← invariant.path_mem_iff separate reachedInside inside, path]
      simp
    have nonempty : (state.forwarders id).recordingPath ≠ [] := by
      obtain ⟨name, named⟩ := separate.named id inside
      rw [path, named]
      exact append_ne_nil_of_right_ne_nil _ (cons_ne_nil _ _)
    dsimp only
    rw [reach]
    by_cases before : id ∈ reached
    · have stale : (fromMap && state.legs.any (·.path == (state.forwarders id).recordingPath)) =
          true := by rw [again before, known.mpr before, Bool.and_self]
      rw [stale, if_neg (by simp), if_pos before, invariant.legs]
    · have fresh : (fromMap && state.legs.any (·.path == (state.forwarders id).recordingPath)) =
          false := by rw [Bool.eq_false_iff.mpr (mt known.mp before), Bool.and_false]
      rw [fresh, if_pos ⟨nonempty, rfl⟩, if_neg before, invariant.legs, timing, map_append]
      rfl

theorem Reached.run (inside : ∀ id ∈ list, id ∈ ids) (fromMap : Bool)
    (once : fromMap = false → list.Nodup ∧ ∀ id ∈ list, id ∉ reached) :
    Reached forwarders content ids (list.foldl reach reached)
      (list.foldl (collectLeg tools env fromMap) state) := by
  induction list generalizing reached state with
  | nil => exact invariant
  | cons id rest ih =>
    obtain ⟨idInside, restInside⟩ := forall_mem_cons.mp inside
    have again : id ∈ reached → fromMap = true := fun before =>
      Bool.not_eq_false _ ▸ fun isPrimary => (once isPrimary).2 id (.head _) before
    refine ih (invariant.step separate reachedInside fromMap idInside again) ?_ restInside ?_
    · intro other mem
      rcases mem_reach.mp mem with before | same
      · exact reachedInside other before
      · exact same ▸ idInside
    · intro isPrimary
      obtain ⟨distinct, fresh⟩ := once isPrimary
      refine ⟨distinct.of_cons, fun other mem seen => ?_⟩
      rcases mem_reach.mp seen with before | same
      · exact fresh other (.tail _ mem) before
      · exact (nodup_cons.mp distinct).1 (same ▸ mem)

end

theorem collectLegs_reached (tools : Tools Frame) (env : Nat → Circumstances) {call : CallMedia}
    (separate : SeparateLegs forwarders world content call.reached)
    (once : call.primary.Nodup) :
    Reached forwarders content call.reached call.reached
      (collectLegs tools env call { forwarders, world, legs := [] }) := by
  have start : Reached forwarders content call.reached [] { forwarders, world, legs := [] } :=
    ⟨separate.leaves, fun _ _ => rfl, separate.present, rfl⟩
  have primaryInside : ∀ id ∈ call.primary, id ∈ call.reached := fun id mem =>
    mem_foldl_reach.mpr (Or.inl (mem_foldl_reach.mpr (Or.inr mem)))
  have first : Reached forwarders content call.reached _
      (call.primary.foldl (collectLeg tools env false) _) :=
    start.run separate (fun id mem => absurd mem not_mem_nil) primaryInside false
      fun _ => ⟨once, fun _ _ => not_mem_nil⟩
  refine first.run separate ?_ ?_ true nofun
  · intro id mem
    exact primaryInside id (by simpa using mem_foldl_reach.mp mem)
  · exact fun id mem => mem_foldl_reach.mpr (Or.inr mem)

end Steps

section Combining

variable {Frame : Type} (tools : Tools Frame) (circumstances : Nat → Circumstances)
  (forwarders : Nat → CallForwarder) (world : World) (content : Nat → Bytes) (call : CallMedia)
  (classes : UnicodeClass) (wavTools : WavTools) (wav : Nat → Wav) (recordingDir : Bytes)
  (callID : List Char)

def legsCollected : Finalizing :=
  collectLegs tools circumstances call { forwarders, world, legs := [] }

/-- What `doFinalizeCall` hands to the combiner, and what that makes of it. -/
def combinedRecording : Store Bytes Bytes × Option Combined :=
  let state := legsCollected tools circumstances forwarders world call
  combineRecordingLegs classes wavTools (some { combineLegs := true, recordingDir }) callID
    state.world.files state.legs

/-- The samples follow one another in this channel, behind some silence. -/
def Carries (frames : List (List Int16)) (channel : Nat) (samples : List Int16) : Prop :=
  ∃ silence, ∀ (n : Nat) (sample : Int16), samples[n]? = some sample →
    ∃ frame, frames[silence + n]? = some frame ∧ frame[channel]? = some sample

/-- Every recorded leg is handed to the combine step once, under a path that names its complete
recording then, and the combined file is written with a channel for each. -/
structure EveryLegCombined : Prop where
  handed : ((legsCollected tools circumstances forwarders world call).legs.map (·.path)).Perm
    (call.recorded.map fun id => (forwarders id).recordingPath)
  complete : ∀ id ∈ call.recorded,
    (legsCollected tools circumstances forwarders world call).world.files
      (forwarders id).recordingPath = some (content id)
  channels : ∃ first combined, call.recorded.head? = some first ∧
    (combinedRecording tools circumstances forwarders world call classes wavTools recordingDir
      callID).2 = some combined ∧
    (combinedRecording tools circumstances forwarders world call classes wavTools recordingDir
        callID).1 (combinedPath classes recordingDir (forwarders first).recordingPath callID) =
      some (wavTools.writeWav combined.sampleRate call.recorded.length combined.frames) ∧
    ∀ channel id, call.recorded[channel]? = some id →
      Carries combined.frames channel (wav id).samples

def OutputApart : Prop :=
  ∀ first, call.reached.head? = some first → ∀ id ∈ call.reached,
    (forwarders id).recordingPath ≠
      combinedPath classes recordingDir (forwarders first).recordingPath callID

end Combining

section Combining

variable {Frame : Type} {tools : Tools Frame} {circumstances : Nat → Circumstances}
  {forwarders : Nat → CallForwarder} {world : World} {content : Nat → Bytes} {call : CallMedia}
  {classes : UnicodeClass} {wavTools : WavTools} {wav : Nat → Wav} {recordingDir : Bytes}
  {callID : List Char}

/-- Every channel is there, behind its silence. -/
theorem Combined.carries {combined : Combined} (padded : combined.padding.length =
      combined.sources.length) {channel : Nat} {samples : List Int16}
    (source : combined.sources[channel]? = some samples) :
    Carries combined.frames channel samples := by
  have inside : channel < combined.padding.length :=
    padded ▸ (List.getElem?_eq_some_iff.mp source).1
  obtain ⟨pad, placed⟩ : ∃ pad, combined.placed[channel]? = some ⟨pad, samples⟩ := by
    simp [Combined.placed, Combined.channels, source, getElem?_eq_getElem inside,
      getElem?_zipWith, ChannelState.delayed]
  refine ⟨pad, fun n sample heard => ?_⟩
  obtain ⟨frame, written, held⟩ :=
    aligned_frame placed (List.getElem?_eq_some_iff.mp heard).1
  exact ⟨frame, combined.frames_eq ▸ written, held.trans heard⟩

theorem combinedRecording_eq (classes : UnicodeClass) (wavTools : WavTools) (recordingDir : Bytes)
    (callID : List Char) {first : Nat}
    (collected : (legsCollected tools circumstances forwarders world call).legs =
      call.reached.map fun id => (forwarders id).leg)
    (several : 2 ≤ call.reached.length) (head : call.reached.head? = some first) :
    combinedRecording tools circumstances forwarders world call classes wavTools recordingDir
        callID =
      combineWAVRecordingsAligned wavTools
        (legsCollected tools circumstances forwarders world call).world.files
        (combinedPath classes recordingDir (forwarders first).recordingPath callID)
        (call.reached.map fun id => (forwarders id).leg) := by
  obtain ⟨others, order⟩ := head?_eq_some_iff.mp head
  have more : (others.map fun id => (forwarders id).leg) ≠ [] := by
    intro none_
    rw [order, map_eq_nil_iff.mp none_] at several
    exact absurd several (Nat.not_succ_le_self 1)
  rw [combinedRecording, collected, order, map_cons, combineRecordingLegs, if_pos ⟨more, rfl⟩]
  rfl

end Combining

def byteWavTools : WavTools where
  readWav content :=
    if 44 ≤ content.length then
      some { channels := 1, sampleRate := 8000
             samples := (content.drop 44).map fun byte => byte.toNat.toInt16 }
    else none
  writeWav _ _ frames := frames.flatten.map (·.toUInt16.toUInt8)
  padSamples _ _ := 0
  overwritten := []

def twoPaths (id : Nat) : Bytes :=
  asciiBytes [if id = 0 then 'a' else 'b'] ++ wavSuffix

def twoContents (id : Nat) : Bytes := List.replicate 44 1 ++ [5, 6, id.toUInt8]

def twoForwarders (targetFormat : Bytes) (id : Nat) : CallForwarder :=
  { recordingPath := twoPaths id
    piiAudioMarker := none
    audioEncoder := some .mp3
    targetFormat
    encryptedMetadataPath := none
    storage := some (.backup [.remoteStorage (asciiBytes ['s', '3']) []] true)
    sessionPresent := true
    isCleanedUp := false
    encrypted_stem := fun path absent => by cases absent
    firstRTP := none }

def twoWorld : World :=
  { files := write (write empty (twoPaths 0) (twoContents 0)) (twoPaths 1) (twoContents 1)
    remote := empty }

def twoCall : CallMedia :=
  { rtpForwarders := [0, 1], rtpForwarder := some 0, streamForwarders := [1, 0], dropped := [] }

end SiprecServer.Sip
