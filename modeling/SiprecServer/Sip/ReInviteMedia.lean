import SiprecServer.Sip.ReInvite

/-!
# The forwarders of a re-INVITE

What creating, tearing down and reassigning forwarders does to ports, SSRC locks and
the mapping of the streams, function by function.
-/

namespace SiprecServer.Sip.ReInvite

open Lib.FileSystem Media Forwarders List

variable {G O : Type}

variable {forwarders : List Nat}

namespace Forwarders

variable {α : Type} {media : Forwarders G O} {f : Nat}

variable {chosen : List Nat}

theorem update_keeps (media : Forwarders G O) (project : Forwarder G O → α)
    {change : Forwarder G O → Forwarder G O}
    {takesNone : ∀ forwarder, forwarder.allocated = false → (change forwarder).allocated = false}
    (same : ∀ forwarder, project (change forwarder) = project forwarder) (f : Nat) :
    project ((media.update chosen change takesNone).get f) = project (media.get f) := by
  simp only [update]
  split
  · exact same _
  · rfl

theorem resetRemoteSSRC_lock (mem : f ∈ chosen) :
    ((media.resetRemoteSSRC chosen).get f).stream.remoteSSRC = 0 := by
  simp [resetRemoteSSRC, update, mem, RtpStream.resetRemoteSSRC]

theorem resetRemoteSSRC_rest (chosen : List Nat) (f : Nat) :
    ((media.resetRemoteSSRC chosen).get f).stream.stopped = (media.get f).stream.stopped ∧
      ((media.resetRemoteSSRC chosen).get f).allocated = (media.get f).allocated ∧
      ((media.resetRemoteSSRC chosen).get f).srtpKeys = (media.get f).srtpKeys := by
  refine ⟨?_, ?_, ?_⟩
  · exact update_keeps media (·.stream.stopped) (fun _ => by rfl) f
  · exact update_keeps media (·.allocated) (fun _ => by rfl) f
  · exact update_keeps media (·.srtpKeys) (fun _ => by rfl) f

theorem tearDown_nil (f : Nat) : (media.tearDown []).get f = media.get f := by
  simp [tearDown, update]

theorem tearDown_other (kept : f ∉ chosen) :
    (media.tearDown chosen).get f = media.get f := if_neg kept

theorem configure_srtpKeys (other : Nat) (crypto : Bool) :
    ((media.configure f crypto).get other).srtpKeys =
      ((media.get other).srtpKeys || (other = f && crypto)) := by
  by_cases same : other = f
  · simp [configure, update, same]
  · simp [configure, update, same]

theorem allocate_keeps (holds : Forwarder G O → Prop)
    (new : holds { stream := {}, srtpKeys := false, allocated := true })
    {missing granted : Nat} {forwarders : List Nat} (before : holds (media.get f)) :
    holds ((allocate missing granted media forwarders).2.1.get f) := by
  induction missing generalizing granted media forwarders with
  | zero => exact before
  | succ missing ih =>
    cases granted with
    | zero => exact before
    | succ granted =>
      refine ih ?_
      by_cases isNew : f = media.next
      · rw [create]
        dsimp only
        rw [if_pos isNew]
        exact new
      · rw [create]
        dsimp only
        rw [if_neg isNew]
        exact before

theorem allocate_length {missing granted : Nat} :
    (allocate missing granted media forwarders).2.2.length ≤ forwarders.length + missing := by
  induction missing generalizing granted media forwarders with
  | zero => exact Nat.le_refl _
  | succ missing ih =>
    cases granted with
    | zero => exact Nat.le_add_right _ _
    | succ granted =>
      refine Nat.le_trans ih ?_
      rw [length_append, length_singleton, Nat.add_assoc, Nat.add_comm 1]

theorem configureStreams_keeps (project : Forwarder G O → α)
    (same : ∀ forwarder keys, project { forwarder with srtpKeys := keys } = project forwarder)
    {requireSRTP : Bool} {pairs : List (AudioStream × Nat)} {streams : Store String Nat} :
    project ((configureStreams requireSRTP pairs media streams).2.1.get f) =
      project (media.get f) := by
  induction pairs generalizing media streams with
  | nil => rfl
  | cons pair rest ih =>
    obtain ⟨⟨description, label⟩, chosen⟩ := pair
    cases description with
    | none => exact ih
    | some description =>
      have here : project ((media.configure chosen description.crypto).get f) =
          project (media.get f) := update_keeps media project (fun _ => same _ _) f
      simp only [configureStreams]
      split
      · exact here
      · exact ih.trans here

end Forwarders

theorem configureStreams_next {requireSRTP : Bool} {pairs : List (AudioStream × Nat)}
    {media : Forwarders G O} {mapping : Store String Nat} :
    (configureStreams requireSRTP pairs media mapping).2.1.next = media.next := by
  induction pairs generalizing media mapping with
  | nil => rfl
  | cons pair rest ih =>
    obtain ⟨⟨description, label⟩, f⟩ := pair
    cases description with
    | none => exact ih
    | some description =>
      simp only [configureStreams]
      split
      · rfl
      · exact ih

def lacksKeys (requireSRTP : Bool) (keys : Nat → Bool) : AudioStream × Nat → Bool
  | (⟨some description, _⟩, f) => requireSRTP && !(keys f || description.crypto)
  | (⟨none, _⟩, _) => false

def withKeys (keys : Nat → Bool) : AudioStream × Nat → Nat → Bool
  | (⟨some description, _⟩, f), other => keys other || (other = f && description.crypto)
  | (⟨none, _⟩, _), other => keys other

def reached (requireSRTP : Bool) :
    (Nat → Bool) → List (AudioStream × Nat) → List (AudioStream × Nat)
  | _, [] => []
  | keys, stream :: rest =>
    if lacksKeys requireSRTP keys stream then [stream]
    else stream :: reached requireSRTP (withKeys keys stream) rest

def entries (streams : List (AudioStream × Nat)) : List (String × Nat) :=
  streams.filterMap fun stream => stream.1.description.map fun _ => (stream.1.label, stream.2)

/-- The mapping by position: numbered legs without a parsed offer, else its streams. -/
def wantedStreams (mediaConfig : MediaConfig) (parsed : Option (List MediaDescription))
    (keys : Nat → Bool) (forwarders : List Nat) : Store String Nat :=
  match parsed with
  | none => assignLegs forwarders
  | some _ =>
    writeAll empty (entries
      (reached mediaConfig.requireSRTP keys ((audioStreams parsed).zip forwarders)))

section Streams

variable {requireSRTP : Bool} {media : Forwarders G O} {streams : Store String Nat}
  {pairs : List (AudioStream × Nat)}

variable {keys : Nat → Bool}

theorem reached_subset : reached requireSRTP keys pairs ⊆ pairs := by
  induction pairs generalizing keys with
  | nil => exact List.Subset.refl _
  | cons pair rest ih =>
    rw [reached]
    split
    · exact cons_subset_cons _ (nil_subset _)
    · exact cons_subset_cons _ ih

theorem reached_take : ∃ stream, reached requireSRTP keys pairs = pairs.take (stream + 1) := by
  induction pairs generalizing keys with
  | nil => exact ⟨0, rfl⟩
  | cons pair rest ih =>
    rw [reached]
    split
    · exact ⟨0, rfl⟩
    · obtain ⟨stream, isTake⟩ := @ih (withKeys keys pair)
      exact ⟨stream + 1, congrArg (pair :: ·) isTake⟩

theorem configureStreams_reached :
    (configureStreams requireSRTP pairs media streams).2.2 =
        writeAll streams
          (entries (reached requireSRTP (fun f => (media.get f).srtpKeys) pairs)) ∧
      ((configureStreams requireSRTP pairs media streams).1 = true →
        reached requireSRTP (fun f => (media.get f).srtpKeys) pairs = pairs) := by
  induction pairs generalizing media streams with
  | nil => exact ⟨rfl, fun _ => rfl⟩
  | cons pair rest ih =>
    obtain ⟨⟨description, label⟩, f⟩ := pair
    cases description with
    | none => exact ⟨ih.1, fun all => congrArg _ (ih.2 all)⟩
    | some description =>
      have keys : (fun other => ((media.configure f description.crypto).get other).srtpKeys) =
          withKeys (fun other => (media.get other).srtpKeys) (⟨some description, label⟩, f) :=
        funext fun other => configure_srtpKeys other description.crypto
      have check : (requireSRTP &&
          !((media.configure f description.crypto).get f).srtpKeys) =
          lacksKeys requireSRTP (fun other => (media.get other).srtpKeys)
            (⟨some description, label⟩, f) := by
        rw [configure_srtpKeys, lacksKeys, decide_eq_true rfl, Bool.true_and]
      simp only [configureStreams, reached]
      rw [check]
      split
      · exact ⟨rfl, nofun⟩
      · rw [← keys, ih.1]
        exact ⟨rfl, fun all => congrArg _ (ih.2 all)⟩

theorem assigned_mem {label : String} {f : Nat} {offered : List AudioStream}
    (found : writeAll empty (entries (reached requireSRTP keys (offered.zip forwarders))) label =
      some f) : f ∈ forwarders := by
  rcases writeAll_mem found with before | mem
  · cases before
  · obtain ⟨pair, among, isEntry⟩ := mem_filterMap.mp mem
    obtain ⟨description, -, same⟩ := Option.map_eq_some_iff.mp isEntry
    cases same
    exact (of_mem_zip (reached_subset among)).2

theorem assignLegs_mem {label : String} {f : Nat} (found : assignLegs forwarders label = some f) :
    f ∈ forwarders := by
  rcases writeAll_mem found with before | mem
  · cases before
  · obtain ⟨⟨leg, index⟩, among, same⟩ := mem_map.mp mem
    cases same
    exact fst_mem_of_mem_zipIdx among

end Streams

theorem audioStreams_pos (parsed : Option (List MediaDescription)) :
    0 < (audioStreams parsed).length := by
  simp only [audioStreams]
  split
  · exact Nat.one_pos
  case isFalse some_ =>
    rw [length_mapIdx]
    exact length_pos_of_ne_nil some_

section Stages

variable {config : Config} {mediaConfig : MediaConfig} {granted : Nat} {dialog : Dialog G O}
  {parsed : Option (List MediaDescription)} {sdp : Option Bytes}

section

variable (forwarders : List Nat)

theorem assignForwarders_rest :
    (assignForwarders mediaConfig parsed forwarders dialog).2.call.session =
        dialog.call.session ∧
      (assignForwarders mediaConfig parsed forwarders dialog).2.call.sdp = dialog.call.sdp := by
  cases parsed <;> exact ⟨rfl, rfl⟩

theorem assignForwarders_rtpForwarders :
    (assignForwarders mediaConfig parsed forwarders dialog).2.call.rtpForwarders =
      forwarders.take (audioStreams parsed).length := by
  cases parsed <;> rfl

theorem assignForwarders_rtpForwarder :
    (assignForwarders mediaConfig parsed forwarders dialog).2.call.rtpForwarder =
      (forwarders.take (audioStreams parsed).length).head?.or dialog.call.rtpForwarder := by
  cases parsed <;> rfl

theorem assignForwarders_lock (f : Nat) :
    ((assignForwarders mediaConfig parsed forwarders dialog).2.media.get f).stream.remoteSSRC =
      (dialog.media.get f).stream.remoteSSRC := by
  have torn : ((dialog.media.tearDown (forwarders.drop (audioStreams parsed).length)).get
      f).stream.remoteSSRC = (dialog.media.get f).stream.remoteSSRC :=
    update_keeps _ (·.stream.remoteSSRC) (fun _ => by rfl) f
  cases parsed with
  | none => exact torn
  | some descriptions =>
    exact (configureStreams_keeps (·.stream.remoteSSRC) (fun _ _ => rfl)).trans torn

end

theorem assignForwarders_ports (short : forwarders.length ≤ (audioStreams parsed).length)
    (f : Nat) :
    ((assignForwarders mediaConfig parsed forwarders dialog).2.media.get f).allocated =
      (dialog.media.get f).allocated := by
  have torn : (dialog.media.tearDown (forwarders.drop (audioStreams parsed).length)).get f =
      dialog.media.get f := by
    rw [drop_of_length_le short]
    exact tearDown_nil f
  cases parsed with
  | none => exact congrArg Forwarder.allocated torn
  | some descriptions =>
    exact (configureStreams_keeps (·.allocated) (fun _ _ => rfl)).trans
      (congrArg Forwarder.allocated torn)

theorem assignForwarders_streams (count : forwarders.length = (audioStreams parsed).length) :
    (assignForwarders mediaConfig parsed forwarders dialog).2.call.streamForwarders =
      wantedStreams mediaConfig parsed (fun f => (dialog.media.get f).srtpKeys) forwarders := by
  have all : forwarders.take (audioStreams parsed).length = forwarders :=
    take_of_length_le (Nat.le_of_eq count)
  have none_ : forwarders.drop (audioStreams parsed).length = [] :=
    drop_of_length_le (Nat.le_of_eq count)
  cases parsed with
  | none =>
    simp only [assignForwarders, wantedStreams]
    rw [all]
  | some descriptions =>
    simp only [assignForwarders, wantedStreams]
    rw [all, none_, configureStreams_reached.1]
    simp only [tearDown_nil]

section

variable (missing : dialog.call.primary.length < (audioStreams parsed).length)

include missing

theorem matchStreams_none :
    matchStreams mediaConfig parsed 0 dialog = (some .serverError, dialog) := by
  obtain ⟨count, isCount⟩ := Nat.exists_eq_succ_of_ne_zero (Nat.sub_ne_zero_of_lt missing)
  simp only [matchStreams]
  rw [isCount]
  rfl

theorem matchStreams_allocates (some_ : granted ≠ 0) :
    ((matchStreams mediaConfig parsed granted dialog).2.media.get dialog.media.next).allocated
      = true := by
  obtain ⟨count, isCount⟩ := Nat.exists_eq_succ_of_ne_zero (Nat.sub_ne_zero_of_lt missing)
  obtain ⟨more, isMore⟩ := Nat.exists_eq_succ_of_ne_zero some_
  have created : ((allocate ((audioStreams parsed).length - dialog.call.primary.length) granted
      dialog.media dialog.call.primary).2.1.get dialog.media.next).allocated = true := by
    rw [isCount, isMore, allocate]
    exact allocate_keeps (fun forwarder => forwarder.allocated = true) rfl
      (congrArg Forwarder.allocated (if_pos rfl))
  have short : (allocate ((audioStreams parsed).length - dialog.call.primary.length) granted
      dialog.media dialog.call.primary).2.2.length ≤ (audioStreams parsed).length := by
    refine Nat.le_trans allocate_length ?_
    rw [Nat.add_sub_cancel' (Nat.le_of_lt missing)]
  simp only [matchStreams]
  split
  · exact (assignForwarders_ports short _).trans created
  · exact created

end

theorem matchStreams_enough (enough : (audioStreams parsed).length ≤ dialog.call.primary.length) :
    matchStreams mediaConfig parsed granted dialog =
      assignForwarders mediaConfig parsed dialog.call.primary dialog := by
  simp only [matchStreams]
  rw [Nat.sub_eq_zero_of_le enough]
  rfl

theorem updateMedia_rest :
    (updateMedia config granted sdp dialog).2.call.session = dialog.call.session ∧
      (updateMedia config granted sdp dialog).2.call.sdp = dialog.call.sdp := by
  unfold updateMedia
  split
  · exact ⟨rfl, rfl⟩
  · split
    · exact ⟨rfl, rfl⟩
    · simp only [matchStreams]
      split
      · exact assignForwarders_rest _
      · exact ⟨rfl, rfl⟩

theorem updateMedia_unlocked {f : Nat} (unlocked : (dialog.media.get f).stream.remoteSSRC = 0) :
    ((updateMedia config granted sdp dialog).2.media.get f).stream.remoteSSRC = 0 := by
  unfold updateMedia
  split
  · exact unlocked
  · split
    · exact unlocked
    · have kept : ∀ missing, ((allocate missing granted dialog.media dialog.call.primary).2.1.get
          f).stream.remoteSSRC = 0 := fun _ =>
        allocate_keeps (fun forwarder => forwarder.stream.remoteSSRC = 0) rfl unlocked
      simp only [matchStreams]
      split
      · exact (assignForwarders_lock _ f).trans (kept _)
      · exact kept _

theorem updateMedia_refusal {refusal : Response}
    (refused : (updateMedia config granted sdp dialog).1 = some refusal) :
    refusal.isSuccess = false := by
  have assigned : ∀ mediaConfig parsed forwarders (dialog : Dialog G O),
      (assignForwarders mediaConfig parsed forwarders dialog).1 = some refusal →
        refusal.isSuccess = false := by
    intro mediaConfig parsed forwarders dialog lacking
    cases parsed with
    | none => cases lacking
    | some descriptions =>
      simp only [assignForwarders] at lacking
      split at lacking
      · cases lacking
      · cases lacking
        rfl
  simp only [updateMedia] at refused
  split at refused
  · cases refused
  · split at refused
    · cases refused
      rfl
    · simp only [matchStreams] at refused
      split at refused
      · exact assigned _ _ _ _ refused
      · cases refused
        rfl

end Stages

end SiprecServer.Sip.ReInvite
