import SiprecServer.Sip.ReInviteAtomic
import SiprecServer.Sip.SignallingSteps

/-!
# Which forwarder a stream is mapped to

The streams of an offer are mapped to the forwarders of the call by position, and a
re-INVITE closes the gaps that stopped forwarders have left before it counts positions.
-/

namespace SiprecServer.Sip.ReInvite

open Lib.FileSystem Media List

variable {G O : Type}

structure Known (media : Forwarders G O) (forwarders : List Nat) : Prop where
  distinct : forwarders.Nodup
  created : ∀ f ∈ forwarders, f < media.next

section Known

variable {media : Forwarders G O} {forwarders : List Nat} {missing granted : Nat}

section

variable (known : Known media forwarders)

include known

theorem Known.sublist {fewer : List Nat} (sublist : fewer.Sublist forwarders) : Known media fewer :=
  ⟨known.distinct.sublist sublist, fun f mem => known.created f (sublist.subset mem)⟩

theorem Known.create : Known media.create (forwarders ++ [media.next]) where
  distinct := by
    refine nodup_append.mpr ⟨known.distinct, nodup_singleton _, ?_⟩
    intro f mem other isNext same
    rw [mem_singleton] at isNext
    exact Nat.lt_irrefl _ (isNext ▸ same ▸ known.created f mem)
  created f mem := by
    rcases mem_append.mp mem with old | new
    · exact Nat.lt_succ_of_lt (known.created f old)
    · rw [mem_singleton.mp new]
      exact Nat.lt_succ_self _

theorem allocate_known :
    Known (allocate missing granted media forwarders).2.1
      (allocate missing granted media forwarders).2.2 := by
  induction missing generalizing granted media forwarders with
  | zero => exact known
  | succ missing ih =>
    cases granted with
    | zero => exact known
    | succ granted => exact ih known.create

end

theorem allocate_listed {position f : Nat} (listed : forwarders[position]? = some f) :
    (allocate missing granted media forwarders).2.2[position]? = some f := by
  induction missing generalizing granted media forwarders with
  | zero => exact listed
  | succ missing ih =>
    cases granted with
    | zero => exact listed
    | succ granted =>
      apply ih
      obtain ⟨inside, -⟩ := List.getElem?_eq_some_iff.mp listed
      rw [List.getElem?_append_left inside]
      exact listed

theorem allocate_created {f : Nat} (created : f < media.next) :
    (allocate missing granted media forwarders).2.1.get f = media.get f := by
  induction missing generalizing granted media forwarders with
  | zero => rfl
  | succ missing ih =>
    cases granted with
    | zero => rfl
    | succ granted =>
      have before : f < media.create.next := Nat.lt_succ_of_lt created
      rw [allocate, ih before]
      exact if_neg (Nat.ne_of_lt created)

theorem allocate_next : media.next ≤ (allocate missing granted media forwarders).2.1.next := by
  induction missing generalizing granted media forwarders with
  | zero => exact Nat.le_refl _
  | succ missing ih =>
    cases granted with
    | zero => exact Nat.le_refl _
    | succ granted =>
      refine Nat.le_trans (Nat.le_succ media.next) ?_
      change media.create.next ≤ _
      exact ih

end Known

theorem entries_forwarders (streams : List (AudioStream × Nat)) :
    ((entries streams).map Prod.snd).Sublist (streams.map Prod.snd) := by
  induction streams with
  | nil => exact List.Sublist.slnil
  | cons stream rest ih =>
    obtain ⟨⟨description, label⟩, f⟩ := stream
    cases description with
    | none => exact ih.trans (sublist_cons_self _ _)
    | some description => exact ih.cons_cons f

variable {α : Type} {sdp : Option Bytes}

theorem zip_forwarders (offered : List α) (forwarders : List Nat) :
    ((offered.zip forwarders).map Prod.snd).Sublist forwarders := by
  induction offered generalizing forwarders with
  | nil => exact nil_sublist _
  | cons stream rest ih =>
    cases forwarders with
    | nil => exact List.Sublist.slnil
    | cons f forwarders => exact (ih forwarders).cons_cons f

theorem zip_labels (labels : List String) (forwarders : List α) :
    ((labels.zip forwarders).map Prod.fst).Sublist labels := by
  induction labels generalizing forwarders with
  | nil => exact List.Sublist.slnil
  | cons label rest ih =>
    cases forwarders with
    | nil => exact nil_sublist _
    | cons f forwarders => exact (ih forwarders).cons_cons label

theorem reached_sublist {requireSRTP : Bool} {keys : Nat → Bool}
    {pairs : List (AudioStream × Nat)} : (reached requireSRTP keys pairs).Sublist pairs := by
  obtain ⟨stream, isTake⟩ : ∃ stream, reached requireSRTP keys pairs = pairs.take (stream + 1) :=
    reached_take
  rw [isTake]
  exact take_sublist _ _

theorem assignLegs_injective {forwarders : List Nat} (distinct : forwarders.Nodup) :
    Injective (assignLegs forwarders) := by
  apply writeAll_injective
  have same : (forwarders.zipIdx.map fun leg => (legLabel leg.2, leg.1)).map Prod.snd =
      forwarders := by
    rw [map_map]
    exact zipIdx_map_fst 0 forwarders
  rw [same]
  exact distinct

/-! ## What the stages keep -/

structure WellMapped (dialog : Dialog G O) : Prop where
  listed : Known dialog.media dialog.call.rtpForwarders
  single : ∀ f, dialog.call.rtpForwarder = some f → f < dialog.media.next
  injective : Injective dialog.call.streamForwarders

section WellMapped

variable {config : Config} {mediaConfig : MediaConfig} {env : Circumstances}
  {dialog : Dialog G O} {parsed : Option (List MediaDescription)} {forwarders : List Nat}

variable (mapped : WellMapped dialog)

include mapped

theorem WellMapped.primary : Known dialog.media dialog.call.primary := by
  unfold Call.primary
  split
  · exact mapped.listed
  · cases single : dialog.call.rtpForwarder with
    | none => exact ⟨nodup_nil, nofun⟩
    | some f =>
      refine ⟨nodup_singleton f, fun other mem => ?_⟩
      rw [mem_singleton.mp mem]
      exact mapped.single f single

theorem WellMapped.same {after : Dialog G O} (next : after.media.next = dialog.media.next)
    (rtpForwarders : after.call.rtpForwarders = dialog.call.rtpForwarders)
    (rtpForwarder : after.call.rtpForwarder = dialog.call.rtpForwarder)
    (streamForwarders : after.call.streamForwarders = dialog.call.streamForwarders) :
    WellMapped after where
  listed := by
    rw [rtpForwarders]
    exact ⟨mapped.listed.distinct, fun f mem => next ▸ mapped.listed.created f mem⟩
  single f isSingle := next ▸ mapped.single f (rtpForwarder ▸ isSingle)
  injective := streamForwarders ▸ mapped.injective

theorem WellMapped.storeSDP : WellMapped (storeSDP sdp dialog) := by
  cases sdp with
  | none => exact mapped
  | some sdp => exact mapped.same rfl rfl rfl rfl

theorem WellMapped.dropDead : WellMapped (dropDead dialog) where
  listed := mapped.listed.sublist filter_sublist
  single f isSingle := mapped.single f (Option.filter_eq_some_iff.mp isSingle).1
  injective := mapped.injective.filter _

omit mapped in
theorem assignForwarders_next :
    (assignForwarders mediaConfig parsed forwarders dialog).2.media.next = dialog.media.next := by
  cases parsed with
  | none => rfl
  | some descriptions => exact configureStreams_next

omit mapped in
theorem assignForwarders_injective (distinct : forwarders.Nodup) :
    Injective (assignForwarders mediaConfig parsed forwarders dialog).2.call.streamForwarders := by
  have taken : (forwarders.take (audioStreams parsed).length).Nodup :=
    distinct.sublist (take_sublist _ _)
  cases parsed with
  | none => exact assignLegs_injective taken
  | some descriptions =>
    simp only [assignForwarders]
    rw [configureStreams_reached.1]
    refine writeAll_injective (taken.sublist ((entries_forwarders _).trans ?_))
    exact (reached_sublist.map Prod.snd).trans (zip_forwarders _ _)

omit mapped in
theorem assignForwarders_wellMapped (known : Known dialog.media forwarders)
    (single : ∀ f, dialog.call.rtpForwarder = some f → f < dialog.media.next) :
    WellMapped (assignForwarders mediaConfig parsed forwarders dialog).2 where
  listed := by
    rw [assignForwarders_rtpForwarders]
    have fewer := known.sublist (take_sublist (audioStreams parsed).length forwarders)
    exact ⟨fewer.distinct, fun f mem =>
      assignForwarders_next.symm ▸ fewer.created f mem⟩
  single f isSingle := by
    rw [assignForwarders_rtpForwarder] at isSingle
    rw [assignForwarders_next]
    rcases Option.or_eq_some_iff.mp isSingle with first | ⟨-, before⟩
    · exact known.created f (take_subset _ _ (mem_of_head? first))
    · exact single f before
  injective := assignForwarders_injective known.distinct

theorem WellMapped.matchStreams {granted : Nat} :
    WellMapped (matchStreams mediaConfig parsed granted dialog).2 := by
  have known : ∀ missing, Known (allocate missing granted dialog.media dialog.call.primary).2.1 _ :=
    fun _ => allocate_known mapped.primary
  have single : ∀ missing f, dialog.call.rtpForwarder = some f →
      f < (allocate missing granted dialog.media dialog.call.primary).2.1.next :=
    fun _ f isSingle => Nat.lt_of_lt_of_le (mapped.single f isSingle) allocate_next
  simp only [ReInvite.matchStreams]
  split
  · exact assignForwarders_wellMapped (known _) (single _)
  · refine ⟨?_, single _, mapped.injective⟩
    exact ⟨mapped.listed.distinct, fun f mem =>
      Nat.lt_of_lt_of_le (mapped.listed.created f mem) allocate_next⟩

theorem WellMapped.updateMedia {granted : Nat} :
    WellMapped (updateMedia config granted sdp dialog).2 := by
  unfold ReInvite.updateMedia
  split
  · exact mapped
  · split
    · exact mapped
    · exact mapped.matchStreams

omit mapped in
theorem answer_rest (config : Config) (env : Circumstances) (dialog : Dialog G O) :
    (answer config env dialog).2.media = dialog.media ∧
      (answer config env dialog).2.call.rtpForwarders = dialog.call.rtpForwarders ∧
      (answer config env dialog).2.call.rtpForwarder = dialog.call.rtpForwarder ∧
      (answer config env dialog).2.call.streamForwarders =
        dialog.call.streamForwarders := by
  unfold answer
  repeat' split
  all_goals exact ⟨rfl, rfl, rfl, rfl⟩

theorem WellMapped.answer : WellMapped (answer config env dialog).2 := by
  obtain ⟨media, rtpForwarders, rtpForwarder, streamForwarders⟩ :=
    answer_rest config env dialog
  exact mapped.same (congrArg Forwarders.next media) rtpForwarders rtpForwarder streamForwarders

theorem WellMapped.reInvite {request : Request} :
    WellMapped (handleSiprecReInvite config env request dialog).2 := by
  unfold handleSiprecReInvite
  split
  · exact mapped
  case h_2 refreshed succeeds =>
    obtain ⟨session, rfl⟩ := refreshSession_rest succeeds
    have started : WellMapped { dialog with call := { dialog.call with session } } :=
      mapped.same rfl rfl rfl rfl
    have updated : WellMapped (ReInvite.updateMedia config env.granted request.sdp
        (ReInvite.dropDead (ReInvite.storeSDP request.sdp _))).2 :=
      started.storeSDP.dropDead.updateMedia
    split
    case h_1 refusal after isRefused =>
      rw [isRefused] at updated
      exact updated
    case h_2 after isMatched =>
      rw [isMatched] at updated
      exact updated.answer

end WellMapped

section

variable (descriptions : List MediaDescription)

def audioLabels : List String :=
  (descriptions.filter (·.media = "audio")).mapIdx fun index description =>
    extractStreamLabel description index

theorem entries_described {streams : List AudioStream}
    (described : ∀ stream ∈ streams, stream.description.isSome) (forwarders : List Nat) :
    entries (streams.zip forwarders) = (streams.map (·.label)).zip forwarders := by
  induction streams generalizing forwarders with
  | nil => rfl
  | cons stream rest ih =>
    cases forwarders with
    | nil => rfl
    | cons f forwarders =>
      obtain ⟨description, isSome⟩ :=
        Option.isSome_iff_exists.mp (described stream mem_cons_self)
      have later := ih (fun other mem => described other (mem_cons_of_mem _ mem))
        forwarders
      unfold entries at later ⊢
      rw [zip_cons_cons, filterMap_cons, isSome, Option.map_some, later]
      rfl

theorem entries_audioStreams (forwarders : List Nat) :
    entries ((audioStreams (some descriptions)).zip forwarders) =
      (audioLabels descriptions).zip forwarders := by
  unfold audioLabels
  by_cases none_ : descriptions.filter (·.media = "audio") = []
  · rw [none_]
    simp only [audioStreams, Option.getD_some, none_, if_true]
    cases forwarders <;> rfl
  · simp only [audioStreams, Option.getD_some, none_, if_false]
    rw [entries_described]
    · congr 1
      apply ext_getElem?
      intro index
      simp only [getElem?_map, getElem?_mapIdx, Option.map_map]
      rfl
    · intro stream mem
      obtain ⟨index, -, rfl⟩ := mem_mapIdx.mp mem
      rfl

theorem audioLabels_length :
    (audioLabels descriptions).length ≤ (audioStreams (some descriptions)).length := by
  unfold audioLabels
  rw [length_mapIdx]
  by_cases none_ : descriptions.filter (·.media = "audio") = []
  · rw [none_]
    exact Nat.zero_le _
  · simp only [audioStreams, Option.getD_some, none_, if_false]
    rw [length_mapIdx]

end

def Positioned (labels : List String) (call : Call) : Prop :=
  call.streamForwarders = writeAll empty (labels.zip call.rtpForwarders)

section

variable {labels : List String} {position f : Nat} {label : String} {call : Call}

variable (positioned : Positioned labels call) (distinct : labels.Nodup)
  (labelled : labels[position]? = some label)

include positioned distinct labelled

theorem Positioned.forwarder (listed : call.rtpForwarders[position]? = some f) :
    call.streamForwarders label = some f := by
  rw [positioned]
  apply writeAll_of_mem
  · exact distinct.sublist (zip_labels labels call.rtpForwarders)
  · apply mem_of_getElem?
    rw [getElem?_zip_eq_some]
    exact ⟨labelled, listed⟩

theorem Positioned.listed (mapped : call.streamForwarders label = some f) :
    call.rtpForwarders[position]? = some f := by
  rw [positioned] at mapped
  have mem := (writeAll_mem mapped).resolve_left nofun
  obtain ⟨index, found⟩ := mem_iff_getElem?.mp mem
  obtain ⟨there, listed⟩ := getElem?_zip_eq_some.mp found
  have same : index = position := by
    obtain ⟨inside, isLabel⟩ := List.getElem?_eq_some_iff.mp there
    obtain ⟨inside', isLabel'⟩ := List.getElem?_eq_some_iff.mp labelled
    exact distinct.getElem_inj_iff.mp (isLabel.trans isLabel'.symm)
  exact same ▸ listed

end

/-! ## A successful re-INVITE -/

section Positions

variable {config : Config} {mediaConfig : MediaConfig} {env : Circumstances}
  {dialog : Dialog G O} {descriptions : List MediaDescription} {forwarders : List Nat}
  {request : Request}

theorem configured_positioned {requireSRTP : Bool} {media : Forwarders G O}
    (done : (configureStreams requireSRTP ((audioStreams (some descriptions)).zip forwarders)
      media empty).1 = true) :
    (configureStreams requireSRTP ((audioStreams (some descriptions)).zip forwarders) media
      empty).2.2 = writeAll empty ((audioLabels descriptions).zip forwarders) := by
  rw [configureStreams_reached.1, configureStreams_reached.2 done, entries_audioStreams]

variable {position f granted : Nat}

theorem assignForwarders_keeps (distinct : forwarders.Nodup)
    (listed : forwarders[position]? = some f)
    (within : position < (audioStreams (some descriptions)).length) :
    (assignForwarders mediaConfig (some descriptions) forwarders
        dialog).2.call.rtpForwarders[position]? = some f ∧
      (assignForwarders mediaConfig (some descriptions) forwarders dialog).2.live f =
        dialog.live f := by
  have notSurplus : f ∉ forwarders.drop (audioStreams (some descriptions)).length := by
    intro surplus
    have here : f ∈ forwarders.take (audioStreams (some descriptions)).length := by
      apply mem_of_getElem? (i := position)
      rw [getElem?_take_of_lt within]
      exact listed
    rw [← take_append_drop (audioStreams (some descriptions)).length forwarders] at distinct
    exact (nodup_append.mp distinct).2.2 f here f surplus rfl
  constructor
  · rw [assignForwarders_rtpForwarders, getElem?_take_of_lt within]
    exact listed
  · refine congrArg (! ·) ?_
    simp only [assignForwarders]
    rw [Forwarders.configureStreams_keeps (fun forwarder => forwarder.stream.stopped)
      (fun _ _ => rfl), Forwarders.tearDown_other notSurplus]

theorem matchStreams_positioned
    (done : (matchStreams mediaConfig (some descriptions) granted dialog).1 = none) :
    Positioned (audioLabels descriptions)
      (matchStreams mediaConfig (some descriptions) granted dialog).2.call := by
  simp only [matchStreams] at done ⊢
  split at done
  case isTrue all =>
    rw [if_pos all]
    simp only [assignForwarders] at done ⊢
    split at done
    case isTrue configured => exact configured_positioned configured
    case isFalse => cases done
  case isFalse => cases done

theorem matchStreams_keeps (mapped : WellMapped dialog)
    (done : (matchStreams mediaConfig (some descriptions) granted dialog).1 = none)
    (listed : dialog.call.primary[position]? = some f)
    (within : position < (audioStreams (some descriptions)).length) :
    (matchStreams mediaConfig (some descriptions) granted
        dialog).2.call.rtpForwarders[position]? = some f ∧
      (matchStreams mediaConfig (some descriptions) granted dialog).2.live f = dialog.live f := by
  have created : f < dialog.media.next := mapped.primary.created f (mem_of_getElem? listed)
  have known : ∀ missing, Known (allocate missing granted dialog.media dialog.call.primary).2.1 _ :=
    fun _ => allocate_known mapped.primary
  simp only [matchStreams] at done ⊢
  split at done
  case isTrue all =>
    rw [if_pos all]
    refine (assignForwarders_keeps (known _).distinct (allocate_listed listed) within).imp_right ?_
    intro live
    refine live.trans (congrArg (! ·) ?_)
    rw [allocate_created created]
  case isFalse => cases done

theorem updateMedia_parsed (parsed : parsedSDP config sdp = some descriptions)
    (done : (updateMedia config granted sdp dialog).1 = none) :
    ∃ mediaConfig, updateMedia config granted sdp dialog =
      matchStreams mediaConfig (some descriptions) granted dialog := by
  have offered : sdp.getD [] ≠ [] := by
    rintro empty
    cases sdp with
    | none => cases parsed
    | some sdp =>
      simp only [Option.getD_some] at empty
      simp [parsedSDP, empty] at parsed
  unfold updateMedia at done ⊢
  rw [if_neg fun both => offered both.2] at done ⊢
  split at done
  · cases done
  case h_2 mediaConfig isConfig =>
    rw [parsed]
    exact ⟨mediaConfig, rfl⟩

variable (mapped : WellMapped dialog)
  (success : (handleSiprecReInvite config env request dialog).1.isSuccess)
  (parsed : parsedSDP config request.sdp = some descriptions)

include mapped success parsed

omit mapped parsed in
theorem handleSiprecReInvite_success :
    ∃ session after,
      updateMedia config env.granted request.sdp (dropDead (storeSDP request.sdp
          { dialog with call := { dialog.call with session } })) = (none, after) ∧
        handleSiprecReInvite config env request dialog =
          answer config env after := by
  unfold handleSiprecReInvite at success ⊢
  split at success
  · exact absurd success (by simp [Response.isSuccess])
  case h_2 refreshed succeeds =>
    obtain ⟨session, rfl⟩ := refreshSession_rest succeeds
    split at success
    case h_1 refusal after isRefused =>
      rw [updateMedia_refusal (congrArg Prod.fst isRefused)] at success
      cases success
    case h_2 after isMatched =>
      exact ⟨session, after, isMatched, rfl⟩

omit mapped success parsed in
theorem storeSDP_rtpForwarders :
    (storeSDP sdp dialog).call.rtpForwarders = dialog.call.rtpForwarders := by
  cases sdp <;> rfl

omit mapped success parsed in
theorem getElem?_filter {keeps : α → Bool} {list : List α} {element : α}
    (listed : list[position]? = some element)
    (kept : ∀ earlier ≤ position, ∀ other, list[earlier]? = some other → keeps other) :
    (list.filter keeps)[position]? = some element := by
  induction list generalizing position with
  | nil => cases listed
  | cons first rest ih =>
    rw [filter_cons_of_pos (kept 0 (Nat.zero_le _) first rfl)]
    cases position with
    | zero => exact listed
    | succ position =>
      refine ih listed fun earlier before other isOther => ?_
      exact kept (earlier + 1) (Nat.succ_le_succ before) other isOther

omit mapped in
/-- The streams of the offer are mapped by position; a forwarder with no stopped one before
it stays where it is and goes on. -/
theorem reInvite_positioned :
    Positioned (audioLabels descriptions)
      (handleSiprecReInvite config env request dialog).2.call := by
  obtain ⟨session, after, isMatched, isAnswer⟩ := handleSiprecReInvite_success success
  obtain ⟨mediaConfig, isMatch⟩ := updateMedia_parsed parsed (congrArg Prod.fst isMatched)
  obtain ⟨-, rtpForwarders, -, streamForwarders⟩ := answer_rest config env after
  rw [isMatch] at isMatched
  have positioned := matchStreams_positioned (congrArg Prod.fst isMatched)
  rw [isMatched] at positioned
  rw [isAnswer]
  unfold Positioned at positioned ⊢
  rw [rtpForwarders, streamForwarders]
  exact positioned

theorem reInvite_keeps (listed : dialog.call.rtpForwarders[position]? = some f)
    (live : ∀ earlier ≤ position, ∀ g, dialog.call.rtpForwarders[earlier]? = some g →
      dialog.live g) (within : position < (audioLabels descriptions).length) :
    (handleSiprecReInvite config env request dialog).2.call.rtpForwarders[position]? =
        some f ∧
      (handleSiprecReInvite config env request dialog).2.live f := by
  obtain ⟨session, after, isMatched, isAnswer⟩ := handleSiprecReInvite_success success
  obtain ⟨mediaConfig, isMatch⟩ := updateMedia_parsed parsed (congrArg Prod.fst isMatched)
  obtain ⟨media, rtpForwarders, -, -⟩ := answer_rest config env after
  rw [isMatch] at isMatched
  have started : WellMapped { dialog with call := { dialog.call with session } } :=
    mapped.same rfl rfl rfl rfl
  have remaining : (dropDead (storeSDP request.sdp
      { dialog with call := { dialog.call with session } })).call.rtpForwarders[position]? =
        some f := by
    apply getElem?_filter
    · rw [storeSDP_rtpForwarders]
      exact listed
    · intro earlier before g isListed
      rw [storeSDP_rtpForwarders] at isListed
      rw [storeSDP_live]
      exact live earlier before g isListed
  have primary : (dropDead (storeSDP request.sdp
      { dialog with call := { dialog.call with session } })).call.primary[position]? = some f := by
    unfold Call.primary
    rw [if_pos (ne_nil_of_mem (mem_of_getElem? remaining))]
    exact remaining
  have kept := matchStreams_keeps started.storeSDP.dropDead (congrArg Prod.fst isMatched) primary
    (Nat.lt_of_lt_of_le within (audioLabels_length descriptions))
  rw [isMatched] at kept
  rw [isAnswer, rtpForwarders]
  refine ⟨kept.1, ?_⟩
  calc (answer config env after).2.live f
      = after.live f := by unfold Dialog.live; rw [media]
    _ = (storeSDP request.sdp { dialog with call := { dialog.call with session } }).live f :=
        kept.2
    _ = dialog.live f := storeSDP_live f
    _ = true := live position (Nat.le_refl _) f listed

end Positions

end SiprecServer.Sip.ReInvite

namespace SiprecServer.Sip.Signalling

open Lib.FileSystem Lib.Transducer Media
open Sip.ReInvite (Dialog Known MediaDescription Positioned Response WellMapped
  audioLabels)

variable {G O : Type}

section Invite

variable {config : ReInvite.Config} {env : Circumstances} {body : ReInvite.Bytes}
  {offer : List MediaDescription} {content : ReInvite.Request} {dialog : Dialog G O}

theorem setUpMedia_refusal {refusal : Response}
    (refused : (setUpMedia config env body offer dialog).1 = some refusal) :
    refusal.isSuccess = false := by
  unfold setUpMedia at refused
  split at refused
  · cases refused
    rfl
  · split at refused
    · cases refused
      rfl
    · dsimp only at refused
      split at refused
      · simp only [startStreams] at refused
        split at refused
        · split at refused <;> cases refused
          rfl
        · cases refused
          rfl
      · cases refused
        rfl

open ReInvite

theorem establish_success
    (success : (establish config env body content dialog).1.isSuccess) :
    ∃ offer before after,
      parsedSDP config content.sdp = some offer ∧
      before.call.streamForwarders = dialog.call.streamForwarders ∧
      before.call.rtpForwarder = dialog.call.rtpForwarder ∧
      setUpMedia config env body offer before = (none, after) ∧
      establish config env body content dialog =
        answer config env.toCircumstances after := by
  unfold establish at success ⊢
  split at success
  · exact absurd success (by simp [Response.isSuccess])
  · exact absurd success (by simp [Response.isSuccess])
  · exact absurd success (by simp [Response.isSuccess])
  case h_4 first rest metadata isSDP isMetadata =>
    have offered : content.sdp = some (first :: rest) := by
      cases sdp : content.sdp with
      | none => simp [sdp] at isSDP
      | some bytes =>
        rw [sdp] at isSDP
        exact congrArg some isSDP
    dsimp only at success ⊢
    split at success
    case isFalse => exact absurd success (by simp [Response.isSuccess])
    case isTrue allowed =>
      rw [if_pos allowed]
      split at success
      · exact absurd success (by simp [Response.isSuccess])
      · exact absurd success (by simp [Response.isSuccess])
      case h_3 description descriptions isParsed =>
        split at success
        case h_1 refusal after isRefused =>
          rw [setUpMedia_refusal (congrArg Prod.fst isRefused)] at success
          cases success
        case h_2 after isSetUp =>
          refine ⟨_, _, after, ?_, ?_, ?_, isSetUp, rfl⟩
          · simp only [parsedSDP, offered]
            exact isParsed
          · rfl
          · rfl

variable {mediaConfig : ReInvite.MediaConfig} {marshalled : Bool} {forwarders : List Nat}
  (unmapped : dialog.call.streamForwarders = empty) (single : dialog.call.rtpForwarder = none)

include unmapped single

theorem startStreams_mapped (known : Known dialog.media forwarders)
    (done : (startStreams mediaConfig marshalled body (audioStreams (some offer))
      forwarders dialog).1 = none) :
    WellMapped (startStreams mediaConfig marshalled body (audioStreams (some offer))
        forwarders dialog).2 ∧
      Positioned (audioLabels offer) (startStreams mediaConfig marshalled body
        (audioStreams (some offer)) forwarders dialog).2.call := by
  simp only [startStreams] at done ⊢
  split at done
  case isFalse => cases done
  case isTrue configured =>
    rw [if_pos configured]
    split at done
    case isFalse => cases done
    case isTrue rendered =>
      rw [if_pos rendered]
      rw [unmapped] at configured ⊢
      have positioned := configured_positioned configured
      constructor
      · constructor
        case listed =>
          exact ⟨known.distinct, fun f mem =>
            configureStreams_next.symm ▸ known.created f mem⟩
        case single =>
          intro f isSingle
          rw [configureStreams_next]
          simp only [Call.publish, single, Option.or_none] at isSingle
          exact known.created f (List.mem_of_head? isSingle)
        case injective =>
          rw [positioned]
          apply writeAll_injective
          exact known.distinct.sublist (zip_forwarders _ _)
      · exact positioned

theorem setUpMedia_mapped (done : (setUpMedia config env body offer dialog).1 = none) :
    WellMapped (setUpMedia config env body offer dialog).2 ∧
      Positioned (audioLabels offer) (setUpMedia config env body offer dialog).2.call := by
  unfold setUpMedia at done ⊢
  split at done
  · cases done
  · split at done
    · cases done
    case isFalse audio =>
      rw [if_neg audio]
      dsimp only at done ⊢
      split at done
      case isTrue all =>
        rw [if_pos all]
        exact startStreams_mapped unmapped single
          (allocate_known ⟨List.nodup_nil, nofun⟩) done
      case isFalse => cases done

theorem establish_mapped (success : (establish config env body content dialog).1.isSuccess) :
    WellMapped (establish config env body content dialog).2 ∧
      ∃ offer, parsedSDP config content.sdp = some offer ∧
        Positioned (audioLabels offer)
          (establish config env body content dialog).2.call := by
  obtain ⟨offer, before, after, parsed, streams, primary, isSetUp, isAnswer⟩ :=
    establish_success success
  obtain ⟨mapped, positioned⟩ := setUpMedia_mapped (streams.trans unmapped)
    (primary.trans single) (congrArg Prod.fst isSetUp)
  obtain ⟨-, rtpForwarders, -, streamForwarders⟩ :=
    answer_rest config env.toCircumstances after
  rw [isSetUp] at mapped positioned
  rw [isAnswer]
  refine ⟨mapped.answer, offer, parsed, ?_⟩
  unfold Positioned at positioned ⊢
  rw [rtpForwarders, streamForwarders]
  exact positioned

end Invite

end SiprecServer.Sip.Signalling
