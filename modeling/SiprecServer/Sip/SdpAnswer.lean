import SiprecServer.Sip.Sdp

/-!
# The ports of an SDP answer

An answer keeps the lines of its offer.  A line that no forwarder is left for, or that is
not audio, is accepted on the port of the first forwarder, which the first audio line has.
-/

namespace SiprecServer.Sip.Sdp

open Media.SdpUtils List

def MediaDescription.accepted (line : MediaDescription) : Bool := 0 < line.port

def MediaDescription.isAudio (line : MediaDescription) : Bool := line.media = "audio"

structure Answers (answer offer : List MediaDescription) (forwarders : List RTPForwarder) :
    Prop where
  lines : answer.map (·.media) = offer.map (·.media)
  audio : ∀ (k : Nat) (line : MediaDescription),
    (answer.filter fun line => line.accepted && line.isAudio)[k]? = some line →
      (forwarders[k]?).map (·.localPort) = some line.port
  distinct : ((answer.filter (·.accepted)).map (·.port)).Nodup

def chosenPort (fallback : Int) (pair : PortPair) : Int :=
  if 0 < pair.rtpPort then pair.rtpPort else fallback

def answerPorts (fallback : Int) (forwarders : List RTPForwarder)
    (lines : List MediaDescription) : List Int :=
  (audioPairs forwarders lines).map (chosenPort fallback)

@[simp]
theorem audioPairs_length (forwarders : List RTPForwarder) (lines : List MediaDescription) :
    (audioPairs forwarders lines).length = lines.length := by
  fun_induction audioPairs forwarders lines with
  | case1 => rfl
  | case2 _ _ ih => exact congrArg (· + 1) ih
  | case3 _ _ _ _ _ ih => exact congrArg (· + 1) ih
  | case4 _ _ _ _ _ ih => exact congrArg (· + 1) ih

theorem answerPorts_audio (fallback : Int) (forwarder : RTPForwarder) (more : List RTPForwarder)
    {m : MediaDescription} (audio : m.media = "audio") (rest : List MediaDescription) :
    answerPorts fallback (forwarder :: more) (m :: rest) =
      forwarder.localPort :: answerPorts fallback more rest := by
  have own : chosenPort fallback ⟨forwarder.localPort, forwarder.rtcpPort⟩ = forwarder.localPort :=
    if_pos forwarder.localPort_pos
  unfold answerPorts
  rw [audioPairs, if_neg (not_not_intro audio), map_cons, own]

variable (fallback : Int) (forwarders : List RTPForwarder)

theorem answerPorts_other {m : MediaDescription} (other : m.media ≠ "audio")
    (rest : List MediaDescription) :
    answerPorts fallback forwarders (m :: rest) =
      fallback :: answerPorts fallback forwarders rest := by
  cases forwarders with
  | nil => rfl
  | cons forwarder more =>
    unfold answerPorts
    rw [audioPairs, if_pos other]
    rfl

variable {lines : List MediaDescription}

theorem answerPorts_take (audio : ∀ m ∈ lines, m.media = "audio")
    (enough : lines.length ≤ forwarders.length) :
    answerPorts fallback forwarders lines =
      (forwarders.take lines.length).map (·.localPort) := by
  induction lines generalizing forwarders with
  | nil => cases forwarders <;> rfl
  | cons m rest ih =>
    cases forwarders with
    | nil => simp at enough
    | cons forwarder more =>
      have tail := ih more (fun m mem => audio m (.tail _ mem))
        (Nat.le_of_succ_le_succ enough)
      rw [answerPorts_audio fallback forwarder more (audio m (.head _)), tail]
      rfl

theorem fallback_mem
    (short : ¬((∀ m ∈ lines, m.media = "audio") ∧ lines.length ≤ forwarders.length)) :
    fallback ∈ answerPorts fallback forwarders lines := by
  induction lines generalizing forwarders with
  | nil => exact absurd ⟨fun _ mem => absurd mem not_mem_nil, Nat.zero_le _⟩ short
  | cons m rest ih =>
    by_cases audio : m.media = "audio"
    · cases forwarders with
      | nil => exact .head _
      | cons forwarder more =>
        rw [answerPorts_audio fallback forwarder more audio]
        refine .tail _ (ih more fun fine => short ⟨?_, Nat.succ_le_succ fine.2⟩)
        exact forall_mem_cons.mpr ⟨audio, fine.1⟩
    · rw [answerPorts_other fallback forwarders audio]
      exact .head _

theorem answerPorts_nodup_iff (first : RTPForwarder) (more : List RTPForwarder)
    (several : 1 < lines.length) : (answerPorts first.localPort (first :: more) lines).Nodup ↔
      (∀ m ∈ lines, m.media = "audio") ∧ lines.length ≤ (first :: more).length ∧
        (((first :: more).take lines.length).map (·.localPort)).Nodup := by
  constructor
  · intro distinct
    by_cases fine : (∀ m ∈ lines, m.media = "audio") ∧ lines.length ≤ (first :: more).length
    · rw [answerPorts_take _ _ fine.1 fine.2] at distinct
      exact ⟨fine.1, fine.2, distinct⟩
    · obtain _ | ⟨m, _ | ⟨m', rest⟩⟩ := lines
      · simp at several
      · simp at several
      · by_cases audio : m.media = "audio"
        · rw [answerPorts_audio _ first more audio] at distinct
          refine absurd (fallback_mem _ more fun tail => fine ⟨?_, ?_⟩)
            (nodup_cons.mp distinct).1
          · exact forall_mem_cons.mpr ⟨audio, tail.1⟩
          · exact Nat.succ_le_succ tail.2
        · rw [answerPorts_other _ _ audio] at distinct
          refine absurd ?_ (nodup_cons.mp distinct).1
          by_cases audio' : m'.media = "audio"
          · exact answerPorts_audio _ first more audio' rest ▸ .head _
          · exact answerPorts_other _ _ audio' rest ▸ .head _
  · rintro ⟨audio, enough, distinct⟩
    rwa [answerPorts_take _ _ audio enough]

theorem audio_ports {answer : List MediaDescription}
    (media : answer.map (·.media) = lines.map (·.media))
    (ports : answer.map (·.port) = answerPorts fallback forwarders lines) :
    (answer.filter (·.isAudio)).map (·.port) =
      (forwarders.take (answer.filter (·.isAudio)).length).map (·.localPort) ++
        List.replicate ((answer.filter (·.isAudio)).length - forwarders.length) fallback := by
  induction lines generalizing answer forwarders with
  | nil =>
    rw [map_eq_nil_iff.mp media]
    simp
  | cons m rest ih =>
    obtain _ | ⟨line, others⟩ := answer
    · simp at media
    obtain ⟨same, media⟩ := List.cons.inj media
    by_cases audio : m.media = "audio"
    · have kept : line.isAudio = true := decide_eq_true (same.trans audio)
      rw [filter_cons_of_pos kept]
      cases forwarders with
      | nil =>
        obtain ⟨own, ports⟩ : line.port = fallback ∧ _ := List.cons.inj ports
        simp [ih [] media ports, own, replicate_succ]
      | cons forwarder more =>
        obtain ⟨own, ports⟩ :=
          List.cons.inj (ports.trans (answerPorts_audio fallback forwarder more audio rest))
        simp [ih more media ports, own]
    · have dropped : line.isAudio = false := decide_eq_false fun is => audio (same.symm.trans is)
      obtain ⟨-, ports⟩ :=
        List.cons.inj (ports.trans (answerPorts_other fallback forwarders audio rest))
      rw [filter_cons_of_neg (by simp [dropped])]
      exact ih forwarders media ports

section Answer

variable (config : MediaConfig) (now : Nat) (offer : SessionDescription) (ipToUse : String)

theorem answerMedia_media (options : SDPOptions) (lines : List MediaDescription) :
    (lines.mapIdx options.answerMedia).map (·.media) = lines.map (·.media) := by
  refine ext_getElem? fun idx => ?_
  simp only [getElem?_map, getElem?_mapIdx, Option.map_map]
  rfl

theorem answer_lines (forwarders : List RTPForwarder) :
    (generateSDPResponseForForwarders config now (some offer) ipToUse
      forwarders).mediaDescriptions.map (·.media) = offer.mediaDescriptions.map (·.media) := by
  cases forwarders with
  | nil => exact answerMedia_media _ _
  | cons first more => exact answerMedia_media _ _

theorem answer_ports (first : RTPForwarder) (more : List RTPForwarder) :
    (generateSDPResponseForForwarders config now (some offer) ipToUse
      (first :: more)).mediaDescriptions.map (·.port) =
      answerPorts first.localPort (first :: more) offer.mediaDescriptions := by
  refine ext_getElem? fun idx => ?_
  unfold answerPorts
  simp only [generateSDPResponseForForwarders, generateSDPAdvanced, getElem?_map,
    getElem?_mapIdx, Option.map_map]
  cases found : (audioPairs (first :: more) offer.mediaDescriptions)[idx]? with
  | none =>
    have outside := getElem?_eq_none_iff.mp found
    rw [audioPairs_length] at outside
    rw [getElem?_eq_none outside]
    rfl
  | some pair =>
    have inside := (List.getElem?_eq_some_iff.mp found).1
    rw [audioPairs_length] at inside
    rw [getElem?_eq_getElem inside]
    simp [SDPOptions.answerMedia, SDPOptions.linePorts, chosenPort, found]

theorem answers_without_forwarders :
    Answers (generateSDPResponseForForwarders config now (some offer) ipToUse []).mediaDescriptions
      offer.mediaDescriptions [] := by
  have refused : ∀ line ∈ (generateSDPResponseForForwarders config now (some offer) ipToUse
      []).mediaDescriptions, line.accepted = false := by
    intro line mem
    obtain ⟨idx, inside, rfl⟩ := mem_mapIdx.mp mem
    rfl
  refine ⟨answer_lines config now offer ipToUse [], fun k line found => ?_, ?_⟩
  · have := mem_filter.mp (mem_of_getElem? found)
    simp [refused line this.1] at this
  · rw [filter_eq_nil_iff.mpr fun line mem => by simp [refused line mem]]
    exact nodup_nil

end Answer

theorem answerPorts_pos (first : RTPForwarder) (forwarders : List RTPForwarder)
    (lines : List MediaDescription) :
    ∀ port ∈ answerPorts first.localPort forwarders lines, 0 < port := by
  intro port mem
  obtain ⟨pair, -, rfl⟩ := mem_map.mp mem
  unfold chosenPort
  split
  · assumption
  · exact first.localPort_pos

theorem answers_iff_ports {first : RTPForwarder} {more : List RTPForwarder}
    {answer lines : List MediaDescription} (media : answer.map (·.media) = lines.map (·.media))
    (ports : answer.map (·.port) = answerPorts first.localPort (first :: more) lines) :
    Answers answer lines (first :: more) ↔
      (answer.filter (·.isAudio)).length ≤ (first :: more).length ∧
        (answerPorts first.localPort (first :: more) lines).Nodup := by
  have accepted : ∀ line ∈ answer, line.accepted = true := fun line mem =>
    decide_eq_true (answerPorts_pos first (first :: more) lines line.port
      (ports ▸ mem_map_of_mem mem))
  have all : answer.filter (·.accepted) = answer := filter_eq_self.mpr accepted
  have turns := audio_ports first.localPort (first :: more) media ports
  have audio : (answer.filter fun line => line.accepted && line.isAudio) =
      answer.filter (·.isAudio) :=
    filter_congr fun line mem => by rw [accepted line mem, Bool.true_and]
  constructor
  · rintro ⟨-, each, distinct⟩
    rw [all, ports] at distinct
    refine ⟨Nat.le_of_not_lt fun left => ?_, distinct⟩
    rw [audio] at each
    have none := each _ _ (getElem?_eq_getElem left)
    simp at none
  · rintro ⟨enough, distinct⟩
    refine ⟨media, fun k line found => ?_, by rwa [all, ports]⟩
    rw [audio] at found
    rw [Nat.sub_eq_zero_of_le enough, List.replicate_zero, List.append_nil] at turns
    have inside := (List.getElem?_eq_some_iff.mp found).1
    have same := congrArg (·[k]?) turns
    simp only [getElem?_map, found, getElem?_take_of_lt inside] at same
    exact same.symm

theorem answers_iff_enough_forwarders (config : MediaConfig) (now : Nat)
    (offer : SessionDescription) (ipToUse : String) (forwarders : List RTPForwarder) :
    Answers (generateSDPResponseForForwarders config now (some offer) ipToUse
      forwarders).mediaDescriptions offer.mediaDescriptions forwarders ↔
      forwarders = [] ∨ offer.mediaDescriptions.length ≤ 1 ∨
        (∀ m ∈ offer.mediaDescriptions, m.media = "audio") ∧
          offer.mediaDescriptions.length ≤ forwarders.length ∧
          ((forwarders.take offer.mediaDescriptions.length).map (·.localPort)).Nodup := by
  cases forwarders with
  | nil => exact iff_of_true (answers_without_forwarders config now offer ipToUse) (.inl rfl)
  | cons first more =>
    have media := answer_lines config now offer ipToUse (first :: more)
    have ports := answer_ports config now offer ipToUse first more
    have few : ((generateSDPResponseForForwarders config now (some offer) ipToUse
        (first :: more)).mediaDescriptions.filter (·.isAudio)).length ≤
        offer.mediaDescriptions.length := by
      have same := congrArg List.length media
      rw [length_map, length_map] at same
      exact same ▸ length_filter_le _ _
    rw [answers_iff_ports media ports]
    by_cases single : offer.mediaDescriptions.length ≤ 1
    · refine iff_of_true ⟨few.trans (single.trans (Nat.succ_le_succ (Nat.zero_le _))), ?_⟩
        (.inr (.inl single))
      have short :
          (answerPorts first.localPort (first :: more) offer.mediaDescriptions).length ≤ 1 := by
        rwa [answerPorts, length_map, audioPairs_length]
      generalize answerPorts first.localPort (first :: more) offer.mediaDescriptions = ports
        at short
      obtain _ | ⟨port, _ | ⟨other, rest⟩⟩ := ports
      · exact nodup_nil
      · exact pairwise_singleton _ port
      · simp at short
    · rw [answerPorts_nodup_iff first more (Nat.lt_of_not_le single)]
      constructor
      · rintro ⟨-, fine⟩
        exact .inr (.inr fine)
      · rintro (empty | short | fine)
        · cases empty
        · exact absurd short single
        · exact ⟨few.trans fine.2.1, fine⟩

def audioVideoOffer : SessionDescription where
  username := "src"
  sessionID := 1
  sessionVersion := 1
  unicastAddress := "192.0.2.1"
  sessionName := "call"
  connection := some "192.0.2.1"
  timeDescriptions := [⟨0, 0⟩]
  mediaDescriptions :=
    [⟨"audio", 5004, ["RTP/AVP"], ["0"], none, [{ key := "sendonly" }]⟩,
     ⟨"video", 5006, ["RTP/AVP"], ["96"], none, [{ key := "sendonly" }]⟩]
  attributes := []

/-- The video line of the answer is accepted on the port of the audio line. -/
theorem video_shares_audio_port :
    ¬Answers
      (generateSDPResponseForForwarders ⟨false, "", "", false⟩ 0 (some audioVideoOffer) "192.0.2.2"
        [{ localPort := 10000, rtcpPort := 10001, localPort_pos := by decide }]).mediaDescriptions
      audioVideoOffer.mediaDescriptions
      [{ localPort := 10000, rtcpPort := 10001, localPort_pos := by decide }] :=
  fun answers => absurd answers.distinct (by decide)

end SiprecServer.Sip.Sdp
