import SiprecServer.Lib.FileSystem
import SiprecServer.Pii.Detector

/-!
# What listeners learn of a redacted transcription

`PIITranscriptionFilter` hands every wrapped listener the redacted text and a copy of the
metadata.  If something was redacted, the metadata carry the number and the types of the
matches, and the original text for the bridge that marks the audio.
-/

namespace SiprecServer.Stt

open Lib.FileSystem Pii List

variable {α L : Type}

/-! ## Transcriptions and the filter -/

inductive Value (α : Type) where
  | bool (value : Bool)
  | int (value : Nat)
  | strings (values : List String)
  | text (value : Text)
  | other (value : α)
deriving DecidableEq

@[ext]
structure Transcription (α : Type) where
  callUUID : String
  text : Text
  isFinal : Bool
  metadata : Option (Store String (Value α))

structure PIITranscriptionFilter (L : Type) where
  detector : Option PIIDetector
  listeners : List L
  enabled : Bool

def foundTypes (found : List PIIMatch) : List PIIType :=
  [.ssn, .creditCard, .phone, .email].filter fun type => type ∈ found.map (·.type)

section

variable (order : List PIIType → List PIIType)

def extractPIITypes (found : List PIIMatch) : List String :=
  (order (foundTypes found)).map PIIType.name

def piiMetadata (result : PIIDetectionResult)
    (transcription : Transcription α) : Store String (Value α) :=
  writeAll (transcription.metadata.getD empty)
    [("pii_detected", .bool true), ("pii_matches", .int result.found.length),
      ("pii_types", .strings (extractPIITypes order result.found)),
      ("original_transcription", .text transcription.text)]

def redacted (result : PIIDetectionResult) (transcription : Transcription α) : Transcription α :=
  { transcription with
    text := result.redactedText
    metadata :=
      if result.hasPII then some (piiMetadata order result transcription)
      else transcription.metadata }

/-- What each listener receives; none if detection runs out of range. -/
def onTranscription (filter : PIITranscriptionFilter L)
    (transcription : Transcription α) : Option (List (L × Transcription α)) :=
  if transcription.text = [] then some []
  else
    match filter.enabled, filter.detector with
    | true, some detector => do
        let result ← detectAndRedact detector transcription.text
        some (filter.listeners.map fun listener =>
          (listener, redacted order result transcription))
    | _, _ => some (filter.listeners.map fun listener => (listener, transcription))

end

structure Message (α : Type) where
  callUUID : String
  transcription : Text
  isFinal : Bool
  timestamp : Nat
  metadata : Option (Store String (Value α))

def broadcast (now : Nat) (received : Transcription α) : Message α :=
  { callUUID := received.callUUID
    transcription := received.text
    isFinal := received.isFinal
    timestamp := now
    metadata := received.metadata }

/-- Both texts are redacted to the same, with as many matches of the same types. -/
def redactAlike (detector : PIIDetector) (first second : Text) : Bool :=
  match detectAndRedact detector first, detectAndRedact detector second with
  | some one, some two =>
    one.redactedText = two.redactedText && one.found.length = two.found.length &&
      foundTypes one.found = foundTypes two.found
  | _, _ => false

structure RedactedAlike (detector : PIIDetector) (first second : Transcription α) : Prop where
  callUUID : first.callUUID = second.callUUID
  isFinal : first.isFinal = second.isFinal
  metadata : first.metadata = second.metadata
  text : redactAlike detector first.text second.text

def received (marksAudio : L → Bool) (deliveries : List (L × Transcription α)) :
    List (L × Transcription α) :=
  deliveries.filter fun delivery => !marksAudio delivery.1

section Runs

variable {order : List PIIType → List PIIType} {filter : PIITranscriptionFilter L}
  {detector : PIIDetector} {first second transcription : Transcription α}
  {one two result : PIIDetectionResult} {marksAudio : L → Bool}

theorem onTranscription_received (isEnabled : filter.enabled = true)
    (isDetector : filter.detector = some detector)
    (detected : detectAndRedact detector transcription.text = some result) :
    (onTranscription order filter transcription).map (received marksAudio) =
      some (if transcription.text = [] then [] else
        (filter.listeners.filter fun listener => !marksAudio listener).map fun listener =>
          (listener, redacted order result transcription)) := by
  unfold onTranscription
  split
  case isTrue => rfl
  case isFalse =>
    simp only [isEnabled, isDetector, detected, Option.bind_eq_bind, Option.bind_some,
      Option.map_some, received, filter_map]
    rfl

theorem hasPII_iff : result.hasPII ↔ result.found ≠ [] := decide_eq_true_iff

theorem original_of_hasPII (hasPII : result.hasPII) :
    (redacted order result transcription).metadata.bind (· "original_transcription") =
      some (.text transcription.text) := by
  unfold redacted
  rw [if_pos hasPII]
  exact writeAll_of_mem (by simp) (by simp)

theorem text_of_redacted (detectedOne : detectAndRedact detector first.text = some one)
    (detectedTwo : detectAndRedact detector second.text = some two)
    (sameText : one.redactedText = two.redactedText)
    (sameCount : one.found.length = two.found.length)
    (same : redacted order one first = redacted order two second) : first.text = second.text := by
  by_cases noneOne : one.found = []
  · have noneTwo : two.found = [] :=
      eq_nil_of_length_eq_zero (by rw [← sameCount, noneOne, length_nil])
    rw [← detectAndRedact_untouched detectedOne noneOne, sameText,
      detectAndRedact_untouched detectedTwo noneTwo]
  · have someTwo : two.found ≠ [] := by
      rw [← length_pos_iff, ← sameCount]
      exact length_pos_iff.mpr noneOne
    have original : (redacted order one first).metadata.bind _ = some (Value.text first.text) :=
      original_of_hasPII (hasPII_iff.mpr noneOne)
    rw [same, original_of_hasPII (hasPII_iff.mpr someTwo)] at original
    exact (Value.text.inj (Option.some.inj original)).symm

end Runs

/-- Listeners other than the bridge receive the same of two transcriptions that are redacted
alike exactly if the transcriptions are the same, or there are no such listeners. -/
theorem redacted_indistinguishable_iff (order : List PIIType → List PIIType)
    (filter : PIITranscriptionFilter L) (detector : PIIDetector) (marksAudio : L → Bool)
    (first second : Transcription α) (isEnabled : filter.enabled = true)
    (isDetector : filter.detector = some detector) (alike : RedactedAlike detector first second) :
    (onTranscription order filter first).map (received marksAudio) =
        (onTranscription order filter second).map (received marksAudio) ↔
      first.text = second.text ∨ ∀ listener ∈ filter.listeners, marksAudio listener := by
  have sameRedaction := alike.text
  unfold redactAlike at sameRedaction
  split at sameRedaction
  case h_2 => cases sameRedaction
  rename_i one two detectedOne detectedTwo
  simp only [Bool.and_eq_true, decide_eq_true_eq] at sameRedaction
  obtain ⟨⟨sameText, sameCount⟩, -⟩ := sameRedaction
  rw [onTranscription_received isEnabled isDetector detectedOne,
    onTranscription_received isEnabled isDetector detectedTwo, Option.some.injEq]
  constructor
  · intro same
    cases others : filter.listeners.filter fun listener => !marksAudio listener with
    | nil =>
      right
      intro listener member
      simpa using filter_eq_nil_iff.mp others listener member
    | cons listener rest =>
      left
      rw [others] at same
      split at same <;> split at same
      case isTrue.isTrue emptyOne emptyTwo => rw [emptyOne, emptyTwo]
      case isTrue.isFalse => cases same
      case isFalse.isTrue => cases same
      case isFalse.isFalse =>
        have sameHanded := congrArg Prod.snd (List.cons.inj same).1
        exact text_of_redacted detectedOne detectedTwo sameText sameCount sameHanded
  · rintro (sameOriginal | allMark)
    · have equal : first = second :=
        Transcription.ext alike.callUUID sameOriginal alike.isFinal alike.metadata
      rw [equal, detectedTwo] at detectedOne
      cases detectedOne
      rw [equal]
    · have none_ : (filter.listeners.filter fun listener => !marksAudio listener) = [] :=
        filter_eq_nil_iff.mpr fun listener member => by simp [allMark listener member]
      rw [none_, map_nil, map_nil, ite_self, ite_self]

inductive Listener where
  | webSocketBridge | piiAudioBridge
deriving DecidableEq

def Listener.marksAudio : Listener → Bool
  | .webSocketBridge => false
  | .piiAudioBridge => true

def filterFor (listeners : List Listener) : PIITranscriptionFilter Listener :=
  { detector := some (newPIIDetector {}), listeners, enabled := true }

def heard (text : String) : Transcription Empty :=
  { callUUID := "call", text := ascii text, isFinal := true, metadata := none }

def heardBy (listeners : List Listener) (text : String) :
    Option (List (Listener × Transcription Empty)) :=
  (onTranscription id (filterFor listeners) (heard text)).map (received Listener.marksAudio)

/-- The two numbers cannot be told apart where the audio bridge is the only listener. -/
theorem numbers_indistinguishable :
    RedactedAlike (newPIIDetector {}) (heard "223-45-6788") (heard "224-45-6788") ∧
    heardBy [.piiAudioBridge] "223-45-6788" = heardBy [.piiAudioBridge] "224-45-6788" := by
  have alike : RedactedAlike (newPIIDetector {}) (heard "223-45-6788") (heard "224-45-6788") :=
    ⟨rfl, rfl, rfl, by decide⟩
  refine ⟨alike, (redacted_indistinguishable_iff id (filterFor [.piiAudioBridge])
    (newPIIDetector {}) Listener.marksAudio _ _ rfl rfl alike).mpr (.inr ?_)⟩
  decide

def broadcastOriginal (deliveries : Option (List (Listener × Transcription Empty))) :
    Option (Value Empty) := do
  let delivery ← (← deliveries).head?
  let metadata ← (broadcast 0 delivery.2).metadata
  metadata "original_transcription"

/-- WebSocket clients are sent the digits that are hidden in the text. -/
theorem original_broadcast :
    RedactedAlike (newPIIDetector {}) (heard "223-45-6788") (heard "224-45-6788") ∧
    broadcastOriginal (heardBy [.webSocketBridge] "223-45-6788") =
      some (.text (ascii "223-45-6788")) ∧
    broadcastOriginal (heardBy [.webSocketBridge] "224-45-6788") =
      some (.text (ascii "224-45-6788")) ∧
    heardBy [.webSocketBridge] "223-45-6788" ≠ heardBy [.webSocketBridge] "224-45-6788" := by
  have one : broadcastOriginal (heardBy [.webSocketBridge] "223-45-6788") =
      some (.text (ascii "223-45-6788")) := by decide
  have two : broadcastOriginal (heardBy [.webSocketBridge] "224-45-6788") =
      some (.text (ascii "224-45-6788")) := by decide
  refine ⟨⟨rfl, rfl, rfl, by decide⟩, one, two, ?_⟩
  intro same
  rw [same, two] at one
  exact absurd one (by decide)

end SiprecServer.Stt
