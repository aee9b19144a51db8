import SiprecServer.Pii.Detector

/-!
# Contexts out of range

The context of a match is cut out of the original text at a place in the rewritten one.  The cut
fails if redaction has moved the match more than twenty bytes beyond the end of the original.
-/

namespace SiprecServer.Pii

variable {d : PIIDetector} {type : PIIType} {text old new : Text}

theorem length_replaceFirst_le (shorter : new.length ≤ old.length) (text : Text) :
    (replaceFirst old new text).length ≤ text.length := by
  induction text with
  | nil =>
    unfold replaceFirst
    split
    case isTrue nothing => rwa [nothing] at shorter
    case isFalse => exact Nat.le_refl _
  | cons b rest ih =>
    unfold replaceFirst
    split
    case isTrue here =>
      have fits := (List.isPrefixOf_iff_prefix.mp here).length_le
      rw [List.length_append, List.length_drop]
      omega
    case isFalse => exact Nat.succ_le_succ ih

theorem length_hideDigits_le {redactionChar : Text} (short : redactionChar.length ≤ 1)
    (hidden digitCount : Nat) (text : Text) :
    (hideDigits redactionChar hidden digitCount text).length ≤ text.length := by
  induction text generalizing digitCount with
  | nil => exact Nat.le_refl _
  | cons b rest ih =>
    unfold hideDigits
    split
    case isTrue =>
      have one : (if hidden < digitCount + 1 then [b] else redactionChar).length ≤ 1 := by
        split
        · exact Nat.le_refl _
        · exact short
      have further := ih (digitCount + 1)
      rw [List.length_append, List.length_cons]
      omega
    case isFalse => exact Nat.succ_le_succ (ih digitCount)

/-- Redaction keeps the format and puts at most one byte for each digit. -/
def PIIDetector.Short (d : PIIDetector) : Prop := d.preserveFormat ∧ d.redactionChar.length ≤ 1

theorem PIIDetector.Short.redact_le (short : d.Short) (type_ne : type ≠ .email) (original : Text) :
    (d.redact type original).length ≤ original.length := by
  obtain ⟨keeps, one⟩ := short
  cases type with
  | email => exact absurd rfl type_ne
  | ssn | creditCard | phone =>
    simp only [PIIDetector.redact, PIIDetector.redactSSN, PIIDetector.redactCreditCard,
      PIIDetector.redactPhone, keeps, if_true]
    exact length_hideDigits_le one _ _ _

/-- The text has not become longer, unless the detectors to come are disabled. -/
structure PIIDetector.Ready (d : PIIDetector) (text : Text) (later : List PIIType)
    (result : PIIDetectionResult) : Prop where
  original : result.originalText = text
  fits : (∃ type ∈ later, d.enabledTypes type) → result.redactedText.length ≤ text.length

section

variable (inside : ∀ type text, ∀ indices ∈ d.findAll type text,
    indices.1 ≤ indices.2 ∧ indices.2 ≤ text.length)

include inside

theorem detectType_ready {result : PIIDetectionResult} (original : result.originalText = text)
    (fits : result.redactedText.length ≤ text.length) :
    ∃ after, detectType d type result = some after ∧ after.originalText = text ∧
      (d.Short → type ≠ .email → after.redactedText.length ≤ text.length) := by
  let P (places : List (Nat × Nat)) (after : PIIDetectionResult) : Prop :=
    (∀ indices ∈ places, indices ∈ d.findAll type result.redactedText) ∧
      after.originalText = text ∧
      (d.Short → type ≠ .email → after.redactedText.length ≤ text.length)
  have start : P (d.findAll type result.redactedText) result :=
    ⟨fun _ mem => mem, original, fun _ _ => fits⟩
  refine (detectMatches_returns (P := P) ?_ start).imp fun after done => ⟨done.1, done.2.2⟩
  rintro indices rest middle ⟨places, same, shorter⟩
  obtain ⟨here, later⟩ := List.forall_mem_cons.mp places
  obtain ⟨ordered, within⟩ := inside _ _ _ here
  split
  case isTrue =>
    have reached : indices.1 ≤ middle.originalText.length := by
      rw [same]
      omega
    obtain ⟨context, found⟩ := getContext_returns ordered reached
    refine ⟨context, found, later, same, fun short type_ne => ?_⟩
    exact Nat.le_trans (length_replaceFirst_le (short.redact_le type_ne _) _) (shorter short type_ne)
  case isFalse => exact ⟨later, same, shorter⟩

end

def wordy : PIIDetector := newPIIDetector { redactionChar := ascii "[REDACTED]" }

end SiprecServer.Pii
