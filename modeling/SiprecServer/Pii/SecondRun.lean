import SiprecServer.Pii.Detector

/-!
# The detector on its own output

A second run reads the redacted text as the first one read the text.  A number takes at least nine
digits and leaves at least five fewer, so it finds nothing more in a text of few digits; but the
end of a redacted address is an address again.
-/

namespace SiprecServer.Pii

open Lib.Patterns List

def PIIDetector.Settled (d : PIIDetector) (text : Text) : Prop :=
  ∃ result, detectAndRedact d text = some result ∧ result.found = [] ∧ result.redactedText = text

variable {config : Config} {type : PIIType} {text old : Text} {result : PIIDetectionResult}

/-! ## What a redaction leaves -/

theorem replaceFirst_split (occurs : old <:+: text) (new : Text) : ∃ front back,
    text = front ++ (old ++ back) ∧ replaceFirst old new text = front ++ (new ++ back) := by
  induction text with
  | nil =>
    rw [infix_nil.mp occurs]
    exact ⟨[], [], rfl, by simp [replaceFirst]⟩
  | cons b rest ih =>
    unfold replaceFirst
    split
    case isTrue here =>
      obtain ⟨back, whole⟩ := isPrefixOf_iff_prefix.mp here
      exact ⟨[], back, whole.symm, by rw [← whole, drop_left]; rfl⟩
    case isFalse elsewhere =>
      have inRest := (infix_cons_iff.mp occurs).resolve_left <|
        isPrefixOf_iff_prefix.not.mp elsewhere
      obtain ⟨front, back, whole, replaced⟩ := ih inRest
      exact ⟨b :: front, back, by rw [cons_append, ← whole], by rw [cons_append, ← replaced]⟩

theorem countP_hideDigits {redactionChar : Text} (digitless : redactionChar.countP isDigit = 0)
    (hidden digitCount : Nat) (text : Text) :
    (hideDigits redactionChar hidden digitCount text).countP isDigit =
      text.countP isDigit - (hidden - digitCount) := by
  induction text generalizing digitCount with
  | nil => simp [hideDigits]
  | cons b rest ih =>
    unfold hideDigits
    split
    case isTrue digit =>
      rw [countP_append, ih, countP_cons_of_pos digit]
      split
      · rw [countP_cons_of_pos digit, countP_nil]
        omega
      · rw [digitless]
        omega
    case isFalse other => rw [countP_cons_of_neg other, ih, countP_cons_of_neg other]

theorem mem_hideDigits {redactionChar : Text} {hidden digitCount : Nat} {b : UInt8}
    (mem : b ∈ hideDigits redactionChar hidden digitCount text) : b ∈ text ++ redactionChar := by
  induction text generalizing digitCount with
  | nil => cases mem
  | cons a rest ih =>
    unfold hideDigits at mem
    grind

section

variable {d : PIIDetector} (type_ne : type ≠ .email)

include type_ne

theorem countP_redact (digitless : d.redactionChar.countP isDigit = 0)
    (enough : 9 ≤ old.countP isDigit) :
    (d.redact type old).countP isDigit + 5 ≤ old.countP isDigit := by
  cases type with
  | email => exact absurd rfl type_ne
  | ssn | creditCard | phone =>
    simp only [PIIDetector.redact, PIIDetector.redactSSN, PIIDetector.redactCreditCard,
      PIIDetector.redactPhone]
    split
    · rw [countP_hideDigits digitless]
      omega
    · refine Nat.le_trans ?_ enough
      decide

theorem at_redact (noAt : 64 ∉ old ++ d.redactionChar) : 64 ∉ d.redact type old := by
  cases type with
  | email => exact absurd rfl type_ne
  | ssn | creditCard | phone =>
    simp only [PIIDetector.redact, PIIDetector.redactSSN, PIIDetector.redactCreditCard,
      PIIDetector.redactPhone]
    split
    · exact fun mem => noAt (mem_hideDigits mem)
    · decide

end

/-! ## Few digits -/

theorem least_digits (type_ne : type ≠ .email) : 9 ≤ least bytes isDigit (regex type) := by
  cases type with
  | email => exact absurd rfl type_ne
  | ssn | creditCard | phone => decide +kernel

/-- No address, and too few digits for a number. -/
def Bare (text : Text) : Prop := 64 ∉ text ∧ text.countP isDigit ≤ 8

theorem findAll_at (noAt : 64 ∉ text) : findAll emailRegex text = [] := by
  have spec := (findAll_spec (· = 64) mem_bytes emailRegex text).1
  have one : least bytes (· = 64) emailRegex = 1 := by decide +kernel
  have none_ : text.countP (· = 64) = 0 := by
    refine countP_eq_zero.mpr fun b mem isAt => noAt ?_
    rwa [← of_decide_eq_true isAt]
  rw [one, none_] at spec
  exact eq_nil_of_length_eq_zero (by omega)

theorem findAll_length (type_ne : type ≠ .email) (text : Text) :
    (findAll (regex type) text).length * 9 ≤ text.countP isDigit :=
  Nat.le_trans (Nat.mul_le_mul_left _ (least_digits type_ne))
    (findAll_spec isDigit mem_bytes (regex type) text).1

theorem Bare.findAll_eq (bare : Bare text) (type : PIIType) : findAll (regex type) text = [] := by
  by_cases isEmail : type = .email
  · rw [isEmail]
    exact findAll_at bare.1
  · have few := findAll_length isEmail text
    have most := bare.2
    exact eq_nil_of_length_eq_zero (by omega)

theorem stage_of_no_place (nothing : findAll (regex type) result.redactedText = []) :
    ifEnabled (newPIIDetector config) type (detectType (newPIIDetector config) type) result =
      some result := by
  unfold ifEnabled detectType
  split
  · rw [show (newPIIDetector config).findAll type result.redactedText = [] from nothing]
    rfl
  · rfl

theorem Bare.settled (bare : Bare text) : (newPIIDetector config).Settled text := by
  obtain ⟨result, returned, rfl⟩ := detectAndRedact_returns (d := newPIIDetector config)
    (P := fun _ result => result = ⟨text, text, []⟩)
    (fun type later result _ same =>
      ⟨result, stage_of_no_place (same ▸ bare.findAll_eq type), same⟩)
    rfl
  exact ⟨_, returned, rfl, rfl⟩

/-- Nothing has been found, or what is left is bare. -/
def Sparse (text : Text) (result : PIIDetectionResult) : Prop :=
  result = ⟨text, text, []⟩ ∨ Bare result.redactedText

section

variable (digitless : config.redactionChar.countP isDigit = 0)
  (noAt : 64 ∉ text ++ config.redactionChar) (few : text.countP isDigit ≤ 13)

include digitless noAt few

theorem bare_replaced (type_ne : type ≠ .email) (isPart : old <:+: text)
    (enough : 9 ≤ old.countP isDigit) :
    Bare (replaceFirst old ((newPIIDetector config).redact type old) text) := by
  have fewer := countP_redact (d := newPIIDetector config) type_ne digitless enough
  obtain ⟨front, back, rfl, replaced⟩ :=
    replaceFirst_split isPart ((newPIIDetector config).redact type old)
  simp only [mem_append, not_or] at noAt
  obtain ⟨⟨atFront, atOld, atBack⟩, atChar⟩ := noAt
  have noMore := at_redact (d := newPIIDetector config) type_ne (not_mem_append atOld atChar)
  rw [replaced]
  refine ⟨not_mem_append atFront (not_mem_append noMore atBack), ?_⟩
  simp only [countP_append] at few ⊢
  omega

theorem detectType_sparse (type_ne : type ≠ .email) :
    ∃ after, detectType (newPIIDetector config) type ⟨text, text, []⟩ = some after ∧
      Sparse text after := by
  have most := findAll_length type_ne text
  let P (places : List (Nat × Nat)) (after : PIIDetectionResult) : Prop :=
    places.length ≤ 1 ∧ (∀ indices ∈ places, indices ∈ findAll (regex type) text) ∧
      (places = [] ∧ Bare after.redactedText ∨ after = ⟨text, text, []⟩)
  have start : P (findAll (regex type) text) ⟨text, text, []⟩ :=
    ⟨by omega, fun _ mem => mem, .inr rfl⟩
  refine (detectMatches_returns (P := P) ?_ start).imp fun after done =>
    ⟨done.1, done.2.2.2.elim (fun found => .inr found.2) .inl⟩
  rintro indices rest _ ⟨single, found, ⟨none_, -⟩ | rfl⟩
  · cases none_
  have last : rest = [] := eq_nil_of_length_eq_zero (by simpa using single)
  have here := found indices (.head _)
  obtain ⟨ordered, inside, takes⟩ := (findAll_spec isDigit mem_bytes _ text).2 indices here
  obtain ⟨context, isContext⟩ := getContext_returns ordered (Nat.le_trans ordered inside)
  have isPart : slice text indices <:+: text :=
    ( take_prefix _ _).isInfix.trans (drop_suffix _ _).isInfix
  have bare := bare_replaced digitless noAt few type_ne isPart
    (Nat.le_trans (least_digits type_ne) takes)
  rw [last]
  split
  · exact ⟨context, isContext, Nat.zero_le _, by simp, .inl ⟨rfl, bare⟩⟩
  · exact ⟨Nat.zero_le _, by simp, .inr rfl⟩

theorem stage_sparse (result : PIIDetectionResult) (sparse : Sparse text result) :
    ∃ after, ifEnabled (newPIIDetector config) type (detectType (newPIIDetector config) type)
      result = some after ∧ Sparse text after := by
  rcases sparse with rfl | bare
  · unfold ifEnabled
    split
    case isFalse => exact ⟨_, rfl, .inl rfl⟩
    case isTrue =>
      by_cases isEmail : type = .email
      · have nothing := findAll_at fun mem => noAt (mem_append_left _ mem)
        refine ⟨⟨text, text, []⟩, ?_, .inl rfl⟩
        unfold detectType
        rw [isEmail, show (newPIIDetector config).findAll .email text = [] from nothing]
        rfl
      · exact detectType_sparse digitless noAt few isEmail
  · exact ⟨result, stage_of_no_place (bare.findAll_eq type), .inr bare⟩

end

def hashes : Config := { redactionChar := ascii "##", enabledTypes := [.ssn, .phone, .email] }

end SiprecServer.Pii
