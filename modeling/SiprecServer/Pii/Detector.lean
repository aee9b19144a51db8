import SiprecServer.Lib.Patterns

/-!
# Detection and redaction of PII

`DetectAndRedact` runs the detectors of the enabled types one after another, each on what
the ones before have left of the text.  A detector looks for its pattern once and then
replaces, match by match, the first occurrence of the matched text.  Texts are bytes; the
patterns match ASCII only.
-/

namespace SiprecServer.Pii

open Lib.Patterns

abbrev Text := List UInt8

def ascii (text : String) : Text := text.toList.map fun c => UInt8.ofNat c.toNat

inductive PIIType where
  | ssn | creditCard | phone | email
deriving DecidableEq

def PIIType.name : PIIType → String
  | .ssn => "ssn"
  | .creditCard => "credit_card"
  | .phone => "phone"
  | .email => "email"

structure PIIMatch where
  type : PIIType
  original : Text
  redacted : Text
  start : Nat
  stop : Nat
  context : Text
deriving DecidableEq

structure PIIDetectionResult where
  originalText : Text
  redactedText : Text
  found : List PIIMatch
deriving DecidableEq

def PIIDetectionResult.hasPII (result : PIIDetectionResult) : Bool := result.found ≠ []

/-- A detector; `findAll` tells where the pattern of a type matches. -/
structure PIIDetector where
  enabledTypes : PIIType → Bool
  redactionChar : Text
  preserveFormat : Bool
  findAll : PIIType → Text → List (Nat × Nat)

/-! ## Patterns -/

def isDigit (b : UInt8) : Bool := 48 ≤ b.toNat && b.toNat ≤ 57

def isLetter (b : UInt8) : Bool :=
  (65 ≤ b.toNat && b.toNat ≤ 90) || (97 ≤ b.toNat && b.toNat ≤ 122)

def isWord (b : UInt8) : Bool := isDigit b || isLetter b || b.toNat = 95

def isSpace (b : UInt8) : Bool := b.toNat ∈ [9, 10, 12, 13, 32]

def oneOf (text : String) (b : UInt8) : Bool := b ∈ ascii text

def digits (count : Nat) : Regex UInt8 := .many isDigit count (some count)

def char (text : String) : Regex UInt8 := .symbol (oneOf text)

def sequence (parts : List (Regex UInt8)) (last : Regex UInt8) : Regex UInt8 :=
  parts.foldr .sequence last

def word (parts : List (Regex UInt8)) : Regex UInt8 :=
  .sequence (.boundary isWord) (sequence parts (.boundary isWord))

def separator : Regex UInt8 := .optional (.symbol fun b => oneOf "-" b || isSpace b)

def dottedSeparator : Regex UInt8 := .optional (.symbol fun b => oneOf "-." b || isSpace b)

def ssnRegex : Regex UInt8 := word [digits 3, separator, digits 2, separator, digits 4]

def cardOfFour (first : String) : Regex UInt8 :=
  sequence [char first, digits 3, separator, digits 4, separator, digits 4, separator] (digits 4)

def creditCardRegex : Regex UInt8 :=
  word [.choice (cardOfFour "4") (.choice (cardOfFour "5") (.choice
    (sequence [char "3", digits 3, separator, digits 6, separator] (digits 5)) (cardOfFour "6")))]

def phoneRegex : Regex UInt8 :=
  word [.optional (sequence [.optional (char "+"), char "1"] dottedSeparator),
    .optional (char "("), digits 3, .optional (char ")"), dottedSeparator, digits 3,
    dottedSeparator, digits 4]

def emailRegex : Regex UInt8 :=
  word [.many (fun b => isLetter b || isDigit b || oneOf "._%+-" b) 1 none, char "@",
    .many (fun b => isLetter b || isDigit b || oneOf ".-" b) 1 none, char ".",
    .many (fun b => isLetter b || oneOf "|" b) 2 none]

def regex : PIIType → Regex UInt8
  | .ssn => ssnRegex
  | .creditCard => creditCardRegex
  | .phone => phoneRegex
  | .email => emailRegex

structure Config where
  enabledTypes : List PIIType := [.ssn, .creditCard, .phone, .email]
  redactionChar : Text := ascii "*"
  preserveFormat : Bool := true

def newPIIDetector (config : Config) : PIIDetector :=
  { enabledTypes := (· ∈ config.enabledTypes)
    redactionChar := config.redactionChar
    preserveFormat := config.preserveFormat
    findAll := fun type => findAll (regex type) }

def bytes : List UInt8 := (List.range 256).map UInt8.ofNat

theorem mem_bytes (b : UInt8) : b ∈ bytes :=
  List.mem_map.mpr ⟨b.toNat, List.mem_range.mpr b.toNat_lt, UInt8.ofNat_toNat⟩

theorem newPIIDetector_inside (config : Config) (type : PIIType) (text : Text) :
    ∀ indices ∈ (newPIIDetector config).findAll type text,
      indices.1 ≤ indices.2 ∧ indices.2 ≤ text.length := by
  intro indices found
  obtain ⟨ordered, inside, -⟩ := (findAll_spec isDigit mem_bytes (regex type) text).2 indices found
  exact ⟨ordered, inside⟩

def without (separators : String) (text : Text) : Text := text.filter fun b => !oneOf separators b

def invalidPatterns : List Text :=
  ["000000000", "111111111", "222222222", "333333333", "444444444", "555555555", "666666666",
    "777777777", "888888888", "999999999", "123456789", "987654321"].map ascii

def isValidSSN (ssn : Text) : Bool :=
  let digits := without "- " ssn
  let areaNumber := digits.take 3
  digits.length = 9 && digits ∉ invalidPatterns && areaNumber ≠ ascii "000" &&
    areaNumber ≠ ascii "666" && areaNumber.take 1 ≠ ascii "9" &&
    (digits.drop 3).take 2 ≠ ascii "00" && (digits.drop 5).take 4 ≠ ascii "0000"

/-- The sum of the digits, from the right; every other one is doubled. -/
def luhnSum : Bool → Text → Nat
  | _, [] => 0
  | alternate, b :: rest =>
    let digit := (b - 48).toNat
    let doubled := if 9 < digit * 2 then digit * 2 % 10 + 1 else digit * 2
    (if alternate then doubled else digit) + luhnSum (!alternate) rest

def isValidCreditCard (cardNumber : Text) : Bool :=
  let digits := without "- ." cardNumber
  13 ≤ digits.length && digits.length ≤ 19 &&
    !digits.tail.all (fun b => digits.head? = some b) && luhnSum false digits.reverse % 10 = 0

def isValid : PIIType → Text → Bool
  | .ssn => isValidSSN
  | .creditCard => isValidCreditCard
  | .phone => fun _ => true
  | .email => fun _ => true

def hideDigits (redactionChar : Text) (hidden : Nat) : Nat → Text → Text
  | _, [] => []
  | digitCount, b :: rest =>
    if isDigit b then
      (if hidden < digitCount + 1 then [b] else redactionChar) ++
        hideDigits redactionChar hidden (digitCount + 1) rest
    else b :: hideDigits redactionChar hidden digitCount rest

namespace PIIDetector

variable (d : PIIDetector)

def redactSSN (ssn : Text) : Text :=
  if d.preserveFormat then hideDigits d.redactionChar 5 0 ssn else ascii "[SSN-REDACTED]"

def redactCreditCard (cardNumber : Text) : Text :=
  if d.preserveFormat then
    hideDigits d.redactionChar (cardNumber.countP isDigit - 4) 0 cardNumber
  else ascii "[CARD-REDACTED]"

def redactPhone (phone : Text) : Text :=
  if d.preserveFormat then hideDigits d.redactionChar 6 0 phone else ascii "[PHONE-REDACTED]"

def repeated (count : Nat) : Text := (List.replicate count d.redactionChar).flatten

/-- The domain stays, and the ends of a local part of more than two bytes. -/
def redactEmail (email : Text) : Text :=
  match d.preserveFormat, email.splitOn 64 with
  | true, [localPart, domain] =>
    if localPart.length ≤ 2 then d.repeated localPart.length ++ ascii "@" ++ domain
    else
      localPart.take 1 ++ d.repeated (localPart.length - 2) ++
        localPart.drop (localPart.length - 1) ++ ascii "@" ++ domain
  | _, _ => ascii "[EMAIL-REDACTED]"

def redact : PIIType → Text → Text
  | .ssn => d.redactSSN
  | .creditCard => d.redactCreditCard
  | .phone => d.redactPhone
  | .email => d.redactEmail

end PIIDetector

def contextLength : Nat := 20

/-- The surroundings of a match; none if the slice is out of range. -/
def getContext (text : Text) (start stop : Nat) : Option Text :=
  let contextStart := start - contextLength
  let contextEnd := min (stop + contextLength) text.length
  if contextStart ≤ contextEnd then
    some ((text.drop contextStart).take (contextEnd - contextStart))
  else none

/-- `strings.Replace` of one occurrence. -/
def replaceFirst (old new : Text) : Text → Text
  | [] => if old = [] then new else []
  | b :: rest =>
    if old.isPrefixOf (b :: rest) then new ++ (b :: rest).drop old.length
    else b :: replaceFirst old new rest

section Detect

variable (d : PIIDetector)

/-- One match of a detector; `text` is what the pattern was matched against. -/
def detectMatch (type : PIIType) (text : Text) (result : PIIDetectionResult)
    (indices : Nat × Nat) : Option PIIDetectionResult :=
  let original := (text.drop indices.1).take (indices.2 - indices.1)
  if isValid type original then do
    let redacted := d.redact type original
    let context ← getContext result.originalText indices.1 indices.2
    some { result with
      redactedText := replaceFirst original redacted result.redactedText
      found := result.found ++
        [{ type, original, redacted, start := indices.1, stop := indices.2, context }] }
  else some result

def detectType (type : PIIType) (result : PIIDetectionResult) : Option PIIDetectionResult :=
  (d.findAll type result.redactedText).foldlM (detectMatch d type result.redactedText) result

def detectSSN : PIIDetectionResult → Option PIIDetectionResult := detectType d .ssn

def detectCreditCard : PIIDetectionResult → Option PIIDetectionResult := detectType d .creditCard

def detectPhone : PIIDetectionResult → Option PIIDetectionResult := detectType d .phone

def detectEmail : PIIDetectionResult → Option PIIDetectionResult := detectType d .email

def ifEnabled (type : PIIType) (detect : PIIDetectionResult → Option PIIDetectionResult)
    (result : PIIDetectionResult) : Option PIIDetectionResult :=
  if d.enabledTypes type then detect result else some result

/-- None if a slice is out of range. -/
def detectAndRedact (text : Text) : Option PIIDetectionResult := do
  let result := { originalText := text, redactedText := text, found := [] }
  let result ← ifEnabled d .ssn (detectSSN d) result
  let result ← ifEnabled d .creditCard (detectCreditCard d) result
  let result ← ifEnabled d .phone (detectPhone d) result
  ifEnabled d .email (detectEmail d) result

end Detect

variable {d : PIIDetector} {text : Text} {result after : PIIDetectionResult}

def matchAt (d : PIIDetector) (type : PIIType) (scanned : Text) (indices : Nat × Nat)
    (context : Text) : PIIMatch :=
  let original := (scanned.drop indices.1).take (indices.2 - indices.1)
  { type, original, redacted := d.redact type original, start := indices.1, stop := indices.2,
    context }

def PIIDetectionResult.report (result : PIIDetectionResult) (m : PIIMatch) : PIIDetectionResult :=
  { result with
    redactedText := replaceFirst m.original m.redacted result.redactedText
    found := result.found ++ [m] }

variable {type : PIIType}

theorem detectMatch_cases {scanned : Text} {indices : Nat × Nat}
    (detected : detectMatch d type scanned result indices = some after) :
    after = result ∨ ∃ context, getContext result.originalText indices.1 indices.2 = some context ∧
      isValid type (matchAt d type scanned indices context).original ∧
      after = result.report (matchAt d type scanned indices context) := by
  unfold detectMatch at detected
  dsimp only at detected
  split at detected
  case isTrue valid =>
    obtain ⟨context, found, isAfter⟩ := Option.bind_eq_some_iff.mp detected
    exact .inr ⟨context, found, valid, (Option.some.inj isAfter).symm⟩
  case isFalse => exact .inl (Option.some.inj detected).symm

section Invariant

variable {P : PIIDetectionResult → Prop}
  (step : ∀ {result : PIIDetectionResult} (m : PIIMatch), P result → P (result.report m))

include step

theorem detectMatches_invariant {scanned : Text} {places : List (Nat × Nat)} (holds : P result)
    (detected : places.foldlM (detectMatch d type scanned) result = some after) : P after := by
  induction places generalizing result with
  | nil =>
    cases detected
    exact holds
  | cons indices rest ih =>
    obtain ⟨middle, isMiddle, isAfter⟩ := Option.bind_eq_some_iff.mp detected
    refine ih ?_ isAfter
    obtain rfl | ⟨context, -, -, rfl⟩ := detectMatch_cases isMiddle
    · exact holds
    · exact step _ holds

theorem ifEnabled_invariant (holds : P result)
    (detected : ifEnabled d type (detectType d type) result = some after) : P after := by
  unfold ifEnabled at detected
  split at detected
  case isTrue => exact detectMatches_invariant step holds detected
  case isFalse =>
    cases detected
    exact holds

/-- What holds of the unchanged text and is kept by every reported match holds of the result. -/
theorem detectAndRedact_invariant
    (start : P { originalText := text, redactedText := text, found := [] })
    (detected : detectAndRedact d text = some result) : P result := by
  obtain ⟨first, isFirst, detected⟩ := Option.bind_eq_some_iff.mp detected
  obtain ⟨second, isSecond, detected⟩ := Option.bind_eq_some_iff.mp detected
  obtain ⟨third, isThird, detected⟩ := Option.bind_eq_some_iff.mp detected
  have afterSSN := ifEnabled_invariant step start isFirst
  have afterCard := ifEnabled_invariant step afterSSN isSecond
  have afterPhone := ifEnabled_invariant step afterCard isThird
  exact ifEnabled_invariant step afterPhone detected

end Invariant

def slice (text : Text) (indices : Nat × Nat) : Text :=
  (text.drop indices.1).take (indices.2 - indices.1)

theorem getContext_returns {start stop : Nat} (ordered : start ≤ stop)
    (inside : start ≤ text.length) : ∃ context, getContext text start stop = some context :=
  ⟨_, if_pos (by omega)⟩

/-- What the loop over the matches keeps, told by the matches that are left; it returns if every
context can be cut out. -/
theorem detectMatches_returns {P : List (Nat × Nat) → PIIDetectionResult → Prop} {scanned : Text}
    (step : ∀ indices rest result, P (indices :: rest) result →
      if isValid type (slice scanned indices) then
        ∃ context, getContext result.originalText indices.1 indices.2 = some context ∧
          P rest (result.report (matchAt d type scanned indices context))
      else P rest result)
    {places : List (Nat × Nat)} (holds : P places result) :
    ∃ after, places.foldlM (detectMatch d type scanned) result = some after ∧ P [] after := by
  induction places generalizing result with
  | nil => exact ⟨result, rfl, holds⟩
  | cons indices rest ih =>
    have stepped := step indices rest result holds
    rw [List.foldlM_cons]
    unfold detectMatch
    unfold slice at stepped
    split at stepped
    case isTrue valid =>
      obtain ⟨context, found, kept⟩ := stepped
      simp only [valid, if_true, found]
      exact ih kept
    case isFalse invalid =>
      simp only [invalid]
      exact ih stepped

def order : List PIIType := [.ssn, .creditCard, .phone, .email]

theorem later_types {later : List PIIType} (isSuffix : type :: later <:+ order) :
    type ∉ later ∧ (type = .email → later = []) := by
  simp only [order, List.suffix_cons_iff, List.cons.injEq, List.suffix_nil,
    List.cons_ne_nil, or_false] at isSuffix
  obtain ⟨rfl, rfl⟩ | ⟨rfl, rfl⟩ | ⟨rfl, rfl⟩ | ⟨rfl, rfl⟩ := isSuffix <;> decide

/-- The same for the detectors that are left. -/
theorem detectAndRedact_returns {P : List PIIType → PIIDetectionResult → Prop}
    (stage : ∀ type later result, type :: later <:+ order → P (type :: later) result →
      ∃ after, ifEnabled d type (detectType d type) result = some after ∧ P later after)
    (start : P order { originalText := text, redactedText := text, found := [] }) :
    ∃ result, detectAndRedact d text = some result ∧ P [] result := by
  obtain ⟨first, isFirst, afterSSN⟩ := stage _ _ _ (by decide) start
  obtain ⟨second, isSecond, afterCard⟩ := stage _ _ _ (by decide) afterSSN
  obtain ⟨third, isThird, afterPhone⟩ := stage _ _ _ (by decide) afterCard
  obtain ⟨last, isLast, afterEmail⟩ := stage _ _ _ (by decide) afterPhone
  refine ⟨last, ?_, afterEmail⟩
  refine Option.bind_eq_some_iff.mpr ⟨first, isFirst, ?_⟩
  refine Option.bind_eq_some_iff.mpr ⟨second, isSecond, ?_⟩
  exact Option.bind_eq_some_iff.mpr ⟨third, isThird, isLast⟩

def Untouched (text : Text) (result : PIIDetectionResult) : Prop :=
  result.found = [] → result.redactedText = text

theorem detectAndRedact_untouched (detected : detectAndRedact d text = some result) :
    Untouched text result := by
  refine detectAndRedact_invariant ?_ (fun _ => rfl) detected
  intro earlier m _ none_
  exact absurd none_ (List.append_ne_nil_of_right_ne_nil _ (List.cons_ne_nil _ _))

end SiprecServer.Pii
