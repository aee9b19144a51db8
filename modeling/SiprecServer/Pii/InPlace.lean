import SiprecServer.Lib.Splice
import SiprecServer.Pii.Detector

/-!
# Matches and what is redacted

A match is reported with its place in the text that its pattern was matched against, which is
the original text only until something has been redacted.  What is redacted is the first
occurrence of the matched text, wherever that is.
-/

namespace SiprecServer.Pii

open Lib.Splice List

def PIIMatch.edit (m : PIIMatch) : Edit UInt8 :=
  { start := m.start, stop := m.stop, inserted := m.redacted }

/-- The interval of the match is one of the text and holds what was matched. -/
structure PIIMatch.Within (m : PIIMatch) (text : Text) : Prop where
  nonempty : m.start < m.stop
  inside : m.stop ≤ text.length
  slice : (text.drop m.start).take (m.stop - m.start) = m.original

/-- The reported matches are disjoint intervals of the original text, and the redacted text is
the original with these intervals replaced and nothing else changed. -/
structure PIIDetectionResult.Faithful (result : PIIDetectionResult) : Prop where
  within : ∀ m ∈ result.found, m.Within result.originalText
  disjoint : result.found.Pairwise fun m other => m.edit.Apart other.edit
  spliced : result.redactedText = splice (result.found.map PIIMatch.edit) result.originalText

/-- The edits that redact the valid matches of a type in a text at their places. -/
def PIIDetector.editsAt (d : PIIDetector) (type : PIIType) (text : Text)
    (places : List (Nat × Nat)) : List (Edit UInt8) :=
  (places.filter fun indices => isValid type (slice text indices)).map fun indices =>
    { start := indices.1, stop := indices.2, inserted := d.redact type (slice text indices) }

def PIIDetector.edits (d : PIIDetector) (type : PIIType) (text : Text) : List (Edit UInt8) :=
  d.editsAt type text (d.findAll type text)

/-- What the text has before the edit once the earlier ones are made, and after it. -/
def leftBefore (text : Text) (earlier : List (Edit UInt8)) (edit : Edit UInt8) : Text :=
  spliceFrom earlier 0 (text.take edit.start)

def leftAfter (text : Text) (earlier : List (Edit UInt8)) (edit : Edit UInt8) : Text :=
  spliceFrom earlier edit.stop (text.drop edit.stop)

/-- A further edit of the text is apart from the earlier ones, and what it replaces does not occur
any earlier in the text with those made. -/
structure InPlace (text : Text) (earlier : List (Edit UInt8)) (edit : Edit UInt8) : Prop where
  nonempty : edit.start < edit.stop
  inside : edit.stop ≤ text.length
  apart : ∀ other ∈ earlier, other.Apart edit
  first : ∀ k < (leftBefore text earlier edit).length,
    ¬ slice text (edit.start, edit.stop) <+: (leftBefore text earlier edit ++
      (slice text (edit.start, edit.stop) ++ leftAfter text earlier edit)).drop k

instance (text : Text) (earlier : List (Edit UInt8)) (edit : Edit UInt8) :
    Decidable (InPlace text earlier edit) :=
  decidable_of_iff (edit.start < edit.stop ∧ edit.stop ≤ text.length ∧
      (∀ other ∈ earlier, other.stop ≤ edit.start ∨ edit.stop ≤ other.start) ∧ _)
    ⟨fun ⟨nonempty, inside, apart, first⟩ => ⟨nonempty, inside, apart, first⟩,
      fun ⟨nonempty, inside, apart, first⟩ => ⟨nonempty, inside, apart, first⟩⟩

variable {m : PIIMatch} {text : Text} {result : PIIDetectionResult} {d : PIIDetector}
  {type : PIIType}

theorem replaceFirst_at {old new front rest : Text} (nonempty : old ≠ [])
    (first : ∀ k < front.length, ¬ old <+: (front ++ (old ++ rest)).drop k) :
    replaceFirst old new (front ++ (old ++ rest)) = front ++ (new ++ rest) := by
  induction front with
  | nil =>
    obtain ⟨b, old, rfl⟩ := exists_cons_of_ne_nil nonempty
    simp [replaceFirst]
  | cons b front ih =>
    have here := first 0 (Nat.zero_lt_succ _)
    have elsewhere : old.isPrefixOf (b :: (front ++ (old ++ rest))) = false := by
      rw [Bool.eq_false_iff, Ne, isPrefixOf_iff_prefix]
      exact here
    rw [cons_append, replaceFirst, elsewhere, cons_append]
    refine congrArg (b :: ·) (ih fun k before => ?_)
    exact first (k + 1) (Nat.succ_lt_succ before)

theorem PIIMatch.Within.split (within : m.Within text) :
    text = text.take m.start ++ (m.original ++ text.drop m.stop) ∧
      m.start = (text.take m.start).length ∧
      m.stop = (text.take m.start).length + m.original.length := by
  obtain ⟨nonempty, inside, slice⟩ := within
  have front : (text.take m.start).length = m.start := by
    rw [length_take]
    omega
  have width : m.original.length = m.stop - m.start := by
    rw [← slice, length_take, length_drop]
    omega
  have rest : text.drop m.stop = (text.drop m.start).drop (m.stop - m.start) := by
    rw [drop_drop]
    congr 1
    omega
  refine ⟨?_, front.symm, by omega⟩
  rw [rest, ← slice, take_append_drop, take_append_drop]

theorem splice_match {earlier : List (Edit UInt8)} (within : m.Within text)
    (proper : ∀ other ∈ earlier, other.start < other.stop)
    (apart : ∀ other ∈ earlier, other.Apart m.edit) :
    splice earlier text =
        leftBefore text earlier m.edit ++ (m.original ++ leftAfter text earlier m.edit) ∧
      splice (earlier ++ [m.edit]) text =
        leftBefore text earlier m.edit ++ (m.redacted ++ leftAfter text earlier m.edit) := by
  obtain ⟨whole, start, stop⟩ := within.split
  have spliced := @splice_concat _ _ m.edit proper apart _ _ (text.drop m.stop) start stop
    within.nonempty
  rwa [← whole] at spliced

/-- A further match that is in place keeps the result faithful. -/
theorem PIIDetectionResult.Faithful.report {indices : Nat × Nat} {context : Text}
    (faithful : result.Faithful)
    (inPlace : InPlace result.originalText (result.found.map PIIMatch.edit)
      (matchAt d type result.originalText indices context).edit) :
    (result.report (matchAt d type result.originalText indices context)).Faithful := by
  obtain ⟨others, disjoint, spliced⟩ := faithful
  obtain ⟨nonempty, inside, apart, first⟩ := inPlace
  set m := matchAt d type result.originalText indices context
  have within : m.Within result.originalText := ⟨nonempty, inside, rfl⟩
  have proper : ∀ edit ∈ result.found.map PIIMatch.edit, edit.start < edit.stop := by
    intro edit mem
    obtain ⟨other, listed, rfl⟩ := mem_map.mp mem
    exact (others other listed).nonempty
  obtain ⟨before, after⟩ := splice_match within proper apart
  refine ⟨?_, ?_, ?_⟩
  · intro other listed
    obtain listed | same := mem_append.mp listed
    · exact others other listed
    · rw [mem_singleton.mp same]
      exact within
  · refine pairwise_append.mpr ⟨disjoint, pairwise_singleton _ _, ?_⟩
    intro other listed last same
    rw [mem_singleton.mp same]
    exact apart _ (mem_map_of_mem listed)
  · show replaceFirst m.original m.redacted result.redactedText = _
    have hasText : m.original ≠ [] := by
      intro none_
      obtain ⟨-, start, stop⟩ := within.split
      have less := within.nonempty
      rw [none_, length_nil] at stop
      omega
    rw [spliced, before, replaceFirst_at hasText first, ← after, ← map_singleton, ← map_append]
    rfl

/-- No match of the type in the text is valid. -/
def PIIDetector.Quiet (d : PIIDetector) (type : PIIType) (text : Text) : Prop :=
  ∀ indices ∈ d.findAll type text, ¬ isValid type (slice text indices)

theorem PIIDetector.Quiet.unchanged (quiet : d.Quiet type result.redactedText) :
    detectType d type result = some result := by
  obtain ⟨after, returned, -, rfl⟩ := detectMatches_returns (d := d)
    (P := fun places after =>
      (∀ indices ∈ places, ¬ isValid type (slice result.redactedText indices)) ∧ after = result)
    (by
      rintro indices rest middle ⟨invalid, same⟩
      rw [if_neg (invalid indices (.head _))]
      exact ⟨fun other later => invalid other (.tail _ later), same⟩)
    ⟨quiet, rfl⟩
  exact returned

theorem editsAt_cons (indices : Nat × Nat) (rest : List (Nat × Nat)) :
    d.editsAt type text (indices :: rest) = if isValid type (slice text indices) then
      (matchAt d type text indices []).edit :: d.editsAt type text rest
    else d.editsAt type text rest := by
  unfold PIIDetector.editsAt
  rw [filter_cons]
  split
  · rfl
  · rfl

section

variable (inPlace : ∀ k (inList : k < (d.edits type text).length),
    InPlace text ((d.edits type text).take k) (d.edits type text)[k])

include inPlace

theorem detectType_faithful :
    ∃ after, detectType d type ⟨text, text, []⟩ = some after ∧ after.originalText = text ∧
      after.Faithful ∧ after.found.map PIIMatch.edit = d.edits type text := by
  let P (places : List (Nat × Nat)) (after : PIIDetectionResult) : Prop :=
    after.originalText = text ∧ after.Faithful ∧
      after.found.map PIIMatch.edit ++ d.editsAt type text places = d.edits type text
  have start : P (d.findAll type text) ⟨text, text, []⟩ :=
    ⟨rfl, ⟨by simp, .nil, by simp [splice, spliceFrom_outside]⟩, rfl⟩
  refine (detectMatches_returns (P := P) ?_ start).imp fun after done =>
    ⟨done.1, done.2.1, done.2.2.1, by simpa [PIIDetector.editsAt] using done.2.2.2⟩
  rintro indices rest middle ⟨rfl, faithful, edits⟩
  rw [editsAt_cons] at edits
  dsimp only
  split
  case isTrue valid =>
    rw [if_pos valid] at edits
    have here := inPlace (middle.found.map PIIMatch.edit).length (by simp [← edits])
    simp only [← edits, take_left, getElem_append_right (Nat.le_refl _), Nat.sub_self,
      getElem_cons_zero] at here
    obtain ⟨context, found⟩ := getContext_returns (Nat.le_of_lt here.nonempty)
      (Nat.le_trans (Nat.le_of_lt here.nonempty) here.inside)
    refine ⟨context, found, rfl, faithful.report here, ?_⟩
    rw [← edits, PIIDetectionResult.report, map_append, append_assoc]
    rfl
  case isFalse invalid =>
    rw [if_neg invalid] at edits
    exact ⟨rfl, faithful, edits⟩

end

end SiprecServer.Pii
