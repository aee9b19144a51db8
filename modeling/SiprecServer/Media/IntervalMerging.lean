import SiprecServer.Lib.ExchangeSort
import SiprecServer.Media.PiiAudioProcessor

/-!
# Merged redaction intervals

Close to the largest duration the second added to the end of an interval wraps around, and an
interval that overlaps it is kept apart.
-/

namespace SiprecServer.Media

open Lib List

def RedactionInterval.Valid (interval : RedactionInterval) : Prop :=
  -2 ^ 63 ≤ interval.startOffset ∧ interval.startOffset ≤ interval.endOffset ∧
    interval.endOffset < 2 ^ 63

def Covered (intervals : List RedactionInterval) (time : Int) : Prop :=
  ∃ interval ∈ intervals, interval.startOffset ≤ time ∧ time ≤ interval.endOffset

def Bridged (intervals : List RedactionInterval) (time : Int) : Prop :=
  ∃ earlier ∈ intervals, ∃ later ∈ intervals, earlier.endOffset < time ∧
    time < later.startOffset ∧ later.startOffset ≤ earlier.endOffset + second

def Apart (earlier later : RedactionInterval) : Prop :=
  earlier.startOffset ≤ later.startOffset ∧ earlier.endOffset + second < later.startOffset

structure Merged (intervals merged : List RedactionInterval) : Prop where
  apart : merged.Pairwise Apart
  covered : ∀ time, Covered merged time ↔ Covered intervals time ∨ Bridged intervals time
  again : mergeOverlappingIntervals merged = merged

def SortedByStart (intervals : List RedactionInterval) : Prop :=
  intervals.Pairwise fun earlier later => earlier.startOffset ≤ later.startOffset

def Unwrapped (latest : Int) : List RedactionInterval → Prop
  | [] => True
  | next :: rest =>
    (latest + second < 2 ^ 63 ∨ next.startOffset ≤ latest + second - 2 ^ 64) ∧
      Unwrapped (max latest next.endOffset) rest

open ExchangeSort

theorem sortByStart_eq (passes : Nat) (intervals : List RedactionInterval) :
    sortByStart passes intervals =
      sortFrom (fun interval => -interval.startOffset) passes intervals := by
  have one : ∀ front rest, settle front rest =
      pass (fun interval => -interval.startOffset) front rest := by
    intro front rest
    induction rest generalizing front with
    | nil => rfl
    | cons next rest ih => simp only [settle, ExchangeSort.pass, ih, Int.neg_lt_neg_iff]
  induction passes generalizing intervals with
  | zero => rfl
  | succ passes ih =>
    cases intervals with
    | nil => rfl
    | cons front rest => simp only [sortByStart, sortFrom, one, ih]

variable {intervals rest : List RedactionInterval} {current next : RedactionInterval}

theorem sortByStart_perm (passes : Nat) : (sortByStart passes intervals).Perm intervals :=
  sortByStart_eq passes intervals ▸ sortFrom_perm _ _ _

theorem sortByStart_sorted (intervals : List RedactionInterval) :
    SortedByStart (sortByStart intervals.length intervals) := by
  have sorted := exchangeSort_sorted
    (fun interval : RedactionInterval => -interval.startOffset) intervals
  rw [sortByStart_eq]
  exact sorted.imp Int.le_of_neg_le_neg

theorem merge_of_sort (sorts : sortByStart intervals.length intervals = current :: rest) :
    mergeOverlappingIntervals intervals = mergeFrom current rest := by
  unfold mergeOverlappingIntervals
  split
  · rename_i short
    obtain _ | ⟨only, _ | _⟩ := intervals
    · cases sorts
    · cases sorts
      rfl
    · simp at short
  · rw [sorts]

theorem merge_of_sorted (sorted : SortedByStart (current :: rest)) :
    mergeOverlappingIntervals (current :: rest) = mergeFrom current rest := by
  refine merge_of_sort ?_
  rw [sortByStart_eq]
  exact exchangeSort_of_sorted _ (sorted.imp Int.neg_le_neg)

/-! ## The sweep -/

theorem combineWith_bounds (current next : RedactionInterval) :
    (combineWith current next).startOffset = current.startOffset ∧
      (combineWith current next).endOffset = max current.endOffset next.endOffset := by
  unfold combineWith
  split <;> exact ⟨rfl, rfl⟩

theorem mergeFrom_head (current : RedactionInterval) (rest : List RedactionInterval) :
    ∃ first later, mergeFrom current rest = first :: later ∧
      first.startOffset = current.startOffset := by
  induction rest generalizing current with
  | nil => exact ⟨current, [], rfl, rfl⟩
  | cons next rest ih =>
    unfold mergeFrom
    split
    · rw [← (combineWith_bounds current next).1]
      exact ih _
    · exact ⟨_, _, rfl, rfl⟩

def Ordered (current : RedactionInterval) (rest : List RedactionInterval) : Prop :=
  SortedByStart (current :: rest) ∧ ∀ interval ∈ current :: rest, interval.Valid

theorem Ordered.combine (ordered : Ordered current (next :: rest)) :
    Ordered (combineWith current next) rest := by
  obtain ⟨sorted, valid⟩ := ordered
  simp only [Ordered, SortedByStart, pairwise_cons, forall_mem_cons] at sorted valid ⊢
  obtain ⟨start, stop⟩ := combineWith_bounds current next
  refine ⟨⟨fun later mem => ?_, sorted.2.2⟩, ?_, valid.2.2⟩
  · rw [start]
    exact sorted.1.2 later mem
  · have first := valid.1
    have second := valid.2.1
    simp only [RedactionInterval.Valid, start, stop] at first second ⊢
    omega

theorem Ordered.tail (ordered : Ordered current (next :: rest)) : Ordered next rest :=
  ⟨ordered.1.tail, fun interval mem => ordered.2 interval (.tail _ mem)⟩

theorem mergeFrom_valid (ordered : Ordered current rest) :
    ∀ interval ∈ mergeFrom current rest, interval.Valid := by
  induction rest generalizing current with
  | nil => exact ordered.2
  | cons next rest ih =>
    unfold mergeFrom
    split
    · exact ih ordered.combine
    · exact forall_mem_cons.mpr ⟨ordered.2 current (.head _), ih ordered.tail⟩

section

variable (ordered : Ordered current (next :: rest))

include ordered

theorem covered_combine (close : next.startOffset ≤ current.endOffset + second) (time : Int) :
    Covered (combineWith current next :: rest) time ∨
        Bridged (combineWith current next :: rest) time ↔
      Covered (current :: next :: rest) time ∨ Bridged (current :: next :: rest) time := by
  obtain ⟨start, stop⟩ := combineWith_bounds current next
  obtain ⟨sorted, valid⟩ := ordered
  simp only [SortedByStart, pairwise_cons, forall_mem_cons, RedactionInterval.Valid] at sorted valid
  simp only [Covered, Bridged, mem_cons, exists_eq_or_imp, start, stop]
  grind

theorem covered_cons (far : current.endOffset + second < next.startOffset) (time : Int) :
    Covered (current :: next :: rest) time ∨ Bridged (current :: next :: rest) time ↔
      (current.startOffset ≤ time ∧ time ≤ current.endOffset) ∨
        Covered (next :: rest) time ∨ Bridged (next :: rest) time := by
  obtain ⟨sorted, valid⟩ := ordered
  simp only [SortedByStart, pairwise_cons, forall_mem_cons, RedactionInterval.Valid] at sorted valid
  simp only [Covered, Bridged, mem_cons, exists_eq_or_imp]
  grind

theorem Ordered.compare :
    (next.startOffset ≤ (current.endOffset + second).bmod (2 ^ 64) ↔
      (current.endOffset + second < 2 ^ 63 ∧ next.startOffset ≤ current.endOffset + second) ∨
        next.startOffset ≤ current.endOffset + second - 2 ^ 64) ∧
    (current.endOffset + second < next.startOffset → current.endOffset + second < 2 ^ 63 ∧
      max current.endOffset next.endOffset = next.endOffset) := by
  obtain ⟨low, middle, high⟩ := ordered.2 current (.head _)
  obtain ⟨low', middle', high'⟩ := ordered.2 next (.tail _ (.head _))
  rw [Int.bmod_def]
  unfold second
  refine ⟨?_, fun far => ⟨by omega, Int.max_eq_right (by omega)⟩⟩
  split <;> omega

end

section

variable (ordered : Ordered current rest)

include ordered

theorem mergeFrom_merged (unwrapped : Unwrapped current.endOffset rest) :
    (mergeFrom current rest).Pairwise Apart ∧
      ∀ time, Covered (mergeFrom current rest) time ↔
        Covered (current :: rest) time ∨ Bridged (current :: rest) time := by
  induction rest generalizing current with
  | nil =>
    refine ⟨pairwise_singleton _ _, fun time => ?_⟩
    have valid := ordered.2 current (.head _)
    simp only [mergeFrom, Covered, Bridged, mem_singleton, exists_eq_left,
      RedactionInterval.Valid] at valid ⊢
    omega
  | cons next rest ih =>
    obtain ⟨merges, latest⟩ := ordered.compare
    obtain ⟨fits, later⟩ := unwrapped
    unfold mergeFrom
    split
    · rename_i merged
      rw [← (combineWith_bounds current next).2] at later
      obtain ⟨apart, covered⟩ := ih ordered.combine later
      refine ⟨apart, fun time => (covered time).trans (covered_combine ordered ?_ time)⟩
      omega
    · rename_i kept
      have far : current.endOffset + second < next.startOffset := by
        omega
      rw [(latest far).2] at later
      obtain ⟨apart, covered⟩ := ih ordered.tail later
      have after : ∀ interval ∈ mergeFrom next rest,
          next.startOffset ≤ interval.startOffset := by
        obtain ⟨first, others, out, start⟩ := mergeFrom_head next rest
        rw [out, pairwise_cons] at apart
        rw [out, ← start, forall_mem_cons]
        exact ⟨Int.le_refl _, fun interval mem => (apart.1 interval mem).1⟩
      refine ⟨pairwise_cons.mpr ⟨fun interval mem => ⟨?_, ?_⟩, apart⟩, fun time => ?_⟩
      · exact Int.le_trans (rel_of_pairwise_cons ordered.1 (.head _)) (after _ mem)
      · exact Int.lt_of_lt_of_le far (after _ mem)
      · rw [covered_cons ordered far, ← covered]
        simp [Covered]

theorem unwrapped_of_apart (apart : (mergeFrom current rest).Pairwise Apart) :
    Unwrapped current.endOffset rest := by
  induction rest generalizing current with
  | nil => trivial
  | cons next rest ih =>
    obtain ⟨merges, latest⟩ := ordered.compare
    unfold mergeFrom at apart
    split at apart
    · rename_i merged
      have later := ih ordered.combine apart
      rw [(combineWith_bounds current next).2] at later
      exact ⟨by omega, later⟩
    · obtain ⟨apart, tail⟩ := pairwise_cons.mp apart
      obtain ⟨head, others, out, start⟩ := mergeFrom_head next rest
      have far := latest (start ▸ (apart head (out ▸ .head _)).2)
      refine ⟨.inl far.1, ?_⟩
      rw [far.2]
      exact ih ordered.tail tail

theorem mergeFrom_of_apart (apart : (current :: rest).Pairwise Apart) :
    mergeFrom current rest = current :: rest := by
  induction rest generalizing current with
  | nil => rfl
  | cons next rest ih =>
    obtain ⟨merges, latest⟩ := ordered.compare
    obtain ⟨far, tail⟩ := pairwise_cons.mp apart
    have far := (far next (.head _)).2
    rw [mergeFrom, if_neg (by omega), ih ordered.tail tail]

def Merges (intervals : List RedactionInterval) : Prop :=
  ∀ order : List RedactionInterval, order.Perm intervals →
    Merged intervals (mergeOverlappingIntervals order)

def NeverWraps (intervals : List RedactionInterval) : Prop :=
  ∀ first rest, (first :: rest).Perm intervals → SortedByStart (first :: rest) →
    Unwrapped first.endOffset rest

theorem Ordered.merged (unwrapped : Unwrapped current.endOffset rest) :
    Merged (current :: rest) (mergeFrom current rest) := by
  obtain ⟨apart, covered⟩ := mergeFrom_merged ordered unwrapped
  refine ⟨apart, covered, ?_⟩
  have valid := mergeFrom_valid ordered
  obtain ⟨first, others, out, -⟩ := mergeFrom_head current rest
  rw [out] at apart valid ⊢
  have sorted : SortedByStart (first :: others) := apart.imp And.left
  rw [merge_of_sorted sorted, mergeFrom_of_apart ⟨sorted, valid⟩ apart]

end

theorem merges_iff (valid : ∀ interval ∈ intervals, interval.Valid) :
    Merges intervals ↔ NeverWraps intervals := by
  constructor
  · intro merges first rest perm sorted
    have merged := merges _ perm
    rw [merge_of_sorted sorted] at merged
    exact unwrapped_of_apart ⟨sorted, fun interval member => valid interval (perm.subset member)⟩
      merged.apart
  · intro never order perm
    have sorted := sortByStart_sorted order
    have same := (sortByStart_perm order.length).trans perm
    cases sorts : sortByStart order.length order with
    | nil =>
      rw [sorts] at same
      obtain rfl := same.nil_eq
      obtain rfl := perm.eq_nil
      exact ⟨.nil, by simp [mergeOverlappingIntervals, Covered, Bridged], rfl⟩
    | cons current rest =>
      rw [sorts] at sorted same
      have merged := Ordered.merged
        ⟨sorted, fun interval member => valid interval (same.subset member)⟩
        (never current rest same sorted)
      rw [merge_of_sort sorts]
      refine ⟨merged.apart, fun time => (merged.covered time).trans ?_, merged.again⟩
      simp only [Covered, Bridged, same.mem_iff]

theorem neverWraps_of_early
    (early : ∀ interval ∈ intervals, interval.endOffset + second < 2 ^ 63) :
    NeverWraps intervals := by
  have unwrapped : ∀ latest rest, latest + second < 2 ^ 63 →
      (∀ interval ∈ rest, interval.endOffset + second < 2 ^ 63) → Unwrapped latest rest := by
    intro latest rest before later
    induction rest generalizing latest with
    | nil => trivial
    | cons next rest ih =>
      obtain ⟨here, later⟩ := forall_mem_cons.mp later
      exact ⟨.inl before, ih _ (by omega) later⟩
  intro first rest perm _
  have all := fun interval member => early interval (perm.subset member)
  exact unwrapped _ _ (all first (.head _)) fun interval member => all interval (.tail _ member)

/-- Two intervals half a second apart, listed backwards, and one that lies far from them. -/
theorem early_intervals_merged :
    Merges [⟨2500000000, 3000000000, "b", ""⟩, ⟨0, 2000000000, "a", ""⟩,
      ⟨9000000000, 9000000001, "c", ""⟩] := by
  refine (merges_iff ?_).mpr (neverWraps_of_early ?_)
  · simp [RedactionInterval.Valid]
  · simp [second]

/-- The second added to the end of the first interval wraps around, and the second interval, which
lies inside, is kept. -/
theorem not_merges_late : ¬ Merges [⟨0, 2 ^ 63 - 1, "a", ""⟩, ⟨5, 6, "a", ""⟩] := by
  intro merges
  have apart := (merges _ (.refl _)).apart
  have := (rel_of_pairwise_cons apart (.head _)).2
  revert this
  decide

end SiprecServer.Media
