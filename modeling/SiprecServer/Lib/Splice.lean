import Mathlib.Data.List.Basic

/-!
# Replacing intervals of a list

The edits of a list are intervals of its positions with what takes their place.  They are
applied all at once, so that every position is one of the list as it was.
-/

namespace SiprecServer.Lib.Splice

open List

structure Edit (α : Type) where
  start : Nat
  stop : Nat
  inserted : List α

variable {α : Type}

namespace Edit

def covers (edit : Edit α) (i : Nat) : Bool := edit.start ≤ i && i < edit.stop

def Apart (edit other : Edit α) : Prop := edit.stop ≤ other.start ∨ other.stop ≤ edit.start

end Edit

def insertedAt (edits : List (Edit α)) (i : Nat) : List α :=
  (edits.filter fun edit => edit.start = i).flatMap (·.inserted)

def spliceFrom (edits : List (Edit α)) : (i : Nat) → List α → List α
  | _, [] => []
  | i, a :: rest =>
    insertedAt edits i ++ (if edits.any (·.covers i) then [] else [a]) ++
      spliceFrom edits (i + 1) rest

def splice (edits : List (Edit α)) (list : List α) : List α := spliceFrom edits 0 list

theorem spliceFrom_append (edits : List (Edit α)) (front rest : List α) (i : Nat) :
    spliceFrom edits i (front ++ rest) =
      spliceFrom edits i front ++ spliceFrom edits (i + front.length) rest := by
  induction front generalizing i with
  | nil => rfl
  | cons a front ih =>
    rw [cons_append, spliceFrom, spliceFrom, ih, length_cons, Nat.add_assoc i 1, Nat.add_comm 1]
    simp only [append_assoc]

theorem insertedAt_append (edits more : List (Edit α)) (i : Nat) :
    insertedAt (edits ++ more) i = insertedAt edits i ++ insertedAt more i := by
  rw [insertedAt, filter_append, flatMap_append, insertedAt, insertedAt]

variable {edits : List (Edit α)} {i : Nat} {list : List α} {edit : Edit α}

theorem insertedAt_eq_nil (elsewhere : ∀ edit ∈ edits, edit.start ≠ i) :
    insertedAt edits i = [] := by
  rw [insertedAt, filter_eq_nil_iff.mpr, flatMap_nil]
  intro edit mem
  simpa using elsewhere edit mem

theorem spliceFrom_outside (proper : ∀ edit ∈ edits, edit.start < edit.stop)
    (outside : ∀ edit ∈ edits, edit.stop ≤ i ∨ i + list.length ≤ edit.start) :
    spliceFrom edits i list = list := by
  induction list generalizing i with
  | nil => rfl
  | cons a rest ih =>
    have here : ∀ edit ∈ edits, edit.start ≠ i ∧ edit.covers i = false := by
      intro edit mem
      have before := proper edit mem
      have away := outside edit mem
      simp only [length_cons] at away
      simp only [Edit.covers, Bool.and_eq_false_iff, decide_eq_false_iff_not]
      omega
    have later : ∀ edit ∈ edits, edit.stop ≤ i + 1 ∨ i + 1 + rest.length ≤ edit.start := by
      intro edit mem
      have away := outside edit mem
      simp only [length_cons] at away
      omega
    have none_inserted : insertedAt edits i = [] :=
      insertedAt_eq_nil fun edit mem => (here edit mem).1
    have none_covers : edits.any (·.covers i) = false := by
      rw [any_eq_false]
      intro edit mem
      simp [(here edit mem).2]
    rw [spliceFrom, none_inserted, none_covers, ih later]
    rfl

theorem spliceFrom_concat_outside (proper : edit.start < edit.stop)
    (outside : edit.stop ≤ i ∨ i + list.length ≤ edit.start) :
    spliceFrom (edits ++ [edit]) i list = spliceFrom edits i list := by
  induction list generalizing i with
  | nil => rfl
  | cons a rest ih =>
    simp only [length_cons] at outside
    have elsewhere : edit.start ≠ i := by omega
    have uncovered : edit.covers i = false := by
      simp only [Edit.covers, Bool.and_eq_false_iff, decide_eq_false_iff_not]
      omega
    have inserted : insertedAt (edits ++ [edit]) i = insertedAt edits i := by
      simp [insertedAt, elsewhere]
    rw [spliceFrom, spliceFrom, ih (by omega), inserted]
    simp [uncovered]

variable (proper : ∀ other ∈ edits, other.start < other.stop)
  (apart : ∀ other ∈ edits, other.Apart edit)

include proper apart

theorem insertedAt_within (start : edit.start ≤ i) (stop : i < edit.stop) :
    insertedAt edits i = [] := by
  apply insertedAt_eq_nil
  intro other mem
  have before := proper other mem
  have away := apart other mem
  simp only [Edit.Apart] at away
  omega

theorem spliceFrom_concat_inside (after : edit.start < i)
    (within : i + list.length ≤ edit.stop) : spliceFrom (edits ++ [edit]) i list = [] := by
  induction list generalizing i with
  | nil => rfl
  | cons a rest ih =>
    simp only [length_cons] at within
    have none_inserted : insertedAt (edits ++ [edit]) i = [] := by
      rw [insertedAt_append, insertedAt_within proper apart (Nat.le_of_lt after) (by omega)]
      simp [insertedAt, Nat.ne_of_lt after]
    have covered : edit.covers i = true := by
      simp only [Edit.covers, Bool.and_eq_true, decide_eq_true_eq]
      omega
    rw [spliceFrom, none_inserted, ih (by omega) (by omega)]
    simp [covered]

theorem splice_concat {front old rest : List α} (start : edit.start = front.length)
    (stop : edit.stop = front.length + old.length) (nonempty : edit.start < edit.stop) :
    splice edits (front ++ (old ++ rest)) =
        spliceFrom edits 0 front ++ (old ++ spliceFrom edits edit.stop rest) ∧
      splice (edits ++ [edit]) (front ++ (old ++ rest)) =
        spliceFrom edits 0 front ++ (edit.inserted ++ spliceFrom edits edit.stop rest) := by
  have kept : spliceFrom edits edit.start old = old := by
    apply spliceFrom_outside proper
    intro other mem
    have away := apart other mem
    simp only [Edit.Apart] at away
    omega
  have replaced : spliceFrom (edits ++ [edit]) edit.start old = edit.inserted := by
    cases old with
    | nil => exact absurd stop (by simp; omega)
    | cons a old =>
      simp only [length_cons] at stop
      have inserted : insertedAt (edits ++ [edit]) edit.start = edit.inserted := by
        rw [insertedAt_append, insertedAt_within proper apart (Nat.le_refl _) nonempty, nil_append]
        simp [insertedAt]
      have covered : edit.covers edit.start = true := by
        simp only [Edit.covers, Bool.and_eq_true, decide_eq_true_eq]
        omega
      rw [spliceFrom, inserted,
        spliceFrom_concat_inside proper apart (Nat.lt_succ_self _) (by omega)]
      simp [covered]
  constructor
  · rw [splice, spliceFrom_append, spliceFrom_append, Nat.zero_add, ← stop, ← start, kept]
  · rw [splice, spliceFrom_append, spliceFrom_append, Nat.zero_add, ← stop, ← start, replaced,
      spliceFrom_concat_outside nonempty (.inr (by omega)),
      spliceFrom_concat_outside nonempty (.inl (Nat.le_refl _))]

end SiprecServer.Lib.Splice
