import Mathlib.Data.List.Induction

/-!
# Inserting an element before chosen occurrences

`expand` goes through a list and puts `inserted` before those occurrences of `target`
that are chosen by what precedes them.  Two expansions of one list are equal only if they
choose the same occurrences.
-/

namespace SiprecServer.Lib.Expansion

open List

variable {α : Type} {target inserted : α} {chosen other : List α → Bool}

def Agree (target : α) (chosen other : List α → Bool) (data : List α) : Prop :=
  ∀ front back, data = front ++ target :: back → chosen front = other front

theorem agree_cons {x : α} {rest : List α} :
    Agree target chosen other (x :: rest) ↔
      (x = target → chosen [] = other []) ∧
        Agree target (fun front => chosen (x :: front)) (fun front => other (x :: front)) rest := by
  constructor
  · intro agree
    refine ⟨fun same => agree [] rest (same ▸ rfl), fun front back split => ?_⟩
    exact agree (x :: front) back (congrArg (x :: ·) split)
  · rintro ⟨first, later⟩ front back split
    cases front with
    | nil => exact first (List.cons.inj split).1
    | cons y front =>
      obtain ⟨rfl, tail⟩ := List.cons.inj split
      exact later front back tail

variable [DecidableEq α]

def expand (target inserted : α) (chosen : List α → Bool) (seen : List α) : List α → List α
  | [] => []
  | x :: rest =>
    if x = target ∧ chosen seen then
      inserted :: x :: expand target inserted chosen (seen ++ [x]) rest
    else x :: expand target inserted chosen (seen ++ [x]) rest

theorem expand_append (seen first second : List α) :
    expand target inserted chosen seen (first ++ second) =
      expand target inserted chosen seen first ++
        expand target inserted chosen (seen ++ first) second := by
  induction first generalizing seen with
  | nil => simp [expand]
  | cons x rest ih =>
    simp only [cons_append, expand, ih, append_assoc, nil_append]
    split <;> rfl

variable (seen data : List α)

theorem expand_concat (x : α) :
    expand target inserted chosen seen (data ++ [x]) =
      expand target inserted chosen seen data ++
        (if x = target ∧ chosen (seen ++ data) then [inserted, x] else [x]) := by
  rw [expand_append, expand, expand]

theorem getLast?_expand : (expand target inserted chosen seen data).getLast? = data.getLast? := by
  induction data using List.reverseRecOn with
  | nil => rfl
  | append_singleton data x ih =>
    rw [expand_concat]
    split <;> simp

theorem sublist_expand : data.Sublist (expand target inserted chosen seen data) := by
  induction data using List.reverseRecOn with
  | nil => exact nil_sublist _
  | append_singleton data x ih =>
    rw [expand_concat]
    split
    · exact ih.append (sublist_cons_self _ _)
    · exact ih.append (List.Sublist.refl _)

theorem length_le_expand : data.length ≤ (expand target inserted chosen seen data).length :=
  (sublist_expand seen data).length_le

theorem expand_of_length {seen data : List α}
    (same : (expand target inserted chosen seen data).length = data.length) :
    expand target inserted chosen seen data = data := by
  induction data generalizing seen with
  | nil => rfl
  | cons x rest ih =>
    have longer : rest.length ≤ (expand target inserted chosen (seen ++ [x]) rest).length :=
      length_le_expand (seen ++ [x]) rest
    unfold expand at same ⊢
    split at same
    next => simp only [length_cons] at same; omega
    next kept => rw [if_neg kept, ih (Nat.succ.inj same)]

theorem expand_append_inj (distinct : inserted ≠ target) (seen before : List α)
    (data tail rest : List α) :
    expand target inserted chosen seen data ++ tail =
        expand target inserted other before data ++ rest ↔
      Agree target (fun front => chosen (seen ++ front)) (fun front => other (before ++ front))
        data ∧ tail = rest := by
  induction data generalizing seen before with
  | nil => simp [expand, Agree]
  | cons x later ih =>
    rw [agree_cons]
    simp only [append_nil]
    have next := ih (seen ++ [x]) (before ++ [x])
    simp only [append_assoc, singleton_append] at next
    unfold expand
    by_cases hit : x = target
    · subst hit
      cases first : chosen seen <;> cases second : other before
      all_goals simp [next, distinct, distinct.symm]
    · simp [hit, next]

theorem expand_inj (distinct : inserted ≠ target) (seen before data : List α) :
    expand target inserted chosen seen data = expand target inserted other before data ↔
      Agree target (fun front => chosen (seen ++ front)) (fun front => other (before ++ front))
        data := by
  simpa using expand_append_inj distinct seen before data [] []

theorem expand_of_none {seen : List α} (none : ∀ front, chosen (seen ++ front) = false)
    (data : List α) : expand target inserted chosen seen data = data := by
  induction data generalizing seen with
  | nil => rfl
  | cons x rest ih =>
    have here : chosen seen = false := by simpa using none []
    unfold expand
    rw [ih fun front => by simpa using none (x :: front), here]
    simp

theorem expand_pieces_iff (distinct : inserted ≠ target) (seen : List α) (pieces : List (List α)) :
    pieces.flatMap (expand target inserted chosen []) =
        expand target inserted other seen pieces.flatten ↔
      ∀ before piece after, pieces = before ++ piece :: after →
        Agree target chosen (fun front => other (seen ++ (before.flatten ++ front))) piece := by
  induction pieces generalizing seen with
  | nil => simp [expand]
  | cons first rest ih =>
    rw [flatMap_cons, flatten_cons, expand_append, expand_append_inj distinct, ih]
    simp only [nil_append]
    constructor
    · rintro ⟨here, later⟩ before piece after split
      cases before with
      | nil =>
        obtain ⟨rfl, -⟩ := List.cons.inj split
        exact here
      | cons read before =>
        obtain ⟨rfl, tail⟩ := List.cons.inj split
        simpa using later before piece after tail
    · intro each
      refine ⟨by simpa using each [] first rest rfl, fun before piece after split => ?_⟩
      have there := each (first :: before) piece after (congrArg (first :: ·) split)
      simpa using there

end SiprecServer.Lib.Expansion
