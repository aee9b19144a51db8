import Mathlib.Data.Int.Order.Basic
import Mathlib.Data.List.Perm.Basic

/-!
# Sorting by exchanges

Every place in turn is compared with all later ones, and a later element with a greater key
changes places with it.  The first element of the sorted list is the first of those with the
greatest key.
-/

namespace SiprecServer.Lib.ExchangeSort

open List

variable {α : Type} (key : α → Int)

def pass (here : α) : List α → α × List α
  | [] => (here, [])
  | later :: rest =>
    if key here < key later then
      let (best, others) := pass later rest
      (best, here :: others)
    else
      let (best, others) := pass here rest
      (best, later :: others)

def sortFrom : (places : Nat) → List α → List α
  | 0, elements => elements
  | _, [] => []
  | places + 1, here :: rest =>
    let (best, others) := pass key here rest
    best :: sortFrom places others

def exchangeSort (elements : List α) : List α := sortFrom key elements.length elements

variable {rest : List α} (elements : List α) (here : α)

theorem pass_perm (rest : List α) :
    ((pass key here rest).1 :: (pass key here rest).2).Perm (here :: rest) := by
  induction rest generalizing here with
  | nil => exact .refl _
  | cons later rest ih =>
    unfold pass
    split
    · exact (List.Perm.swap _ _ _).trans ((ih later).cons here)
    · exact (List.Perm.swap _ _ _).trans (((ih here).cons later).trans (.swap _ _ _))

theorem le_pass (rest : List α) :
    ∀ element ∈ here :: rest, key element ≤ key (pass key here rest).1 := by
  induction rest generalizing here with
  | nil => simp [pass]
  | cons later rest ih =>
    unfold pass
    intro element mem
    split
    case isTrue less =>
      obtain rfl | mem := mem_cons.mp mem
      · exact Int.le_trans (Int.le_of_lt less) (ih later later (.head _))
      · exact ih later element mem
    case isFalse notLess =>
      obtain rfl | mem := mem_cons.mp mem
      · exact ih element element (.head _)
      · obtain rfl | mem := mem_cons.mp mem
        · exact Int.le_trans (Int.not_lt.mp notLess) (ih here here (.head _))
        · exact ih here element (.tail _ mem)

theorem pass_eq {here : α} (greatest : ∀ element ∈ rest, key element ≤ key here) :
    pass key here rest = (here, rest) := by
  induction rest with
  | nil => rfl
  | cons later rest ih =>
    rw [forall_mem_cons] at greatest
    rw [pass, if_neg (Int.not_lt.mpr greatest.1), ih greatest.2]

theorem sortFrom_perm (places : Nat) (elements : List α) :
    (sortFrom key places elements).Perm elements := by
  induction places generalizing elements with
  | zero => exact .refl _
  | succ places ih =>
    cases elements with
    | nil => exact .refl _
    | cons here rest => exact ((ih _).cons _).trans (pass_perm key here rest)

theorem exchangeSort_sorted :
    (exchangeSort key elements).Pairwise fun earlier later => key later ≤ key earlier := by
  unfold exchangeSort
  induction length : elements.length generalizing elements with
  | zero =>
    rw [eq_nil_of_length_eq_zero length]
    exact .nil
  | succ places ih =>
    cases elements with
    | nil => exact .nil
    | cons here rest =>
      have perm := pass_perm key here rest
      refine .cons (fun later mem => le_pass key here rest later ?_) (ih _ ?_)
      · exact perm.subset (.tail _ ((sortFrom_perm key places _).subset mem))
      · have := perm.length_eq
        simp only [length_cons] at this length
        omega

theorem exchangeSort_of_sorted {elements : List α}
    (sorted : elements.Pairwise fun earlier later => key later ≤ key earlier) :
    exchangeSort key elements = elements := by
  unfold exchangeSort
  induction sorted with
  | nil => rfl
  | cons greatest _ ih =>
    simp only [length_cons, sortFrom, pass_eq key greatest, ih]

theorem exchangeSort_cases :
    (elements = [] ∧ exchangeSort key elements = []) ∨
      ∃ best others, exchangeSort key elements = best :: others ∧ best ∈ elements ∧
        ∀ element ∈ elements, key element ≤ key best := by
  cases elements with
  | nil => exact .inl ⟨rfl, rfl⟩
  | cons here rest =>
    exact .inr ⟨_, _, rfl, (pass_perm key here rest).subset (.head _), le_pass key here rest⟩

theorem exchangeSort_of_greatest {here : α} (greatest : ∀ element ∈ rest, key element ≤ key here) :
    ∃ others, exchangeSort key (here :: rest) = here :: others :=
  ⟨_, congrArg (· :: _) (by rw [pass_eq key greatest])⟩

end SiprecServer.Lib.ExchangeSort
