import Mathlib.Data.List.Basic

/-!
# Patterns that are matched by trying one way after another

A pattern yields the places where a match from a given place can end, the preferred one
first: of a choice the first branch, and as many symbols as possible.  Repetition is of
single symbols.
-/

namespace SiprecServer.Lib.Patterns

variable {α : Type}

inductive Regex (α : Type) where
  | symbol (member : α → Bool)
  | many (member : α → Bool) (least : Nat) (most : Option Nat)
  | sequence (first second : Regex α)
  | choice (first second : Regex α)
  | optional (inner : Regex α)
  -- a word begins or ends here
  | boundary (isWord : α → Bool)

/-- A place in a text: the symbols before it, the nearest first, and those after it. -/
structure Cursor (α : Type) where
  before : List α
  after : List α

/-- The places that up to so many members lead to, the nearest first. -/
def walk (member : α → Bool) : Nat → Cursor α → List (Cursor α)
  | 0, cursor => [cursor]
  | _ + 1, ⟨before, []⟩ => [⟨before, []⟩]
  | steps + 1, ⟨before, symbol :: after⟩ =>
    if member symbol then
      ⟨before, symbol :: after⟩ :: walk member steps ⟨symbol :: before, after⟩
    else [⟨before, symbol :: after⟩]

def ends : Regex α → Cursor α → List (Cursor α)
  | .symbol _, ⟨_, []⟩ => []
  | .symbol member, ⟨before, symbol :: after⟩ =>
    if member symbol then [⟨symbol :: before, after⟩] else []
  | .many member least most, cursor =>
    ((walk member (most.getD cursor.after.length) cursor).drop least).reverse
  | .sequence first second, cursor => (ends first cursor).flatMap (ends second)
  | .choice first second, cursor => ends first cursor ++ ends second cursor
  | .optional inner, cursor => ends inner cursor ++ [cursor]
  | .boundary isWord, cursor =>
    if cursor.before.head?.any isWord ≠ cursor.after.head?.any isWord then [cursor] else []

def findAllFrom (pattern : Regex α) : Nat → Nat → Cursor α → List (Nat × Nat)
  | 0, _, _ => []
  | steps + 1, position, ⟨before, after⟩ =>
    match (ends pattern ⟨before, after⟩).head?, after with
    | some found, _ =>
      let stop := position + (after.length - found.after.length)
      (position, stop) :: findAllFrom pattern steps stop found
    | none, [] => []
    | none, symbol :: rest =>
      findAllFrom pattern steps (position + 1) ⟨symbol :: before, rest⟩

/-- Where the matches of a pattern that takes at least one symbol begin and end. -/
def findAll (pattern : Regex α) (text : List α) : List (Nat × Nat) :=
  findAllFrom pattern (text.length + 1) 0 ⟨[], text⟩

/-! ## What a match takes -/

section

variable (letters : List α) (counted : α → Bool)

def onlyCounted (member : α → Bool) : Bool := letters.all fun a => !member a || counted a

/-- So many counted symbols are in every match; `letters` are all symbols there are. -/
def least : Regex α → Nat
  | .symbol member => if onlyCounted letters counted member then 1 else 0
  | .many member least _ => if onlyCounted letters counted member then least else 0
  | .sequence first second => least first + least second
  | .choice first second => min (least first) (least second)
  | .optional _ => 0
  | .boundary _ => 0

end

variable {letters : List α} {member : α → Bool} {pattern : Regex α}
  {cursor found : Cursor α}

theorem singleton_takes {count : Nat} (mem : found ∈ [cursor].drop count) :
    ∃ taken, cursor.after = taken ++ found.after ∧ count ≤ taken.length ∧
      ∀ a ∈ taken, member a := by
  cases count with
  | zero =>
    rw [List.drop_zero, List.mem_singleton] at mem
    exact ⟨[], by rw [mem]; rfl, Nat.zero_le _, fun a none_ => absurd none_ List.not_mem_nil⟩
  | succ count =>
    rw [List.drop_succ_cons, List.drop_nil] at mem
    cases mem

theorem walk_takes {steps count : Nat} (mem : found ∈ (walk member steps cursor).drop count) :
    ∃ taken, cursor.after = taken ++ found.after ∧ count ≤ taken.length ∧
      ∀ a ∈ taken, member a := by
  fun_induction walk member steps cursor generalizing count with
  | case1 | case2 | case4 => exact singleton_takes mem
  | case3 steps before symbol after isMember ih =>
    -- the place itself, or one that a further member leads to
    have later (count : Nat)
        (mem : found ∈ (walk member steps ⟨symbol :: before, after⟩).drop count) :
        ∃ taken, symbol :: after = taken ++ found.after ∧ count + 1 ≤ taken.length ∧
          ∀ a ∈ taken, member a := by
      obtain ⟨taken, rest, enough, all⟩ := ih mem
      exact ⟨symbol :: taken, by rw [List.cons_append, ← rest], Nat.succ_le_succ enough,
        List.forall_mem_cons.mpr ⟨isMember, all⟩⟩
    cases count with
    | zero =>
      rcases List.mem_cons.mp mem with here | further
      · exact singleton_takes (List.mem_singleton.mpr here)
      · obtain ⟨taken, rest, -, all⟩ := later 0 further
        exact ⟨taken, rest, Nat.zero_le _, all⟩
    | succ count => exact later count mem

variable (counted : α → Bool) (complete : ∀ a, a ∈ letters)

include complete

theorem walk_counted (steps : Nat) {count : Nat}
    (mem : found ∈ (walk member steps cursor).drop count) :
    ∃ taken, cursor.after = taken ++ found.after ∧
      (if onlyCounted letters counted member then count else 0) ≤ taken.countP counted := by
  obtain ⟨taken, rest, enough, all⟩ := walk_takes mem
  refine ⟨taken, rest, ?_⟩
  split
  case isTrue only =>
    rwa [List.countP_eq_length.mpr]
    intro a isTaken
    have here := List.all_eq_true.mp only a (complete a)
    simpa [all a isTaken] using here
  case isFalse => exact Nat.zero_le _

theorem ends_takes (mem : found ∈ ends pattern cursor) :
    ∃ taken, cursor.after = taken ++ found.after ∧
      least letters counted pattern ≤ taken.countP counted := by
  induction pattern generalizing cursor found with
  | symbol member =>
    refine walk_counted counted complete 1 ?_
    obtain ⟨before, _ | ⟨symbol, after⟩⟩ := cursor
    · cases mem
    · unfold ends at mem
      split at mem
      case isTrue isMember => simpa [walk, isMember] using mem
      case isFalse => cases mem
  | many member count most => exact walk_counted counted complete _ (List.mem_reverse.mp mem)
  | sequence first second ihFirst ihSecond =>
    obtain ⟨middle, isMiddle, isFound⟩ := List.mem_flatMap.mp mem
    obtain ⟨taken, rest, enough⟩ := ihFirst isMiddle
    obtain ⟨more, last, enoughMore⟩ := ihSecond isFound
    refine ⟨taken ++ more, by rw [rest, last, List.append_assoc], ?_⟩
    rw [least, List.countP_append]
    omega
  | choice first second ihFirst ihSecond =>
    rw [least]
    rcases List.mem_append.mp mem with isFirst | isSecond
    · obtain ⟨taken, rest, enough⟩ := ihFirst isFirst
      exact ⟨taken, rest, by omega⟩
    · obtain ⟨taken, rest, enough⟩ := ihSecond isSecond
      exact ⟨taken, rest, by omega⟩
  | optional inner ih =>
    rcases List.mem_append.mp mem with isInner | isHere
    · obtain ⟨taken, rest, -⟩ := ih isInner
      exact ⟨taken, rest, Nat.zero_le _⟩
    · exact ⟨[], by rw [List.mem_singleton.mp isHere]; rfl, Nat.le_refl _⟩
  | boundary isWord =>
    unfold ends at mem
    split at mem
    · exact ⟨[], by rw [List.mem_singleton.mp mem]; rfl, Nat.le_refl _⟩
    · cases mem

/-- The matches lie in the text, and each takes its counted symbols from it. -/
theorem findAllFrom_spec (steps position : Nat) (before after : List α) :
    let places := findAllFrom pattern steps position ⟨before, after⟩
    places.length * least letters counted pattern ≤ after.countP counted ∧
      ∀ place ∈ places, position ≤ place.1 ∧ place.1 ≤ place.2 ∧
        place.2 ≤ position + after.length ∧ least letters counted pattern ≤
          ((after.drop (place.1 - position)).take (place.2 - place.1)).countP counted := by
  induction steps generalizing position before after with
  | zero => simp [findAllFrom]
  | succ steps ih =>
    unfold findAllFrom
    cases isFound : (ends pattern ⟨before, after⟩).head? with
    | some found =>
      obtain ⟨before', left⟩ := found
      obtain ⟨taken, rest, enough⟩ :=
        ends_takes counted complete (List.mem_of_head? isFound)
      obtain ⟨fewer, further⟩ := ih (position + taken.length) before' left
      replace rest : after = taken ++ left := rest
      have width : after.length - left.length = taken.length := by
        rw [rest, List.length_append, Nat.add_sub_cancel]
      simp only [width]
      rw [rest, List.countP_append, List.length_cons, Nat.succ_mul, List.length_append]
      refine ⟨by omega, List.forall_mem_cons.mpr ⟨by simpa using enough, ?_⟩⟩
      intro place mem
      obtain ⟨later, ordered, inside, takes⟩ := further place mem
      refine ⟨by omega, ordered, by omega, ?_⟩
      have shift : place.1 - position = taken.length + (place.1 - (position + taken.length)) := by
        omega
      rwa [shift, List.drop_length_add_append]
    | none =>
      rcases after with _ | ⟨symbol, rest⟩
      · simp
      obtain ⟨fewer, further⟩ := ih (position + 1) (symbol :: before) rest
      refine ⟨Nat.le_trans fewer (List.countP_cons ▸ Nat.le_add_right _ _), ?_⟩
      intro place mem
      obtain ⟨later, ordered, inside, takes⟩ := further place mem
      refine ⟨by omega, ordered, by rw [List.length_cons]; omega, ?_⟩
      have shift : place.1 - position = place.1 - (position + 1) + 1 := by omega
      rwa [shift, List.drop_succ_cons]

theorem findAll_spec (pattern : Regex α) (text : List α) :
    (findAll pattern text).length * least letters counted pattern ≤ text.countP counted ∧
      ∀ place ∈ findAll pattern text, place.1 ≤ place.2 ∧ place.2 ≤ text.length ∧
        least letters counted pattern ≤
          ((text.drop place.1).take (place.2 - place.1)).countP counted := by
  unfold findAll
  simpa using findAllFrom_spec counted complete (text.length + 1) 0 [] text

end SiprecServer.Lib.Patterns
