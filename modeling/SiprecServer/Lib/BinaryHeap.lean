import Mathlib.Data.List.Perm.Basic

/-!
# Array heaps with an explicit comparison

The sift loops of a binary heap kept in a flat array.  The comparison is an
arbitrary Boolean function, so nothing is assumed about it for the permutation
laws.  Heap order is stated through a rank into `Nat` that the comparison
agrees with on the elements actually stored.
-/

namespace SiprecServer.Lib.BinaryHeap

open List

variable {α : Type}

def parent (index : Nat) : Nat := (index - 1) / 2

variable {index i limit : Nat} {xs : Array α} {j : Nat} {less : α → α → Bool} {rank : α → Nat}
  {x : α} {rest : Array α}

theorem parent_lt (positive : 0 < index) : parent index < index := by
  unfold parent
  omega

theorem parent_eq_iff {above : Nat} (positive : 0 < index) :
    parent index = above ↔ index = 2 * above + 1 ∨ index = 2 * above + 2 := by
  unfold parent
  omega

/-- Swap with the parent while the entry is smaller; the fuel bounds the number
of levels that can still be climbed. -/
def upLoop (less : α → α → Bool) : Nat → Array α → Nat → Array α
  | 0, xs, _ => xs
  | fuel + 1, xs, j =>
    if inside : parent j < xs.size ∧ j < xs.size then
      if parent j = j ∨ !less xs[j] xs[parent j] then xs
      else upLoop less fuel (xs.swap (parent j) j inside.1 inside.2) (parent j)
    else xs

section

variable (less : α → α → Bool) (xs : Array α)

def up (j : Nat) : Array α :=
  upLoop less j xs j

/-- The child that a sift down compares with: the right one only when it lies
below the limit and is smaller than the left one. -/
def child (i limit : Nat) : Nat :=
  if inside : 2 * i + 2 < limit ∧ limit ≤ xs.size then
    if less xs[2 * i + 2] xs[2 * i + 1] then 2 * i + 2 else 2 * i + 1
  else 2 * i + 1

theorem child_eq_or (i limit : Nat) :
    child less xs i limit = 2 * i + 1 ∨
      (child less xs i limit = 2 * i + 2 ∧ 2 * i + 2 < limit) := by
  unfold child
  split
  · rename_i inside
    split
    · exact Or.inr ⟨rfl, inside.1⟩
    · exact Or.inl rfl
  · exact Or.inl rfl

theorem child_lt (inside : 2 * i + 1 < limit) : child less xs i limit < limit := by
  rcases child_eq_or less xs i limit with left | ⟨right, bound⟩
  · rw [left]
    exact inside
  · rw [right]
    exact bound

theorem parent_child (i limit : Nat) : parent (child less xs i limit) = i := by
  rcases child_eq_or less xs i limit with left | ⟨right, _⟩
  · rw [left]
    unfold parent
    omega
  · rw [right]
    unfold parent
    omega

theorem lt_child (i limit : Nat) : i < child less xs i limit := by
  rcases child_eq_or less xs i limit with left | ⟨right, _⟩ <;> omega

end

def downLoop (less : α → α → Bool) : Nat → Array α → Nat → Nat → Array α
  | 0, xs, _, _ => xs
  | fuel + 1, xs, i, limit =>
    if inside : 2 * i + 1 < limit ∧ limit ≤ xs.size then
      let j := child less xs i limit
      have below : j < xs.size := Nat.lt_of_lt_of_le (child_lt less xs inside.1) inside.2
      have here : i < xs.size := by omega
      if less xs[j] xs[i] then downLoop less fuel (xs.swap i j here below) j limit
      else xs
    else xs

section

variable (less : α → α → Bool)

def down (xs : Array α) (i limit : Nat) : Array α :=
  downLoop less limit xs i limit

def push (xs : Array α) (x : α) : Array α :=
  up less (xs.push x) xs.size

/-- Exchange the root with the last entry, restore the order below the last
entry, then take the last entry off. -/
def pop (xs : Array α) : Option (α × Array α) :=
  if nonempty : 0 < xs.size then
    let last := xs.size - 1
    have lastLt : last < xs.size := by omega
    some (xs[0], (down less (xs.swap 0 last nonempty lastLt) 0 last).pop)
  else none

variable (fuel : Nat)

variable (xs : Array α) (i limit : Nat) (j : Nat) (x : α)

@[simp]
theorem size_upLoop : (upLoop less fuel xs j).size = xs.size := by
  induction fuel generalizing xs j with
  | zero => rfl
  | succ fuel ih =>
    unfold upLoop
    split
    · split
      · rfl
      · rw [ih, Array.size_swap]
    · rfl

theorem upLoop_perm : (upLoop less fuel xs j).Perm xs := by
  induction fuel generalizing xs j with
  | zero => exact Array.Perm.refl _
  | succ fuel ih =>
    unfold upLoop
    split
    · rename_i inside
      split
      · exact Array.Perm.refl _
      · exact (ih _ _).trans (Array.swap_perm inside.1 inside.2)
    · exact Array.Perm.refl _

@[simp]
theorem size_downLoop : (downLoop less fuel xs i limit).size = xs.size := by
  induction fuel generalizing xs i with
  | zero => rfl
  | succ fuel ih =>
    unfold downLoop
    split
    · dsimp only
      split
      · rw [ih, Array.size_swap]
      · rfl
    · rfl

theorem downLoop_perm : (downLoop less fuel xs i limit).Perm xs := by
  induction fuel generalizing xs i with
  | zero => exact Array.Perm.refl _
  | succ fuel ih =>
    unfold downLoop
    split
    · dsimp only
      split
      · exact (ih _ _).trans (Array.swap_perm _ _)
      · exact Array.Perm.refl _
    · exact Array.Perm.refl _

@[simp]
theorem size_push : (push less xs x).size = xs.size + 1 := by
  unfold push up
  rw [size_upLoop, Array.size_push]

theorem push_perm : (push less xs x).toList.Perm (x :: xs.toList) := by
  have sifted : (push less xs x).Perm (xs.push x) := upLoop_perm less _ _ _
  have listed := Array.perm_iff_toList_perm.mp sifted
  rw [Array.toList_push] at listed
  exact listed.trans (perm_append_singleton x xs.toList)

end

/-! ## Heap order through a rank -/

def key (rank : α → Nat) (xs : Array α) (index : Nat) : Nat :=
  (xs[index]?.map rank).getD 0

theorem key_of_lt (rank : α → Nat) (inside : index < xs.size) :
    key rank xs index = rank xs[index] := by
  simp [key, inside]

theorem key_swap (rank : α → Nat) (hi : i < xs.size) (hj : j < xs.size) (index : Nat) :
    key rank (xs.swap i j hi hj) index =
      if j = index then key rank xs i else if i = index then key rank xs j
      else key rank xs index := by
  unfold key
  rw [Array.getElem?_swap]
  split
  · simp [hi]
  · split
    · simp [hj]
    · rfl

def Agrees (less : α → α → Bool) (rank : α → Nat) (xs : Array α) : Prop :=
  ∀ a b, a ∈ xs.toList → b ∈ xs.toList → (less a b = true ↔ rank a < rank b)

theorem Agrees.of_perm {ys : Array α} (agrees : Agrees less rank xs) (perm : ys.Perm xs) :
    Agrees less rank ys := by
  have listed := Array.perm_iff_toList_perm.mp perm
  intro a b aMem bMem
  exact agrees a b (listed.mem_iff.mp aMem) (listed.mem_iff.mp bMem)

theorem Agrees.key_iff (agrees : Agrees less rank xs) (hi : i < xs.size) (hj : j < xs.size) :
    less xs[i] xs[j] = true ↔ key rank xs i < key rank xs j := by
  rw [key_of_lt rank hi, key_of_lt rank hj]
  exact agrees _ _ (by simp) (by simp)

def OrderedTo (keys : Nat → Nat) (limit : Nat) : Prop :=
  ∀ index, 0 < index → index < limit → keys (parent index) ≤ keys index

def Ordered (rank : α → Nat) (xs : Array α) : Prop :=
  OrderedTo (key rank xs) xs.size

/-- Only the edge into `j` may be out of order, and lifting the children of `j`
to its parent would be harmless. -/
structure UpReady (keys : Nat → Nat) (limit j : Nat) : Prop where
  others : ∀ index, 0 < index → index < limit → index ≠ j → keys (parent index) ≤ keys index
  grand : 0 < j → ∀ index, 0 < index → index < limit → parent index = j →
    keys (parent j) ≤ keys index

/-- Only the edges out of `i` may be out of order, and lifting a child of `i`
to its place would be harmless. -/
structure DownReady (keys : Nat → Nat) (limit i : Nat) : Prop where
  others : ∀ index, 0 < index → index < limit → parent index ≠ i → keys (parent index) ≤ keys index
  grand : 0 < i → ∀ index, 0 < index → index < limit → parent index = i →
    keys (parent i) ≤ keys index

theorem UpReady.climb (ready : UpReady (key rank xs) xs.size j) (positive : 0 < j)
    (hp : parent j < xs.size) (hj : j < xs.size) (smaller : key rank xs j < key rank xs (parent j)) :
    UpReady (key rank (xs.swap (parent j) j hp hj)) xs.size (parent j) := by
  have above := parent_lt positive
  constructor
  · intro index indexPos indexLt indexNe
    have old := ready.others index indexPos indexLt
    have across := ready.grand positive index indexPos indexLt
    rw [key_swap, key_swap]
    by_cases same : j = index
    · subst same
      rw [if_pos rfl, if_neg (by omega), if_pos rfl]
      exact Nat.le_of_lt smaller
    · have notTop : parent j ≠ index := fun equal => indexNe equal.symm
      rw [if_neg same, if_neg notTop]
      by_cases under : j = parent index
      · rw [if_pos under]
        exact across under.symm
      · rw [if_neg under]
        by_cases sibling : parent j = parent index
        · rw [if_pos sibling]
          have below := old (fun equal => same equal.symm)
          rw [← sibling] at below
          exact Nat.le_trans (Nat.le_of_lt smaller) below
        · rw [if_neg sibling]
          exact old (fun equal => same equal.symm)
  · intro topPos index indexPos indexLt indexParent
    have higher := parent_lt topPos
    have top := ready.others (parent j) topPos (by omega) (by omega)
    rw [key_swap, key_swap]
    rw [if_neg (by omega), if_neg (by omega)]
    by_cases same : j = index
    · rw [if_pos same]
      exact top
    · have old := ready.others index indexPos indexLt (by omega)
      rw [indexParent] at old
      rw [if_neg same, if_neg (by have := parent_lt indexPos; omega)]
      exact Nat.le_trans top old

/-- A sift up that starts from a single bad edge ends in heap order. -/
theorem upLoop_ordered (fuel : Nat) (xs : Array α) (j : Nat) (agrees : Agrees less rank xs)
    (enough : j ≤ fuel) (hj : j < xs.size) (ready : UpReady (key rank xs) xs.size j) :
    Ordered rank (upLoop less fuel xs j) := by
  induction fuel generalizing xs j with
  | zero =>
    have root : j = 0 := by omega
    intro index indexPos indexLt
    exact ready.others index indexPos indexLt (by omega)
  | succ fuel ih =>
    have hp : parent j < xs.size := by
      unfold parent
      omega
    unfold upLoop
    rw [dif_pos ⟨hp, hj⟩]
    split
    · rename_i stop
      intro index indexPos indexLt
      by_cases same : index = j
      · subst same
        have notSmaller : ¬ key rank xs index < key rank xs (parent index) := by
          rcases stop with equal | noLess
          · have := parent_lt indexPos
            omega
          · intro smaller
            have yes := (agrees.key_iff hj hp).mpr smaller
            rw [yes] at noLess
            exact Bool.noConfusion noLess
        exact Nat.le_of_not_lt notSmaller
      · exact ready.others index indexPos indexLt same
    · rename_i go
      have moves : parent j ≠ j ∧ less xs[j] xs[parent j] = true := by
        constructor
        · exact fun equal => go (Or.inl equal)
        · cases decided : less xs[j] xs[parent j] with
          | true => rfl
          | false => exact absurd (Or.inr (by rw [decided]; rfl)) go
      have positive : 0 < j := by
        rcases Nat.eq_zero_or_pos j with zero | pos
        · exact absurd (by rw [zero]; rfl) moves.1
        · exact pos
      have smaller := (agrees.key_iff hj hp).mp moves.2
      have above := parent_lt positive
      apply ih
      · exact agrees.of_perm (Array.swap_perm hp hj)
      · omega
      · rw [Array.size_swap]
        exact hp
      · rw [Array.size_swap]
        exact ready.climb positive hp hj smaller

theorem child_key_le (agrees : Agrees less rank xs) (bound : limit ≤ xs.size) (positive : 0 < index)
    (indexLt : index < limit) (under : parent index = i) :
    key rank xs (child less xs i limit) ≤ key rank xs index := by
  have shape := (parent_eq_iff positive).mp under
  unfold child
  split
  · rename_i inside
    have left : 2 * i + 1 < xs.size := by omega
    have right : 2 * i + 2 < xs.size := by omega
    have compare := agrees.key_iff right left
    split
    · rename_i yes
      have smaller := compare.mp yes
      rcases shape with isLeft | isRight
      · rw [isLeft]
        exact Nat.le_of_lt smaller
      · exact Nat.le_of_eq (by rw [isRight])
    · rename_i no
      have notSmaller : ¬ key rank xs (2 * i + 2) < key rank xs (2 * i + 1) :=
        fun smaller => no (compare.mpr smaller)
      rcases shape with isLeft | isRight
      · exact Nat.le_of_eq (by rw [isLeft])
      · rw [isRight]
        exact Nat.le_of_not_lt notSmaller
  · rename_i outside
    rcases shape with isLeft | isRight
    · exact Nat.le_of_eq (by rw [isLeft])
    · omega

theorem DownReady.descend (ready : DownReady (key rank xs) limit i) (agrees : Agrees less rank xs)
    (bound : limit ≤ xs.size) (inside : 2 * i + 1 < limit) (here : i < xs.size)
    (below : child less xs i limit < xs.size)
    (smaller : key rank xs (child less xs i limit) < key rank xs i) :
    DownReady (key rank (xs.swap i (child less xs i limit) here below)) limit
      (child less xs i limit) := by
  have least : ∀ index, 0 < index → index < limit → parent index = i →
      key rank xs (child less xs i limit) ≤ key rank xs index :=
    fun index positive indexLt under => child_key_le agrees bound positive indexLt under
  have up := parent_child less xs i limit
  have deeper := lt_child less xs i limit
  have jLt := child_lt less xs inside
  generalize child less xs i limit = j at *
  constructor
  · intro index indexPos indexLt notUnder
    have old := ready.others index indexPos indexLt
    rw [key_swap, key_swap, if_neg (fun same => notUnder same.symm)]
    by_cases same : j = index
    · subst same
      rw [if_pos rfl, up, if_pos rfl]
      exact Nat.le_of_lt smaller
    · rw [if_neg same]
      by_cases sibling : i = parent index
      · have notSelf : i ≠ index := by
          have := parent_lt indexPos
          omega
        rw [if_pos sibling, if_neg notSelf]
        exact least index indexPos indexLt sibling.symm
      · rw [if_neg sibling]
        by_cases self : i = index
        · subst self
          rw [if_pos rfl]
          exact ready.grand indexPos j (by omega) jLt up
        · rw [if_neg self]
          exact old (fun equal => sibling equal.symm)
  · intro _ index indexPos indexLt under
    rw [key_swap, key_swap, up, if_neg (by omega), if_pos rfl]
    have far := parent_lt indexPos
    rw [if_neg (by omega), if_neg (by omega)]
    have old := ready.others index indexPos indexLt (by omega)
    rw [under] at old
    exact old

/-- A sift down that starts from one bad entry ends in heap order below the
limit. -/
theorem downLoop_ordered (fuel : Nat) (xs : Array α) (i limit : Nat) (agrees : Agrees less rank xs)
    (bound : limit ≤ xs.size) (enough : limit ≤ i + fuel) (ready : DownReady (key rank xs) limit i) :
    OrderedTo (key rank (downLoop less fuel xs i limit)) limit := by
  induction fuel generalizing xs i with
  | zero =>
    intro index indexPos indexLt
    apply ready.others index indexPos indexLt
    have := parent_lt indexPos
    omega
  | succ fuel ih =>
    unfold downLoop
    split
    · rename_i inside
      have below := Nat.lt_of_lt_of_le (child_lt less xs inside.1) inside.2
      have here : i < xs.size := by omega
      have compare := agrees.key_iff below here
      dsimp only
      split
      · rename_i yes
        have deeper := lt_child less xs i limit
        apply ih
        · exact agrees.of_perm (Array.swap_perm here below)
        · rw [Array.size_swap]
          exact bound
        · omega
        · exact ready.descend agrees bound inside.1 here below (compare.mp yes)
      · rename_i no
        intro index indexPos indexLt
        by_cases under : parent index = i
        · have least := child_key_le agrees bound indexPos indexLt under
          have notSmaller := fun smaller => no (compare.mpr smaller)
          rw [under]
          exact Nat.le_trans (Nat.le_of_not_lt notSmaller) least
        · exact ready.others index indexPos indexLt under
    · rename_i outside
      intro index indexPos indexLt
      apply ready.others index indexPos indexLt
      intro under
      rcases (parent_eq_iff indexPos).mp under with isLeft | isRight <;> omega

theorem downLoop_getElem?_of_le (fuel : Nat) (xs : Array α) (i limit index : Nat)
    (outside : limit ≤ index) (inside : i < limit) :
    (downLoop less fuel xs i limit)[index]? = xs[index]? := by
  induction fuel generalizing xs i with
  | zero => rfl
  | succ fuel ih =>
    unfold downLoop
    split
    · rename_i room
      have jLt := child_lt less xs room.1
      dsimp only
      split
      · rw [ih _ _ jLt, Array.getElem?_swap, if_neg (by omega), if_neg (by omega)]
      · rfl
    · rfl

theorem key_push_of_lt (rank : α → Nat) (xs : Array α) (x : α) (inside : index < xs.size) :
    key rank (xs.push x) index = key rank xs index := by
  unfold key
  rw [Array.getElem?_push, if_neg (by omega)]

theorem push_ordered (agrees : Agrees less rank (xs.push x)) (ordered : Ordered rank xs) :
    Ordered rank (push less xs x) := by
  apply upLoop_ordered _ _ _ agrees (Nat.le_refl _)
  · rw [Array.size_push]
    exact Nat.lt_succ_self _
  · rw [Array.size_push]
    constructor
    · intro index indexPos indexLt indexNe
      have above := parent_lt indexPos
      rw [key_push_of_lt rank xs x (by omega), key_push_of_lt rank xs x (by omega)]
      exact ordered index indexPos (by omega)
    · intro _ index indexPos indexLt under
      have above := parent_lt indexPos
      omega

theorem Ordered.root_le (ordered : Ordered rank xs) (index : Nat) (inside : index < xs.size) :
    key rank xs 0 ≤ key rank xs index := by
  induction index using Nat.strongRecOn with
  | ind index ih =>
    rcases Nat.eq_zero_or_pos index with zero | positive
    · exact Nat.le_of_eq (by rw [zero])
    · have above := parent_lt positive
      exact Nat.le_trans (ih (parent index) above (by omega)) (ordered index positive inside)

theorem pop_eq_none_iff (less : α → α → Bool) (xs : Array α) : pop less xs = none ↔ xs = #[] := by
  unfold pop
  split
  · rename_i nonempty
    constructor
    · intro impossible
      cases impossible
    · intro empty
      rw [empty] at nonempty
      exact absurd nonempty (Nat.lt_irrefl 0)
  · rename_i empty
    constructor
    · intro _
      exact Array.eq_empty_of_size_eq_zero (by omega)
    · intro _
      rfl

/-- The root that was exchanged to the end stays there while the rest is sifted. -/
theorem down_getElem?_last (less : α → α → Bool) (xs : Array α) (last : Nat)
    (nonempty : 0 < xs.size) (lastLt : last < xs.size) :
    (down less (xs.swap 0 last nonempty lastLt) 0 last)[last]? = some xs[0] := by
  unfold down
  cases last with
  | zero =>
    change (xs.swap 0 0 nonempty lastLt)[0]? = some xs[0]
    rw [Array.getElem?_swap, if_pos rfl]
  | succ last =>
    rw [downLoop_getElem?_of_le _ _ _ _ _ (Nat.le_refl _) (Nat.succ_pos last),
      Array.getElem?_swap, if_pos rfl]

theorem perm_cons_pop_of_last (last : xs[xs.size - 1]? = some x) :
    (x :: xs.pop.toList).Perm xs.toList := by
  have nonempty : xs.toList ≠ [] := by
    intro empty
    rw [← Array.getElem?_toList, empty] at last
    cases last
  have lastEq : xs.toList.getLast nonempty = x := by
    rw [← Array.getElem?_toList, ← Array.length_toList, ← getLast?_eq_getElem?,
      getLast?_eq_some_getLast nonempty] at last
    exact Option.some.inj last
  rw [Array.toList_pop]
  have joined := dropLast_append_getLast nonempty
  rw [lastEq] at joined
  calc
    (x :: xs.toList.dropLast).Perm (xs.toList.dropLast ++ [x]) :=
      (perm_append_singleton x _).symm
    _ = xs.toList := joined

theorem pop_eq_some (popped : pop less xs = some (x, rest)) :
    xs[0]? = some x ∧ (x :: rest.toList).Perm xs.toList ∧ rest.size + 1 = xs.size := by
  unfold pop at popped
  split at popped
  · rename_i nonempty
    have lastLt : xs.size - 1 < xs.size := by omega
    obtain ⟨rootEq, restEq⟩ := Prod.mk.inj (Option.some.inj popped)
    have sized : (down less (xs.swap 0 (xs.size - 1) nonempty lastLt) 0 (xs.size - 1)).size =
        xs.size := by
      unfold down
      rw [size_downLoop, Array.size_swap]
    have sifted : (down less (xs.swap 0 (xs.size - 1) nonempty lastLt) 0 (xs.size - 1)).Perm xs :=
      (downLoop_perm less _ _ _ _).trans (Array.swap_perm nonempty lastLt)
    have lastEntry := down_getElem?_last less xs (xs.size - 1) nonempty lastLt
    refine ⟨?_, ?_, ?_⟩
    · rw [← rootEq]
      exact Array.getElem?_eq_getElem nonempty
    · rw [← rootEq, ← restEq]
      refine (perm_cons_pop_of_last ?_).trans (Array.perm_iff_toList_perm.mp sifted)
      rw [sized]
      exact lastEntry
    · rw [← restEq, Array.size_pop, sized]
      omega
  · cases popped

theorem pop_least (ordered : Ordered rank xs) (popped : pop less xs = some (x, rest)) :
    ∀ y ∈ xs.toList, rank x ≤ rank y := by
  intro y mem
  obtain ⟨index, inside, rfl⟩ := Array.mem_iff_getElem.mp (Array.mem_toList_iff.mp mem)
  have root : key rank xs 0 = rank x := by
    unfold key
    rw [(pop_eq_some popped).1]
    rfl
  rw [← root, ← key_of_lt rank inside]
  exact ordered.root_le index inside

theorem pop_ordered (agrees : Agrees less rank xs) (ordered : Ordered rank xs)
    (popped : pop less xs = some (x, rest)) : Ordered rank rest := by
  have sizeEq := (pop_eq_some popped).2.2
  unfold pop at popped
  split at popped
  · rename_i nonempty
    have lastLt : xs.size - 1 < xs.size := by omega
    have restEq := (Prod.mk.inj (Option.some.inj popped)).2
    have below : OrderedTo
        (key rank (down less (xs.swap 0 (xs.size - 1) nonempty lastLt) 0 (xs.size - 1)))
        (xs.size - 1) := by
      apply downLoop_ordered
      · exact agrees.of_perm (Array.swap_perm nonempty lastLt)
      · rw [Array.size_swap]
        omega
      · omega
      · constructor
        · intro index indexPos indexLt notRoot
          have above := parent_lt indexPos
          rw [key_swap, key_swap, if_neg (by omega), if_neg (by omega), if_neg (by omega),
            if_neg (by omega)]
          exact ordered index indexPos (by omega)
        · intro impossible
          exact absurd impossible (Nat.lt_irrefl 0)
    intro index indexPos indexLt
    have above := parent_lt indexPos
    have small : index < xs.size - 1 := by omega
    have found := below index indexPos small
    have popped_key : ∀ k, k < xs.size - 1 → key rank rest k =
        key rank (down less (xs.swap 0 (xs.size - 1) nonempty lastLt) 0 (xs.size - 1)) k := by
      intro k inside
      rw [← restEq]
      unfold key down
      rw [Array.getElem?_pop, size_downLoop, Array.size_swap, if_pos inside]
    rw [popped_key _ (by omega), popped_key _ small]
    exact found
  · cases popped

end SiprecServer.Lib.BinaryHeap
