import SiprecServer.Pii.Detector

/-!
# Slips in a card number

The weighted sum of a card number changes modulo ten when one digit is mistyped, and when two
neighbours are exchanged, unless they are a 0 and a 9.
-/

namespace SiprecServer.Pii

open List

/-- Another digit, or two neighbours exchanged, which may have separators between them. -/
inductive Slip : Text → Text → Prop where
  | change {a b : UInt8} (front back : Text) (digits : isDigit a ∧ isDigit b)
      (different : a ≠ b) : Slip (front ++ a :: back) (front ++ b :: back)
  | exchange {a b : UInt8} (front between back : Text) (digits : isDigit a ∧ isDigit b)
      (different : a ≠ b) (apart : ¬(a = 48 ∧ b = 57) ∧ ¬(a = 57 ∧ b = 48))
      (separated : ∀ c ∈ between, oneOf "- ." c) :
      Slip (front ++ a :: (between ++ b :: back)) (front ++ b :: (between ++ a :: back))

theorem luhnSum_append (alternate : Bool) (front back : Text) :
    luhnSum alternate (front ++ back) =
      luhnSum alternate front + luhnSum (alternate ^^ decide (front.length % 2 = 1)) back := by
  induction front generalizing alternate with
  | nil => simp [luhnSum]
  | cons b rest ih =>
    have parity : (!alternate ^^ decide (rest.length % 2 = 1)) =
        (alternate ^^ decide ((b :: rest).length % 2 = 1)) := by
      rcases Nat.mod_two_eq_zero_or_one rest.length with even | odd <;>
        cases alternate <;> simp [Nat.add_mod, *]
    rw [cons_append, luhnSum, luhnSum, ih, parity, Nat.add_assoc]

theorem luhnSum_replace {front back : Text} (old new : Text)
    (same : luhnSum false (front ++ (old ++ back)).reverse % 10 =
      luhnSum false (front ++ (new ++ back)).reverse % 10) (long : old.length = new.length) :
    ∃ alternate, luhnSum alternate old.reverse % 10 = luhnSum alternate new.reverse % 10 := by
  simp only [reverse_append, luhnSum_append, length_append, length_reverse, long] at same
  exact ⟨false ^^ decide (back.length % 2 = 1), by omega⟩

theorem exists_digit {b : UInt8} (digit : isDigit b) :
    ∃ value < 10, b = UInt8.ofNat (value + 48) := by
  simp only [isDigit, Bool.and_eq_true, decide_eq_true_eq] at digit
  refine ⟨b.toNat - 48, by omega, ?_⟩
  rw [Nat.sub_add_cancel digit.1, UInt8.ofNat_toNat]

theorem luhnSum_change : ∀ alternate, ∀ a < 10, ∀ b < 10,
    luhnSum alternate [UInt8.ofNat (a + 48)] % 10 =
      luhnSum alternate [UInt8.ofNat (b + 48)] % 10 → a = b := by
  decide

theorem luhnSum_exchange : ∀ alternate, ∀ a < 10, ∀ b < 10,
    luhnSum alternate [UInt8.ofNat (a + 48), UInt8.ofNat (b + 48)].reverse % 10 =
      luhnSum alternate [UInt8.ofNat (b + 48), UInt8.ofNat (a + 48)].reverse % 10 →
      a = b ∨ a = 0 ∧ b = 9 ∨ a = 9 ∧ b = 0 := by
  decide +kernel

theorem without_digit {b : UInt8} (digit : isDigit b) (front back : Text) :
    without "- ." (front ++ b :: back) = without "- ." front ++ b :: without "- ." back := by
  have solid : oneOf "- ." b = false := by
    obtain ⟨value, small, rfl⟩ := exists_digit digit
    revert value
    decide
  simp [without, solid]

theorem luhnSum_slip {number typed : Text} (slip : Slip number typed) :
    luhnSum false (without "- ." number).reverse % 10 ≠
      luhnSum false (without "- ." typed).reverse % 10 := by
  intro same
  cases slip with
  | change front back digits different =>
    rw [without_digit digits.1, without_digit digits.2] at same
    obtain ⟨a, smallA, rfl⟩ := exists_digit digits.1
    obtain ⟨b, smallB, rfl⟩ := exists_digit digits.2
    obtain ⟨alternate, sums⟩ := luhnSum_replace [_] [_] same rfl
    exact different (by rw [luhnSum_change alternate a smallA b smallB sums])
  | exchange front between back digits different apart separated =>
    have gone : without "- ." between = [] := filter_eq_nil_iff.mpr (by simpa using separated)
    simp only [without_digit digits.1, without_digit digits.2, gone] at same
    obtain ⟨a, smallA, rfl⟩ := exists_digit digits.1
    obtain ⟨b, smallB, rfl⟩ := exists_digit digits.2
    obtain ⟨alternate, sums⟩ := luhnSum_replace [_, _] [_, _] same rfl
    obtain rfl | ⟨rfl, rfl⟩ | ⟨rfl, rfl⟩ := luhnSum_exchange alternate a smallA b smallB sums
    · exact different rfl
    · exact apart.1 ⟨rfl, rfl⟩
    · exact apart.2 ⟨rfl, rfl⟩

/-- A slip in a number that is accepted gives one that is not. -/
theorem slip_rejected {number typed : Text} (slip : Slip number typed)
    (accepted : isValidCreditCard number) : isValidCreditCard typed = false := by
  have changed := luhnSum_slip slip
  simp only [isValidCreditCard, Bool.and_eq_true, decide_eq_true_eq] at accepted
  rw [accepted.2] at changed
  simp [isValidCreditCard, changed.symm]

theorem slip_rejected_visa : isValidCreditCard (ascii "4539-1488.0343 6476") = false :=
  slip_rejected (.exchange (ascii "4539-1488.0343 64") [] [] (a := 54) (b := 55)
    (by decide) (by decide) (by decide) (by simp)) (by decide)

end SiprecServer.Pii
