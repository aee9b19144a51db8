import Mathlib.Data.UInt

/-!
# Serial numbers of sixteen bits

Sequence numbers wrap at `2 ^ 16` and are compared by the sign of their
difference.  The comparison is no order on all of `UInt16`; inside any window
of `2 ^ 15` consecutive values it is the order of the distances from the start
of the window.
-/

namespace SiprecServer.Lib.SerialNumber

/-- The first number precedes the second: their difference, read as a signed
number, is negative. -/
def serialLess (first second : UInt16) : Bool :=
  (first - second).toInt16 < 0

variable (start number : UInt16)

def ahead : Nat := (number - start).toNat

theorem serialLess_iff (first second : UInt16) :
    serialLess first second = true ↔ 2 ^ 15 ≤ ahead second first := by
  have bound := (first - second).toNat_lt
  have signed : (first - second).toInt16.toInt =
      if 2 * (first - second).toNat < 2 ^ 16 then ((first - second).toNat : Int)
      else (first - second).toNat - 2 ^ 16 :=
    BitVec.toInt_eq_toNat_cond (first - second).toBitVec
  unfold serialLess ahead
  rw [decide_eq_true_iff, Int16.lt_iff_toInt_lt, signed, Int16.toInt_zero]
  split <;> omega

theorem ahead_eq : ahead start number = (2 ^ 16 - start.toNat + number.toNat) % 2 ^ 16 := by
  unfold ahead
  rw [UInt16.toNat_sub]

theorem ahead_eq_zero_iff : ahead start number = 0 ↔ number = start := by
  have startLt := start.toNat_lt
  have numberLt := number.toNat_lt
  rw [ahead_eq, ← UInt16.toNat_inj]
  omega

/-- The numbers of the window of `2 ^ 15` values that begins at `base`. -/
def InWindow (base number : UInt16) : Prop := ahead base number < 2 ^ 15

instance (base number : UInt16) : Decidable (InWindow base number) :=
  inferInstanceAs (Decidable (ahead base number < 2 ^ 15))

/-- Inside a window the comparison is the order of the distances from its start. -/
theorem serialLess_iff_of_window {base first second : UInt16}
    (firstIn : InWindow base first) (secondIn : InWindow base second) :
    serialLess first second = true ↔ ahead base first < ahead base second := by
  have secondLt := second.toNat_lt
  unfold InWindow at firstIn secondIn
  rw [ahead_eq] at firstIn secondIn
  rw [serialLess_iff, ahead_eq, ahead_eq, ahead_eq]
  omega

theorem ahead_injective (base : UInt16) {first second : UInt16}
    (same : ahead base first = ahead base second) : first = second := by
  have firstLt := first.toNat_lt
  have secondLt := second.toNat_lt
  rw [ahead_eq, ahead_eq] at same
  apply UInt16.toNat_inj.mp
  omega

end SiprecServer.Lib.SerialNumber
