import Mathlib.Algebra.Ring.Nat
import Mathlib.Data.List.Basic

/-!
# Numbers as little-endian bytes
-/

namespace SiprecServer.Lib.LittleEndian

def encode : (width number : Nat) → List UInt8
  | 0, _ => []
  | width + 1, number => .ofNat (number % 256) :: encode width (number / 256)

def decode : List UInt8 → Nat
  | [] => 0
  | byte :: rest => byte.toNat + 256 * decode rest

@[simp]
theorem length_encode (width number : Nat) : (encode width number).length = width := by
  induction width generalizing number with
  | zero => rfl
  | succ width ih => exact congrArg (· + 1) (ih _)

@[simp]
theorem drop_encode {width count : Nat} (past : width ≤ count) (number : Nat) :
    (encode width number).drop count = [] := by
  simpa using past

theorem decode_encode (width number : Nat) :
    decode (encode width number) = number % 256 ^ width := by
  induction width generalizing number with
  | zero => simp [encode, decode, Nat.mod_one]
  | succ width ih =>
    have byte : (UInt8.ofNat (number % 256)).toNat = number % 256 := by
      rw [UInt8.toNat_ofNat']
      omega
    rw [encode, decode, ih, byte, Nat.pow_succ, Nat.mul_comm (256 ^ width), Nat.mod_mul]

end SiprecServer.Lib.LittleEndian
