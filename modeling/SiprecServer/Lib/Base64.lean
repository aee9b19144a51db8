import Mathlib.Data.List.Basic

/-!
# Base64

The standard alphabet with padding.  Decoding skips line ends, wants whole quanta and
ignores the bits that the padding stands for.
-/

namespace SiprecServer.Lib.Base64

open List

def alphabet : List Char :=
  "ABCDEFGHIJKLMNOPQRSTUVWXYZabcdefghijklmnopqrstuvwxyz0123456789+/".toList

def pad : Char := '='

def digit (value : Nat) : Char := alphabet.getD value pad

def value (c : Char) : Option Nat := alphabet.idxOf? c

theorem value_digit : ∀ number < 64, value (digit number) = some number := by
  decide +kernel

variable {number : Nat} (bytes : List UInt8)

theorem digit_mem (below : number < 64) : digit number ∈ alphabet :=
  isSome_idxOf?.mp (Option.isSome_of_eq_some (value_digit number below))

theorem pad_not_mem : pad ∉ alphabet := by
  decide

theorem digit_ne_pad (below : number < 64) : digit number ≠ pad :=
  fun same => pad_not_mem (same ▸ digit_mem below)

/-- Three bytes make four digits of six bits. -/
def encode : List UInt8 → List Char
  | [] => []
  | [a] => [digit (a.toNat / 4), digit (a.toNat % 4 * 16), pad, pad]
  | [a, b] =>
    [digit (a.toNat / 4), digit (a.toNat % 4 * 16 + b.toNat / 16), digit (b.toNat % 16 * 4), pad]
  | a :: b :: c :: rest =>
    digit (a.toNat / 4) :: digit (a.toNat % 4 * 16 + b.toNat / 16) ::
      digit (b.toNat % 16 * 4 + c.toNat / 64) :: digit (c.toNat % 64) :: encode rest

def firstByte (x y : Nat) : UInt8 := .ofNat (x * 4 + y / 16)

def secondByte (y z : Nat) : UInt8 := .ofNat (y % 16 * 16 + z / 4)

def thirdByte (z w : Nat) : UInt8 := .ofNat (z % 4 * 64 + w)

def decodeQuanta : List Char → Option (List UInt8)
  | [] => some []
  | a :: b :: c :: d :: rest => do
      let x ← value a
      let y ← value b
      if c = pad then
        if d = pad ∧ rest = [] then some [firstByte x y] else none
      else
        let z ← value c
        if d = pad then
          if rest = [] then some [firstByte x y, secondByte y z] else none
        else
          let w ← value d
          let bytes ← decodeQuanta rest
          some (firstByte x y :: secondByte y z :: thirdByte z w :: bytes)
  | _ => none

def decode (text : List Char) : Option (List UInt8) :=
  decodeQuanta (text.filter fun c => c ≠ '\r' && c ≠ '\n')

theorem mem_encode {bytes : List UInt8} : ∀ c ∈ encode bytes, c ∈ pad :: alphabet := by
  have isDigit {number : Nat} (below : number < 64) : digit number ∈ pad :: alphabet :=
    .tail _ (digit_mem below)
  have isPad : pad ∈ pad :: alphabet := .head _
  fun_induction encode bytes with
  | case1 => exact nofun
  | case2 a =>
    have := a.toNat_lt
    simp only [forall_mem_cons]
    exact ⟨isDigit (by omega), isDigit (by omega), isPad, isPad, nofun⟩
  | case3 a b =>
    have := a.toNat_lt
    have := b.toNat_lt
    simp only [forall_mem_cons]
    exact ⟨isDigit (by omega), isDigit (by omega), isDigit (by omega), isPad, nofun⟩
  | case4 a b c rest ih =>
    have := a.toNat_lt
    have := b.toNat_lt
    have := c.toNat_lt
    simp only [forall_mem_cons]
    exact ⟨isDigit (by omega), isDigit (by omega), isDigit (by omega), isDigit (by omega), ih⟩

theorem firstByte_sextets (a : UInt8) {b : Nat} (byte : b < 256) :
    firstByte (a.toNat / 4) (a.toNat % 4 * 16 + b / 16) = a := by
  unfold firstByte
  rw [show a.toNat / 4 * 4 + (a.toNat % 4 * 16 + b / 16) / 16 = a.toNat by omega, UInt8.ofNat_toNat]

theorem secondByte_sextets (a : Nat) (b : UInt8) {c : Nat} (byte : c < 256) :
    secondByte (a * 16 + b.toNat / 16) (b.toNat % 16 * 4 + c / 64) = b := by
  have := b.toNat_lt
  unfold secondByte
  rw [show (a * 16 + b.toNat / 16) % 16 * 16 + (b.toNat % 16 * 4 + c / 64) / 4 = b.toNat by omega,
    UInt8.ofNat_toNat]

theorem thirdByte_sextets (b : Nat) (c : UInt8) :
    thirdByte (b * 4 + c.toNat / 64) (c.toNat % 64) = c := by
  have := c.toNat_lt
  unfold thirdByte
  rw [show (b * 4 + c.toNat / 64) % 4 * 64 + c.toNat % 64 = c.toNat by omega, UInt8.ofNat_toNat]

theorem decodeQuanta_one {x y : Nat} (hx : x < 64) (hy : y < 64) :
    decodeQuanta [digit x, digit y, pad, pad] = some [firstByte x y] := by
  simp [decodeQuanta, value_digit _ hx, value_digit _ hy]

theorem decodeQuanta_two {x y z : Nat} (hx : x < 64) (hy : y < 64) (hz : z < 64) :
    decodeQuanta [digit x, digit y, digit z, pad] = some [firstByte x y, secondByte y z] := by
  simp [decodeQuanta, value_digit _ hx, value_digit _ hy, value_digit _ hz, digit_ne_pad hz]

theorem decodeQuanta_three {x y z w : Nat} (hx : x < 64) (hy : y < 64) (hz : z < 64) (hw : w < 64)
    (rest : List Char) :
    decodeQuanta (digit x :: digit y :: digit z :: digit w :: rest) =
      (decodeQuanta rest).map fun bytes =>
        firstByte x y :: secondByte y z :: thirdByte z w :: bytes := by
  simp only [decodeQuanta, value_digit _ hx, value_digit _ hy, value_digit _ hz, value_digit _ hw,
    digit_ne_pad hz, digit_ne_pad hw, if_false, Option.bind_eq_bind, Option.bind_some]
  cases decodeQuanta rest <;> rfl

theorem decodeQuanta_encode : decodeQuanta (encode bytes) = some bytes := by
  fun_induction encode bytes with
  | case1 => rfl
  | case2 a =>
    have := a.toNat_lt
    rw [decodeQuanta_one (by omega) (by omega)]
    exact congrArg (fun byte => some [byte]) (firstByte_sextets a (b := 0) (by decide))
  | case3 a b =>
    have := a.toNat_lt
    have hb := b.toNat_lt
    rw [decodeQuanta_two (by omega) (by omega) (by omega), firstByte_sextets a hb]
    exact congrArg (fun byte => some [a, byte])
      (secondByte_sextets (a.toNat % 4) b (c := 0) (by decide))
  | case4 a b c rest ih =>
    have := a.toNat_lt
    have hb := b.toNat_lt
    have hc := c.toNat_lt
    rw [decodeQuanta_three (by omega) (by omega) (by omega) (by omega), ih,
      firstByte_sextets a hb, secondByte_sextets _ b hc, thirdByte_sextets]
    rfl

theorem decode_encode : decode (encode bytes) = some bytes := by
  have clean : ((pad :: alphabet).all fun c => c ≠ '\r' && c ≠ '\n') = true := by
    decide
  unfold decode
  rw [filter_eq_self.mpr fun c occurs => all_eq_true.mp clean c (mem_encode c occurs),
    decodeQuanta_encode]

end SiprecServer.Lib.Base64
