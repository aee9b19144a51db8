import Mathlib.Algebra.Ring.Int.Defs
import Mathlib.Algebra.Ring.Nat
import Mathlib.Data.List.DropRight
import Mathlib.Data.List.TakeDrop

/-!
# Texts with blanks around them

White space as Unicode has it, texts without the white space at their ends, the words
between white space, and the 64-bit numbers that words stand for.
-/

namespace SiprecServer.Lib.Text

open List

def isSpace (c : Char) : Bool :=
  let code := c.toNat
  (9 ≤ code && code ≤ 13) || code = 0x20 || code = 0x85 || code = 0xA0 || code = 0x1680 ||
    (0x2000 ≤ code && code ≤ 0x200A) || code = 0x2028 || code = 0x2029 || code = 0x202F ||
    code = 0x205F || code = 0x3000

variable {c : Char}

theorem isSpace_of_isDigit (digit : c.isDigit = true) : isSpace c = false := by
  have range : 48 ≤ c.toNat ∧ c.toNat ≤ 57 := by
    simpa [Char.isDigit, UInt32.le_iff_toNat_le] using digit
  unfold isSpace
  simp only [Bool.or_eq_false_iff, Bool.and_eq_false_iff, decide_eq_false_iff_not]
  omega

variable (text : String)

def trimSpace : String :=
  String.ofList ((text.toList.dropWhile isSpace).reverse.dropWhile isSpace).reverse

@[simp]
theorem trimSpace_empty : trimSpace "" = "" := by decide

theorem trimSpace_trimSpace : trimSpace (trimSpace text) = trimSpace text := by
  have front (chars : List Char) :
      ((chars.dropWhile isSpace).rdropWhile isSpace).dropWhile isSpace =
        (chars.dropWhile isSpace).rdropWhile isSpace := by
    refine dropWhile_eq_self_iff.mpr fun nonempty => ?_
    rw [( rdropWhile_prefix isSpace (chars.dropWhile isSpace)).getElem nonempty]
    exact dropWhile_get_zero_not _ _ _
  change String.ofList (((String.ofList ((text.toList.dropWhile isSpace).rdropWhile
    isSpace)).toList.dropWhile isSpace).rdropWhile isSpace) = _
  rw [String.toList_ofList, front, rdropWhile_idempotent]
  rfl

/-- The first text, or the second if the first is empty. -/
def orElse (text fallback : String) : String := if text = "" then fallback else text

theorem orElse_of_ne {text fallback : String} (nonempty : text ≠ "") :
    orElse text fallback = text := if_neg nonempty

@[simp]
theorem orElse_empty (fallback : String) : orElse "" fallback = fallback := if_pos rfl

@[simp]
theorem orElse_right_empty : orElse text "" = text := by
  unfold orElse
  split
  case isTrue absent => exact absent.symm
  case isFalse => rfl

@[simp]
theorem orElse_self : orElse text text = text := ite_self text

@[simp]
theorem orElse_orElse_self (text fallback : String) :
    orElse (orElse text fallback) fallback = orElse text fallback := by
  by_cases absent : text = ""
  · rw [absent, orElse_empty, orElse_self]
  · rw [orElse_of_ne absent, orElse_of_ne absent]

theorem dropPrefix?_append (front rest : List Char) :
    (front ++ rest).dropPrefix? front = some rest :=
  dropPrefix?_eq_some_iff.mpr ⟨front, rfl, BEq.rfl⟩

theorem span_to {front rest : List Char} (absent : c ∉ front) :
    (front ++ c :: rest).span (· ≠ c) = (front, c :: rest) := by
  have all : ∀ d ∈ front, decide (d ≠ c) = true := fun d mem =>
    decide_eq_true fun same => absent (same ▸ mem)
  rw [span_eq_takeWhile_dropWhile, takeWhile_append_of_pos all, dropWhile_append_of_pos all]
  simp

theorem mem_of_span {keeps : Char → Bool} {text front rest : List Char}
    (split : text.span keeps = (front, c :: rest)) : ∀ d ∈ rest, d ∈ text := by
  intro d mem
  rw [span_eq_takeWhile_dropWhile] at split
  have back : text.dropWhile keeps = c :: rest := congrArg Prod.snd split
  have inside : d ∈ text.dropWhile keeps := by
    rw [back]
    exact mem_cons_of_mem c mem
  exact (dropWhile_sublist keeps).subset inside

def fields (text : List Char) : List (List Char) :=
  (text.splitOnP isSpace).filter fun word => word ≠ []

section

variable {word : List Char} (nonempty : word ≠ []) (solid : ∀ c ∈ word, isSpace c = false)

include nonempty solid

theorem fields_word : fields word = [word] := by
  unfold fields
  rw [splitOnP_eq_singleton solid]
  simp [nonempty]

theorem fields_cons (rest : List Char) : fields (word ++ ' ' :: rest) = word :: fields rest := by
  unfold fields
  rw [splitOnP_append_cons_of_forall_mem solid ' ' (by decide)]
  simp [nonempty]

end

theorem mem_of_mem_intercalate {separator : List Char} {parts : List (List Char)}
    (occurs : c ∈ separator.intercalate parts) : c ∈ separator ∨ ∃ part ∈ parts, c ∈ part := by
  induction parts with
  | nil => cases occurs
  | cons first rest ih =>
    cases rest with
    | nil => exact .inr ⟨first, .head _, by simpa using occurs⟩
    | cons second rest =>
      rw [intercalate_cons_cons, mem_append, mem_append] at occurs
      obtain (inFirst | inSeparator) | inRest := occurs
      · exact .inr ⟨first, .head _, inFirst⟩
      · exact .inl inSeparator
      · exact (ih inRest).imp id fun ⟨part, mem, inside⟩ => ⟨part, .tail _ mem, inside⟩

def atoi (text : List Char) : Option Int :=
  let negative := text.head? = some '-'
  let digits := if negative ∨ text.head? = some '+' then text.tail else text
  if digits ≠ [] ∧ digits.all Char.isDigit then
    let magnitude : Int := Nat.ofDigitChars 10 digits 0
    let value := if negative then -magnitude else magnitude
    if -2 ^ 63 ≤ value ∧ value < 2 ^ 63 then some value else none
  else none

theorem atoi_toDigits {number : Nat} (fits : number < 2 ^ 63) :
    atoi (Nat.toDigits 10 number) = some (number : Int) := by
  have digits : ∀ c ∈ Nat.toDigits 10 number, c.isDigit := fun c occurs =>
    Nat.isDigit_of_mem_toDigits (by decide) (by decide) occurs
  have unsigned (c : Char) (sign : c.isDigit = false) : (Nat.toDigits 10 number).head? ≠ some c :=
    fun first => by simp [digits c (mem_of_head? first)] at sign
  unfold atoi
  simp only [unsigned '-' rfl, unsigned '+' rfl, or_self, if_false, Nat.ofDigitChars_ten_toDigits]
  rw [if_pos ⟨Nat.toDigits_ne_nil, all_eq_true.mpr digits⟩, if_pos (by omega)]

end SiprecServer.Lib.Text
