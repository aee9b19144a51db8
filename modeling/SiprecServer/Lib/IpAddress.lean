import Mathlib.Data.UInt

/-!
# IP addresses and networks

Addresses as they are written, addresses as bytes, and networks given by an address and a
mask.  An IPv4 address and its IPv4-mapped form are the same address.  A network contains
the addresses of its family that begin with its bits.
-/

namespace SiprecServer.Lib.IpAddress

open List

abbrev Bytes := List UInt8

/-! ## Texts -/

def digitValue (c : Char) : Nat := c.toNat - '0'.toNat

def hexValue (c : Char) : Option Nat :=
  if '0' ≤ c ∧ c ≤ '9' then some (c.toNat - '0'.toNat)
  else if 'a' ≤ c ∧ c ≤ 'f' then some (c.toNat - 'a'.toNat + 10)
  else if 'A' ≤ c ∧ c ≤ 'F' then some (c.toNat - 'A'.toNat + 10)
  else none

variable (digits : List Char)

def decimal : Option Nat :=
  if digits ≠ [] ∧ digits.all Char.isDigit then
    some (digits.foldl (fun value c => value * 10 + digitValue c) 0)
  else none

def octet : Option UInt8 :=
  match decimal digits with
  | none => none
  | some value =>
    if value ≤ 255 ∧ (digits.length = 1 ∨ digits.head? ≠ some '0') then some (.ofNat value)
    else none

def parseIPv4 (text : List Char) : Option Bytes :=
  match (text.splitOn '.').map octet with
  | [some a, some b, some c, some d] => some [a, b, c, d]
  | _ => none

def group : Option Bytes :=
  if digits = [] ∨ 4 < digits.length then none
  else
    let value := digits.foldl (fun value c => value * 16 + (hexValue c).getD 0) 0
    some [.ofNat (value / 256), .ofNat (value % 256)]

/-- The groups from some place on: `room` more groups fit, `bytes` have been read and `ellipsis`
tells where the double colon was. -/
def parseGroups : (room : Nat) → (bytes : Bytes) → (ellipsis : Option Nat) → List Char →
    Option (Bytes × Option Nat)
  | 0, bytes, ellipsis, text => if text = [] then some (bytes, ellipsis) else none
  | room + 1, bytes, ellipsis, text =>
    match text.span fun c => (hexValue c).isSome with
    | (digits, rest) =>
      match group digits with
      | none => none
      | some two =>
        match rest with
        | [] => some (bytes ++ two, ellipsis)
        | '.' :: _ =>
          -- an IPv4 address stands for the last two groups
          if (ellipsis = none ∧ bytes.length ≠ 12) ∨ 16 < bytes.length + 4 then none
          else (parseIPv4 text).map fun four => (bytes ++ four, ellipsis)
        | [':', ':'] =>
          if ellipsis.isSome then none else some (bytes ++ two, some (bytes.length + 2))
        | ':' :: ':' :: more =>
          if ellipsis.isSome then none
          else parseGroups room (bytes ++ two) (some (bytes.length + 2)) more
        | ':' :: c :: more => parseGroups room (bytes ++ two) ellipsis (c :: more)
        | _ => none

/-- The double colon stands for at least one group of zeros. -/
def expandEllipsis : Bytes × Option Nat → Option Bytes
  | (bytes, none) => if bytes.length = 16 then some bytes else none
  | (bytes, some position) =>
    if bytes.length < 16 then
      some (bytes.take position ++ List.replicate (16 - bytes.length) 0 ++ bytes.drop position)
    else none

def parseIPv6 : List Char → Option Bytes
  | [':', ':'] => some (List.replicate 16 0)
  | ':' :: ':' :: text => (parseGroups 8 [] (some 0) text).bind expandEllipsis
  | text => (parseGroups 8 [] none text).bind expandEllipsis

/-- Four bytes if the text has a dot before any colon, and else sixteen.  Zones are not allowed,
and a percent sign is part of nothing else. -/
def parseAddr (text : List Char) : Option Bytes :=
  match text.find? fun c => c = '.' ∨ c = ':' with
  | some '.' => parseIPv4 text
  | some _ => parseIPv6 text
  | none => none

def v4InV6Prefix : Bytes := List.replicate 10 0 ++ [0xff, 0xff]

def to16 (bytes : Bytes) : Bytes := if bytes.length = 4 then v4InV6Prefix ++ bytes else bytes

def to4 (bytes : Bytes) : Option Bytes :=
  if bytes.length = 4 then some bytes
  else if bytes.length = 16 ∧ bytes.take 12 = v4InV6Prefix then some (bytes.drop 12)
  else none

def parseIP (text : String) : Option Bytes := (parseAddr text.toList).map to16

/-- Four bytes for an IPv4 address and sixteen for any other. -/
def shortest (bytes : Bytes) : Bytes := (to4 bytes).getD bytes

def cidrMask : (ones bytes : Nat) → Bytes
  | _, 0 => []
  | ones, bytes + 1 =>
    if 8 ≤ ones then 0xff :: cidrMask (ones - 8) bytes
    else (~~~ ((0xff : UInt8) >>> UInt8.ofNat ones)) :: cidrMask 0 bytes

def applyMask (bytes mask : Bytes) : Bytes := List.zipWith (· &&& ·) bytes mask

structure IPNet where
  ip : Bytes
  mask : Bytes
deriving DecidableEq

/-- An address, a slash and the number of its bits that count. -/
def cidrParts (text : String) : Option (Bytes × Nat) :=
  match text.toList.span (· ≠ '/') with
  | (_, []) => none
  | (addr, _ :: digits) =>
    match parseAddr addr, decimal digits with
    | some bytes, some ones => if ones ≤ bytes.length * 8 then some (bytes, ones) else none
    | _, _ => none

def IPNet.ofParts (bytes : Bytes) (ones : Nat) : IPNet :=
  ⟨applyMask bytes (cidrMask ones bytes.length), cidrMask ones bytes.length⟩

def parseCIDR (text : String) : Option IPNet :=
  (cidrParts text).map fun parts => IPNet.ofParts parts.1 parts.2

def IPNet.numberAndMask (net : IPNet) : Bytes × Bytes :=
  match to4 net.ip with
  | some ip => (ip, if net.mask.length = 16 then net.mask.drop 12 else net.mask)
  | none => (net.ip, net.mask)

def IPNet.contains (net : IPNet) (ip : Bytes) : Bool :=
  let (number, mask) := net.numberAndMask
  let ip := shortest ip
  ip.length = number.length ∧ applyMask number mask = applyMask ip mask

variable (byte : UInt8)

def byteBits : List Bool :=
  (List.range 8).map fun i => byte.toNat.testBit (7 - i)

def bits (bytes : Bytes) : List Bool := bytes.flatMap byteBits

def maskByte (ones : Nat) : UInt8 := ~~~ ((0xff : UInt8) >>> UInt8.ofNat ones)

theorem maskByte_testBit : ∀ ones < 8, ∀ j < 8,
    (maskByte ones).toNat.testBit j = decide (8 ≤ j + ones) := by
  decide

variable {ones : Nat} {bytes : Bytes} {text : List Char} {c : Char}

theorem take_byteBits_eq_iff (below : ones ≤ 8) (a b : UInt8) :
    (byteBits a).take ones = (byteBits b).take ones ↔
      ∀ i < ones, a.toNat.testBit (7 - i) = b.toNat.testBit (7 - i) := by
  unfold byteBits
  rw [← map_take, ← map_take, take_range, Nat.min_eq_left below, map_inj_left]
  simp only [mem_range]

theorem testBit_high {j : Nat} (high : 8 ≤ j) : byte.toNat.testBit j = false :=
  Nat.testBit_lt_two_pow (byte.toNat_lt.trans_le (Nat.pow_le_pow_right Nat.two_pos high))

theorem and_maskByte_eq_iff (below : ones < 8) (a b : UInt8) :
    a &&& maskByte ones = b &&& maskByte ones ↔
      (byteBits a).take ones = (byteBits b).take ones := by
  rw [take_byteBits_eq_iff below.le, ← UInt8.toNat_inj, UInt8.toNat_and, UInt8.toNat_and]
  constructor
  · intro same i inside
    have bit := congrArg (Nat.testBit · (7 - i)) same
    have set : decide (8 ≤ 7 - i + ones) = true := decide_eq_true (by omega)
    simpa [Nat.testBit_and, maskByte_testBit ones below (7 - i) (by omega), set] using bit
  · intro same
    refine Nat.eq_of_testBit_eq fun j => ?_
    rw [Nat.testBit_and, Nat.testBit_and]
    by_cases inside : j < 8
    · rw [maskByte_testBit ones below j inside]
      by_cases set : 8 ≤ j + ones
      · have bit := same (7 - j) (by omega)
        rw [show 7 - (7 - j) = j by omega] at bit
        rw [bit]
      · simp [set]
    · rw [testBit_high a (by omega), testBit_high b (by omega)]

theorem byteBits_length : (byteBits byte).length = 8 := by simp [byteBits]

theorem bits_cons (bytes : Bytes) : bits (byte :: bytes) = byteBits byte ++ bits bytes :=
  flatMap_cons

theorem eq_of_byteBits {a b : UInt8} (same : byteBits a = byteBits b) : a = b := by
  have whole := (take_byteBits_eq_iff le_rfl a b).mp (by rw [same])
  refine UInt8.toNat_inj.mp (Nat.eq_of_testBit_eq fun j => ?_)
  by_cases inside : j < 8
  · have bit := whole (7 - j) (by omega)
    rwa [show 7 - (7 - j) = j by omega] at bit
  · rw [testBit_high a (by omega), testBit_high b (by omega)]

/-! ## What a network contains -/

theorem cidrMask_length (ones count : Nat) : (cidrMask ones count).length = count := by
  induction count generalizing ones with
  | zero => rfl
  | succ count ih =>
    unfold cidrMask
    split <;> simp [ih]

theorem cidrMask_add (ones first second : Nat) :
    cidrMask ones (first + second) = cidrMask ones first ++ cidrMask (ones - 8 * first) second := by
  induction first generalizing ones with
  | zero => simp [cidrMask]
  | succ first ih =>
    rw [Nat.add_right_comm, cidrMask, cidrMask]
    split
    · rw [ih, cons_append, show ones - 8 - 8 * first = ones - 8 * (first + 1) by omega]
    · rw [ih, cons_append, show 0 - 8 * first = ones - 8 * (first + 1) by omega]

theorem applyMask_eq_iff {x y : Bytes} (same : x.length = y.length) (ones : Nat) :
    applyMask x (cidrMask ones x.length) = applyMask y (cidrMask ones x.length) ↔
      (bits x).take ones = (bits y).take ones := by
  induction x generalizing y ones with
  | nil =>
    cases y with
    | nil => simp
    | cons => simp at same
  | cons a x ih =>
    cases y with
    | nil => simp at same
    | cons b y =>
      have lengths : x.length = y.length := Nat.succ.inj same
      rw [length_cons, cidrMask, bits_cons, bits_cons]
      split
      case isTrue whole =>
        have front (byte : UInt8) (rest : List Bool) :
            (byteBits byte ++ rest).take ones = byteBits byte ++ rest.take (ones - 8) := by
          rw [take_append, byteBits_length,
            take_of_length_le ((byteBits_length byte).trans_le whole)]
        have kept (byte : UInt8) (rest mask : Bytes) :
            applyMask (byte :: rest) (0xff :: mask) = byte :: applyMask rest mask := by
          rw [applyMask, zipWith_cons_cons, show byte &&& 0xff = byte from UInt8.and_neg_one]
          rfl
        rw [front, front, kept, kept, List.cons.injEq, ih lengths]
        constructor
        · rintro ⟨rfl, rest⟩
          rw [rest]
        · intro whole_same
          obtain ⟨first, rest⟩ :=
            append_inj whole_same (by rw [byteBits_length, byteBits_length])
          exact ⟨eq_of_byteBits first, rest⟩
      case isFalse less =>
        have front (byte : UInt8) (rest : List Bool) :
            (byteBits byte ++ rest).take ones = (byteBits byte).take ones :=
          take_append_of_le_length (by rw [byteBits_length]; omega)
        have none_left := (ih lengths 0).mpr rfl
        rw [front, front, ← and_maskByte_eq_iff (by omega)]
        exact ⟨fun same => (List.cons.inj same).1, fun same => congrArg₂ List.cons same none_left⟩

theorem applyMask_length {mask : Bytes} (same : mask.length = bytes.length) :
    (applyMask bytes mask).length = bytes.length := by
  simp [applyMask, same]

theorem applyMask_idem (bytes mask : Bytes) :
    applyMask (applyMask bytes mask) mask = applyMask bytes mask := by
  induction bytes generalizing mask with
  | nil => rfl
  | cons byte bytes ih =>
    cases mask with
    | nil => rfl
    | cons first mask =>
      have twice : byte &&& first &&& first = byte &&& first := by
        rw [UInt8.and_assoc, UInt8.and_self]
      exact congrArg₂ List.cons twice (ih mask)

/-- The addresses of a family, given by their number of bytes, that begin with some bits. -/
structure Network where
  width : Nat
  front : List Bool

def Network.Covers (network : Network) (ip : Bytes) : Prop :=
  (shortest ip).length = network.width ∧ network.front <+: bits (shortest ip)

/-- What a network stands for: one within the IPv4-mapped addresses is an IPv4 network. -/
def networkOf (bytes : Bytes) (ones : Nat) : Network :=
  if bytes.length = 16 ∧ bytes.take 12 = v4InV6Prefix ∧ 96 ≤ ones then
    ⟨4, (bits (bytes.drop 12)).take (ones - 96)⟩
  else ⟨bytes.length, (bits bytes).take ones⟩

theorem bits_length (bytes : Bytes) : (bits bytes).length = 8 * bytes.length := by
  induction bytes with
  | nil => rfl
  | cons byte bytes ih =>
    rw [bits_cons, length_append, byteBits_length, ih, length_cons]
    omega

theorem masked_iff_prefix {number ip : Bytes} (fits : ones ≤ 8 * number.length)
    (same : ip.length = number.length) :
    applyMask (applyMask number (cidrMask ones number.length)) (cidrMask ones number.length) =
        applyMask ip (cidrMask ones number.length) ↔
      (bits number).take ones <+: bits ip := by
  rw [applyMask_idem, applyMask_eq_iff same.symm, prefix_iff_eq_take, length_take,
    bits_length, Nat.min_eq_left fits]

theorem and_maskByte_ne (below : ones < 8) (byte : UInt8) : byte &&& maskByte ones ≠ 0xff := by
  intro full
  have unset : (maskByte ones).toNat.testBit 0 = false := by
    rw [maskByte_testBit ones below 0 (by decide)]
    exact decide_eq_false (by omega)
  have bit := congrArg (fun byte => byte.toNat.testBit 0) full
  rw [UInt8.toNat_and, Nat.testBit_and, unset, Bool.and_false] at bit
  exact absurd bit (by decide)

theorem applyMask_append {x y m n : Bytes} (same : x.length = m.length) :
    applyMask (x ++ y) (m ++ n) = applyMask x m ++ applyMask y n :=
  zipWith_append same

theorem cidrMask_full {count : Nat} (full : 8 * count ≤ ones) :
    cidrMask ones count = List.replicate count 0xff := by
  induction count generalizing ones with
  | zero => rfl
  | succ count ih => rw [cidrMask, if_pos (by omega), ih (by omega), replicate_succ]

theorem applyMask_full (bytes : Bytes) :
    applyMask bytes (List.replicate bytes.length 0xff) = bytes := by
  induction bytes with
  | nil => rfl
  | cons byte bytes ih =>
    exact congrArg₂ List.cons (show byte &&& 0xff = byte from UInt8.and_neg_one) ih

theorem masked_mapped_iff {front : Bytes} (twelve : front.length = 12) (ones : Nat) :
    applyMask front (cidrMask ones 12) = v4InV6Prefix ↔ front = v4InV6Prefix ∧ 96 ≤ ones := by
  by_cases full : 96 ≤ ones
  · have kept : applyMask front (cidrMask ones 12) = front := by
      rw [cidrMask_full full, ← twelve, applyMask_full]
    rw [kept]
    exact ⟨fun mapped => ⟨mapped, full⟩, And.left⟩
  · refine ⟨fun mapped => ?_, fun both => absurd both.2 full⟩
    -- the last byte of the mask is not full
    obtain ⟨first, last, rfl⟩ : ∃ first last, front = first ++ [last] :=
      ⟨front.dropLast, front.getLast (ne_nil_of_length_eq_add_one twelve),
        (dropLast_append_getLast _).symm⟩
    have eleven : first.length = 11 := by simpa using twelve
    have last_mask : cidrMask (ones - 8 * 11) 1 = [maskByte (ones - 8 * 11)] := by
      rw [cidrMask, if_neg (by omega)]
      rfl
    rw [cidrMask_add ones 11 1, applyMask_append (by rw [eleven, cidrMask_length]), last_mask]
      at mapped
    have end_byte : last &&& maskByte (ones - 8 * 11) = 0xff := by
      simpa [applyMask, v4InV6Prefix] using congrArg List.getLast? mapped
    exact absurd end_byte (and_maskByte_ne (by omega) last)

/-- A parsed network compares addresses of the family it stands for. -/
theorem numberAndMask_ofParts (family : bytes.length = 4 ∨ bytes.length = 16) :
    (IPNet.ofParts bytes ones).numberAndMask =
      if bytes.length = 16 ∧ bytes.take 12 = v4InV6Prefix ∧ 96 ≤ ones then
        (applyMask (bytes.drop 12) (cidrMask (ones - 96) 4), cidrMask (ones - 96) 4)
      else (applyMask bytes (cidrMask ones bytes.length), cidrMask ones bytes.length) := by
  have length : (applyMask bytes (cidrMask ones bytes.length)).length = bytes.length :=
    applyMask_length (cidrMask_length _ _)
  unfold IPNet.numberAndMask IPNet.ofParts to4
  rw [length, cidrMask_length]
  obtain four | sixteen := family
  · have other : bytes.length ≠ 16 := by omega
    rw [if_pos four, if_neg other, if_neg fun mapped => other mapped.1]
  · have halves : applyMask bytes (cidrMask ones 16) =
        applyMask (bytes.take 12) (cidrMask ones 12) ++
          applyMask (bytes.drop 12) (cidrMask (ones - 96) 4) := by
      rw [cidrMask_add ones 12 4, ← applyMask_append, take_append_drop]
      rw [length_take, sixteen, cidrMask_length]
      rfl
    have first_length : (applyMask (bytes.take 12) (cidrMask ones 12)).length = 12 := by
      simp [applyMask, cidrMask_length, sixteen]
    have mapped := masked_mapped_iff (show (bytes.take 12).length = 12 by simp [sixteen]) ones
    rw [if_neg (by omega), sixteen, halves, take_left' first_length, drop_left' first_length]
    by_cases front : applyMask (bytes.take 12) (cidrMask ones 12) = v4InV6Prefix
    · rw [if_pos ⟨rfl, front⟩, if_pos rfl, if_pos ⟨rfl, mapped.mp front⟩, cidrMask_add ones 12 4,
        drop_left' (cidrMask_length _ _)]
    · rw [if_neg fun both => front both.2]
      exact (if_neg fun both => front (mapped.mpr both.2)).symm

theorem contains_ofParts (family : bytes.length = 4 ∨ bytes.length = 16)
    (fits : ones ≤ bytes.length * 8) (ip : Bytes) :
    (IPNet.ofParts bytes ones).contains ip = true ↔ (networkOf bytes ones).Covers ip := by
  have compared (number : Bytes) (ones : Nat) (fits : ones ≤ 8 * number.length) :
      (shortest ip).length = (applyMask number (cidrMask ones number.length)).length ∧
          applyMask (applyMask number (cidrMask ones number.length)) (cidrMask ones number.length) =
            applyMask (shortest ip) (cidrMask ones number.length) ↔
        (shortest ip).length = number.length ∧
          (bits number).take ones <+: bits (shortest ip) := by
    rw [applyMask_length (cidrMask_length _ _)]
    exact and_congr_right fun same => masked_iff_prefix fits same
  unfold IPNet.contains networkOf Network.Covers
  rw [numberAndMask_ofParts family]
  by_cases mapped : bytes.length = 16 ∧ bytes.take 12 = v4InV6Prefix ∧ 96 ≤ ones
  · have four : (bytes.drop 12).length = 4 := by rw [length_drop, mapped.1]
    have equal := compared (bytes.drop 12) (ones - 96) (by omega)
    simpa [mapped] using equal
  · simpa [mapped] using compared bytes ones (by omega)

/-! ## Two spellings -/

theorem parseIPv4_length (parsed : parseIPv4 text = some bytes) : bytes.length = 4 := by
  unfold parseIPv4 at parsed
  split at parsed
  · cases parsed
    rfl
  · cases parsed

theorem expandEllipsis_length {read : Bytes × Option Nat}
    (expanded : expandEllipsis read = some bytes) : bytes.length = 16 := by
  obtain ⟨front, none | position⟩ := read
  · obtain ⟨whole, rfl⟩ : front.length = 16 ∧ front = bytes := by
      simpa [expandEllipsis] using expanded
    exact whole
  · obtain ⟨short, rfl⟩ : front.length < 16 ∧
        front.take position ++ (List.replicate (16 - front.length) 0 ++ front.drop position) =
          bytes := by
      simpa [expandEllipsis] using expanded
    simp only [length_append, length_replicate, length_take, length_drop]
    omega

theorem parseIPv6_length (parsed : parseIPv6 text = some bytes) : bytes.length = 16 := by
  unfold parseIPv6 at parsed
  split at parsed
  · cases parsed
    rfl
  · obtain ⟨read, -, expanded⟩ := Option.bind_eq_some_iff.mp parsed
    exact expandEllipsis_length expanded
  · obtain ⟨read, -, expanded⟩ := Option.bind_eq_some_iff.mp parsed
    exact expandEllipsis_length expanded

theorem parseAddr_length (parsed : parseAddr text = some bytes) :
    bytes.length = 4 ∨ bytes.length = 16 := by
  unfold parseAddr at parsed
  split at parsed
  · exact .inl (parseIPv4_length parsed)
  · exact .inr (parseIPv6_length parsed)
  · cases parsed

theorem parseIP_length {text : String} {ip : Bytes} (parsed : parseIP text = some ip) :
    ip.length = 16 := by
  obtain ⟨bytes, read, rfl⟩ := Option.map_eq_some_iff.mp parsed
  unfold to16
  split
  case isTrue four => rw [length_append, four]; rfl
  case isFalse other => exact (parseAddr_length read).resolve_left other

def groupText (a b : UInt8) : List Char :=
  [a.toNat / 16, a.toNat % 16, b.toNat / 16, b.toNat % 16].map Nat.digitChar

def colonText : Bytes → List Char
  | a :: b :: c :: rest => groupText a b ++ ':' :: colonText (c :: rest)
  | [a, b] => groupText a b
  | _ => []

def dottedText (bytes : Bytes) : List Char :=
  ['.'].intercalate (bytes.map fun byte => Nat.toDigits 10 byte.toNat)

def mixedText (ip : Bytes) : List Char :=
  colonText (ip.take 12) ++ ':' :: dottedText (ip.drop 12)

theorem hexValue_digitChar : ∀ n < 16, hexValue (Nat.digitChar n) = some n := by
  decide

theorem hexValue_of_isDigit (digit : c.isDigit) : (hexValue c).isSome := by
  have range : '0' ≤ c ∧ c ≤ '9' := by
    simpa [Char.isDigit, Char.le_def] using digit
  rw [hexValue, if_pos range]
  rfl

variable {n : Nat}

theorem toDigits_hex : ∀ c ∈ Nat.toDigits 10 n, (hexValue c).isSome := fun _ digit =>
  hexValue_of_isDigit (Nat.isDigit_of_mem_toDigits (by decide) (by decide) digit)

theorem decimal_toDigits (n : Nat) : decimal (Nat.toDigits 10 n) = some n := by
  have digits : (Nat.toDigits 10 n).all Char.isDigit := all_eq_true.mpr fun _ digit =>
    Nat.isDigit_of_mem_toDigits (by decide) (by decide) digit
  have value : (Nat.toDigits 10 n).foldl (fun value c => value * 10 + digitValue c) 0 = n := by
    simp only [Nat.mul_comm _ 10]
    exact Nat.ofDigitChars_eq_foldl.symm.trans Nat.ofDigitChars_ten_toDigits
  rw [decimal, if_pos ⟨Nat.toDigits_ne_nil, digits⟩, value]

theorem head_toDigits (positive : 0 < n) : (Nat.toDigits 10 n).head? ≠ some '0' := by
  -- the first digit of a number is that of a tenth of it
  induction n using Nat.strongRecOn with
  | ind n ih =>
    by_cases small : n < 10
    · have digit : ∀ n < 10, 0 < n → [Nat.digitChar n].head? ≠ some '0' := by decide
      rw [Nat.toDigits_of_lt_base small]
      exact digit n small positive
    · rw [Nat.toDigits_of_base_le (by decide) (by omega),
        head?_append_of_ne_nil _ Nat.toDigits_ne_nil]
      exact ih (n / 10) (by omega) (by omega)

theorem octet_toDigits : octet (Nat.toDigits 10 byte.toNat) = some byte := by
  have small := byte.toNat_lt
  have unpadded : (Nat.toDigits 10 byte.toNat).length = 1 ∨
      (Nat.toDigits 10 byte.toNat).head? ≠ some '0' := by
    rcases Nat.eq_zero_or_pos byte.toNat with zero | positive
    · exact .inl (by rw [zero]; rfl)
    · exact .inr (head_toDigits positive)
  unfold octet
  rw [decimal_toDigits]
  dsimp only
  rw [if_pos ⟨by omega, unpadded⟩, UInt8.ofNat_toNat]

theorem group_toDigits : (group (Nat.toDigits 10 byte.toNat)).isSome := by
  have small := byte.toNat_lt
  have short : (Nat.toDigits 10 byte.toNat).length ≤ 4 :=
    (Nat.length_toDigits_le_iff (by decide) (by decide)).mpr (by omega)
  unfold group
  rw [if_neg (by simp only [Nat.toDigits_ne_nil, false_or, not_lt, short])]
  rfl

theorem groupText_digits {a b : UInt8} (digit : c ∈ groupText a b) :
    ∃ n < 16, c = Nat.digitChar n := by
  have la := a.toNat_lt
  have lb := b.toNat_lt
  obtain ⟨n, inside, rfl⟩ := mem_map.mp digit
  refine ⟨n, ?_, rfl⟩
  simp only [mem_cons, not_mem_nil, or_false] at inside
  omega

theorem group_groupText (a b : UInt8) : group (groupText a b) = some [a, b] := by
  have la := a.toNat_lt
  have lb := b.toNat_lt
  have value : (groupText a b).foldl (fun value c => value * 16 + (hexValue c).getD 0) 0 =
      a.toNat * 256 + b.toNat := by
    simp only [groupText, map_cons, map_nil, foldl_cons, foldl_nil,
      hexValue_digitChar (a.toNat / 16) (by omega), hexValue_digitChar (a.toNat % 16) (by omega),
      hexValue_digitChar (b.toNat / 16) (by omega), hexValue_digitChar (b.toNat % 16) (by omega),
      Option.getD_some]
    omega
  unfold group
  rw [if_neg (by simp [groupText]), value]
  dsimp only
  rw [show (a.toNat * 256 + b.toNat) / 256 = a.toNat by omega,
    show (a.toNat * 256 + b.toNat) % 256 = b.toNat by omega, UInt8.ofNat_toNat, UInt8.ofNat_toNat]

theorem span_digits {digits rest : List Char} (all : ∀ c ∈ digits, (hexValue c).isSome)
    (stops : ∀ c ∈ rest.head?, hexValue c = none) :
    (digits ++ rest).span (fun c => (hexValue c).isSome) = (digits, rest) := by
  rw [span_eq_takeWhile_dropWhile, takeWhile_append_of_pos all, dropWhile_append_of_pos all]
  cases rest with
  | nil => simp
  | cons c rest => simp [stops c rfl]

theorem groupText_hex (a b : UInt8) : ∀ c ∈ groupText a b, (hexValue c).isSome := by
  intro c digit
  obtain ⟨n, below, rfl⟩ := groupText_digits digit
  rw [hexValue_digitChar n below]
  rfl

structure Spells (digits : List Char) (a b : UInt8) : Prop where
  hex : ∀ c ∈ digits, (hexValue c).isSome
  group : group digits = some [a, b]

theorem groupText_spells (a b : UInt8) : Spells (groupText a b) a b :=
  ⟨groupText_hex a b, group_groupText a b⟩

theorem ne_colon (hex : (hexValue c).isSome) : c ≠ ':' := by
  rintro rfl
  exact absurd hex (by decide)

section Spelled

variable {digits : List Char} {a b : UInt8} (spelled : Spells digits a b) (room : Nat)
  (bytes : Bytes) (ellipsis : Option Nat)

include spelled

theorem parseGroups_last :
    parseGroups (room + 1) bytes ellipsis digits = some (bytes ++ [a, b], ellipsis) := by
  have read := @span_digits _ [] spelled.hex (by simp)
  rw [append_nil] at read
  rw [parseGroups, read]
  dsimp only
  rw [spelled.group]

theorem parseGroups_cons {c : Char} (more : List Char) (single : c ≠ ':') :
    parseGroups (room + 1) bytes ellipsis (digits ++ ':' :: c :: more) =
      parseGroups room (bytes ++ [a, b]) ellipsis (c :: more) := by
  have read := @span_digits _ (':' :: c :: more) spelled.hex (by simp; decide)
  rw [parseGroups, read]
  dsimp only
  rw [spelled.group]
  split <;> simp_all

end Spelled

def joined (spell : UInt8 → UInt8 → List Char) : Bytes → List Char
  | a :: b :: c :: rest => spell a b ++ ':' :: joined spell (c :: rest)
  | [a, b] => spell a b
  | _ => []

theorem colonText_eq_joined (bytes : Bytes) : colonText bytes = joined groupText bytes := by
  fun_induction colonText bytes with
  | case1 a b c rest ih => rw [joined, ih]
  | case2 a b => rfl
  | case3 bytes long short =>
    unfold joined
    split
    · exact absurd rfl (long _ _ _ _)
    · exact absurd rfl (short _ _)
    · rfl

theorem exists_last_group (even : bytes.length = 2 * (n + 1)) :
    ∃ front a b, bytes = front ++ [a, b] ∧ front.length = 2 * n := by
  obtain ⟨a, b, last⟩ := length_eq_two.mp
    (show (bytes.drop (2 * n)).length = 2 by rw [length_drop]; omega)
  refine ⟨bytes.take (2 * n), a, b, by rw [← last, take_append_drop], ?_⟩
  rw [length_take]
  omega

section Joined

variable {spell : UInt8 → UInt8 → List Char} (spells : ∀ a b, Spells (spell a b) a b)

theorem joined_cons (a b : UInt8) {rest : Bytes} (more : rest ≠ []) :
    joined spell (a :: b :: rest) = spell a b ++ ':' :: joined spell rest := by
  obtain ⟨c, rest, rfl⟩ := exists_cons_of_ne_nil more
  rfl

include spells

variable (room : Nat) (done : Bytes) (ellipsis : Option Nat)

theorem spell_ne_nil (a b : UInt8) : spell a b ≠ [] := by
  intro empty
  have read := (spells a b).group
  rw [empty] at read
  cases read

theorem joined_head {bytes : Bytes} (two : 2 ≤ bytes.length) :
    ∃ c more, joined spell bytes = c :: more ∧ c ≠ ':' := by
  have first (a b : UInt8) : ∃ c more, spell a b = c :: more ∧ c ≠ ':' := by
    obtain ⟨c, more, shape⟩ := exists_cons_of_ne_nil (spell_ne_nil spells a b)
    exact ⟨c, more, shape, ne_colon ((spells a b).hex c (by simp [shape]))⟩
  match bytes, two with
  | [a, b], _ => exact first a b
  | a :: b :: c :: rest, _ =>
    obtain ⟨d, more, shape, single⟩ := first a b
    exact ⟨d, _, by rw [joined, shape]; rfl, single⟩

theorem parseGroups_joined {front : Bytes} (even : front.length = 2 * n) (a b : UInt8)
    (rest : List Char) :
    parseGroups (room + n + 1) done ellipsis (joined spell (front ++ [a, b]) ++ rest) =
      parseGroups (room + 1) (done ++ front) ellipsis (spell a b ++ rest) := by
  induction n generalizing done front with
  | zero =>
    obtain rfl := eq_nil_of_length_eq_zero (by simpa using even)
    rw [append_nil]
    rfl
  | succ n ih =>
    match front, even with
    | x :: y :: front, even =>
      have even' : front.length = 2 * n := by
        simp only [length_cons] at even
        omega
      have more : front ++ [a, b] ≠ [] := by simp
      have two : 2 ≤ (front ++ [a, b]).length := by simp
      obtain ⟨c, tail, shape, single⟩ := joined_head spells two
      have next := ih (done ++ [x, y]) even'
      rw [shape, append_assoc] at next
      rw [cons_append, cons_append, joined_cons x y more, shape, append_assoc,
        cons_append, cons_append, parseGroups_cons (spells x y) _ _ _ _ single]
      exact next

theorem parseGroups_joined_last (even : bytes.length = 2 * (n + 1)) :
    parseGroups (room + n + 1) done ellipsis (joined spell bytes) =
      some (done ++ bytes, ellipsis) := by
  obtain ⟨front, a, b, rfl, evenFront⟩ := exists_last_group even
  have read := parseGroups_joined spells room done ellipsis evenFront a b []
  rw [append_nil, append_nil, parseGroups_last (spells a b)] at read
  rw [read, append_assoc]

end Joined

theorem parseIPv4_dottedText (w x y z : UInt8) :
    parseIPv4 (dottedText [w, x, y, z]) = some [w, x, y, z] := by
  have noDot (byte : UInt8) : '.' ∉ Nat.toDigits 10 byte.toNat := fun inside =>
    absurd (toDigits_hex _ inside) (by decide)
  unfold parseIPv4 dottedText
  rw [splitOn_intercalate '.' (by simp [noDot]) (by simp)]
  simp [octet_toDigits]

theorem dottedText_shape (w x y z : UInt8) :
    ∃ more, dottedText [w, x, y, z] = Nat.toDigits 10 w.toNat ++ '.' :: more :=
  ⟨_, by simp [dottedText, intercalate_cons_cons]; rfl⟩

/-- After six groups the rest may be an IPv4 address. -/
theorem parseGroups_dottedText (room : Nat) {bytes : Bytes} (twelve : bytes.length = 12)
    (w x y z : UInt8) :
    parseGroups (room + 1) bytes none (dottedText [w, x, y, z]) =
      some (bytes ++ [w, x, y, z], none) := by
  obtain ⟨more, shape⟩ := dottedText_shape w x y z
  obtain ⟨two, grouped⟩ := Option.isSome_iff_exists.mp (group_toDigits w)
  have read := @span_digits _ ('.' :: more) (@toDigits_hex w.toNat) (by simp; decide)
  rw [parseGroups, shape, read]
  dsimp only
  rw [grouped]
  rw [if_neg (by simp [twelve]), ← shape, parseIPv4_dottedText]
  rfl

theorem parseAddr_group {digits : List Char} {a b : UInt8} (spelled : Spells digits a b)
    (rest : List Char) :
    parseAddr (digits ++ ':' :: rest) =
      (parseGroups 8 [] none (digits ++ ':' :: rest)).bind expandEllipsis := by
  have colon : (digits ++ ':' :: rest).find? (fun c => c = '.' ∨ c = ':') = some ':' := by
    have none_before : digits.find? (fun c => c = '.' ∨ c = ':') = none := by
      refine find?_eq_none.mpr fun c digit => ?_
      have hex := spelled.hex c digit
      have noDot : c ≠ '.' := by
        rintro rfl
        exact absurd hex (by decide)
      simp [noDot, ne_colon hex]
    rw [find?_append, none_before]
    rfl
  have first : parseIPv6 (digits ++ ':' :: rest) =
      (parseGroups 8 [] none (digits ++ ':' :: rest)).bind expandEllipsis := by
    obtain ⟨c, more, rfl⟩ : ∃ c more, digits = c :: more := by
      refine exists_cons_of_ne_nil fun empty => ?_
      have read := spelled.group
      rw [empty] at read
      cases read
    have head := ne_colon (spelled.hex c mem_cons_self)
    unfold parseIPv6
    split <;> simp_all
  unfold parseAddr
  rw [colon]
  exact first

variable {ip : Bytes}

theorem parseIP_of_groups {text digits rest : List Char} {a b : UInt8} {read : Bytes × Option Nat}
    (spelled : Spells digits a b) (shape : text = digits ++ ':' :: rest)
    (parsed : parseGroups 8 [] none text = some read) (expanded : expandEllipsis read = some ip) :
    parseIP (String.ofList text) = some ip := by
  have sixteen := expandEllipsis_length expanded
  unfold parseIP
  rw [String.toList_ofList, shape, parseAddr_group spelled, ← shape, parsed, Option.bind_some,
    expanded]
  simp [to16, sixteen]

section

variable (sixteen : ip.length = 16)

include sixteen

theorem expandEllipsis_whole : expandEllipsis (ip, none) = some ip := if_pos sixteen

theorem parseIP_colonText : parseIP (String.ofList (colonText ip)) = some ip := by
  have read := parseGroups_joined_last groupText_spells 0 [] none (n := 7) sixteen
  rw [← colonText_eq_joined] at read
  match ip, sixteen with
  | a :: b :: c :: rest, sixteen =>
    exact parseIP_of_groups (groupText_spells a b) rfl read (expandEllipsis_whole sixteen)

theorem parseIP_mixedText : parseIP (String.ofList (mixedText ip)) = some ip := by
  obtain ⟨front, a, b, w, x, y, z, ten, rfl⟩ : ∃ front a b w x y z, front.length = 10 ∧
      ip = (front ++ [a, b]) ++ [w, x, y, z] := by
    obtain ⟨w, x, y, z, four⟩ : ∃ w x y z, ip.drop 12 = [w, x, y, z] :=
      length_eq_four.mp (by simp [sixteen])
    obtain ⟨a, b, two⟩ := length_eq_two.mp
      (show ((ip.take 12).drop 10).length = 2 by simp [sixteen])
    refine ⟨(ip.take 12).take 10, a, b, w, x, y, z, by simp [sixteen], ?_⟩
    rw [← two, take_append_drop, ← four, take_append_drop]
  have twelve : (front ++ [a, b]).length = 12 := by simp [ten]
  have text : mixedText ((front ++ [a, b]) ++ [w, x, y, z]) =
      colonText (front ++ [a, b]) ++ ':' :: dottedText [w, x, y, z] := by
    rw [mixedText, take_left' twelve, drop_left' twelve]
  have read : parseGroups 8 [] none (mixedText ((front ++ [a, b]) ++ [w, x, y, z])) =
      some ((front ++ [a, b]) ++ [w, x, y, z], none) := by
    obtain ⟨more, shape⟩ := dottedText_shape w x y z
    obtain ⟨c, digits, first⟩ := exists_cons_of_ne_nil (@Nat.toDigits_ne_nil w.toNat 10)
    have hex := @toDigits_hex w.toNat c (by rw [first]; exact .head _)
    have last := parseGroups_dottedText 1 twelve w x y z
    rw [shape, first, cons_append] at last
    rw [text, shape, first, cons_append, colonText_eq_joined,
      parseGroups_joined groupText_spells 2 [] none (n := 5) ten a b,
      parseGroups_cons (groupText_spells a b) _ _ _ _ (ne_colon hex)]
    exact last
  match front, ten with
  | p :: q :: r :: front, _ =>
    exact parseIP_of_groups (groupText_spells p q)
      (show _ = groupText p q ++ ':' :: _ by rw [text]; rfl) read (expandEllipsis_whole sixteen)

omit sixteen in
theorem dot_not_mem_colonText (bytes : Bytes) : '.' ∉ colonText bytes := by
  have group (a b : UInt8) : '.' ∉ groupText a b := fun inside =>
    absurd (groupText_hex a b _ inside) (by decide)
  fun_induction colonText bytes with
  | case1 a b c rest ih => simp [group, ih]
  | case2 a b => exact group a b
  | case3 => simp

theorem exists_spellings : ∃ s t, s ≠ t ∧ parseIP s = some ip ∧ parseIP t = some ip := by
  refine ⟨_, _, fun same => ?_, parseIP_colonText sixteen, parseIP_mixedText sixteen⟩
  refine dot_not_mem_colonText ip ?_
  obtain ⟨w, x, y, z, four⟩ : ∃ w x y z, ip.drop 12 = [w, x, y, z] :=
    length_eq_four.mp (by simp [sixteen])
  obtain ⟨more, shape⟩ := dottedText_shape w x y z
  rw [String.ofList_inj.mp same, mixedText, four, shape]
  simp

end

theorem cidrParts_bounds {text : String} {bytes : Bytes} {ones : Nat}
    (parsed : cidrParts text = some (bytes, ones)) :
    (bytes.length = 4 ∨ bytes.length = 16) ∧ ones ≤ bytes.length * 8 := by
  unfold cidrParts at parsed
  split at parsed
  · cases parsed
  · split at parsed
    case h_1 read _ =>
      split at parsed
      case isTrue fits =>
        cases parsed
        exact ⟨parseAddr_length read, fits⟩
      case isFalse => cases parsed
    case h_2 => cases parsed

def cidrNetwork (text : String) : Option Network :=
  (cidrParts text).map fun parts => networkOf parts.1 parts.2

theorem parseCIDR_cidrNetwork (text : String) :
    (parseCIDR text = none ∧ cidrNetwork text = none) ∨
      ∃ net covered, parseCIDR text = some net ∧ cidrNetwork text = some covered ∧
        ∀ ip, net.contains ip = true ↔ covered.Covers ip := by
  unfold parseCIDR cidrNetwork
  cases parsed : cidrParts text with
  | none => exact .inl ⟨rfl, rfl⟩
  | some parts =>
    obtain ⟨family, fits⟩ := cidrParts_bounds parsed
    exact .inr ⟨_, _, rfl, rfl, contains_ofParts family fits⟩

end SiprecServer.Lib.IpAddress
