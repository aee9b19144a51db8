import SiprecServer.Lib.Endpoint

/-!
# Classes of addresses

The tests of addresses by their bytes, and the networks that they stand for.
-/

namespace SiprecServer.Lib.IpClasses

open Lib.IpAddress Lib.Endpoint

def loopback6 : Bytes := List.replicate 15 0 ++ [1]

def unspecified6 : Bytes := List.replicate 16 0

/-- Equality of addresses: an IPv4 address equals its IPv4-mapped form. -/
def equal (ip other : Bytes) : Bool := to16 ip = to16 other

variable (ip : Bytes)

def isUnspecified : Bool := equal ip [0, 0, 0, 0] || equal ip unspecified6

def isLoopback : Bool :=
  match to4 ip with
  | some four => four.head? = some 127
  | none => equal ip loopback6

def isPrivate : Bool :=
  match to4 ip with
  | some [a, b, _, _] => a = 10 || (a = 172 && b &&& 0xf0 = 16) || (a = 192 && b = 168)
  | some _ => false
  | none =>
    match ip with
    | a :: _ => ip.length = 16 && a &&& 0xfe = 0xfc
    | [] => false

def isLinkLocalUnicast : Bool :=
  match to4 ip with
  | some [a, b, _, _] => a = 169 && b = 254
  | some _ => false
  | none =>
    match ip with
    | a :: b :: _ => ip.length = 16 && a = 0xfe && b &&& 0xc0 = 0x80
    | _ => false

def isLinkLocalMulticast : Bool :=
  match to4 ip with
  | some [a, b, c, _] => a = 224 && b = 0 && c = 0
  | some _ => false
  | none =>
    match ip with
    | a :: b :: _ => ip.length = 16 && a = 0xff && b &&& 0x0f = 0x02
    | _ => false

/-! ## Networks -/

def group6 (a b : UInt8) : Bytes := a :: b :: List.replicate 14 0

def Unspecified (ip : IP) : Prop :=
  (networkOf [0, 0, 0, 0] 32).Covers ip.bytes ∨ (networkOf unspecified6 128).Covers ip.bytes

def Loopback (ip : IP) : Prop :=
  (networkOf [127, 0, 0, 0] 8).Covers ip.bytes ∨ (networkOf loopback6 128).Covers ip.bytes

def Private (ip : IP) : Prop :=
  (networkOf [10, 0, 0, 0] 8).Covers ip.bytes ∨ (networkOf [172, 16, 0, 0] 12).Covers ip.bytes ∨
    (networkOf [192, 168, 0, 0] 16).Covers ip.bytes ∨ (networkOf (group6 0xfc 0) 7).Covers ip.bytes

/-- Unicast addresses of a link, and multicast addresses of that scope; the flags of an IPv6
multicast address are free. -/
def LinkLocal (ip : IP) : Prop :=
  (networkOf [169, 254, 0, 0] 16).Covers ip.bytes ∨
    (networkOf (group6 0xfe 0x80) 10).Covers ip.bytes ∨
    (networkOf [224, 0, 0, 0] 24).Covers ip.bytes ∨
    ∃ flags < (16 : UInt8), (networkOf (group6 0xff (flags * 16 + 2)) 16).Covers ip.bytes

variable {net : Bytes} {ones : Nat}

section Covers

variable {ip : IP}

theorem sixteen_of_not_four (notFour : to4 ip.bytes = none) : ip.bytes.length = 16 := by
  refine ip.family.resolve_left fun short => ?_
  rw [to4, if_pos short] at notFour
  cases notFour

theorem family_cases (ip : IP) :
    (∃ a b c d, to4 ip.bytes = some [a, b, c, d]) ∨
      (to4 ip.bytes = none ∧ ip.bytes.length = 16) := by
  cases four : to4 ip.bytes with
  | some bytes =>
    obtain ⟨a, b, c, d, rfl⟩ := List.length_eq_four.mp (to4_spec four).1
    exact .inl ⟨a, b, c, d, rfl⟩
  | none => exact .inr ⟨rfl, sixteen_of_not_four four⟩

theorem covers_iff (fits : ones ≤ 8 * net.length)
    (unmapped : net.length ≠ 16 ∨ net.take 12 ≠ v4InV6Prefix) :
    (networkOf net ones).Covers ip.bytes ↔ (shortest ip.bytes).length = net.length ∧
      applyMask net (cidrMask ones net.length) =
        applyMask (shortest ip.bytes) (cidrMask ones net.length) := by
  have plain : networkOf net ones = ⟨net.length, (bits net).take ones⟩ :=
    if_neg fun mapped => unmapped.elim (fun other => other mapped.1) fun other => other mapped.2.1
  rw [plain]
  refine and_congr_right fun same => ?_
  rw [← masked_iff_prefix fits same, applyMask_idem]

theorem covers4_iff (mask : Bytes) (four : net.length = 4) (fits : ones ≤ 32)
    (isMask : cidrMask ones 4 = mask) (normal : applyMask net mask = net) :
    (networkOf net ones).Covers ip.bytes ↔
      ∃ address, to4 ip.bytes = some address ∧ applyMask address mask = net := by
  rw [covers_iff (by omega) (.inl (by omega)), four, isMask, normal, shortest, eq_comm (a := net)]
  rcases family_cases ip with ⟨a, b, c, d, isFour⟩ | ⟨notFour, sixteen⟩
  · simp [isFour]
  · simp [notFour, sixteen]

theorem covers6_iff {mask : Bytes} (sixteen : net.length = 16) (fits : ones ≤ 128)
    (unmapped : net.take 12 ≠ v4InV6Prefix) (isMask : cidrMask ones 16 = mask)
    (normal : applyMask net mask = net) :
    (networkOf net ones).Covers ip.bytes ↔
      to4 ip.bytes = none ∧ applyMask ip.bytes mask = net := by
  rw [covers_iff (by omega) (.inr unmapped), sixteen, isMask, normal, shortest,
    eq_comm (a := net)]
  rcases family_cases ip with ⟨a, b, c, d, isFour⟩ | ⟨notFour, long⟩
  · simp [isFour]
  · simp [notFour, long]

theorem applyMask_zeros (bytes : Bytes) :
    applyMask bytes (List.replicate bytes.length 0) = List.replicate bytes.length 0 := by
  induction bytes with
  | nil => rfl
  | cons byte bytes ih => exact congrArg₂ List.cons UInt8.and_zero ih

theorem masked_front (a b m n : UInt8) {rest : Bytes} (fourteen : rest.length = 14) :
    applyMask (a :: b :: rest) (m :: n :: List.replicate 14 0) =
      (a &&& m) :: (b &&& n) :: List.replicate 14 0 := by
  have zeros := applyMask_zeros rest
  rw [fourteen] at zeros
  show (a &&& m) :: (b &&& n) :: applyMask rest (List.replicate 14 0) = _
  rw [zeros]

theorem front_of_sixteen {bytes : Bytes} (sixteen : bytes.length = 16) :
    ∃ a b rest, bytes = a :: b :: rest ∧ rest.length = 14 := by
  obtain ⟨a, more, rfl⟩ := List.exists_cons_of_length_eq_add_one sixteen
  have fifteen : more.length = 15 := Nat.succ.inj sixteen
  obtain ⟨b, rest, rfl⟩ := List.exists_cons_of_length_eq_add_one fifteen
  exact ⟨a, b, rest, rfl, Nat.succ.inj fifteen⟩

theorem covers_group6_iff {x y m n : UInt8} (ones : Nat) (fits : ones ≤ 16)
    (isMask : cidrMask ones 16 = m :: n :: List.replicate 14 0) (first : x &&& m = x)
    (second : y &&& n = y) :
    (networkOf (group6 x y) ones).Covers ip.bytes ↔ to4 ip.bytes = none ∧
      ∃ a b rest, ip.bytes = a :: b :: rest ∧ a &&& m = x ∧ b &&& n = y := by
  have normal : applyMask (group6 x y) (m :: n :: List.replicate 14 0) = group6 x y := by
    rw [group6, masked_front _ _ _ _ (by simp), first, second]
  rw [covers6_iff rfl (by omega) (by simp [group6, v4InV6Prefix, List.replicate]) isMask normal]
  refine and_congr_right fun notFour => ?_
  obtain ⟨a, b, rest, bytes, fourteen⟩ := front_of_sixteen (sixteen_of_not_four notFour)
  rw [bytes, masked_front a b m n fourteen]
  simp [group6]

end Covers

section Tests

variable (ip : IP)

theorem and_ff (a : UInt8) : a &&& 255 = a := UInt8.and_neg_one

theorem equal_six {ip other : Bytes} (sixteen : ip.length = 16) (long : other.length = 16) :
    equal ip other = true ↔ ip = other := by
  unfold equal
  rw [to16_of_sixteen sixteen, to16_of_sixteen long, decide_eq_true_iff]

theorem covers_single6_iff (sixteen : net.length = 16) (unmapped : net.take 12 ≠ v4InV6Prefix) :
    (networkOf net 128).Covers ip.bytes ↔ to4 ip.bytes = none ∧ ip.bytes = net := by
  have full (bytes : Bytes) (long : bytes.length = 16) :
      applyMask bytes (List.replicate 16 255) = bytes := by
    rw [← long]
    exact applyMask_full bytes
  rw [covers6_iff sixteen (by decide) unmapped (by decide) (full net sixteen)]
  refine and_congr_right fun notFour => ?_
  rw [full _ (sixteen_of_not_four notFour)]

theorem equal_four {ip : IP} (notFour : to4 ip.bytes = none) (a b c d : UInt8) :
    equal ip.bytes [a, b, c, d] = false := by
  have long := sixteen_of_not_four notFour
  refine decide_eq_false fun same => ?_
  rw [to16_of_sixteen long] at same
  rw [to4, if_neg (by omega), if_pos ⟨long, by rw [same]; rfl⟩] at notFour
  cases notFour

theorem isUnspecified_iff : isUnspecified ip.bytes = true ↔ Unspecified ip := by
  unfold isUnspecified Unspecified
  rw [covers4_iff [255, 255, 255, 255] rfl (by decide) (by decide) (by decide),
    covers_single6_iff ip rfl (by decide)]
  rcases family_cases ip with ⟨a, b, c, d, isFour⟩ | ⟨notFour, sixteen⟩
  · unfold equal
    rw [← (to4_spec isFour).2]
    simp [isFour, applyMask, and_ff, to16, v4InV6Prefix, unspecified6]
  · rw [equal_four notFour]
    simp [notFour, equal_six sixteen, unspecified6]

theorem isLoopback_iff : isLoopback ip.bytes = true ↔ Loopback ip := by
  unfold isLoopback Loopback
  rw [covers4_iff [255, 0, 0, 0] rfl (by decide) (by decide) (by decide),
    covers_single6_iff ip rfl (by decide)]
  rcases family_cases ip with ⟨a, b, c, d, isFour⟩ | ⟨notFour, sixteen⟩
  · simp [isFour, applyMask, and_ff]
  · simp [notFour, equal_six sixteen, loopback6]

theorem isPrivate_iff : isPrivate ip.bytes = true ↔ Private ip := by
  unfold isPrivate Private
  rw [covers4_iff [255, 0, 0, 0] rfl (by decide) (by decide) (by decide),
    covers4_iff [255, 240, 0, 0] rfl (by decide) (by decide) (by decide),
    covers4_iff [255, 255, 0, 0] rfl (by decide) (by decide) (by decide),
    covers_group6_iff (m := 254) (n := 0) 7 (by decide) (by decide) (by decide) (by decide)]
  rcases family_cases ip with ⟨a, b, c, d, isFour⟩ | ⟨notFour, sixteen⟩
  · simp [isFour, applyMask, and_ff, or_assoc]
  · obtain ⟨a, b, rest, bytes, fourteen⟩ := front_of_sixteen sixteen
    rw [bytes] at notFour ⊢
    simp [notFour, fourteen]

theorem isLinkLocalUnicast_iff_covers : isLinkLocalUnicast ip.bytes = true ↔
    (networkOf [169, 254, 0, 0] 16).Covers ip.bytes ∨
      (networkOf (group6 0xfe 0x80) 10).Covers ip.bytes := by
  unfold isLinkLocalUnicast
  rw [covers4_iff [255, 255, 0, 0] rfl (by decide) (by decide) (by decide),
    covers_group6_iff (m := 255) (n := 192) 10 (by decide) (by decide) (by decide) (by decide)]
  rcases family_cases ip with ⟨a, b, c, d, isFour⟩ | ⟨notFour, sixteen⟩
  · simp [isFour, applyMask, and_ff]
  · obtain ⟨a, b, rest, bytes, fourteen⟩ := front_of_sixteen sixteen
    rw [bytes] at notFour ⊢
    simp [notFour, fourteen, and_ff]

theorem scope_iff (b : UInt8) : b &&& 15 = 2 ↔ ∃ flags < (16 : UInt8), b = flags * 16 + 2 := by
  have small := b.toNat_lt
  have scope : (b &&& 15).toNat = b.toNat % 16 := by
    exact Nat.and_two_pow_sub_one_eq_mod b.toNat 4
  rw [← UInt8.toNat_inj, scope]
  constructor
  · intro isTwo
    replace isTwo : b.toNat % 16 = 2 := isTwo
    refine ⟨.ofNat (b.toNat / 16), ?_, ?_⟩
    · rw [UInt8.lt_iff_toNat_lt, UInt8.toNat_ofNat']
      show b.toNat / 16 % 256 < 16
      omega
    · rw [← UInt8.toNat_inj, UInt8.toNat_add, UInt8.toNat_mul, UInt8.toNat_ofNat']
      show b.toNat = (b.toNat / 16 % 256 * 16 % 256 + 2) % 256
      omega
  · rintro ⟨flags, -, rfl⟩
    show (flags.toNat * 16 % 256 + 2) % 256 % 16 = 2
    omega

theorem isLinkLocalMulticast_iff_covers : isLinkLocalMulticast ip.bytes = true ↔
    (networkOf [224, 0, 0, 0] 24).Covers ip.bytes ∨
      ∃ flags < (16 : UInt8), (networkOf (group6 0xff (flags * 16 + 2)) 16).Covers ip.bytes := by
  unfold isLinkLocalMulticast
  rw [covers4_iff [255, 255, 255, 0] rfl (by decide) (by decide) (by decide)]
  simp only [covers_group6_iff (m := 255) (n := 255) 16 (by decide) (by decide) (and_ff _)
    (and_ff _)]
  rcases family_cases ip with ⟨a, b, c, d, isFour⟩ | ⟨notFour, sixteen⟩
  · simp [isFour, applyMask, and_ff, and_assoc]
  · obtain ⟨a, b, rest, bytes, fourteen⟩ := front_of_sixteen sixteen
    have pulled : (a = 255 ∧ ∃ flags < (16 : UInt8), b = flags * 16 + 2) ↔
        ∃ flags < (16 : UInt8), a = 255 ∧ b = flags * 16 + 2 := by
      constructor
      · rintro ⟨first, flags, small, second⟩
        exact ⟨flags, small, first, second⟩
      · rintro ⟨flags, small, first, second⟩
        exact ⟨first, flags, small, second⟩
    rw [bytes] at notFour ⊢
    simpa [notFour, fourteen, and_ff, scope_iff] using pulled

theorem isLinkLocal_iff :
    (isLinkLocalUnicast ip.bytes || isLinkLocalMulticast ip.bytes) = true ↔ LinkLocal ip := by
  rw [Bool.or_eq_true, isLinkLocalUnicast_iff_covers, isLinkLocalMulticast_iff_covers, or_assoc]
  rfl

end Tests

end SiprecServer.Lib.IpClasses
