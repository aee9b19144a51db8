import SiprecServer.Lib.IpAddress
import SiprecServer.Lib.Text

/-!
# Addresses with ports as they are written

The canonical text of an address, with the longest run of zero groups left out, is read back
as the address.  A host and a port are joined by a colon, with brackets around a host that has
colons of its own, and split again.
-/

namespace SiprecServer.Lib.Endpoint

open IpAddress Text List

structure IP where
  bytes : Bytes
  family : bytes.length = 4 ∨ bytes.length = 16
deriving DecidableEq

def shortGroup (a b : UInt8) : List Char := Nat.toDigits 16 (a.toNat * 256 + b.toNat)

def zeroRun : Bytes → Nat
  | a :: b :: rest => if a = 0 ∧ b = 0 then zeroRun rest + 1 else 0
  | _ => 0

def noRun : Nat × Nat := (255, 255)

/-- The first of the longest runs of at least two zero groups, from the `i`-th group on: where it
begins and where it ends. -/
def findZeros : (i : Nat) → Bytes → (best : Nat × Nat) → Nat × Nat
  | i, a :: b :: rest, best =>
    findZeros (i + 1) rest <|
      if 2 ≤ zeroRun (a :: b :: rest) ∧ best.2 - best.1 < zeroRun (a :: b :: rest) then
        (i, i + zeroRun (a :: b :: rest))
      else best
  | _, _, best => best

def text6 (bytes : Bytes) : List Char :=
  let zeros := findZeros 0 bytes noRun
  if zeros = noRun then joined shortGroup bytes
  else
    joined shortGroup (bytes.take (2 * zeros.1)) ++
      ':' :: ':' :: joined shortGroup (bytes.drop (2 * zeros.2))

def IP.text (ip : IP) : List Char :=
  match to4 ip.bytes with
  | some four => dottedText four
  | none => text6 ip.bytes

theorem toDigits_sixteen (n : Nat) :
    (∀ c ∈ Nat.toDigits 16 n, (hexValue c).isSome) ∧
      (Nat.toDigits 16 n).foldl (fun value c => value * 16 + (hexValue c).getD 0) 0 = n := by
  have digit : ∀ d < 16, hexValue (Nat.digitChar d) = some d := hexValue_digitChar
  -- a number is read as a sixteenth of it and its last digit
  induction n using Nat.strongRecOn with
  | ind n ih =>
    by_cases small : n < 16
    · rw [Nat.toDigits_of_lt_base small]
      simp [digit n small]
    · obtain ⟨hex, value⟩ := ih (n / 16) (by omega)
      have last := digit (n % 16) (by omega)
      rw [Nat.toDigits_of_base_le (by decide) (by omega)]
      refine ⟨fun c mem => ?_, ?_⟩
      · rcases mem_append.mp mem with front | back
        · exact hex c front
        · obtain rfl := mem_singleton.mp back
          rw [last]
          rfl
      · rw [foldl_append, value, foldl_cons, foldl_nil, last, Option.getD_some]
        omega

theorem shortGroup_spells (a b : UInt8) : Spells (shortGroup a b) a b := by
  have la := a.toNat_lt
  have lb := b.toNat_lt
  obtain ⟨hex, value⟩ := toDigits_sixteen (a.toNat * 256 + b.toNat)
  have short : (shortGroup a b).length ≤ 4 :=
    (Nat.length_toDigits_le_iff (by decide) (by decide)).mpr (by omega)
  refine ⟨hex, ?_⟩
  unfold group
  rw [if_neg (by simp only [shortGroup, Nat.toDigits_ne_nil, false_or, not_lt]; exact short)]
  unfold shortGroup
  rw [value]
  dsimp only
  rw [show (a.toNat * 256 + b.toNat) / 256 = a.toNat by omega,
    show (a.toNat * 256 + b.toNat) % 256 = b.toNat by omega, UInt8.ofNat_toNat, UInt8.ofNat_toNat]

section Ellipsis

variable {digits : List Char} {a b : UInt8} (spelled : Spells digits a b) (room : Nat)
  (bytes : Bytes)

include spelled

theorem parseGroups_ellipsis {more : List Char} (nonempty : more ≠ []) :
    parseGroups (room + 1) bytes none (digits ++ ':' :: ':' :: more) =
      parseGroups room (bytes ++ [a, b]) (some (bytes.length + 2)) more := by
  obtain ⟨c, more, rfl⟩ := exists_cons_of_ne_nil nonempty
  have read := @span_digits _ (':' :: ':' :: c :: more) spelled.hex (by simp; decide)
  rw [parseGroups, read]
  dsimp only
  rw [spelled.group]
  rfl

end Ellipsis

theorem zeroRun_spec (bytes : Bytes) :
    ∃ rest, bytes = List.replicate (2 * zeroRun bytes) 0 ++ rest := by
  fun_induction zeroRun bytes with
  | case1 a b rest zero ih =>
    obtain ⟨rfl, rfl⟩ := zero
    obtain ⟨tail, shape⟩ := ih
    refine ⟨tail, ?_⟩
    rw [Nat.mul_succ, replicate_succ, replicate_succ, cons_append, cons_append, ← shape]
  | case2 a b rest other => exact ⟨_, rfl⟩
  | case3 bytes short => exact ⟨_, rfl⟩

/-- Zero groups from one group to another, at least two of them. -/
structure ZerosAt (bytes : Bytes) (zeros : Nat × Nat) : Prop where
  two : zeros.1 + 2 ≤ zeros.2
  shape : ∃ front back, bytes = front ++ List.replicate (2 * (zeros.2 - zeros.1)) 0 ++ back ∧
    front.length = 2 * zeros.1

variable {front : Bytes} {text : List Char} {bytes back : Bytes} {m : Nat} {host port : List Char}

theorem findZeros_spec {i : Nat} {rest : Bytes} {best : Nat × Nat} (position : front.length = 2 * i)
    (sofar : best = noRun ∨ ZerosAt (front ++ rest) best) :
    findZeros i rest best = noRun ∨ ZerosAt (front ++ rest) (findZeros i rest best) := by
  fun_induction findZeros i rest best generalizing front with
  | case1 i a b rest best ih =>
    have whole : front ++ a :: b :: rest = (front ++ [a, b]) ++ rest := by simp
    rw [whole] at sofar ⊢
    refine ih (by simp [position]; omega) ?_
    split
    case isTrue longer =>
      obtain ⟨tail, shape⟩ := zeroRun_spec (a :: b :: rest)
      refine .inr ⟨by dsimp only; omega, front, tail, ?_, position⟩
      rw [← whole, append_assoc]
      rw [Nat.add_sub_cancel_left]
      exact congrArg (front ++ ·) shape
    case isFalse => exact sofar
  | case2 => exact sofar

theorem parseAddr_colons (rest : List Char) :
    parseAddr (':' :: ':' :: rest) = parseIPv6 (':' :: ':' :: rest) := rfl

theorem parseIP_of_addr (read : parseAddr text = some bytes) :
    parseIP (String.ofList text) = some (to16 bytes) := by
  rw [parseIP, String.toList_ofList, read]
  rfl

theorem to16_of_sixteen (sixteen : bytes.length = 16) : to16 bytes = bytes :=
  if_neg (by omega)

theorem joined_ne_nil (two : 2 ≤ bytes.length) : joined shortGroup bytes ≠ [] := by
  obtain ⟨c, more, shape, -⟩ := joined_head shortGroup_spells two
  simp [shape]

/-- What stands before and after the double colon is put back in its place. -/
theorem expandEllipsis_middle (short : front.length + back.length < 16) :
    expandEllipsis (front ++ back, some front.length) =
      some (front ++ List.replicate (16 - (front.length + back.length)) 0 ++ back) := by
  have fits : (front ++ back).length < 16 := by rw [length_append]; exact short
  refine (if_pos fits).trans ?_
  rw [take_left, drop_left, length_append]

variable {four : Bytes} {n : Nat} (ip : IP)

theorem parseGroups_compressed (before : front.length = 2 * (m + 1)) (after : back.length = 2 * n)
    (gap : m + 1 + n < 8) :
    parseGroups 8 [] none (joined shortGroup front ++ ':' :: ':' :: joined shortGroup back) =
      some (front ++ back, some front.length) := by
  obtain ⟨front, a, b, rfl, even⟩ := exists_last_group before
  have position : (front ++ [a, b]).length = front.length + 2 := by simp
  have onward := parseGroups_joined shortGroup_spells (7 - m) [] none even a b
  rw [show 7 - m + m + 1 = 8 by omega, nil_append] at onward
  rw [onward, position]
  cases n with
  | zero =>
    obtain rfl := eq_nil_of_length_eq_zero (by simpa using after)
    rw [append_nil]
    have spelled := shortGroup_spells a b
    change parseGroups _ _ none (shortGroup a b ++ [':', ':']) = _
    have read := @span_digits _ [':', ':'] spelled.hex (by simp; decide)
    rw [parseGroups, read]
    dsimp only
    rw [spelled.group]
    rfl
  | succ n =>
    have last := parseGroups_joined_last shortGroup_spells (6 - m - n) (front ++ [a, b])
      (some (front.length + 2)) after
    rw [show 6 - m - n + n + 1 = 7 - m by omega] at last
    rw [parseGroups_ellipsis (shortGroup_spells a b) _ _ (joined_ne_nil (by omega)), last]

theorem joined_starts (even : bytes.length = 2 * (m + 1)) (more : List Char) :
    ∃ digits a b rest, Spells digits a b ∧
      joined shortGroup bytes ++ ':' :: more = digits ++ ':' :: rest := by
  match bytes, even with
  | [a, b], _ => exact ⟨_, a, b, more, shortGroup_spells a b, rfl⟩
  | a :: b :: c :: rest, _ =>
    refine ⟨_, a, b, joined shortGroup (c :: rest) ++ ':' :: more, shortGroup_spells a b, ?_⟩
    rw [joined, append_assoc]
    rfl

theorem parseIP_compressed (before : front.length = 2 * m) (after : back.length = 2 * n)
    (gap : m + n < 8) :
    parseIP (String.ofList (joined shortGroup front ++ ':' :: ':' :: joined shortGroup back)) =
      some (front ++ List.replicate (16 - (front.length + back.length)) 0 ++ back) := by
  have short : front.length + back.length < 16 := by omega
  have expanded := expandEllipsis_middle short
  cases m with
  | succ m =>
    obtain ⟨digits, a, b, rest, spelled, shape⟩ :=
      joined_starts before (':' :: joined shortGroup back)
    exact parseIP_of_groups spelled shape (parseGroups_compressed before after gap) expanded
  | zero =>
    obtain rfl := eq_nil_of_length_eq_zero (by simpa using before)
    cases n with
    | zero =>
      obtain rfl := eq_nil_of_length_eq_zero (by simpa using after)
      have colons : parseAddr [':', ':'] = some (List.replicate 16 0) := rfl
      exact parseIP_of_addr colons
    | succ n =>
      have read := parseGroups_joined_last shortGroup_spells (7 - n) [] (some 0) after
      rw [show 7 - n + n + 1 = 8 by omega] at read
      have two : 2 ≤ back.length := by omega
      obtain ⟨c, more, shape, -⟩ := joined_head shortGroup_spells two
      have parsed : parseAddr (':' :: ':' :: joined shortGroup back) = some
          ([] ++ List.replicate (16 - (([] : Bytes).length + back.length)) 0 ++ back) := by
        rw [parseAddr_colons, shape, parseIPv6, ← shape, read, Option.bind_some]
        · exact expanded
        · simp
      rw [← to16_of_sixteen (expandEllipsis_length expanded)]
      exact parseIP_of_addr parsed

theorem parseIP_text6 (sixteen : bytes.length = 16) :
    parseIP (String.ofList (text6 bytes)) = some bytes := by
  have found : findZeros 0 bytes noRun = noRun ∨ ZerosAt ([] ++ bytes) (findZeros 0 bytes noRun) :=
    findZeros_spec rfl (.inl rfl)
  unfold text6
  dsimp only
  split
  case isTrue =>
    have read := parseGroups_joined_last shortGroup_spells 0 [] none (n := 7) sixteen
    match bytes, sixteen with
    | a :: b :: c :: rest, sixteen =>
      exact parseIP_of_groups (shortGroup_spells a b) rfl read (expandEllipsis_whole sixteen)
  case isFalse some =>
    obtain ⟨two, front, back, shape, before⟩ := found.resolve_left some
    generalize findZeros 0 bytes noRun = zeros at two shape before
    obtain ⟨start, finish⟩ := zeros
    rw [nil_append] at shape
    have total : front.length + 2 * (finish - start) + back.length = 16 := by
      rw [← sixteen, shape]
      simp only [length_append, length_replicate]
    have first : bytes.take (2 * start) = front := by
      rw [shape, append_assoc, take_left' before]
    have last : bytes.drop (2 * finish) = back := by
      rw [shape, drop_left']
      simp only [length_append, length_replicate]
      omega
    have after : back.length = 2 * (8 - finish) := by omega
    have read := parseIP_compressed before after (by omega)
    rw [first, last, read, shape,
      show 16 - (front.length + back.length) = 2 * (finish - start) by omega]

theorem parseAddr_dottedText (length : four.length = 4) :
    parseAddr (dottedText four) = some four := by
  obtain ⟨w, x, y, z, rfl⟩ := length_eq_four.mp length
  obtain ⟨more, shape⟩ := dottedText_shape w x y z
  have none_before : (Nat.toDigits 10 w.toNat).find? (fun c => c = '.' ∨ c = ':') = none := by
    refine find?_eq_none.mpr fun c digit => ?_
    have hex := toDigits_hex c digit
    have noDot : c ≠ '.' := by
      rintro rfl
      exact absurd hex (by decide)
    simp [noDot, ne_colon hex]
  have dot : (dottedText [w, x, y, z]).find? (fun c => c = '.' ∨ c = ':') = some '.' := by
    rw [shape, find?_append, none_before]
    rfl
  unfold parseAddr
  rw [dot]
  exact parseIPv4_dottedText w x y z

theorem to4_spec (isFour : to4 bytes = some four) : four.length = 4 ∧ to16 four = to16 bytes := by
  unfold to4 at isFour
  split at isFour
  case isTrue length =>
    cases isFour
    exact ⟨length, rfl⟩
  case isFalse =>
    split at isFour
    case isTrue mapped =>
      cases isFour
      have length : (bytes.drop 12).length = 4 := by rw [length_drop, mapped.1]
      refine ⟨length, ?_⟩
      rw [to16_of_sixteen mapped.1, to16, if_pos length, ← mapped.2, take_append_drop]
    case isFalse => cases isFour

theorem parseIP_text : parseIP (String.ofList ip.text) = some (to16 ip.bytes) := by
  unfold IP.text
  cases four : to4 ip.bytes with
  | some bytes =>
    obtain ⟨length, same⟩ := to4_spec four
    rw [← same]
    exact parseIP_of_addr (parseAddr_dottedText length)
  | none =>
    have sixteen : ip.bytes.length = 16 := by
      refine ip.family.resolve_left fun short => ?_
      rw [to4, if_pos short] at four
      cases four
    rw [to16_of_sixteen sixteen]
    exact parseIP_text6 sixteen

def joinHostPort (host port : List Char) : List Char :=
  if ':' ∈ host then '[' :: host ++ ']' :: ':' :: port else host ++ ':' :: port

inductive AddrError where
  | missingPort
  | tooManyColons
  | missingBracket
  | unexpectedOpen
  | unexpectedClose
deriving DecidableEq

def splitHostPort (text : List Char) : Except AddrError (List Char × List Char) :=
  if ':' ∉ text then .error .missingPort
  else
    match text with
    | '[' :: inner =>
      match inner.span (· ≠ ']') with
      | (_, []) => .error .missingBracket
      | (host, _ :: rest) =>
        match rest with
        | ':' :: port =>
          if ':' ∈ port then .error .tooManyColons
          else if '[' ∈ host ++ port then .error .unexpectedOpen
          else if ']' ∈ port then .error .unexpectedClose
          else .ok (host, port)
        | _ => .error .missingPort
    | _ =>
      match text.span (· ≠ ':') with
      | (_, []) => .error .missingPort
      | (host, _ :: port) =>
        if ':' ∈ port then .error .tooManyColons
        else if '[' ∈ text then .error .unexpectedOpen
        else if ']' ∈ text then .error .unexpectedClose
        else .ok (host, port)

structure PlainPort (port : List Char) : Prop where
  noColon : ':' ∉ port
  noOpen : '[' ∉ port
  noClose : ']' ∉ port

theorem splitHostPort_port (ok : splitHostPort text = .ok (host, port)) : PlainPort port := by
  unfold splitHostPort at ok
  split at ok
  · cases ok
  · split at ok
    · split at ok
      · cases ok
      · split at ok
        · split at ok
          · cases ok
          case isFalse noColon =>
            split at ok
            · cases ok
            case isFalse noOpen =>
              split at ok
              · cases ok
              case isFalse noClose =>
                cases ok
                exact ⟨noColon, fun mem => noOpen (mem_append_right _ mem), noClose⟩
        · cases ok
    · split at ok
      · cases ok
      case h_2 parts =>
        split at ok
        · cases ok
        case isFalse noColon =>
          split at ok
          · cases ok
          case isFalse noOpen =>
            split at ok
            · cases ok
            case isFalse noClose =>
              cases ok
              exact ⟨noColon, fun mem => noOpen (mem_of_span parts _ mem),
                fun mem => noClose (mem_of_span parts _ mem)⟩

theorem splitHostPort_joinHostPort (noOpen : '[' ∉ host)
    (noClose : ']' ∉ host) (plain : PlainPort port) :
    splitHostPort (joinHostPort host port) = .ok (host, port) := by
  unfold joinHostPort
  by_cases colon : ':' ∈ host
  · have read : (host ++ ']' :: ':' :: port).span (· ≠ ']') = (host, ']' :: ':' :: port) :=
      span_to noClose
    rw [if_pos colon, cons_append]
    unfold splitHostPort
    rw [if_neg (by simp)]
    split
    case h_1 inner shape =>
      rw [← tail_eq_of_cons_eq shape, read]
      dsimp only
      split
      case h_1 rest same =>
        rw [← tail_eq_of_cons_eq same, if_neg plain.noColon,
          if_neg (by simp [noOpen, plain.noOpen]), if_neg plain.noClose]
      case h_2 other => exact absurd rfl (other port)
    case h_2 other => exact absurd rfl (other _)
  · have read : (host ++ ':' :: port).span (· ≠ ':') = (host, ':' :: port) := span_to colon
    have inside : '[' ∉ host ++ ':' :: port ∧ ']' ∉ host ++ ':' :: port := by
      simp [noOpen, noClose, plain.noOpen, plain.noClose]
    rw [if_neg colon]
    unfold splitHostPort
    rw [if_neg (by simp)]
    split
    case h_1 inner shape =>
      rw [shape] at inside
      exact absurd mem_cons_self inside.1
    case h_2 =>
      rw [read]
      dsimp only
      rw [if_neg plain.noColon, if_neg inside.1, if_neg inside.2]

def TextChar (c : Char) : Prop := (hexValue c).isSome ∨ c = '.' ∨ c = ':'

theorem joined_textChar (bytes : Bytes) : ∀ c ∈ joined shortGroup bytes, TextChar c := by
  fun_induction joined shortGroup bytes with
  | case1 a b c rest ih =>
    intro d mem
    rcases mem_append.mp mem with digit | more
    · exact .inl ((shortGroup_spells a b).hex d digit)
    · rcases mem_cons.mp more with colon | later
      · exact .inr (.inr colon)
      · exact ih d later
  | case2 a b => exact fun d digit => .inl ((shortGroup_spells a b).hex d digit)
  | case3 => exact fun d mem => absurd mem not_mem_nil

theorem text_textChar : ∀ c ∈ ip.text, TextChar c := by
  intro c mem
  unfold IP.text at mem
  split at mem
  · rcases Text.mem_of_mem_intercalate mem with dot | ⟨part, inside, digit⟩
    · exact .inr (.inl (mem_singleton.mp dot))
    · obtain ⟨byte, -, rfl⟩ := mem_map.mp inside
      exact .inl (toDigits_hex c digit)
  · unfold text6 at mem
    dsimp only at mem
    split at mem
    · exact joined_textChar _ c mem
    · rcases mem_append.mp mem with front | back
      · exact joined_textChar _ c front
      · simp only [mem_cons] at back
        rcases back with colon | colon | later
        · exact .inr (.inr colon)
        · exact .inr (.inr colon)
        · exact joined_textChar _ c later

theorem text_plain : '[' ∉ ip.text ∧ ']' ∉ ip.text := by
  constructor
  · intro mem
    have inside := text_textChar ip '[' mem
    unfold TextChar at inside
    exact absurd inside (by decide)
  · intro mem
    have inside := text_textChar ip ']' mem
    unfold TextChar at inside
    exact absurd inside (by decide)

def endpoint (text : List Char) : Option (Bytes × List Char) :=
  match splitHostPort text with
  | .ok (host, port) => (parseIP (String.ofList host)).map fun ip => (ip, port)
  | .error _ => none

theorem endpoint_joinHostPort (plain : PlainPort port) :
    endpoint (joinHostPort ip.text port) = some (to16 ip.bytes, port) := by
  obtain ⟨noOpen, noClose⟩ := text_plain ip
  unfold endpoint
  rw [splitHostPort_joinHostPort noOpen noClose plain]
  dsimp only
  rw [parseIP_text]
  rfl

end SiprecServer.Lib.Endpoint
