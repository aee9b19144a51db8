import SiprecServer.Sip.CrlfNormalizer

/-!
# Line ends of SIP over UDP

A datagram is normalised as a whole, so that a second pass finds its blank line where the first
one left it.
-/

namespace SiprecServer.Sip.CrlfNormalizer

open Lib.Expansion List

/-- `crlfPacketConn.ReadFrom` into a buffer of this size. -/
def readFrom (size : Nat) (datagram : Bytes) : Bytes :=
  let arrived := datagram.take size
  let normalized := normalizeCRLF arrived
  if arrived.length = 0 then arrived
  else if normalized.length = arrived.length then arrived
  else normalized.take size

/-- A line feed after this is a bare one before the first blank line. -/
def bareInHeaders (front : Bytes) : Bool :=
  front.inits.all (fun seen => !endsHeaders seen) && bareAfter front

structure Completed (datagram result : Bytes) : Prop where
  inserted : result = expand LF CR bareInHeaders [] datagram
  removed : datagram.Sublist result
  untouched : ∀ headers body, datagram = headers ++ body → endsHeaders headers = true →
    result = expand LF CR bareInHeaders [] headers ++ body
  again : normalizeCRLF result = result

variable {front : Bytes}

theorem findHeaderBodySplit_eq_none :
    findHeaderBodySplit front = none ↔ ∀ seen ∈ front.inits, endsHeaders seen = false := by
  constructor
  · intro absent seen mem
    obtain ⟨rest, rfl⟩ := (mem_inits _ _).mp mem
    exact Bool.eq_false_iff.mpr fun ends =>
      findHeaderBodySplit_of_endsHeaders ends (findHeaderBodySplit_front_none absent)
  · intro never
    by_contra present
    obtain ⟨split, found⟩ := Option.ne_none_iff_exists'.mp present
    have ends := never _ ((mem_inits _ _).mpr <| take_prefix split front)
    rw [endsHeaders_take found] at ends
    cases ends

theorem expandsAfter_eq : expandsAfter = bareInHeaders := by
  funext front
  have same : (findHeaderBodySplit front).isNone =
      front.inits.all fun seen => !endsHeaders seen := by
    rw [Bool.eq_iff_iff, Option.isNone_iff_eq_none, findHeaderBodySplit_eq_none]
    simp
  rw [expandsAfter, bareInHeaders, same, bareAfter]

theorem expand_blank (present : findHeaderBodySplit front ≠ none) :
    findHeaderBodySplit (expand LF CR expandsAfter [] front) ≠ none := by
  obtain ⟨split, found⟩ := Option.ne_none_iff_exists'.mp present
  have ends := endsHeaders_take found
  intro absent
  rw [← take_append_drop split front, expand_append] at absent
  refine findHeaderBodySplit_of_endsHeaders ?_ (findHeaderBodySplit_front_none absent)
  simp only [endsHeaders, Bool.or_eq_true, decide_eq_true_eq] at ends ⊢
  have line : ∀ before, ∃ kept, expand LF CR expandsAfter [] (before ++ [LF]) = kept ++ [LF] := by
    intro before
    rw [expand_concat]
    split
    · exact ⟨_, append_cons _ CR [LF]⟩
    · exact ⟨_, rfl⟩
  obtain ⟨before, same⟩ | ⟨before, same⟩ := ends
  · obtain ⟨kept, first⟩ := line before
    rw [← same, append_cons, expand_concat, first]
    split
    · exact .inr ⟨kept, by simp⟩
    · exact .inl ⟨kept, by simp⟩
  · obtain ⟨kept, first⟩ := line before
    have after : expandsAfter (before ++ [LF, CR]) = false := by
      simp [expandsAfter]
    rw [← same, append_cons, append_cons, expand_concat, expand_concat, first]
    exact .inr ⟨kept, by simp [after, LF_ne_CR]⟩

theorem expandsAfter_expand (kept : expandsAfter front = false) :
    expandsAfter (expand LF CR expandsAfter [] front) = false := by
  rw [expandsAfter, Bool.and_eq_false_iff, getLast?_expand]
  rw [expandsAfter, Bool.and_eq_false_iff] at kept
  refine kept.imp_left fun present => ?_
  rw [Option.isNone_eq_false_iff, Option.isSome_iff_ne_none] at present ⊢
  exact expand_blank present

/-- A line feed that has its carriage return, or is not in the headers, stays so. -/
theorem expand_idempotent (data : Bytes) :
    expand LF CR expandsAfter [] (expand LF CR expandsAfter [] data) =
      expand LF CR expandsAfter [] data := by
  induction data using List.reverseRecOn with
  | nil => rfl
  | append_singleton data x ih =>
    rw [expand_concat]
    split
    · have after : ∀ front, expandsAfter (front ++ [CR]) = false := by
        simp [expandsAfter]
      rw [append_cons, expand_concat, expand_concat, ih]
      simp [after, LF_ne_CR]
    · rename_i kept
      rw [expand_concat, ih, if_neg]
      rintro ⟨rfl, again⟩
      have bare : expandsAfter data = false := by
        simpa using kept
      rw [nil_append, expandsAfter_expand bare] at again
      cases again

theorem readFrom_completed {datagram : Bytes} {size : Nat}
    (room : (normalizeCRLF datagram).length ≤ size) :
    Completed datagram (readFrom size datagram) := by
  have eq := normalizeCRLF_eq datagram
  have fits : datagram.take size = datagram := by
    refine take_of_length_le (Nat.le_trans ?_ room)
    rw [eq]
    exact length_le_expand _ _
  have result : readFrom size datagram = expand LF CR expandsAfter [] datagram := by
    rw [← eq]
    simp only [readFrom, fits]
    split
    · rename_i empty
      rw [eq_nil_of_length_eq_zero empty]
      rfl
    · split
      · rename_i same
        exact (normalizeCRLF_of_length same).symm
      · exact take_of_length_le room
  rw [result]
  refine ⟨by rw [expandsAfter_eq], sublist_expand _ _, ?_, ?_⟩
  · rintro headers body rfl ends
    have body_kept : ∀ front, expandsAfter (headers ++ front) = false := by
      intro front
      rw [expandsAfter, Bool.and_eq_false_iff, Option.isNone_eq_false_iff,
        Option.isSome_iff_ne_none]
      exact .inl fun absent =>
        findHeaderBodySplit_of_endsHeaders ends (findHeaderBodySplit_front_none absent)
    rw [expand_append, ← expandsAfter_eq, nil_append, expand_of_none body_kept]
  · rw [normalizeCRLF_eq, expand_idempotent]

/-- Three header lines and two lines of body, with bare line feeds in both. -/
def bareInvite : Bytes :=
  "INVITE a\nVia: b\r\nTo: c\n\nv=0\ns=d\n".toList.map (·.toNat.toUInt8)

theorem bareInvite_completed :
    readFrom 40 bareInvite =
        "INVITE a\r\nVia: b\r\nTo: c\r\n\r\nv=0\ns=d\n".toList.map (·.toNat.toUInt8) ∧
      Completed bareInvite (readFrom 40 bareInvite) :=
  ⟨by decide, readFrom_completed (by decide)⟩

end SiprecServer.Sip.CrlfNormalizer
