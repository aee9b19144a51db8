import SiprecServer.Lib.LittleEndian

/-!
# Frames

A frame is a text behind its length, four bytes with the lowest first.  Frames that follow one
another are read back as long as their lengths fit.
-/

namespace SiprecServer.Lib.Frames

open Lib.LittleEndian List

def frame (body : List UInt8) : List UInt8 := encode 4 body.length ++ body

def readFrame (text : List UInt8) : Option (List UInt8 × List UInt8) :=
  let length := decode (text.take 4)
  let rest := text.drop 4
  if text.length < 4 ∨ rest.length < length then none
  else some (rest.take length, rest.drop length)

def readUpTo : Nat → List UInt8 → Option (List (List UInt8))
  | _, [] => some []
  | 0, _ :: _ => none
  | fuel + 1, byte :: text =>
    match readFrame (byte :: text) with
    | none => none
    | some (body, rest) => (readUpTo fuel rest).map (body :: ·)

def readFrames (text : List UInt8) : Option (List (List UInt8)) := readUpTo text.length text

def Fits (body : List UInt8) : Prop := body.length < 256 ^ 4

theorem length_frame (body : List UInt8) : (frame body).length = 4 + body.length := by
  rw [frame, length_append, length_encode]

variable {body text : List UInt8}

theorem readFrame_frame (fits : Fits body) (rest : List UInt8) :
    readFrame (frame body ++ rest) = some (body, rest) := by
  have four : (encode 4 body.length).length = 4 := length_encode 4 body.length
  have front : (frame body ++ rest).take 4 = encode 4 body.length := by
    exact take_left' four
  have back : (frame body ++ rest).drop 4 = body ++ rest := by
    exact drop_left' four
  have length : decode (encode 4 body.length) = body.length := by
    rw [decode_encode, Nat.mod_eq_of_lt fits]
  have long : ¬ ((frame body ++ rest).length < 4 ∨ (body ++ rest).length < body.length) := by
    rw [length_append, length_frame, length_append]
    omega
  unfold readFrame
  rw [front, back, length, if_neg long, take_left, drop_left]

theorem readFrame_shorter {rest : List UInt8} (found : readFrame text = some (body, rest)) :
    rest.length < text.length := by
  unfold readFrame at found
  dsimp only at found
  split at found
  · cases found
  · obtain ⟨-, rfl⟩ := Prod.mk.inj (Option.some.inj found)
    rw [length_drop, length_drop]
    omega

theorem readUpTo_congr {fuel other : Nat} (enough : text.length ≤ fuel)
    (enoughOther : text.length ≤ other) : readUpTo fuel text = readUpTo other text := by
  induction fuel generalizing other text with
  | zero =>
    rw [Nat.le_zero, length_eq_zero_iff] at enough
    rw [enough]
    cases other <;> rfl
  | succ fuel ih =>
    cases text with
    | nil => cases other <;> rfl
    | cons byte text =>
      cases other with
      | zero => cases enoughOther
      | succ other =>
        rw [readUpTo, readUpTo]
        cases found : readFrame (byte :: text) with
        | none => rfl
        | some pair =>
          have shorter := readFrame_shorter found
          have same : readUpTo fuel pair.2 = readUpTo other pair.2 :=
            ih (by omega) (by omega)
          dsimp only
          rw [same]

theorem readFrames_frame (fits : Fits body) (rest : List UInt8) :
    readFrames (frame body ++ rest) = (readFrames rest).map (body :: ·) := by
  have found := readFrame_frame fits rest
  have shorter := readFrame_shorter found
  unfold readFrames
  obtain ⟨byte, text, shape⟩ := exists_cons_of_ne_nil
    (ne_nil_of_length_pos (Nat.lt_of_le_of_lt (Nat.zero_le _) shorter))
  rw [shape] at found shorter ⊢
  rw [length_cons] at shorter ⊢
  rw [readUpTo, found]
  dsimp only
  rw [readUpTo_congr (Nat.lt_succ_iff.mp shorter) (Nat.le_refl _)]

theorem readFrames_eq_nil_iff : readFrames text = some [] ↔ text = [] := by
  constructor
  · intro nothing
    cases text with
    | nil => rfl
    | cons byte text =>
      rw [readFrames, length_cons, readUpTo] at nothing
      split at nothing
      · cases nothing
      · obtain ⟨others, -, absurdity⟩ := Option.map_eq_some_iff.mp nothing
        cases absurdity
  · rintro rfl
    rfl

theorem readFrames_flatMap {bodies : List (List UInt8)} (fit : ∀ body ∈ bodies, Fits body) :
    readFrames (bodies.flatMap frame) = some bodies := by
  induction bodies with
  | nil => rfl
  | cons body rest ih =>
    rw [flatMap_cons, readFrames_frame (fit body mem_cons_self),
      ih fun other mem => fit other (mem_cons_of_mem _ mem)]
    rfl

end SiprecServer.Lib.Frames
