import SiprecServer.Lib.Base64
import SiprecServer.Lib.Text

/-!
# SRTP keys from an SDP offer

`parseSRTPAttributes` takes a `crypto` attribute over into a forwarder: the profile, the
first 16 bytes of the inline material as the key, the next 14 as the salt, and the
lifetime that the parameters after the first bar give, if they give one.
-/

namespace SiprecServer.Media.SdpUtils

open Lib List

structure RTPForwarder where
  localPort : Int
  rtcpPort : Int
  srtpEnabled : Bool := false
  -- a slice that is not set has length zero
  srtpMasterKey : List UInt8 := []
  srtpMasterSalt : List UInt8 := []
  srtpKeyLifetime : Int := 2 ^ 31
  srtpProfile : String := "AES_CM_128_HMAC_SHA1_80"
  -- the port manager hands out positive ports
  localPort_pos : 0 < localPort
deriving DecidableEq

/-- `1 << exp` as an `int` of 64 bits; a negative count panics. -/
def shiftOne (exp : Int) : Option Int :=
  if exp < 0 then none
  else if exp < 63 then some (2 ^ exp.toNat)
  else if exp = 63 then some (-2 ^ 63)
  else some 0

section

variable (forwarder : RTPForwarder)

/-- One parameter behind the key material; `none` is a panic. -/
def applyParam (param : List Char) : Option RTPForwarder :=
  match param.dropPrefix? "2^".toList with
  | none => some forwarder
  | some exponent =>
    match Text.atoi exponent with
    | none => some forwarder
    | some exp =>
      (shiftOne exp).map fun lifetime => { forwarder with srtpKeyLifetime := lifetime }

/-- What follows `inline:` in the first such field after the tag and the profile. -/
def inlineMaterial (fields : List (List Char)) : List Char :=
  ((fields.drop 2).findSome? fun field => field.dropPrefix? "inline:".toList).getD []

/-- Key and salt are taken from fixed places of the material, whatever the profile. -/
def takeKeys (profile : List Char) (rawKey : List UInt8) : RTPForwarder :=
  { forwarder with
    srtpMasterKey := rawKey.take 16
    srtpMasterSalt := (rawKey.drop 16).take 14
    srtpProfile := String.ofList profile }

def parseSRTPAttributes (value : String) : Option RTPForwarder :=
  let fields := Text.fields value.toList
  match fields[1]? with
  | none => some forwarder
  | some profile =>
    let inline := inlineMaterial fields
    if inline = [] then some forwarder
    else
      let parts := inline.splitOn '|'
      match Base64.decode (parts.headD []) with
      | none => some forwarder
      | some rawKey =>
        if rawKey.length < 30 then some forwarder
        else parts.tail.foldlM applyParam (takeKeys forwarder profile rawKey)

theorem parseSRTPAttributes_inline {value : String} {tag profile material : List Char}
    {params : List (List Char)} {rawKey : List UInt8} (fields : Text.fields value.toList =
      [tag, profile, "inline:".toList ++ ['|'].intercalate (material :: params)])
    (nonempty : material ≠ []) (noBar : ∀ part ∈ material :: params, '|' ∉ part)
    (decoded : Base64.decode material = some rawKey) :
    parseSRTPAttributes forwarder value =
      if rawKey.length < 30 then some forwarder
      else params.foldlM applyParam (takeKeys forwarder profile rawKey) := by
  have found : inlineMaterial [tag, profile,
      "inline:".toList ++ ['|'].intercalate (material :: params)] =
      ['|'].intercalate (material :: params) := by
    unfold inlineMaterial
    rw [drop_succ_cons, drop_succ_cons, drop_zero, findSome?_cons, Text.dropPrefix?_append]
    rfl
  have present : ['|'].intercalate (material :: params) ≠ [] := by
    cases params <;> simp [nonempty]
  unfold parseSRTPAttributes
  simp only [fields, found, if_neg present, splitOn_intercalate '|' noBar (by simp),
    getElem?_cons_succ, getElem?_cons_zero, headD_cons, tail_cons, decoded]

end

theorem shiftOne_ne {exponent : Nat} (positive : 0 < exponent) :
    ∃ shifted, shiftOne exponent = some shifted ∧ shifted ≠ exponent := by
  unfold shiftOne
  rw [if_neg (by omega)]
  split
  · have grown : exponent < 2 ^ exponent := Nat.lt_two_pow_self
    exact ⟨_, rfl, by rw [Int.toNat_natCast]; exact_mod_cast Nat.ne_of_gt grown⟩
  · split
    · exact ⟨_, rfl, by omega⟩
    · exact ⟨_, rfl, by omega⟩

end SiprecServer.Media.SdpUtils
