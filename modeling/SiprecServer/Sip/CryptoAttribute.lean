import SiprecServer.Sip.Sdp

/-!
# Keys through a crypto attribute

The generator writes the lifetime as an exponent of two and no MKI; the parser takes the
exponent for what it says, splits every key after 16 bytes and every salt after 14 more.
-/

namespace SiprecServer.Sip.CryptoAttribute

open Lib Media.SdpUtils Sip.Sdp List

inductive SrtpProfile where
  | aesCm128HmacSha1_80
  | aesCm128HmacSha1_32
  | aeadAes128Gcm
  | aeadAes256Gcm
deriving DecidableEq

namespace SrtpProfile

def name : SrtpProfile → String
  | aesCm128HmacSha1_80 => "AES_CM_128_HMAC_SHA1_80"
  | aesCm128HmacSha1_32 => "AES_CM_128_HMAC_SHA1_32"
  | aeadAes128Gcm => "AEAD_AES_128_GCM"
  | aeadAes256Gcm => "AEAD_AES_256_GCM"

def keyLength : SrtpProfile → Nat
  | aesCm128HmacSha1_80 | aesCm128HmacSha1_32 | aeadAes128Gcm => 16
  | aeadAes256Gcm => 32

def saltLength : SrtpProfile → Nat
  | aesCm128HmacSha1_80 | aesCm128HmacSha1_32 => 14
  | aeadAes128Gcm | aeadAes256Gcm => 12

end SrtpProfile

structure KeyRecord where
  profile : SrtpProfile
  masterKey : List UInt8
  masterSalt : List UInt8
  keyLifetime : Int
  mkiIndex : Nat
  mkiLength : Nat
  key_length : masterKey.length = profile.keyLength
  salt_length : masterSalt.length = profile.saltLength
  -- the lifetime is an `int`
  lifetime_fits : keyLifetime < 2 ^ 63

namespace KeyRecord

def keyInfo (record : KeyRecord) : SRTPKeyInfo where
  masterKey := record.masterKey
  masterSalt := record.masterSalt
  profile := record.profile.name
  keyLifetime := record.keyLifetime

/-- The forwarder holds this record; nothing of a forwarder holds an MKI. -/
def HeldBy (record : KeyRecord) (forwarder : RTPForwarder) : Prop :=
  forwarder.srtpProfile = record.profile.name ∧ forwarder.srtpMasterKey = record.masterKey ∧
    forwarder.srtpMasterSalt = record.masterSalt ∧
    forwarder.srtpKeyLifetime = record.keyLifetime ∧ record.mkiIndex = 0 ∧ record.mkiLength = 0

instance (record : KeyRecord) (forwarder : RTPForwarder) : Decidable (record.HeldBy forwarder) :=
  inferInstanceAs (Decidable (_ ∧ _))

section

variable (record : KeyRecord)

def ReadBack (forwarder : RTPForwarder) (value : String) : Prop :=
  ∃ parsed, parseSRTPAttributes forwarder value = some parsed ∧ record.HeldBy parsed

def material : List Char :=
  Base64.encode (record.masterKey ++ record.masterSalt)

def params : List (List Char) :=
  if 0 < record.keyLifetime then ["2^".toList ++ Nat.toDigits 10 record.keyLifetime.toNat] else []

/-- Characters that end neither a word nor a part of the inline material. -/
def solid (c : Char) : Bool := !Text.isSpace c && c ≠ '|'

theorem not_isSpace_of_solid {c : Char} (plain : solid c = true) : Text.isSpace c = false := by
  simpa using (Bool.and_eq_true_iff.mp plain).1

theorem name_solid (profile : SrtpProfile) :
    profile.name ≠ "" ∧ profile.name.toList.all solid = true := by
  cases profile <;> decide

theorem parts_solid : ∀ part ∈ record.material :: record.params, part.all solid = true := by
  have digits : (Base64.pad :: Base64.alphabet).all solid = true := by
    decide
  have power : "2^".toList.all solid = true := by decide
  refine forall_mem_cons.mpr ⟨all_eq_true.mpr fun c occurs =>
    all_eq_true.mp digits c (Base64.mem_encode c occurs), ?_⟩
  unfold params
  split
  · refine forall_mem_singleton.mpr ?_
    rw [all_append, power, Bool.true_and]
    refine all_eq_true.mpr fun c occurs => ?_
    have digit : c.isDigit = true := Nat.isDigit_of_mem_toDigits (by decide) (by decide) occurs
    have noBar : c ≠ '|' := by
      rintro rfl
      cases digit
    simp [solid, Text.isSpace_of_isDigit digit, noBar]
  · exact fun part mem => absurd mem not_mem_nil

theorem cryptoLine_toList :
    (cryptoLine record.keyInfo).toList =
      ['1'] ++ ' ' :: (record.profile.name.toList ++ ' ' ::
        ("inline:".toList ++ ['|'].intercalate (record.material :: record.params))) := by
  unfold cryptoLine params
  by_cases positive : 0 < record.keyLifetime
  · obtain ⟨lifetime, same⟩ := Int.eq_ofNat_of_zero_le (Int.le_of_lt positive)
    have written :
        (toString record.keyLifetime).toList = Nat.toDigits 10 record.keyLifetime.toNat := by
      rw [same]
      exact Nat.toList_repr
    have more : 0 < record.keyInfo.keyLifetime := positive
    rw [if_pos more, if_pos positive]
    simp only [String.toList_append, String.toList_ofList, keyInfo, material, written]
    simp
  · have none : ¬0 < record.keyInfo.keyLifetime := positive
    rw [if_neg none, if_neg positive]
    simp only [String.toList_append, String.toList_ofList, keyInfo, material]
    simp

theorem fields_cryptoLine :
    Text.fields (cryptoLine record.keyInfo).toList =
      [['1'], record.profile.name.toList,
        "inline:".toList ++ ['|'].intercalate (record.material :: record.params)] := by
  obtain ⟨named, plain⟩ := name_solid record.profile
  have inlineWord : "inline:".toList.all solid = true := by decide
  have solidWord {text : List Char} (plain : text.all solid = true) :
      ∀ c ∈ text, Text.isSpace c = false := fun c occurs =>
    not_isSpace_of_solid (all_eq_true.mp plain c occurs)
  rw [cryptoLine_toList, Text.fields_cons (by decide) (by simp [Text.isSpace]),
    Text.fields_cons (by simpa using named) (solidWord plain), Text.fields_word]
  · simp
  · intro c occurs
    obtain front | back := mem_append.mp occurs
    · exact solidWord inlineWord c front
    · obtain bar | ⟨part, mem, inside⟩ := Text.mem_of_mem_intercalate back
      · rw [mem_singleton.mp bar]
        rfl
      · exact solidWord (record.parts_solid part mem) c inside

theorem key_ne_nil : record.masterKey ≠ [] := by
  intro empty
  have length := record.key_length
  rw [empty] at length
  revert length
  cases record.profile <;> decide

theorem material_ne_nil : record.material ≠ [] := by
  intro empty
  have decoded := Base64.decode_encode (record.masterKey ++ record.masterSalt)
  rw [show Base64.encode _ = [] from empty] at decoded
  exact record.key_ne_nil (append_eq_nil_iff.mp (Option.some.inj decoded).symm).1

theorem parse_cryptoLine (forwarder : RTPForwarder) :
    parseSRTPAttributes forwarder (cryptoLine record.keyInfo) =
      if (record.masterKey ++ record.masterSalt).length < 30 then some forwarder
      else record.params.foldlM applyParam
        (takeKeys forwarder record.profile.name.toList (record.masterKey ++ record.masterSalt)) :=
  parseSRTPAttributes_inline forwarder record.fields_cryptoLine record.material_ne_nil
    (fun part mem bar => by
      have plain := all_eq_true.mp (record.parts_solid part mem) _ bar
      cases plain)
    (Base64.decode_encode _)

end

section

variable (record : KeyRecord) (forwarder : RTPForwarder)

include record forwarder

theorem lifetime_changed (positive : 0 < record.keyLifetime) :
    ∃ parsed, record.params.foldlM applyParam forwarder = some parsed ∧
      parsed.srtpKeyLifetime ≠ record.keyLifetime := by
  obtain ⟨lifetime, same⟩ := Int.eq_ofNat_of_zero_le (Int.le_of_lt positive)
  have fits := record.lifetime_fits
  rw [same] at positive fits
  obtain ⟨shifted, shift, differs⟩ := shiftOne_ne (Int.natCast_pos.mp positive)
  unfold params
  rw [same, if_pos positive, Int.toNat_natCast, foldlM_cons, applyParam, Text.dropPrefix?_append]
  simp only [Text.atoi_toDigits (by exact_mod_cast fits), shift]
  exact ⟨_, rfl, differs⟩

/-- Keys of 16 and salts of 14 bytes come back; the lifetime is that of the forwarder. -/
theorem readBack_iff_of_lengths (key : record.masterKey.length = 16)
    (salt : record.masterSalt.length = 14) :
    record.ReadBack forwarder (cryptoLine record.keyInfo) ↔
      record.keyLifetime ≤ 0 ∧ forwarder.srtpKeyLifetime = record.keyLifetime ∧
        record.mkiIndex = 0 ∧ record.mkiLength = 0 := by
  unfold ReadBack
  rw [parse_cryptoLine, if_neg (by rw [length_append]; omega)]
  by_cases positive : 0 < record.keyLifetime
  · obtain ⟨parsed, ran, differs⟩ := record.lifetime_changed
      (takeKeys forwarder record.profile.name.toList (record.masterKey ++ record.masterSalt))
      positive
    refine iff_of_false ?_ fun fine => absurd positive (by omega)
    rintro ⟨parsed', same, held⟩
    rw [ran] at same
    exact differs (Option.some.inj same ▸ held.2.2.2.1)
  · rw [show record.params = [] from if_neg positive]
    unfold HeldBy takeKeys
    simp [Int.not_lt.mp positive, take_left' key, drop_left' key, take_of_length_le salt.le]

end

theorem applyParam_key {forwarder parsed : RTPForwarder} {param : List Char}
    (applied : applyParam forwarder param = some parsed) :
    parsed.srtpMasterKey = forwarder.srtpMasterKey := by
  unfold applyParam at applied
  split at applied
  · rw [Option.some.inj applied]
  · split at applied
    · rw [Option.some.inj applied]
    · obtain ⟨lifetime, -, rfl⟩ := Option.map_eq_some_iff.mp applied
      rfl

theorem not_readBack_of_long (record : KeyRecord) (forwarder : RTPForwarder)
    (long : 16 < record.masterKey.length)
    (enough : 30 ≤ (record.masterKey ++ record.masterSalt).length) :
    ¬record.ReadBack forwarder (cryptoLine record.keyInfo) := by
  rintro ⟨parsed, ran, held⟩
  rw [parse_cryptoLine, if_neg (Nat.not_lt.mpr enough)] at ran
  have kept : parsed.srtpMasterKey = (record.masterKey ++ record.masterSalt).take 16 := by
    unfold params at ran
    split at ran
    · rw [foldlM_cons] at ran
      obtain ⟨next, applied, same⟩ := Option.bind_eq_some_iff.mp ran
      rw [← Option.some.inj same, applyParam_key applied]
      rfl
    · rw [← Option.some.inj ran]
      rfl
  have cut := congrArg List.length (kept.symm.trans held.2.1)
  rw [length_take] at cut
  omega

end KeyRecord

/-- Every line of an answer with these keys ends with their attribute, and parsing it gives the
record back only for the two AES-CM profiles, without a lifetime of its own and without MKI. -/
theorem crypto_read_back_iff (now : Nat) (offer : SessionDescription) (options : SDPOptions)
    (record : KeyRecord) (forwarder : RTPForwarder) :
    (generateSDPAdvanced now (some offer)
      { options with enableSRTP := true, srtpKeyInfo := some record.keyInfo }).mediaDescriptions.map
        (·.attributes.getLast?) =
      (offer.mediaDescriptions.map fun _ => some (cryptoAttribute record.keyInfo)) ∧
    (record.ReadBack forwarder (cryptoAttribute record.keyInfo).value ↔
      (record.profile = .aesCm128HmacSha1_80 ∨ record.profile = .aesCm128HmacSha1_32) ∧
          record.keyLifetime ≤ 0 ∧ forwarder.srtpKeyLifetime = record.keyLifetime ∧
          record.mkiIndex = 0 ∧ record.mkiLength = 0 ∨
        record.profile = .aeadAes128Gcm ∧ record.HeldBy forwarder) := by
  refine ⟨ext_getElem? fun idx => ?_, ?_⟩
  · simp only [generateSDPAdvanced, getElem?_map, getElem?_mapIdx, Option.map_map]
    refine congrArg (Option.map · _) (funext fun m => ?_)
    exact getLast?_concat
  have key := record.key_length
  have salt := record.salt_length
  change record.ReadBack forwarder (cryptoLine record.keyInfo) ↔ _
  cases named : record.profile with
  | aesCm128HmacSha1_80 =>
    rw [named] at key salt
    simp [record.readBack_iff_of_lengths forwarder key salt]
  | aesCm128HmacSha1_32 =>
    rw [named] at key salt
    simp [record.readBack_iff_of_lengths forwarder key salt]
  | aeadAes128Gcm =>
    rw [named] at key salt
    have short : record.masterKey.length + record.masterSalt.length < 30 := by
      rw [key, salt]
      decide
    simp [KeyRecord.ReadBack, KeyRecord.parse_cryptoLine, short]
  | aeadAes256Gcm =>
    rw [named] at key salt
    have long : 16 < record.masterKey.length := by
      rw [key]
      decide
    have enough : 30 ≤ (record.masterKey ++ record.masterSalt).length := by
      rw [length_append, key, salt]
      decide
    simp [record.not_readBack_of_long forwarder long enough]

def exponentRecord : KeyRecord where
  profile := .aesCm128HmacSha1_80
  masterKey := List.replicate 16 1
  masterSalt := List.replicate 14 2
  keyLifetime := 31
  mkiIndex := 0
  mkiLength := 0
  key_length := rfl
  salt_length := rfl
  lifetime_fits := by decide

def newForwarder : RTPForwarder where
  localPort := 10000
  rtcpPort := 10001
  localPort_pos := by decide

/-- The attribute that ends with `|2^31` is read as a lifetime of 2147483648. -/
theorem exponent_read_as_power :
    (parseSRTPAttributes newForwarder (cryptoLine exponentRecord.keyInfo)).map (·.srtpKeyLifetime) =
      some 2147483648 ∧
    ¬exponentRecord.ReadBack newForwarder (cryptoLine exponentRecord.keyInfo) := by
  have power : (parseSRTPAttributes newForwarder (cryptoLine exponentRecord.keyInfo)).map
      (·.srtpKeyLifetime) = some 2147483648 := by decide +kernel
  refine ⟨power, ?_⟩
  rintro ⟨parsed, ran, held⟩
  rw [ran] at power
  exact absurd (held.2.2.2.1.symm.trans (Option.some.inj power)) (by decide)

end SiprecServer.Sip.CryptoAttribute
