import SiprecServer.Lib.IpAddress
import SiprecServer.Media.Codec
import SiprecServer.Sip.CryptoAttribute

/-!
# Attributes of an offer

`ConfigureForwarderForMediaDescription` takes the attributes of the session and of a media
line over into a forwarder, one after the other.  A crypto attribute whose material decodes to
thirty bytes is taken whatever its profile is, and its exponent is shifted by as it stands.
-/

namespace SiprecServer.Sip.OfferAttributes

open Lib Media Media.SdpUtils Sip.Sdp List
open Lib.IpAddress (Bytes parseIP)
open Sip.CryptoAttribute (SrtpProfile)
open Text

structure UDPAddr where
  ip : Bytes
  port : Int
deriving DecidableEq

structure MediaForwarder extends RTPForwarder where
  useRTCPMux : Bool := false
  expectedRemoteRTCPPort : Int := 0
  remoteRTPAddr : Option UDPAddr := none
  remoteRTCPAddr : Option UDPAddr := none
  codecPayloadType : UInt8 := 0
  codecName : String := ""
  sampleRate : Int := 0
  channels : Int := 0
deriving DecidableEq

/-- The number in the first word of an `rtcp` attribute. -/
def rtcpPort (value : String) : Option Int := (fields value.toList).head?.bind atoi

/-- One attribute of the session or of the line; `none` is a panic. -/
def applyAttribute (forwarder : MediaForwarder) (attr : Attribute) : Option MediaForwarder :=
  match attr.key with
  | "rtcp-mux" => some { forwarder with useRTCPMux := true }
  | "rtcp" =>
    some { forwarder with
      expectedRemoteRTCPPort := (rtcpPort attr.value).getD forwarder.expectedRemoteRTCPPort }
  | "crypto" =>
    (parseSRTPAttributes forwarder.toRTPForwarder attr.value).map fun parsed =>
      { forwarder with toRTPForwarder := parsed }
  | _ => some forwarder

def applyAttributes (forwarder : MediaForwarder) (attrs : List Attribute) : Option MediaForwarder :=
  attrs.foldlM applyAttribute forwarder

section

variable (toUpper : String → String)

def rtpmapDetails (format : String) (attr : Attribute) : Option (String × Int × Int) :=
  if attr.key ≠ "rtpmap" then none
  else
    match fields attr.value.toList with
    | [payloadType, encoding] =>
      if payloadType ≠ format.toList then none
      else
        let parts := encoding.splitOn '/'
        let channels := (parts[2]?.bind atoi).getD 1
        some (toUpper (String.ofList (parts.headD [])), (parts[1]?.bind atoi).getD 0,
          if 0 < channels then channels else 1)
    | _ => none

def codecDetailsFromAttributes (attrs : List Attribute) (format : String) : String × Int × Int :=
  (attrs.findSome? (rtpmapDetails toUpper format)).getD ("", 0, 1)

variable (forwarder : MediaForwarder)

def MediaForwarder.setCodecInfo (payloadType : UInt8) (codecName : String)
    (sampleRate channels : Int) : MediaForwarder :=
  { forwarder with
    codecPayloadType := payloadType
    codecName := toUpper codecName
    sampleRate := if sampleRate ≤ 0 then 8000 else sampleRate
    channels := if channels ≤ 0 then 1 else channels }

def applyFormats (forwarder : MediaForwarder) (attrs : List Attribute) :
    List String → MediaForwarder
  | [] => forwarder
  | format :: formats =>
    match atoi (trimSpace format).toList with
    | none => applyFormats forwarder attrs formats
    | some pt =>
      let payloadType := UInt8.ofNat (pt % 256).toNat
      let (codecName, sampleRate, channels) := codecDetailsFromAttributes toUpper attrs format
      match if codecName = "" then getCodecInfo payloadType else none with
      | none => forwarder.setCodecInfo toUpper payloadType codecName sampleRate channels
      | some info =>
        forwarder.setCodecInfo toUpper payloadType info.name
          (if sampleRate = 0 then info.sampleRate else sampleRate)
          (if channels = 0 then info.channels else channels)

def setRemoteAddressHints (sdpDesc : SessionDescription) (md : MediaDescription) : MediaForwarder :=
  match parseIP ((md.connection.or sdpDesc.connection).getD "") with
  | none => forwarder
  | some ip =>
    let named := (md.attributes.find? (·.key = "rtcp")).bind fun attr => rtcpPort attr.value
    { forwarder with
      remoteRTPAddr := some ⟨ip, md.port⟩
      remoteRTCPAddr := some ⟨ip, named.getD (md.port + 1)⟩ }

def configureForwarderForMediaDescription (sdpDesc : SessionDescription) (md : MediaDescription) :
    Option MediaForwarder :=
  (applyAttributes forwarder sdpDesc.attributes).bind fun forwarder =>
    (applyAttributes forwarder md.attributes).map fun forwarder =>
      setRemoteAddressHints (applyFormats toUpper forwarder md.attributes md.formats) sdpDesc md

end

structure Crypto where
  profile : List Char
  rawKey : List UInt8
  params : List (List Char)

def readCrypto (value : String) : Option Crypto :=
  let fields := fields value.toList
  let inline := inlineMaterial fields
  match fields[1]?, Base64.decode ((inline.splitOn '|').headD []) with
  | some profile, some rawKey =>
    if inline ≠ [] ∧ 30 ≤ rawKey.length then some ⟨profile, rawKey, (inline.splitOn '|').tail⟩
    else none
  | _, _ => none

variable (param : List Char)

def writtenLifetime : Option Nat :=
  match param.dropPrefix? "2^".toList with
  | some exponent =>
    if exponent ≠ [] ∧ exponent.all Char.isDigit then
      some (2 ^ Nat.ofDigitChars 10 exponent 0)
    else none
  | none =>
    if param ≠ [] ∧ param.all Char.isDigit then some (Nat.ofDigitChars 10 param 0) else none

variable (forwarder : RTPForwarder)

def srtpState : String × List UInt8 × List UInt8 × Int :=
  (forwarder.srtpProfile, forwarder.srtpMasterKey, forwarder.srtpMasterSalt,
    forwarder.srtpKeyLifetime)

def AllOrNothing (value : String) : Prop :=
  ∃ parsed, parseSRTPAttributes forwarder value = some parsed ∧
    (srtpState parsed = srtpState forwarder ∨
      ∃ crypto, readCrypto value = some crypto ∧
        (∃ profile : SrtpProfile, profile.name.toList = crypto.profile ∧
          parsed.srtpMasterKey.length = profile.keyLength ∧
          parsed.srtpMasterSalt.length = profile.saltLength) ∧
        ∀ lifetime ∈ crypto.params.filterMap writtenLifetime,
          parsed.srtpKeyLifetime = lifetime)

def EachCrypto (Good : RTPForwarder → String → Prop) : MediaForwarder → List Attribute → Prop
  | _, [] => True
  | forwarder, attr :: attrs =>
    (attr.key = "crypto" → Good forwarder.toRTPForwarder attr.value) ∧
      ∀ next, applyAttribute forwarder attr = some next → EachCrypto Good next attrs

/-! ## One crypto attribute -/

def exponent : Option Int := (param.dropPrefix? "2^".toList).bind atoi

theorem applyParam_eq :
    applyParam forwarder param =
      match exponent param with
      | none => some forwarder
      | some exp =>
        (shiftOne exp).map fun lifetime => { forwarder with srtpKeyLifetime := lifetime } := by
  unfold applyParam exponent
  cases param.dropPrefix? "2^".toList with
  | none => rfl
  | some digits =>
    cases parsed : atoi digits with
    | none => simp only [parsed, Option.bind_some]
    | some exp => simp only [parsed, Option.bind_some]

def lifetimeAfter (lifetime : Int) (params : List (List Char)) : Int :=
  params.foldl (fun lifetime param => ((exponent param).bind shiftOne).getD lifetime) lifetime

theorem foldlM_applyParam {params : List (List Char)}
    (exponents : ∀ param ∈ params, ∀ exp ∈ exponent param, 0 ≤ exp) (forwarder : RTPForwarder) :
    params.foldlM applyParam forwarder =
      some { forwarder with
        srtpKeyLifetime := lifetimeAfter forwarder.srtpKeyLifetime params } := by
  induction params generalizing forwarder with
  | nil => rfl
  | cons param params ih =>
    have later := ih fun param mem => exponents param (.tail _ mem)
    rw [foldlM_cons, applyParam_eq, lifetimeAfter, foldl_cons]
    cases isExponent : exponent param with
    | none => exact later forwarder
    | some exp =>
      have shifted : ∃ lifetime, shiftOne exp = some lifetime := by
        have nonneg := exponents param (.head _) exp isExponent
        unfold shiftOne
        rw [if_neg (by omega)]
        split
        · exact ⟨_, rfl⟩
        · split <;> exact ⟨_, rfl⟩
      obtain ⟨lifetime, shifted⟩ := shifted
      dsimp only
      rw [Option.bind_some, shifted]
      exact later { forwarder with srtpKeyLifetime := lifetime }

theorem foldlM_applyParam_negative {params : List (List Char)} {param : List Char} {exp : Int}
    (mem : param ∈ params) (isExponent : exponent param = some exp) (negative : exp < 0)
    (forwarder : RTPForwarder) : params.foldlM applyParam forwarder = none := by
  induction params generalizing forwarder with
  | nil => cases mem
  | cons first params ih =>
    rw [foldlM_cons]
    obtain rfl | later := mem_cons.mp mem
    · rw [applyParam_eq, isExponent]
      simp [shiftOne, negative]
    · cases applyParam forwarder first with
      | none => rfl
      | some next => exact ih later next

theorem parseSRTPAttributes_eq (value : String) :
    parseSRTPAttributes forwarder value =
      match readCrypto value with
      | none => some forwarder
      | some crypto =>
        crypto.params.foldlM applyParam (takeKeys forwarder crypto.profile crypto.rawKey) := by
  unfold parseSRTPAttributes readCrypto
  dsimp only
  cases (fields value.toList)[1]? with
  | none => rfl
  | some profile =>
    dsimp only
    by_cases absent : inlineMaterial (fields value.toList) = []
    · rw [if_pos absent]
      cases Base64.decode (((inlineMaterial (fields value.toList)).splitOn '|').headD []) with
      | none => rfl
      | some rawKey => simp [absent]
    · rw [if_neg absent]
      cases Base64.decode (((inlineMaterial (fields value.toList)).splitOn '|').headD []) with
      | none => rfl
      | some rawKey =>
        by_cases short : rawKey.length < 30
        · simp [short, Nat.not_le.mpr short]
        · simp [short, absent, Nat.not_lt.mp short]

theorem readCrypto_length {value : String} {crypto : Crypto}
    (read : readCrypto value = some crypto) : 30 ≤ crypto.rawKey.length := by
  unfold readCrypto at read
  dsimp only at read
  split at read
  · split at read
    case isTrue long =>
      cases read
      exact long.2
    case isFalse => cases read
  · cases read

def taken (crypto : Crypto) : RTPForwarder :=
  { takeKeys forwarder crypto.profile crypto.rawKey with
    srtpKeyLifetime := lifetimeAfter forwarder.srtpKeyLifetime crypto.params }

def Repeats (forwarder : RTPForwarder) (crypto : Crypto) : Prop :=
  String.ofList crypto.profile = forwarder.srtpProfile ∧
    crypto.rawKey.take 16 = forwarder.srtpMasterKey ∧
    (crypto.rawKey.drop 16).take 14 = forwarder.srtpMasterSalt ∧
    lifetimeAfter forwarder.srtpKeyLifetime crypto.params = forwarder.srtpKeyLifetime

theorem taken_eq_iff (crypto : Crypto) :
    srtpState (taken forwarder crypto) = srtpState forwarder ↔ Repeats forwarder crypto := by
  simp only [srtpState, Prod.mk.injEq]
  exact Iff.rfl

/-- No exponent is negative, and the attribute repeats what the forwarder has, or names a profile
with keys and salts of the lengths that are taken and no lifetime but the last power of two. -/
structure TakenAsWritten (forwarder : RTPForwarder) (crypto : Crypto) : Prop where
  exponents : ∀ param ∈ crypto.params, ∀ exp ∈ exponent param, 0 ≤ exp
  result : Repeats forwarder crypto ∨
    (crypto.profile = "AES_CM_128_HMAC_SHA1_80".toList ∨
        crypto.profile = "AES_CM_128_HMAC_SHA1_32".toList) ∧
      ∀ lifetime ∈ crypto.params.filterMap writtenLifetime,
        lifetimeAfter forwarder.srtpKeyLifetime crypto.params = lifetime

theorem profile_lengths_iff (text : List Char) :
    (∃ profile : SrtpProfile, profile.name.toList = text ∧ 16 = profile.keyLength ∧
        14 = profile.saltLength) ↔
      text = "AES_CM_128_HMAC_SHA1_80".toList ∨ text = "AES_CM_128_HMAC_SHA1_32".toList := by
  constructor
  · rintro ⟨profile, rfl, -, salt⟩
    cases profile with
    | aesCm128HmacSha1_80 => exact .inl rfl
    | aesCm128HmacSha1_32 => exact .inr rfl
    | aeadAes128Gcm | aeadAes256Gcm => cases salt
  · rintro (rfl | rfl)
    · exact ⟨.aesCm128HmacSha1_80, rfl, rfl, rfl⟩
    · exact ⟨.aesCm128HmacSha1_32, rfl, rfl, rfl⟩

theorem allOrNothing_iff (value : String) :
    AllOrNothing forwarder value ↔
      ∀ crypto, readCrypto value = some crypto → TakenAsWritten forwarder crypto := by
  unfold AllOrNothing
  rw [parseSRTPAttributes_eq]
  cases read : readCrypto value with
  | none =>
    exact iff_of_true ⟨forwarder, rfl, .inl rfl⟩ fun crypto absent => by cases absent
  | some crypto =>
    have long := readCrypto_length read
    have key : (taken forwarder crypto).srtpMasterKey.length = 16 := by
      simp only [taken, takeKeys, length_take]
      omega
    have salt : (taken forwarder crypto).srtpMasterSalt.length = 14 := by
      simp only [taken, takeKeys, length_take, length_drop]
      omega
    dsimp only
    constructor
    · rintro ⟨parsed, isParsed, outcome⟩ crypto' same
      cases same
      have exponents : ∀ param ∈ crypto.params, ∀ exp ∈ exponent param, 0 ≤ exp := by
        intro param mem exp isExponent
        by_contra negative
        rw [foldlM_applyParam_negative mem isExponent (Int.not_le.mp negative)] at isParsed
        cases isParsed
      rw [foldlM_applyParam exponents] at isParsed
      obtain rfl : taken forwarder crypto = parsed := Option.some.inj isParsed
      refine ⟨exponents, outcome.imp (taken_eq_iff forwarder crypto).mp ?_⟩
      rintro ⟨crypto', same, profile, lifetimes⟩
      cases same
      rw [key, salt] at profile
      exact ⟨(profile_lengths_iff _).mp profile, lifetimes⟩
    · intro written
      obtain ⟨exponents, result⟩ := written crypto rfl
      refine ⟨taken forwarder crypto, foldlM_applyParam exponents _,
        result.imp (taken_eq_iff forwarder crypto).mpr ?_⟩
      rintro ⟨profile, lifetimes⟩
      refine ⟨crypto, rfl, ?_, lifetimes⟩
      rw [key, salt]
      exact (profile_lengths_iff _).mpr profile

theorem EachCrypto.congr {Good Other : RTPForwarder → String → Prop}
    (same : ∀ forwarder value, Good forwarder value ↔ Other forwarder value)
    (forwarder : MediaForwarder) (attrs : List Attribute) :
    EachCrypto Good forwarder attrs ↔ EachCrypto Other forwarder attrs := by
  have equal : Good = Other := funext fun forwarder => funext fun value => propext (same _ _)
  rw [equal]

theorem applyAttributes_isSome {forwarder : MediaForwarder} {attrs : List Attribute}
    (each : EachCrypto AllOrNothing forwarder attrs) :
    (applyAttributes forwarder attrs).isSome = true := by
  induction attrs generalizing forwarder with
  | nil => rfl
  | cons attr attrs ih =>
    obtain ⟨here, later⟩ := each
    have returns : ∃ next, applyAttribute forwarder attr = some next := by
      unfold applyAttribute
      split
      · exact ⟨_, rfl⟩
      · exact ⟨_, rfl⟩
      · rename_i isCrypto
        obtain ⟨parsed, isParsed, -⟩ := here isCrypto
        exact ⟨_, by rw [isParsed]; rfl⟩
      · exact ⟨_, rfl⟩
    obtain ⟨next, applied⟩ := returns
    unfold applyAttributes
    rw [foldlM_cons, applied]
    exact ih (later next applied)

theorem configure_isSome_iff (toUpper : String → String) (forwarder : MediaForwarder)
    (sdpDesc : SessionDescription) (md : MediaDescription) :
    (configureForwarderForMediaDescription toUpper forwarder sdpDesc md).isSome =
      (applyAttributes forwarder (sdpDesc.attributes ++ md.attributes)).isSome := by
  unfold configureForwarderForMediaDescription applyAttributes
  rw [foldlM_append]
  cases sdpDesc.attributes.foldlM applyAttribute forwarder with
  | none => rfl
  | some next => simp

/-- An offer is applied without a panic and each of its crypto attributes is all or nothing, if
and only if each is ignored or can be taken over as it is written. -/
theorem offer_attributes_iff (toUpper : String → String) (forwarder : MediaForwarder)
    (sdpDesc : SessionDescription) (md : MediaDescription) :
    ((configureForwarderForMediaDescription toUpper forwarder sdpDesc md).isSome = true ∧
        EachCrypto AllOrNothing forwarder (sdpDesc.attributes ++ md.attributes)) ↔
      EachCrypto (fun forwarder value =>
          ∀ crypto, readCrypto value = some crypto → TakenAsWritten forwarder crypto)
        forwarder (sdpDesc.attributes ++ md.attributes) := by
  rw [← EachCrypto.congr allOrNothing_iff, configure_isSome_iff]
  exact ⟨And.right, fun each => ⟨applyAttributes_isSome each, each⟩⟩

/-- A negative exponent panics; a profile with keys of 32 bytes is given one of 16, and a
lifetime in full is ignored. -/
theorem negative_exponent_panics : let forwarder : MediaForwarder :=
      { localPort := 10000, rtcpPort := 10001, localPort_pos := by decide }
    let sdpDesc : SessionDescription :=
      ⟨"-", 1, 1, "192.0.2.1", "-", some "192.0.2.1", [⟨0, 0⟩], [], []⟩
    let offer value : MediaDescription :=
      ⟨"audio", 40000, ["RTP", "SAVP"], ["0"], none, [⟨"crypto", value⟩]⟩
    let key := "inline:AAAAAAAAAAAAAAAAAAAAAAAAAAAAAAAAAAAAAAAA"
    let configure value := configureForwarderForMediaDescription id forwarder sdpDesc (offer value)
    configure ("1 AES_CM_128_HMAC_SHA1_80 " ++ key ++ "|2^-1") = none ∧
      (configure ("1 AEAD_AES_256_GCM " ++ key ++ "|1048576")).map
          (fun configured => srtpState configured.toRTPForwarder) =
        some ("AEAD_AES_256_GCM", List.replicate 16 0, List.replicate 14 0, 2 ^ 31) := by
  decide +kernel

end SiprecServer.Sip.OfferAttributes
