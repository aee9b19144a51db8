import Mathlib.Data.List.Infix
import SiprecServer.Media.SdpUtils

/-!
# SDP answers

`generateSDPAdvanced` answers an offer line by line.  Where a line gets its ports from is
decided by its callers: `generateSDPResponseForForwarders` gives every audio line a
forwarder of its own while there are any, `generateSDPResponseWithPort` gives the first
line the one port it has.  A line without a pair of its own takes the ports of the options.
-/

namespace SiprecServer.Sip.Sdp

open Lib Media.SdpUtils

structure Attribute where
  key : String
  value : String := ""
deriving DecidableEq

structure MediaDescription where
  media : String
  port : Int
  protos : List String
  formats : List String
  -- the address of the connection line, if there is one
  connection : Option String
  attributes : List Attribute
deriving DecidableEq

structure TimeDescription where
  startTime : Nat
  stopTime : Nat
deriving DecidableEq

structure SessionDescription where
  username : String
  sessionID : Nat
  sessionVersion : Nat
  unicastAddress : String
  sessionName : String
  connection : Option String
  timeDescriptions : List TimeDescription
  mediaDescriptions : List MediaDescription
  attributes : List Attribute
deriving DecidableEq

structure SRTPKeyInfo where
  masterKey : List UInt8
  masterSalt : List UInt8
  profile : String
  keyLifetime : Int
deriving DecidableEq

structure PortPair where
  rtpPort : Int
  rtcpPort : Int
deriving DecidableEq

def PortPair.zero : PortPair := ⟨0, 0⟩

structure SDPOptions where
  ipAddress : String
  behindNAT : Bool
  internalIP : String
  externalIP : String
  includeICE : Bool
  rtpPort : Int := 0
  rtcpPort : Int := 0
  useRTCPMux : Bool := false
  enableSRTP : Bool := false
  srtpKeyInfo : Option SRTPKeyInfo := none
  mediaPortPairs : List PortPair := []

structure MediaConfig where
  behindNAT : Bool
  internalIP : String
  externalIP : String
  enableSRTP : Bool

section

variable (options : SDPOptions)

def SDPOptions.connectionAddr : String :=
  if options.behindNAT then options.externalIP else options.ipAddress

/-! ## One line of the answer -/

def SDPOptions.linePorts (idx : Nat) : PortPair :=
  let pair := (options.mediaPortPairs[idx]?).getD .zero
  let rtpPort := if 0 < pair.rtpPort then pair.rtpPort else options.rtpPort
  let rtcpPort := if 0 < pair.rtcpPort then pair.rtcpPort else options.rtcpPort
  ⟨rtpPort, if rtcpPort ≤ 0 ∧ 0 < rtpPort then rtpPort + 1 else rtcpPort⟩

def answerDirection (key : String) : Option String :=
  if key = "sendonly" then some "recvonly"
  else if key = "sendrecv" then some "recvonly"
  else if key = "inactive" then some "inactive"
  else if key = "recvonly" then some "sendonly"
  else none

/-- Directions and RTCP ports are not forwarded, nor are candidates of the local network. -/
def SDPOptions.forwards (attr : Attribute) : Bool :=
  (answerDirection attr.key).isNone && attr.key ≠ "rtcp" &&
    !(options.behindNAT && attr.key = "candidate" &&
      decide (options.internalIP.toList <:+: attr.value.toList))

/-- The answer to the last direction attribute, `recvonly` if there is none. -/
def direction (attributes : List Attribute) : Attribute :=
  { key := ((attributes.filterMap fun attr => answerDirection attr.key).getLast?).getD "recvonly" }

def SDPOptions.rtcpAttributes (ports : PortPair) : List Attribute :=
  if options.useRTCPMux then [{ key := "rtcp-mux" }]
  else if 0 < ports.rtcpPort ∧ ports.rtcpPort ≠ ports.rtpPort then
    [{ key := "rtcp", value := toString ports.rtcpPort ++ " IN IP4 " ++ options.connectionAddr }]
  else []

def SDPOptions.candidates (component : Nat) (port : Int) : List Attribute :=
  let hostPriority := 2130706432 - component
  let reflexivePriority := 1694498816 - component
  (if options.internalIP ≠ "" then
    [{ key := "candidate"
       value := "1 " ++ toString component ++ " UDP " ++ toString hostPriority ++ " " ++
        options.internalIP ++ " " ++ toString port ++ " typ host" }]
  else []) ++
  (if options.externalIP ≠ "" ∧ options.externalIP ≠ options.internalIP then
    [{ key := "candidate"
       value := "2 " ++ toString component ++ " UDP " ++ toString reflexivePriority ++ " " ++
        options.externalIP ++ " " ++ toString port ++ " typ srflx raddr " ++
        options.internalIP ++ " rport " ++ toString port }]
  else [])

def SDPOptions.iceAttributes (ports : PortPair) : List Attribute :=
  if options.behindNAT && options.includeICE then
    [{ key := "ice-ufrag", value := "randomufrag" },
     { key := "ice-pwd", value := "randomicepwd" }] ++
      options.candidates 1 ports.rtpPort ++
      (if options.useRTCPMux = false ∧ 0 < ports.rtcpPort then options.candidates 2 ports.rtcpPort
       else [])
  else []

def cryptoLine (info : SRTPKeyInfo) : String :=
  "1 " ++ info.profile ++ " inline:" ++
    String.ofList (Base64.encode (info.masterKey ++ info.masterSalt)) ++
    if 0 < info.keyLifetime then "|2^" ++ toString info.keyLifetime else ""

/-- `RTP/AVP` becomes `RTP/SAVP`; without one the first protocol does. -/
def secureProtos (protos : List String) : List String :=
  if "RTP/AVP" ∈ protos then protos.replace "RTP/AVP" "RTP/SAVP" else protos.set 0 "RTP/SAVP"

def SDPOptions.srtpKeys : Option SRTPKeyInfo :=
  if options.enableSRTP then options.srtpKeyInfo else none

def cryptoAttribute (info : SRTPKeyInfo) : Attribute :=
  { key := "crypto", value := cryptoLine info }

/-- G.711 first, then G.722, then the formats that are left, in their order. -/
def prioritizeCodecs (formats : List String) : List String :=
  let preferred := ["0", "8", "9"]
  preferred.filter (· ∈ formats) ++ formats.filter (· ∉ preferred)

def SDPOptions.answerMedia (idx : Nat) (m : MediaDescription) : MediaDescription :=
  let ports := options.linePorts idx
  { media := m.media
    port := ports.rtpPort
    protos := if options.srtpKeys.isSome then secureProtos m.protos else m.protos
    formats := prioritizeCodecs m.formats
    connection := some options.connectionAddr
    attributes := m.attributes.filter options.forwards ++ [direction m.attributes] ++
      options.rtcpAttributes ports ++ options.iceAttributes ports ++
      options.srtpKeys.toList.map cryptoAttribute }

end

def defaultCryptoLine (info : SRTPKeyInfo) : String :=
  if info.masterKey ≠ [] ∧ info.masterSalt ≠ [] then cryptoLine info
  else "1 AES_CM_128_HMAC_SHA1_80 inline:c2VjcmV0a2V5c2VjcmV0a2V5c2VjcmU="

/-- The answer without an offer; `now` is the wall clock in microseconds. -/
def generateDefaultSDP (now : Nat) (options : SDPOptions) : SessionDescription where
  username := "siprec"
  sessionID := now / 1000000
  sessionVersion := 1
  unicastAddress := options.connectionAddr
  sessionName := "SIPREC Media Session"
  connection := some options.connectionAddr
  timeDescriptions := [⟨0, 0⟩]
  attributes := [{ key := "recording-session" }]
  mediaDescriptions :=
    [{ media := "audio"
       port := if options.rtpPort ≤ 0 then 0 else options.rtpPort
       protos := [if options.srtpKeys.isSome then "RTP/SAVP" else "RTP/AVP"]
       formats := ["0", "8", "9"]
       connection := some options.connectionAddr
       attributes :=
        [{ key := "rtpmap", value := "0 PCMU/8000" }, { key := "rtpmap", value := "8 PCMA/8000" },
         { key := "rtpmap", value := "9 G722/8000" }, { key := "ptime", value := "20" },
         { key := "recvonly" }] ++
        options.srtpKeys.toList.map fun info =>
          { key := "crypto", value := defaultCryptoLine info } }]

def generateSDPAdvanced (now : Nat) (receivedSDP : Option SessionDescription)
    (options : SDPOptions) : SessionDescription :=
  match receivedSDP with
  | none => generateDefaultSDP now options
  | some offer =>
    { username := "siprec-srs"
      sessionID := now
      sessionVersion := 1
      unicastAddress := options.connectionAddr
      sessionName := "SRS Recording Session"
      connection := some options.connectionAddr
      timeDescriptions := offer.timeDescriptions
      mediaDescriptions := offer.mediaDescriptions.mapIdx options.answerMedia
      attributes := [{ key := "recording-session" }] }

def keyInfo (forwarder : RTPForwarder) : Option SRTPKeyInfo :=
  if forwarder.srtpMasterKey ≠ [] ∧ forwarder.srtpMasterSalt ≠ [] then
    some
      { masterKey := forwarder.srtpMasterKey
        masterSalt := forwarder.srtpMasterSalt
        profile := forwarder.srtpProfile
        keyLifetime := forwarder.srtpKeyLifetime }
  else none

def generateSDPResponseWithPort (config : MediaConfig) (now : Nat)
    (receivedSDP : Option SessionDescription) (ipToUse : String) (rtpPort : Int)
    (rtpForwarder : Option RTPForwarder) : SessionDescription :=
  let rtcpPort := rtpForwarder.elim 0 fun forwarder => max 0 forwarder.rtcpPort
  let enableSRTP := config.enableSRTP && rtpForwarder.any fun forwarder => forwarder.srtpEnabled
  generateSDPAdvanced now receivedSDP
    { ipAddress := ipToUse
      behindNAT := config.behindNAT
      internalIP := config.internalIP
      externalIP := config.externalIP
      includeICE := false
      rtpPort := rtpPort
      rtcpPort := rtcpPort
      useRTCPMux := config.behindNAT && decide (0 < rtcpPort)
      enableSRTP := enableSRTP
      srtpKeyInfo := if enableSRTP then rtpForwarder.bind keyInfo else none
      mediaPortPairs := [⟨rtpPort, rtcpPort⟩] }

/-- The loop over the offer: audio lines take the forwarders in turn. -/
def audioPairs : List RTPForwarder → List MediaDescription → List PortPair
  | _, [] => []
  | [], _ :: rest => .zero :: audioPairs [] rest
  | forwarder :: more, m :: rest =>
    if m.media ≠ "audio" then .zero :: audioPairs (forwarder :: more) rest
    else ⟨forwarder.localPort, forwarder.rtcpPort⟩ :: audioPairs more rest

def generateSDPResponseForForwarders (config : MediaConfig) (now : Nat)
    (receivedSDP : Option SessionDescription) (ipToUse : String)
    (forwarders : List RTPForwarder) : SessionDescription :=
  let options : SDPOptions :=
    { ipAddress := ipToUse
      behindNAT := config.behindNAT
      internalIP := config.internalIP
      externalIP := config.externalIP
      includeICE := true }
  match receivedSDP, forwarders with
  | none, _ => generateDefaultSDP now options
  | some offer, [] => generateSDPAdvanced now (some offer) options
  | some offer, first :: more =>
    let keys := if config.enableSRTP && first.srtpEnabled then keyInfo first else none
    generateSDPAdvanced now (some offer)
      { options with
        rtpPort := first.localPort
        rtcpPort := first.rtcpPort
        mediaPortPairs := audioPairs (first :: more) offer.mediaDescriptions
        enableSRTP := keys.isSome
        srtpKeyInfo := keys }

end SiprecServer.Sip.Sdp
