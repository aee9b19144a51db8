import SiprecServer.Media.RtpStream
import SiprecServer.Sip.RecordingSession

/-!
# A re-INVITE, exit by exit

`handleSiprecReInvite` works on the call state in place: it refreshes the session,
stores the SDP and resets the SSRC locks, drops forwarders that have stopped, and then
allocates, tears down and reassigns forwarders.  Every exit in between answers with
the state as it is by then.
-/

namespace SiprecServer.Sip.ReInvite

open Lib.FileSystem Media

variable {G O : Type}

abbrev Bytes := List UInt8

structure Forwarder (G O : Type) where
  stream : RtpStream G O
  -- the SRTP master key and salt are set
  srtpKeys : Bool
  -- the ports are held
  allocated : Bool

/-- All forwarders, by the order of their creation; those to come hold no ports. -/
structure Forwarders (G O : Type) where
  get : Nat → Forwarder G O
  next : Nat
  fresh : ∀ f, next ≤ f → (get f).allocated = false

structure Call where
  session : Option RecordingSession
  sdp : Option Bytes
  rtpForwarders : List Nat
  rtpForwarder : Option Nat
  streamForwarders : Store String Nat

structure Dialog (G O : Type) where
  call : Call
  media : Forwarders G O

namespace Forwarders

section

variable (media : Forwarders G O)

def update (chosen : List Nat) (change : Forwarder G O → Forwarder G O)
    (takesNone : ∀ forwarder, forwarder.allocated = false → (change forwarder).allocated = false) :
    Forwarders G O where
  get f := if f ∈ chosen then change (media.get f) else media.get f
  next := media.next
  fresh f later := by
    split
    · exact takesNone _ (media.fresh f later)
    · exact media.fresh f later

def resetRemoteSSRC (chosen : List Nat) : Forwarders G O :=
  media.update chosen (fun forwarder => { forwarder with stream := forwarder.stream.resetRemoteSSRC })
    fun _ free => free

def tearDown (chosen : List Nat) : Forwarders G O :=
  media.update chosen
    (fun forwarder =>
      { forwarder with stream := { forwarder.stream with stopped := true }, allocated := false })
    fun _ _ => rfl

/-- `ConfigureForwarderForMediaDescription`: keys are taken over if the offer has any. -/
def configure (f : Nat) (crypto : Bool) : Forwarders G O :=
  media.update [f]
    (fun forwarder => { forwarder with srtpKeys := forwarder.srtpKeys || crypto })
    fun _ free => free

def create : Forwarders G O where
  get f :=
    if f = media.next then { stream := {}, srtpKeys := false, allocated := true }
    else media.get f
  next := media.next + 1
  fresh f later := by
    rw [if_neg (Nat.ne_of_gt later)]
    exact media.fresh f (Nat.le_of_succ_le later)

end

end Forwarders

namespace Call

def primary (call : Call) : List Nat :=
  if call.rtpForwarders ≠ [] then call.rtpForwarders else call.rtpForwarder.toList

def publish (forwarders : List Nat) (call : Call) : Call :=
  { call with
    rtpForwarders := forwarders
    rtpForwarder := forwarders.head?.or call.rtpForwarder }

end Call

structure MediaDescription where
  media : String
  -- the first label attribute that is not blank
  label : Option String
  -- a usable crypto attribute, of the description or of the session
  crypto : Bool
deriving DecidableEq

structure AudioStream where
  description : Option MediaDescription
  label : String
deriving DecidableEq

def legLabel (index : Nat) : String := "leg" ++ toString index

def extractStreamLabel (description : MediaDescription) (index : Nat) : String :=
  description.label.getD (legLabel index)

def audioStreams (parsed : Option (List MediaDescription)) : List AudioStream :=
  let audio := (parsed.getD []).filter (·.media = "audio")
  if audio = [] then [⟨none, legLabel 0⟩]
  else audio.mapIdx fun index description =>
    ⟨some description, extractStreamLabel description index⟩

structure Request where
  multipartMixed : Bool
  sdp : Option Bytes
  -- the metadata part, and what parsing and validation make of it
  metadata : Option (Option RSMetadata)

structure MediaConfig where
  requireSRTP : Bool

structure Config where
  mediaConfig : Option MediaConfig
  multipartResponse : Bool
  parseSDP : Bytes → Option (List MediaDescription)
  createRecordingSession : RSMetadata → RecordingSession
  rfc3339 : Nat → String

inductive Admission where
  | admitted | rateLimited | challenged | blocked
deriving DecidableEq

/-- What the environment decides: how many forwarders can be created, whether the
metadata of the answer can be rendered, and the time. -/
structure Circumstances where
  admission : Admission
  granted : Nat
  rendered : Bool
  now : Nat

structure Response where
  status : Nat
  reason : String
deriving DecidableEq

def Response.ok : Response := ⟨200, "OK"⟩

def Response.serverError : Response := ⟨500, "Internal Server Error"⟩

def Response.isSuccess (response : Response) : Bool := response.status / 100 = 2

def refreshSession (config : Config) (now : Nat) (call : Call) :
    Option (Option RSMetadata) → Option Call
  | none => some call
  | some none => none
  | some (some metadata) =>
    some { call with
      session := some <| match call.session with
        | some session => updateRecordingSession config.rfc3339 now metadata session
        | none => config.createRecordingSession metadata }

/-- An SDP part replaces the stored one and clears the SSRC locks. -/
def storeSDP (sdp : Option Bytes) (dialog : Dialog G O) : Dialog G O :=
  match sdp with
  | none => dialog
  | some sdp =>
    { call := { dialog.call with sdp := some sdp }
      media := dialog.media.resetRemoteSSRC dialog.call.primary }

def Dialog.live (dialog : Dialog G O) (f : Nat) : Bool := !(dialog.media.get f).stream.stopped

def dropDead (dialog : Dialog G O) : Dialog G O :=
  { dialog with
    call := { dialog.call with
      rtpForwarder := dialog.call.rtpForwarder.filter dialog.live
      rtpForwarders := dialog.call.rtpForwarders.filter dialog.live
      streamForwarders := fun label => (dialog.call.streamForwarders label).filter dialog.live } }

/-- Create the missing forwarders; at a failure those created before stay as they are. -/
def allocate : (missing granted : Nat) → Forwarders G O → List Nat →
    Bool × Forwarders G O × List Nat
  | 0, _, media, forwarders => (true, media, forwarders)
  | _ + 1, 0, media, forwarders => (false, media, forwarders)
  | missing + 1, granted + 1, media, forwarders =>
    allocate missing granted media.create (forwarders ++ [media.next])

def configureStreams (requireSRTP : Bool) : List (AudioStream × Nat) → Forwarders G O →
    Store String Nat → Bool × Forwarders G O × Store String Nat
  | [], media, streams => (true, media, streams)
  | (⟨none, _⟩, _) :: rest, media, streams => configureStreams requireSRTP rest media streams
  | (⟨some description, label⟩, f) :: rest, media, streams =>
    let media := media.configure f description.crypto
    let streams := write streams label f
    if requireSRTP && !(media.get f).srtpKeys then (false, media, streams)
    else configureStreams requireSRTP rest media streams

def assignLegs (forwarders : List Nat) : Store String Nat :=
  writeAll empty (forwarders.zipIdx.map fun leg => (legLabel leg.2, leg.1))

def parsedSDP (config : Config) (sdp : Option Bytes) : Option (List MediaDescription) :=
  match sdp with
  | none => none
  | some sdp => if sdp = [] then none else config.parseSDP sdp

def assignForwarders (mediaConfig : MediaConfig) (parsed : Option (List MediaDescription))
    (forwarders : List Nat) (dialog : Dialog G O) : Option Response × Dialog G O :=
  let streams := audioStreams parsed
  let media := dialog.media.tearDown (forwarders.drop streams.length)
  let forwarders := forwarders.take streams.length
  let call := dialog.call.publish forwarders
  match parsed with
  | none => (none, ⟨{ call with streamForwarders := assignLegs forwarders }, media⟩)
  | some _ =>
    let configured :=
      configureStreams mediaConfig.requireSRTP (streams.zip forwarders) media empty
    (if configured.1 then none else some ⟨488, "Not Acceptable Here - SRTP required"⟩,
      ⟨{ call with streamForwarders := configured.2.2 }, configured.2.1⟩)

def matchStreams (mediaConfig : MediaConfig) (parsed : Option (List MediaDescription))
    (granted : Nat) (dialog : Dialog G O) : Option Response × Dialog G O :=
  let existing := dialog.call.primary
  let allocated :=
    allocate ((audioStreams parsed).length - existing.length) granted dialog.media existing
  let dialog := { dialog with media := allocated.2.1 }
  if allocated.1 then assignForwarders mediaConfig parsed allocated.2.2 dialog
  else (some .serverError, dialog)

def updateMedia (config : Config) (granted : Nat) (sdp : Option Bytes) (dialog : Dialog G O) :
    Option Response × Dialog G O :=
  if dialog.call.rtpForwarder = none ∧ sdp.getD [] = [] then (none, dialog)
  else
    match config.mediaConfig with
    | none => (some .serverError, dialog)
    | some mediaConfig => matchStreams mediaConfig (parsedSDP config sdp) granted dialog

section

variable (config : Config) (env : Circumstances)

/-- The final answer; the multipart one needs the metadata of the session rendered. -/
def answer (dialog : Dialog G O) : Response × Dialog G O :=
  match dialog.call.session with
  | none => (.ok, dialog)
  | some session =>
    if config.multipartResponse then
      if env.rendered then
        (.ok, { dialog with
          call := { dialog.call with session := some (session.answered env.now) } })
      else (.serverError, dialog)
    else (.ok, dialog)

def handleSiprecReInvite (request : Request) (dialog : Dialog G O) : Response × Dialog G O :=
  match refreshSession config env.now dialog.call request.metadata with
  | none => (⟨400, "Bad Request - Invalid SIPREC metadata"⟩, dialog)
  | some call =>
    match updateMedia config env.granted request.sdp
        (dropDead (storeSDP request.sdp { dialog with call })) with
    | (some refusal, after) => (refusal, after)
    | (none, after) => answer config env after

/-- `handleInviteMessage` for a Call-ID that has a call state. -/
def handleInviteMessage (request : Request) (dialog : Dialog G O) : Response × Dialog G O :=
  match env.admission with
  | .rateLimited => (⟨503, "Service Unavailable - Rate Limit Exceeded"⟩, dialog)
  | .challenged => (⟨401, "Unauthorized"⟩, dialog)
  | .blocked => (⟨403, "Forbidden"⟩, dialog)
  | .admitted =>
    if request.multipartMixed then handleSiprecReInvite config env request dialog
    else (⟨403, "Forbidden - SIPREC sessions only"⟩, dialog)

end

end SiprecServer.Sip.ReInvite
