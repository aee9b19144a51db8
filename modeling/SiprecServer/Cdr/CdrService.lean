import SiprecServer.Lib.FileSystem

/-!
# Call detail records

`CDRService` holds the CDRs of the sessions that run in `activeCDRs`, by session ID, and
stores each in the database when its session ends.  The ID of a CDR, which is drawn anew
when it is stored and only logged before, is left out.
-/

namespace SiprecServer.Cdr

open Lib.FileSystem

/-- What a CDR says of the call: `partly` is the status "partial". -/
inductive Status where
  | active | completed | partly | failed
deriving DecidableEq

structure CDR where
  sessionID : String
  callID : String
  startTime : Nat
  transport : String
  sourceIP : String
  createdAt : Nat
  updatedAt : Nat
  callerID : Option String := none
  calleeID : Option String := none
  endTime : Option Nat := none
  -- in seconds
  duration : Option Int := none
  recordingPath : String := ""
  recordingSize : Option Nat := none
  quality : Option Rat := none
  sampleRate : Option Int := none
  participantCount : Nat := 0
  streamCount : Nat := 0
  status : Status := .active
  errorMessage : Option String := none
  -- the texts that updates take over as they are, by column
  texts : Store String String := empty

structure CDRUpdate where
  callerID : Option String := none
  calleeID : Option String := none
  recordingPath : Option String := none
  quality : Option Rat := none
  sampleRate : Option Int := none
  participantCount : Option Nat := none
  streamCount : Option Nat := none
  texts : Store String String := empty

structure CDRService where
  activeCDRs : Store String CDR
  repo : Option (List CDR)

def CDRService.stored (service : CDRService) : List CDR := service.repo.getD []

structure Config where
  redactPII : String → String
  fileSize : String → Option Nat

def startSession (sessionID callID sourceIP transport : String) (now : Nat)
    (service : CDRService) : CDRService :=
  { service with
    activeCDRs := write service.activeCDRs sessionID
      { sessionID, callID, startTime := now, transport, sourceIP, createdAt := now
        updatedAt := now } }

def notFound (sessionID : String) : String := "CDR not found for session: " ++ sessionID

def CDR.update (config : Config) (updates : CDRUpdate) (now : Nat) (cdr : CDR) : CDR :=
  { cdr with
    callerID := (updates.callerID.map config.redactPII).or cdr.callerID
    calleeID := (updates.calleeID.map config.redactPII).or cdr.calleeID
    recordingPath := updates.recordingPath.getD cdr.recordingPath
    quality := updates.quality.or cdr.quality
    sampleRate := updates.sampleRate.or cdr.sampleRate
    participantCount := updates.participantCount.getD cdr.participantCount
    streamCount := updates.streamCount.getD cdr.streamCount
    texts := fun column => (updates.texts column).or (cdr.texts column)
    updatedAt := now }

def updateSession (config : Config) (sessionID : String) (updates : CDRUpdate) (now : Nat)
    (service : CDRService) : Option String × CDRService :=
  match service.activeCDRs sessionID with
  | none => (some (notFound sessionID), service)
  | some cdr =>
    (none, { service with
      activeCDRs := write service.activeCDRs sessionID (cdr.update config updates now) })

def nanosecondsPerSecond : Int := 1000000000

/-- The CDR is complete; the size is that of the recording, if there is one. -/
def CDR.finish (config : Config) (status : Status) (errorMessage : Option String) (now : Nat)
    (cdr : CDR) : CDR :=
  { cdr with
    endTime := some now
    duration := some (Int.tdiv ((now : Int) - cdr.startTime) nanosecondsPerSecond)
    status
    errorMessage
    updatedAt := now
    recordingSize :=
      if cdr.recordingPath = "" then cdr.recordingSize
      else (config.fileSize cdr.recordingPath).or cdr.recordingSize }

/-- The columns of texts that `CreateCDR` inserts. -/
def insertedColumns : List String :=
  ["transcription_id", "codec", "billing_code", "cost_center", "vendor_type", "ucid", "oracle_ucid",
    "conversation_id", "cisco_session_id"]

def CDR.row (cdr : CDR) : CDR :=
  { cdr with texts := fun column => if column ∈ insertedColumns then cdr.texts column else none }

/-- `CreateCDR` dates the CDR anew, whether or not the insertion fails. -/
def CDR.dated (now : Nat) (cdr : CDR) : CDR := { cdr with createdAt := now, updatedAt := now }

def endSession (config : Config) (sessionID : String) (status : Status)
    (errorMessage failure : Option String) (now : Nat) (service : CDRService) :
    Option String × CDRService :=
  match service.activeCDRs sessionID with
  | none => (some (notFound sessionID), service)
  | some cdr =>
    let cdr := cdr.finish config status errorMessage now
    match service.repo, failure with
    | none, _ => (none, { service with activeCDRs := remove service.activeCDRs sessionID })
    | some rows, none =>
      (none, { activeCDRs := remove service.activeCDRs sessionID
               repo := some (rows ++ [(cdr.dated now).row]) })
    | some _, some cause =>
      (some ("failed to store CDR: failed to create CDR: " ++ cause),
        { service with activeCDRs := write service.activeCDRs sessionID (cdr.dated now) })

structure Origin where
  sessionID : String
  callID : String
  sourceIP : String
  startTime : Nat
deriving DecidableEq

def CDR.origin (cdr : CDR) : Origin := ⟨cdr.sessionID, cdr.callID, cdr.sourceIP, cdr.startTime⟩

def CDRService.active (service : CDRService) : Store String Origin :=
  fun sessionID => (service.activeCDRs sessionID).map CDR.origin

variable {config : Config} {service : CDRService} {sessionID : String} {now : Nat}

theorem startSession_active {callID sourceIP transport : String} :
    (startSession sessionID callID sourceIP transport now service).active =
      write service.active sessionID ⟨sessionID, callID, sourceIP, now⟩ := by
  funext other
  unfold CDRService.active startSession write
  dsimp only
  split <;> rfl

theorem updateSession_active {updates : CDRUpdate} :
    (updateSession config sessionID updates now service).2.active = service.active := by
  unfold updateSession
  cases present : service.activeCDRs sessionID with
  | none => rfl
  | some cdr =>
    funext other
    unfold CDRService.active write
    dsimp only
    split
    case isTrue same =>
      rw [same, present]
      rfl
    case isFalse => rfl

theorem active_remove {repo : Option (List CDR)} :
    CDRService.active ⟨remove service.activeCDRs sessionID, repo⟩ =
      remove service.active sessionID := by
  funext other
  unfold CDRService.active remove
  dsimp only
  split <;> rfl

theorem endSession_stored {status : Status} {errorMessage : Option String} {origin : Origin}
    (present : service.active sessionID = some origin) (configured : service.repo.isSome) :
    ∃ cdr : CDR, cdr.origin = origin ∧
      (endSession config sessionID status errorMessage none now service).2 =
        { activeCDRs := remove service.activeCDRs sessionID
          repo := some (service.stored ++ [cdr]) } := by
  obtain ⟨cdr, isActive, isOrigin⟩ := Option.map_eq_some_iff.mp present
  obtain ⟨rows, isRows⟩ := Option.isSome_iff_exists.mp configured
  refine ⟨((cdr.finish config status errorMessage now).dated now).row, isOrigin, ?_⟩
  unfold endSession CDRService.stored
  rw [isActive, isRows]
  rfl

end SiprecServer.Cdr
