import SiprecServer.Siprec.GeneratedMetadata

/-!
# Calls in the shared session store

`Save` stores a snapshot of a call and `Load` rebuilds the call from it.  JSON is taken to read
back what it has written; what of a stored record `Load` does not read is left out.  The snapshot
has neither a sequence number nor a failover identifier.
-/

namespace SiprecServer.Sip.SessionStore

open Lib.FileSystem
open ReInvite (Participant)

structure RecordingSession extends Siprec.Metadata.RecordedSession where
  startTime : Option Nat := none

/-- Also `dialogSnapshot`, which has the same fields. -/
structure DialogInfo where
  callID : String := ""
  localTag : String := ""
  remoteTag : String := ""
  localURI : String := ""
  remoteURI : String := ""
  localSeq : Int := 0
  remoteSeq : Int := 0
  contact : String := ""
  routeSet : List String := []
deriving DecidableEq

def DialogInfo.isZero (dialog : DialogInfo) : Bool := dialog = {}

structure CallData where
  recordingSession : Option RecordingSession
  dialogInfo : Option DialogInfo
  lastActivity : Option Nat
  remoteAddress : String

structure RecordingSnapshot where
  id : String := ""
  sipID : String := ""
  state : String := ""
  startTime : Option Nat := none
  endTime : Option Nat := none
  participants : List Participant := []
  mediaStreamTypes : List String := []
  direction : String := ""
  extendedMetadata : Store String String := empty

structure CallSnapshot where
  recording : RecordingSnapshot
  dialog : DialogInfo
  lastActivity : Nat
  remoteAddress : String

def RecordingSession.snapshot (session : RecordingSession) : RecordingSnapshot :=
  { id := session.id
    sipID := session.sipID
    state := session.recordingState
    startTime := session.startTime
    endTime := session.endTime
    participants := session.participants
    mediaStreamTypes := session.mediaStreamTypes
    direction := session.direction
    extendedMetadata := session.extendedMetadata }

def newCallSnapshot (now : Nat) (data : CallData) : CallSnapshot where
  recording := (data.recordingSession.map RecordingSession.snapshot).getD {}
  dialog := data.dialogInfo.getD {}
  lastActivity := data.lastActivity.getD now
  remoteAddress := data.remoteAddress

def CallSnapshot.toRecordingSession (s : CallSnapshot) : Option RecordingSession :=
  if s.recording.id = "" ∧ s.recording.mediaStreamTypes = [] ∧ s.recording.state = "" then none
  else some
    { id := s.recording.id
      sipID := s.recording.sipID
      recordingState := s.recording.state
      startTime := s.recording.startTime
      endTime := s.recording.endTime
      participants := s.recording.participants
      mediaStreamTypes := s.recording.mediaStreamTypes
      direction := s.recording.direction
      updatedAt := s.lastActivity
      isValid := true
      extendedMetadata := s.recording.extendedMetadata }

def callDataFromSessionData (snapshot : CallSnapshot) : CallData where
  recordingSession := snapshot.toRecordingSession
  dialogInfo := if snapshot.dialog.isZero then none else some snapshot.dialog
  lastActivity := some snapshot.lastActivity
  remoteAddress := snapshot.remoteAddress

def save (now : Nat) (store : Store String CallSnapshot) (key : String) (data : CallData) :
    Store String CallSnapshot :=
  write store key (newCallSnapshot now data)

def load (store : Store String CallSnapshot) (key : String) : Option CallData :=
  (store key).map callDataFromSessionData

/-- What recovery needs of a session; the last two are not in the snapshot. -/
def RecordingSession.recovers (session : RecordingSession) : RecordingSnapshot × Int × String :=
  (session.snapshot, session.sequenceNumber, session.failoverID)

def Preserved (data : CallData) : Option CallData → Prop
  | none => False
  | some loaded => loaded.dialogInfo = data.dialogInfo ∧
    loaded.recordingSession.map RecordingSession.recovers =
      data.recordingSession.map RecordingSession.recovers

/-- A saved call comes back exactly if its dialog has some field set, its session is not taken for
an empty one, and the sequence number and the failover ID are still at their defaults. -/
theorem load_save_preserved_iff (now : Nat) (store : Store String CallSnapshot) (key : String)
    (data : CallData) :
    Preserved data (load (save now store key data) key) ↔
      (∀ dialog ∈ data.dialogInfo, dialog.isZero = false) ∧
        ∀ session ∈ data.recordingSession,
          (session.id ≠ "" ∨ session.mediaStreamTypes ≠ [] ∨ session.recordingState ≠ "") ∧
            session.sequenceNumber = 0 ∧ session.failoverID = "" := by
  rw [load, save, write_same]
  refine and_congr ?_ ?_
  · cases given : data.dialogInfo with
    | none => simp [callDataFromSessionData, newCallSnapshot, given, DialogInfo.isZero]
    | some dialog =>
      cases zero : dialog.isZero <;> simp [callDataFromSessionData, newCallSnapshot, given, zero]
  · cases given : data.recordingSession with
    | none =>
      simp [callDataFromSessionData, newCallSnapshot, CallSnapshot.toRecordingSession, given]
    | some session =>
      by_cases bare : session.id = "" ∧ session.mediaStreamTypes = [] ∧
        session.recordingState = ""
      · simp [callDataFromSessionData, newCallSnapshot, CallSnapshot.toRecordingSession, given,
          RecordingSession.snapshot, bare]
      · have kept : session.id ≠ "" ∨ session.mediaStreamTypes ≠ [] ∨
            session.recordingState ≠ "" := by
          simpa only [not_and_or] using bare
        simp [callDataFromSessionData, newCallSnapshot, CallSnapshot.toRecordingSession, given,
          RecordingSession.snapshot, RecordingSession.recovers, bare, kept, @eq_comm Int 0]

/-- A call whose metadata have reached sequence number 5. -/
def updatedCall : CallData where
  recordingSession := some { id := "s1", sequenceNumber := 5, failoverID := "f1" }
  dialogInfo := some { callID := "c1" }
  lastActivity := some 7
  remoteAddress := "192.0.2.1"

theorem updatedCall_forgets :
    (load (save 8 empty "c1" updatedCall) "c1").map (fun loaded =>
      loaded.recordingSession.map fun session => (session.sequenceNumber, session.failoverID)) =
        some (some (0, "")) := by
  decide

end SiprecServer.Sip.SessionStore
