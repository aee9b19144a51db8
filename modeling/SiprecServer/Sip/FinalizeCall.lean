import SiprecServer.Media.LegFiles
import SiprecServer.Media.WavCombiner

/-!
# Finalisation of a call's recordings

The media part of `doFinalizeCall`: the forwarders of the call are stopped and cleaned
up one after another, the paths they had before are collected as legs, and the legs
are combined.  A call holds its forwarders by reference in two collections, the list
`RTPForwarders` and the map `StreamForwarders`, so the model keeps them in a table and
the collections hold indices; the map is given in the order of its iteration.
-/

namespace SiprecServer.Sip

open Lib.FileSystem Lib.UnixPath Media

structure CallForwarder extends Forwarder where
  firstRTP : Option Int

def CallForwarder.cleanedUp (f : CallForwarder) (recordingPath : Bytes) : CallForwarder :=
  if f.isCleanedUp then f
  else
    { f with
      recordingPath
      isCleanedUp := true
      encryptedMetadataPath := none
      encrypted_stem := fun _ absent => by cases absent }

def CallForwarder.leg (f : CallForwarder) : LegTiming :=
  { path := f.recordingPath, firstRTPTime := f.firstRTP }

/-- The collections of a call, and the forwarders with a recorded leg that a re-INVITE took out of
them and cleaned up. -/
structure CallMedia where
  rtpForwarders : List Nat
  rtpForwarder : Option Nat
  streamForwarders : List Nat
  dropped : List Nat

def CallMedia.primary (call : CallMedia) : List Nat :=
  if call.rtpForwarders ≠ [] then call.rtpForwarders else call.rtpForwarder.toList

structure Finalizing where
  forwarders : Nat → CallForwarder
  world : World
  legs : List LegTiming

section Finalize

variable {Frame : Type} (tools : Tools Frame) (env : Nat → Circumstances)

/-- Collect the leg of one forwarder and clean the forwarder up.  Forwarders of the map
give a leg only if their path is not among the legs yet. -/
def collectLeg (fromMap : Bool) (state : Finalizing) (id : Nat) : Finalizing :=
  let f := state.forwarders id
  let known := fromMap && state.legs.any (·.path == f.recordingPath)
  let after := cleanup tools (env id) f.toForwarder state.world
  { forwarders := fun other =>
      if other = id then f.cleanedUp after.recordingPath else state.forwarders other
    world := after.world
    legs := if f.recordingPath ≠ [] ∧ known = false then state.legs ++ [f.leg] else state.legs }

def collectLegs (call : CallMedia) (state : Finalizing) : Finalizing :=
  call.streamForwarders.foldl (collectLeg tools env true)
    (call.primary.foldl (collectLeg tools env false) state)

end Finalize

structure MediaConfig where
  combineLegs : Bool
  recordingDir : Bytes

/-- `combineRecordingLegs`, with the files and the combined recording afterwards. -/
def combineRecordingLegs (classes : UnicodeClass) (wavTools : WavTools)
    (mediaConfig : Option MediaConfig) (callID : List Char) (files : Store Bytes Bytes) :
    List LegTiming → Store Bytes Bytes × Option Combined
  | [] => (files, none)
  | first :: others =>
    match mediaConfig with
    | none => (files, none)
    | some config =>
      if others ≠ [] ∧ config.combineLegs then
        combineWAVRecordingsAligned wavTools files
          (combinedPath classes config.recordingDir first.path callID) (first :: others)
      else (files, none)

end SiprecServer.Sip
