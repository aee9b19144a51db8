import SiprecServer.Lib.Transducer

/-!
# The handlers of one Call-ID

`sipgo` runs a handler per request, so initial INVITE, re-INVITE, ACK, CANCEL, BYE,
UPDATE and the stale-dialog reaper work on the same call concurrently.  The model is an
interleaving of handlers: each has a program point, and one step runs it up to the
next access to something shared.  Call states, forwarders and handlers are numbered in
the order of their creation; `callStates` is the entry under the one Call-ID and
`ports` tells which call a forwarder that still holds its ports was allocated for.
-/

namespace SiprecServer.Sip.Lifecycle

inductive DialogState where
  | trying | early | awaitingAck | connected | terminating | terminated
deriving DecidableEq

inductive Once where
  | idle | running | done
deriving DecidableEq

structure CallState where
  state : DialogState
  sessionID : Option String
  rtpForwarders : List Nat
  rtpForwarder : Option Nat
  streamForwarders : List (String × Nat)
  finalizeOnce : Once
deriving DecidableEq

def CallState.new : CallState :=
  { state := .trying
    sessionID := none
    rtpForwarders := []
    rtpForwarder := none
    streamForwarders := []
    finalizeOnce := .idle }

def CallState.primary (call : CallState) : List Nat :=
  if call.rtpForwarders ≠ [] then call.rtpForwarders else call.rtpForwarder.toList

def CallState.streams (call : CallState) : List Nat := call.streamForwarders.map (·.2)

def CallState.activeKey (callID : String) (call : CallState) : String :=
  match call.sessionID with
  | none => callID
  | some id => if id ≠ "" then id else callID

inductive Phase where
  | primary | streams | state | registry | active
deriving DecidableEq

inductive Request where
  | invite | ack | bye | cancel | update | reap
deriving DecidableEq

inductive Point where
  | request (kind : Request)
  | inviteNew
  | inviteStored (call : Nat)
  | inviteEarly (call : Nat)
  | inviteAllocating (call : Nat) (labels : List String) (forwarders : List Nat)
  | invitePublished (call : Nat) (labels : List String) (forwarders : List Nat)
  | inviteAnswering (call : Nat)
  | inviteAnswered (call : Nat)
  | reInvite (call : Nat)
  | reInviteAllocating (call : Nat) (streams : List (Option String)) (existing : Nat)
      (forwarders : List Nat)
  | reInvitePublishing (call : Nat) (streams : List (Option String)) (forwarders : List Nat)
  | reInviteAnswering (call : Nat)
  | byeAccepted (call : Nat)
  | closing (call : Nat)
  | finalizing (call : Nat) (phase : Phase)
deriving DecidableEq

structure Server where
  callStates : Option Nat
  activeCalls : String → Option Nat
  calls : Nat → CallState
  nextCall : Nat
  ports : Nat → Option Nat
  nextForwarder : Nat
  handlers : Nat → Option Point
  nextThread : Nat

/-- How the environment lets a step end: what the request carries, whether allocation,
checks and responses succeed, which forwarders have stopped. -/
inductive Outcome where
  | succeeds
  | fails
  | offer (sessionID : String) (labels : List String)
  | reoffer (sessionID : Option String) (stopped : List Nat) (hasSDP hasMediaConfig : Bool)
      (labels : Option (List String))
  | srtpMissing (stream : Nat)
deriving DecidableEq

inductive Action where
  | arrive (kind : Request)
  | proceed (thread : Nat) (outcome : Outcome)
  | forwarderExits (forwarder : Nat)
deriving DecidableEq

/-- A finalisation that begins, and an entry of `victim` that it takes out of a registry. -/
inductive Observation where
  | finalised (call : Nat)
  | removed (call victim : Nat)
deriving DecidableEq

/-! ## Changes of the server -/

namespace Server

variable (server : Server)

def goto (thread : Nat) (point : Option Point) : Server :=
  { server with
    handlers := fun other => if other = thread then point else server.handlers other }

def updateCall (call : Nat) (change : CallState → CallState) : Server :=
  { server with
    calls := fun other =>
      if other = call then change (server.calls other) else server.calls other }

def setState (call : Nat) (state : DialogState) : Server :=
  server.updateCall call fun old => { old with state }

def cleanUp (forwarders : List Nat) : Server :=
  { server with ports := fun f => if f ∈ forwarders then none else server.ports f }

def newForwarder (call : Nat) : Server :=
  { server with
    ports := fun f => if f = server.nextForwarder then some call else server.ports f
    nextForwarder := server.nextForwarder + 1 }

def storeCall : Server :=
  { server with
    callStates := some server.nextCall
    calls := fun other => if other = server.nextCall then .new else server.calls other
    nextCall := server.nextCall + 1 }

end Server

/-- The streams of a re-INVITE, at least one: the first leg if there is no SDP that can be
parsed, and one without a label if the SDP has no audio. -/
def reofferedStreams : Option (List String) → List (Option String)
  | none => [some "leg0"]
  | some [] => [none]
  | some labels => labels.map some

def assignStream (assigned : List (String × Nat)) : Option String × Nat → List (String × Nat)
  | (none, _) => assigned
  | (some label, f) => assigned.filter (·.1 ≠ label) ++ [(label, f)]

def assignStreams (streams : List (Option String)) (forwarders : List Nat) : List (String × Nat) :=
  (streams.zip forwarders).foldl assignStream []

def CallState.prune (stopped : List Nat) (call : CallState) : CallState :=
  { call with
    rtpForwarder := call.rtpForwarder.filter (· ∉ stopped)
    rtpForwarders := call.rtpForwarders.filter (· ∉ stopped)
    streamForwarders := call.streamForwarders.filter (·.2 ∉ stopped) }

def CallState.publish (forwarders : List Nat) (call : CallState) : CallState :=
  { call with
    rtpForwarders := forwarders
    rtpForwarder := forwarders.head?.or call.rtpForwarder }

def lookUp (server : Server) (thread : Nat) (outcome : Outcome) : Request → Server
  | .invite =>
    -- Rate limits, authentication and the content type come first.
    if outcome = .fails then server.goto thread none
    else
      match server.callStates with
      | none => server.goto thread (some .inviteNew)
      | some call => server.goto thread (some (.reInvite call))
  | .ack =>
    match server.callStates with
    | none => server.goto thread none
    | some call => (server.setState call .connected).goto thread none
  | .bye =>
    match server.callStates with
    | none => server.goto thread none
    | some call =>
      let state := (server.calls call).state
      if outcome ≠ .fails ∧ (state = .connected ∨ state = .terminating ∨ state = .awaitingAck)
      then server.goto thread (some (.byeAccepted call))
      else server.goto thread none
  | .cancel =>
    match server.callStates with
    | none => server.goto thread none
    | some call =>
      let state := (server.calls call).state
      if state = .connected ∨ state = .terminated then server.goto thread none
      else server.goto thread (some (.closing call))
  | .update => server.goto thread none
  | .reap =>
    match server.callStates with
    | none => server.goto thread none
    | some call =>
      let state := (server.calls call).state
      if outcome ≠ .fails ∧ state ≠ .terminated ∧ state ≠ .terminating
      then server.goto thread (some (.closing call))
      else server.goto thread none

def finalizePhase (callID : String) (server : Server) (thread call : Nat) :
    Phase → Server × List Observation
  | .primary =>
    (((server.cleanUp (server.calls call).primary).updateCall call fun old =>
      { old with rtpForwarders := [], rtpForwarder := none }).goto thread
        (some (.finalizing call .streams)), [])
  | .streams =>
    (((server.cleanUp (server.calls call).streams).updateCall call fun old =>
      { old with streamForwarders := [] }).goto thread (some (.finalizing call .state)), [])
  | .state =>
    ((server.setState call .terminated).goto thread (some (.finalizing call .registry)), [])
  | .registry =>
    -- The entry is deleted by Call-ID, whatever call state it refers to.
    ({ server with callStates := none }.goto thread (some (.finalizing call .active)),
      server.callStates.toList.map (.removed call))
  | .active =>
    (({ server with
        activeCalls := fun key => if key = callID then none else server.activeCalls key
        }.updateCall call fun old => { old with finalizeOnce := .done }).goto thread none,
      (server.activeCalls callID).toList.map (.removed call))

def proceed (callID : String) (server : Server) (thread : Nat) (outcome : Outcome) :
    Point → Server × List Observation
  | .request kind => (lookUp server thread outcome kind, [])
  | .inviteNew =>
    if outcome = .fails then (server.goto thread none, [])
    else (server.storeCall.goto thread (some (.inviteStored server.nextCall)), [])
  | .inviteStored call =>
    ((server.setState call .early).goto thread (some (.inviteEarly call)), [])
  | .inviteEarly call =>
    match outcome with
    | .offer sessionID labels =>
      let stored := server.updateCall call fun old => { old with sessionID := some sessionID }
      if labels = [] then (stored.goto thread (some (.closing call)), [])
      else (stored.goto thread (some (.inviteAllocating call labels [])), [])
    | _ => (server.goto thread (some (.closing call)), [])
  | .inviteAllocating call labels forwarders =>
    if forwarders.length < labels.length then
      if outcome = .fails then
        ((server.cleanUp forwarders).goto thread (some (.closing call)), [])
      else
        ((server.newForwarder call).goto thread
          (some (.inviteAllocating call labels (forwarders ++ [server.nextForwarder]))), [])
    else
      ((server.updateCall call (.publish forwarders)).goto thread
        (some (.invitePublished call labels forwarders)), [])
  | .invitePublished call labels forwarders =>
    if outcome = .fails then
      ((server.cleanUp forwarders).goto thread (some (.closing call)), [])
    else
      ((server.updateCall call fun old =>
        { old with streamForwarders := assignStreams (labels.map some) forwarders }).goto thread
          (some (.inviteAnswering call)), [])
  | .inviteAnswering call =>
    if outcome = .fails then (server.goto thread (some (.closing call)), [])
    else ((server.setState call .awaitingAck).goto thread (some (.inviteAnswered call)), [])
  | .inviteAnswered call =>
    let key := (server.calls call).activeKey callID
    ({ server with
        activeCalls := fun other => if other = key then some call else server.activeCalls other
        }.goto thread none, [])
  | .reInvite call =>
    match outcome with
    | .reoffer sessionID stopped hasSDP hasMediaConfig labels =>
      let pruned := server.updateCall call fun old =>
        { old.prune stopped with sessionID := old.sessionID.or sessionID }
      let media := pruned.calls call
      if media.rtpForwarder.isSome ∨ hasSDP then
        if hasMediaConfig then
          (pruned.goto thread (some (.reInviteAllocating call (reofferedStreams labels)
            media.primary.length media.primary)), [])
        else (pruned.goto thread none, [])
      else (pruned.goto thread (some (.reInviteAnswering call)), [])
    | _ => (server.goto thread none, [])
  | .reInviteAllocating call streams existing forwarders =>
    if forwarders.length < streams.length then
      -- A failure returns at once and forgets what was allocated before.
      if outcome = .fails then (server.goto thread none, [])
      else
        ((server.newForwarder call).goto thread
          (some (.reInviteAllocating call streams existing
            (forwarders ++ [server.nextForwarder]))), [])
    else
      ((server.cleanUp (forwarders.drop streams.length)).goto thread
        (some (.reInvitePublishing call streams (forwarders.take streams.length))), [])
  | .reInvitePublishing call streams forwarders =>
    match outcome with
    | .srtpMissing stream =>
      ((server.updateCall call fun old =>
        { old.publish forwarders with
          streamForwarders := assignStreams (streams.take (stream + 1)) forwarders }).goto
            thread none, [])
    | _ =>
      ((server.updateCall call fun old =>
        { old.publish forwarders with
          streamForwarders := assignStreams streams forwarders }).goto thread
            (some (.reInviteAnswering call)), [])
  | .reInviteAnswering call =>
    if outcome = .fails then (server.goto thread none, [])
    else ((server.setState call .awaitingAck).goto thread none, [])
  | .byeAccepted call =>
    ((server.setState call .terminating).goto thread (some (.closing call)), [])
  | .closing call =>
    match (server.calls call).finalizeOnce with
    | .idle =>
      ((server.updateCall call fun old => { old with finalizeOnce := .running }).goto thread
        (some (.finalizing call .primary)), [.finalised call])
    | .running => (server, [])
    | .done => (server.goto thread none, [])
  | .finalizing call phase => finalizePhase callID server thread call phase

def step (callID : String) (server : Server) : Action → Server × List Observation
  | .arrive kind =>
    ({ server.goto server.nextThread (some (.request kind)) with
        nextThread := server.nextThread + 1 }, [])
  | .proceed thread outcome =>
    match server.handlers thread with
    | none => (server, [])
    | some point => proceed callID server thread outcome point
  -- The goroutine of a forwarder cleans up when it ends, by timeout or because it was stopped.
  | .forwarderExits forwarder => (server.cleanUp [forwarder], [])

def idleServer : Server :=
  { callStates := none
    activeCalls := fun _ => none
    calls := fun _ => .new
    nextCall := 0
    ports := fun _ => none
    nextForwarder := 0
    handlers := fun _ => none
    nextThread := 0 }

end SiprecServer.Sip.Lifecycle
