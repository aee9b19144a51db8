import SiprecServer.Lib.Text
import SiprecServer.Lib.Transducer

/-!
# Callbacks of a call

A callback URL is kept by the notifier until the call ends, and by the recording session of the
call, if there is one by then.  Both keep a limited number.  The notifier has forgotten the call
before its last event.
-/

namespace SiprecServer.Sip.Subscriptions

open Lib.Text Lib.Transducer List

structure Config where
  global : List String := []
  metadataCallbackURLs : List String := []
  toLower : String → String := id

/-- What is stored under a Call-ID: the endpoints of the notifier, and the call, if there is one,
with the callbacks of its session. -/
structure Entry where
  endpoints : List String := []
  call : Option (Option (List String)) := none

/-- A SUBSCRIBE, with the verdicts on its URL: the host is looked up twice. -/
structure Message where
  xCallbackURL : String := ""
  callbackURL : String := ""
  body : String := ""
  isValid : Bool := true
  isStillValid : Bool := true

inductive Action where
  | invite
  | createSession
  | subscribe (message : Message)
  | metadata (isLeader : Bool)
  | finalize (isLeader : Bool)

structure Event where
  callID : String
  action : Action

inductive Observation where
  | refused (code : Nat)
  | accepted (url : String)
  | notified (addressees : List String)
deriving DecidableEq

def maxEndpointsPerCall : Nat := 32

variable (config : Config) (callID : String) (entry : Entry)

def Message.url (message : Message) : String :=
  let body := trimSpace message.body
  orElse (orElse (trimSpace message.xCallbackURL) (trimSpace message.callbackURL))
    (if (config.toLower body).startsWith "http://" ∨ (config.toLower body).startsWith "https://"
      then body else "")

namespace Entry

def callbacks : List String := (entry.call.getD none).getD []

def registerCallEndpoint (endpoint : String) (isValid : Bool) : List String :=
  if callID = "" ∨ trimSpace endpoint = "" ∨ isValid = false ∨
      maxEndpointsPerCall ≤ entry.endpoints.length then entry.endpoints
  else entry.endpoints ++ [trimSpace endpoint]

def clearCallEndpoints : Entry :=
  if callID = "" then entry else { entry with endpoints := [] }

def collectEndpoints : List String :=
  let callEndpoints := if callID = "" then [] else entry.endpoints
  (config.global ++
    ((entry.callbacks ++ callEndpoints).map trimSpace).filter (· ≠ "")).eraseDups

/-- Only the leader of a cluster notifies. -/
def notify (isLeader : Bool) : List Observation :=
  if isLeader then [.notified (entry.collectEndpoints config callID)] else []

end Entry

def addCallback (url : String) (callbacks : List String) : List String :=
  if callbacks.length < maxEndpointsPerCall then callbacks ++ [url] else callbacks

def Entry.step (action : Action) : Entry × List Observation :=
  match entry.call, action with
  | none, .invite => ({ entry with call := some none }, [])
  | none, .subscribe _ => (entry, [.refused 481])
  | some none, .createSession =>
    ({ entry with call := some (some config.metadataCallbackURLs) }, [])
  | some session, .subscribe message =>
    let url := message.url config
    if url = "" ∨ message.isValid = false then (entry, [.refused 400])
    else
      ({ endpoints := entry.registerCallEndpoint callID url message.isStillValid
         call := some (session.map (addCallback url)) }, [.accepted url])
  | some _, .metadata isLeader => (entry, entry.notify config callID isLeader)
  | some _, .finalize isLeader =>
    let cleared := entry.clearCallEndpoints callID
    ({ cleared with call := none }, cleared.notify config callID isLeader)
  | _, _ => (entry, [])

abbrev Server := String → Entry

def step (server : Server) (event : Event) : Server × List (String × Observation) :=
  let result := (server event.callID).step config event.callID event.action
  (Function.update server event.callID result.1, result.2.map (Prod.mk event.callID))

variable {config callID entry} {server : Server} {event : Event} {url : String}

theorem step_own : (step config server event).1 event.callID =
    ((server event.callID).step config event.callID event.action).1 := Function.update_self ..

theorem step_other (different : callID ≠ event.callID) :
    (step config server event).1 callID = server callID := Function.update_of_ne different ..

/-- What happens under a Call-ID depends on nothing else. -/
theorem run_congr {other : Server} (same : server callID = other callID) (events : List Event) :
    (run (step config) server events).2.filter (·.1 = callID) =
      (run (step config) other events).2.filter (·.1 = callID) := by
  induction events generalizing server other with
  | nil => rfl
  | cons event events ih =>
    rw [run_cons_output, run_cons_output, filter_append, filter_append]
    by_cases own : callID = event.callID
    · subst own
      rw [ih (step_own.trans ((congrArg (fun entry => (entry.step config event.callID
        event.action).1) same).trans step_own.symm)), step, step, same]
    · have silent (servers : Server) :
          (step config servers event).2.filter (·.1 = callID) = [] := by
        simp [step, filter_map, Ne.symm own]
      rw [silent, silent, ih ((step_other own).trans (same.trans (step_other own).symm))]

/-! ## The callbacks of the session -/

theorem mem_collectEndpoints :
    url ∈ entry.collectEndpoints config callID ↔ url ∈ config.global ∨ url ≠ "" ∧
      (url ∈ entry.callbacks.map trimSpace ∨
        callID ≠ "" ∧ url ∈ entry.endpoints.map trimSpace) := by
  unfold Entry.collectEndpoints
  by_cases absent : callID = "" <;>
    simp [absent, mem_eraseDups, and_comm, and_or_left]

theorem callbacks_clearCallEndpoints :
    (entry.clearCallEndpoints callID).callbacks = entry.callbacks := by
  unfold Entry.clearCallEndpoints
  split <;> rfl

/-- The session of the call has the URL. -/
def Entry.Holds (entry : Entry) (url : String) : Prop :=
  ∃ callbacks, entry.call = some (some callbacks) ∧ url ∈ callbacks.map trimSpace

theorem holds_step (holds : entry.Holds url) {action : Action}
    (goesOn : ∀ isLeader, action ≠ .finalize isLeader) :
    (entry.step config callID action).1.Holds url := by
  obtain ⟨callbacks, found, mem⟩ := holds
  unfold Entry.step
  rw [found]
  cases action with
  | finalize isLeader => exact absurd rfl (goesOn isLeader)
  | subscribe message =>
    dsimp only
    split
    · exact ⟨callbacks, found, mem⟩
    · refine ⟨_, rfl, ?_⟩
      unfold addCallback
      split
      · exact map_append ▸ mem_append_left _ mem
      · exact mem
  | _ => exact ⟨callbacks, found, mem⟩

theorem holds_run (holds : (server callID).Holds url)
    {events : List Event} (goesOn : ∀ event ∈ events, event.callID = callID →
      ∀ isLeader, event.action ≠ .finalize isLeader) :
    ((run (step config) server events).1 callID).Holds url := by
  induction events generalizing server with
  | nil => exact holds
  | cons event events ih =>
    rw [forall_mem_cons] at goesOn
    refine ih ?_ goesOn.2
    by_cases own : callID = event.callID
    · subst own
      rw [step_own]
      exact holds_step holds (goesOn.1 rfl)
    · rwa [step_other own]

theorem notified_of_mem {action : Action} {addressees : List String}
    (notified : .notified addressees ∈ (entry.step config callID action).2) :
    ∃ shown : Entry, shown.callbacks = entry.callbacks ∧
      addressees = shown.collectEndpoints config callID := by
  have of_notify {shown : Entry} {isLeader : Bool}
      (listed : .notified addressees ∈ shown.notify config callID isLeader) :
      addressees = shown.collectEndpoints config callID := by
    unfold Entry.notify at listed
    split at listed
    · simpa using listed
    · exact absurd listed not_mem_nil
  unfold Entry.step at notified
  split at notified
  case h_4 =>
    dsimp only at notified
    split at notified <;> simp at notified
  case h_5 => exact ⟨entry, rfl, of_notify notified⟩
  case h_6 => exact ⟨_, callbacks_clearCallEndpoints, of_notify notified⟩
  all_goals simp at notified

/-- The last event is for the URLs of the session and those for all calls. -/
theorem finalize_notifies {session : Option (List String)} (call : entry.call = some session) :
    ∃ addressees, .notified addressees ∈ (entry.step config callID (.finalize true)).2 ∧
      (url ∈ addressees → url ∈ config.global ∨ entry.Holds url) := by
  refine ⟨(entry.clearCallEndpoints callID).collectEndpoints config callID, ?_, fun addressed => ?_⟩
  · simp [Entry.step, call, Entry.notify]
  · refine (mem_collectEndpoints.mp addressed).imp id fun ⟨_, kept⟩ => ?_
    rcases kept with called | ⟨named, registered⟩
    · rw [callbacks_clearCallEndpoints, Entry.callbacks, call] at called
      cases session with
      | none => exact absurd called not_mem_nil
      | some callbacks => exact ⟨callbacks, call, called⟩
    · simp [Entry.clearCallEndpoints, named] at registered

theorem accepted_call {message : Message}
    (accepted : .accepted url ∈ (entry.step config callID (.subscribe message)).2) :
    url = message.url config ∧ url ≠ "" ∧ ∃ session, entry.call = some session ∧
      (entry.step config callID (.subscribe message)).1.call =
        some (session.map (addCallback url)) := by
  cases found : entry.call with
  | none => simp [Entry.step, found] at accepted
  | some session =>
    by_cases refused : message.url config = "" ∨ message.isValid = false
    · simp [Entry.step, found, refused] at accepted
    · simp only [Entry.step, found, refused, if_false, mem_singleton,
        Observation.accepted.injEq] at accepted ⊢
      exact ⟨accepted, fun absent => refused (.inl (accepted ▸ absent)), session, rfl,
        by rw [accepted]⟩

theorem Message.url_trimmed (message : Message) :
    trimSpace (message.url config) = message.url config := by
  have chosen {first second : String} (ofFirst : trimSpace first = first)
      (ofSecond : trimSpace second = second) :
      trimSpace (orElse first second) = orElse first second := by
    unfold orElse
    split
    · exact ofSecond
    · exact ofFirst
  refine chosen (chosen (trimSpace_trimSpace _) (trimSpace_trimSpace _)) ?_
  split
  · exact trimSpace_trimSpace _
  · exact trimSpace_empty

/-- A SUBSCRIBE that is accepted after some events. -/
structure Subscription (config : Config) where
  before : List Event
  callID : String
  message : Message
  callbackURL : String
  isAccepted : .accepted callbackURL ∈ (((run (step config) (fun _ => {}) before).1 callID).step
    config callID (.subscribe message)).2

namespace Subscription

variable (s : Subscription config)

def found : Server := (run (step config) (fun _ => {}) s.before).1

def after : Server := (step config s.found ⟨s.callID, .subscribe s.message⟩).1

/-- Every event of the call up to its last one is for the URL as well. -/
def Reached : Prop :=
  ∀ later : List Event,
    (∀ event ∈ later, event.callID = s.callID → ∀ isLeader, event.action ≠ .finalize isLeader) →
      ∀ action addressees, .notified addressees ∈
        (((run (step config) s.after later).1 s.callID).step config s.callID action).2 →
          s.callbackURL ∈ addressees

/-- The events of other calls are those without the SUBSCRIBE. -/
def KeptApart : Prop :=
  ∀ later other, other ≠ s.callID →
    (run (step config) s.after later).2.filter (·.1 = other) =
      (run (step config) s.found later).2.filter (·.1 = other)

theorem after_call : trimSpace s.callbackURL = s.callbackURL ∧ s.callbackURL ≠ "" ∧
    ∃ session, (s.found s.callID).call = some session ∧
      (s.after s.callID).call = some (session.map (addCallback s.callbackURL)) := by
  obtain ⟨given, nonempty, session, found, after⟩ := accepted_call s.isAccepted
  exact ⟨given ▸ s.message.url_trimmed, nonempty, session, found,
    (congrArg Entry.call step_own).trans after⟩

theorem holds_after_iff : (s.after s.callID).Holds s.callbackURL ↔
    ∃ callbacks, (s.found s.callID).call = some (some callbacks) ∧
      (callbacks.length < maxEndpointsPerCall ∨ s.callbackURL ∈ callbacks.map trimSpace) := by
  obtain ⟨trimmed, -, session, before, stored⟩ := s.after_call
  rw [Entry.Holds, stored, before]
  cases session with
  | none => simp
  | some callbacks =>
    by_cases hasRoom : callbacks.length < maxEndpointsPerCall
    · simp [addCallback, hasRoom, trimmed]
    · simp [addCallback, hasRoom]

/-- The URL is told of every later event of the call exactly if it is a global one, or if the call
had its session at the SUBSCRIBE, with room for the URL or the URL in it already. -/
theorem honoured_iff : s.Reached ∧ s.KeptApart ↔ s.callbackURL ∈ config.global ∨
    ∃ callbacks, (s.found s.callID).call = some (some callbacks) ∧
      (callbacks.length < maxEndpointsPerCall ∨ s.callbackURL ∈ callbacks.map trimSpace) := by
  obtain ⟨-, nonempty, session, -, stored⟩ := s.after_call
  rw [← holds_after_iff]
  constructor
  · intro ⟨reached, _⟩
    obtain ⟨addressees, notified, kept⟩ := finalize_notifies stored
    exact kept (reached [] (fun _ member => absurd member not_mem_nil) _ _ notified)
  · refine fun retained => ⟨fun later goesOn action addressees notified => ?_,
      fun later other different => run_congr (step_other different) later⟩
    obtain ⟨shown, callbacks, rfl⟩ := notified_of_mem notified
    refine mem_collectEndpoints.mpr (retained.imp id fun holds => ?_)
    obtain ⟨now, call, member⟩ := holds_run holds goesOn
    rw [callbacks, Entry.callbacks, call]
    exact ⟨nonempty, .inl member⟩

end Subscription

/-- A call whose session has room for one more callback, beside another call. -/
def oneMore : Subscription { metadataCallbackURLs := replicate 31 "https://b.example/" } where
  before := [⟨"c", .invite⟩, ⟨"d", .invite⟩, ⟨"c", .createSession⟩, ⟨"c", .metadata true⟩]
  callID := "c"
  message := { callbackURL := " https://a.example/" }
  callbackURL := "https://a.example/"
  isAccepted := by decide

theorem oneMore_honoured : oneMore.Reached ∧ oneMore.KeptApart :=
  oneMore.honoured_iff.mpr (.inr ⟨_, rfl, by decide⟩)

/-- A SUBSCRIBE between the ringing and the session of a call. -/
def subscribedEarly : Subscription {} where
  before := [⟨"c", .invite⟩]
  callID := "c"
  message := { callbackURL := "https://a.example/" }
  callbackURL := "https://a.example/"
  isAccepted := by decide

/-- The URL is told of what happens in the session, but not of the end of the call. -/
theorem subscribedEarly_misses_end :
    (run (step {}) subscribedEarly.after
        [⟨"c", .createSession⟩, ⟨"c", .metadata true⟩, ⟨"c", .finalize true⟩]).2 =
      [("c", .notified ["https://a.example/"]), ("c", .notified [])] ∧
    ¬ (subscribedEarly.Reached ∧ subscribedEarly.KeptApart) := by
  refine ⟨by decide, fun ⟨reached, _⟩ => ?_⟩
  have goesOn : ∀ event ∈ [Event.mk "c" .createSession], event.callID = "c" →
      ∀ isLeader, event.action ≠ .finalize isLeader := by simp
  exact absurd (reached _ goesOn (.finalize true) [] (by decide)) not_mem_nil

end SiprecServer.Sip.Subscriptions
