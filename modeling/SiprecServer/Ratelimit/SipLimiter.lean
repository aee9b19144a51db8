import SiprecServer.Lib.IpAddress
import SiprecServer.Lib.Text
import SiprecServer.Ratelimit.GrantedRequests

/-!
# The rate limiter for SIP requests

`SIPLimiter` keeps two limiters, one for INVITE and one for every other method.  REGISTER and
OPTIONS have buckets of their own in the second one, under keys that extend the client's
address; `BlockClient` blocks the key that is the address itself, in both limiters.
-/

namespace SiprecServer.Ratelimit.SipLimiter

open Lib Lib.FileSystem Lib.Transducer Lib.IpAddress Limiter List

/-! ## The limiter -/

inductive SIPMethod where
  | invite
  | ack
  | bye
  | cancel
  | options
  | register
  | other
deriving DecidableEq

/-- The upper case of a letter, for a comparison with ASCII names: there are two letters
outside of ASCII that have their upper case in it. -/
def upper (c : Char) : Char :=
  if c = 'ı' then 'I' else if c = 'ſ' then 'S' else c.toUpper

def parseMethod (method : String) : SIPMethod :=
  let name := String.ofList (method.toList.map upper)
  if name = "INVITE" then .invite
  else if name = "ACK" then .ack
  else if name = "BYE" then .bye
  else if name = "CANCEL" then .cancel
  else if name = "OPTIONS" then .options
  else if name = "REGISTER" then .register
  else .other

structure Config where
  whitelistedIPs : List String
  sipEnabled : Bool
  sipInvitesPerSecond : ℚ
  sipInviteBurst : Int
  sipRequestsPerSecond : ℚ
  sipRequestBurst : Int

structure SIPLimiter where
  inviteLimiter : Limiter
  requestLimiter : Limiter
  config : Config
  whitelistedIPs : List String
  whitelistedNets : List IPNet

def isNetwork (entry : String) : Bool := '/' ∈ entry.toList

/-- Networks that cannot be parsed are passed over; addresses are not looked at. -/
def newSIPLimiter (config : Config) : SIPLimiter :=
  let entries := (config.whitelistedIPs.map Text.trimSpace).filter (· ≠ "")
  { inviteLimiter := newLimiter config.sipInvitesPerSecond config.sipInviteBurst
    requestLimiter := newLimiter config.sipRequestsPerSecond config.sipRequestBurst
    config
    whitelistedIPs := entries.filter fun entry => !isNetwork entry
    whitelistedNets := (entries.filter isNetwork).filterMap parseCIDR }

/-- The clock as it is read during a call of `BlockClient`: for the end of the block of
INVITE, for a new bucket of the other requests, and for the end of their block. -/
structure BlockClock where
  inviteEnd : Int
  requestStart : Int
  requestEnd : Int

namespace SIPLimiter

section

variable (s : SIPLimiter)

def isWhitelisted (ip : String) : Bool :=
  if ip ∈ s.whitelistedIPs then true
  else
    match parseIP ip with
    | none => false
    | some parsedIP => s.whitelistedNets.any (·.contains parsedIP)

def allowInvite (now : Int) (key : String) : SIPLimiter × Bool :=
  let result := s.inviteLimiter.allow now key
  ({ s with inviteLimiter := result.1 }, result.2)

def allowOther (now : Int) (key : String) : SIPLimiter × Bool :=
  let result := s.requestLimiter.allow now key
  ({ s with requestLimiter := result.1 }, result.2)

def allowRequest (now : Int) (clientIP method : String) : SIPLimiter × Bool :=
  if !s.config.sipEnabled then (s, true)
  else if s.isWhitelisted clientIP then (s, true)
  else
    match parseMethod method with
    | .invite => s.allowInvite now clientIP
    | .register => s.allowOther now (clientIP ++ ":REGISTER")
    | .options => s.allowOther now (clientIP ++ ":OPTIONS")
    | _ => s.allowOther now clientIP

def blockClient (now : Int) (clock : BlockClock) (clientIP : String)
    (duration : Int) : SIPLimiter :=
  { s with
    inviteLimiter := s.inviteLimiter.block now clock.inviteEnd clientIP duration
    requestLimiter :=
      s.requestLimiter.block clock.requestStart clock.requestEnd clientIP duration }

def addToWhitelist (ip : String) : Except String SIPLimiter :=
  let ip := Text.trimSpace ip
  if ip = "" then .ok s
  else if isNetwork ip then
    match parseCIDR ip with
    | none => .error ("invalid CIDR address: " ++ ip)
    | some ipNet => .ok { s with whitelistedNets := s.whitelistedNets ++ [ipNet] }
  else if parseIP ip = none then .error ("invalid IP address: " ++ ip)
  else .ok { s with whitelistedIPs := s.whitelistedIPs.insert ip }

def reset : SIPLimiter :=
  { s with
    inviteLimiter := { s.inviteLimiter with clients := empty }
    requestLimiter := { s.requestLimiter with clients := empty } }

end

end SIPLimiter

/-- The limiters have a cleanup each, which ticks on its own. -/
inductive Operation where
  | allowRequest (clientIP method : String)
  | blockClient (clientIP : String) (duration : Int) (clock : BlockClock)
  | addToWhitelist (ip : String)
  | reset
  | cleanupInvites
  | cleanupRequests

structure Call where
  now : Int
  operation : Operation

structure Answer where
  clientIP : String
  method : String
  now : Int
  allowed : Bool
deriving DecidableEq

def step (s : SIPLimiter) (call : Call) : SIPLimiter × List Answer :=
  match call.operation with
  | .allowRequest clientIP method =>
    let result := s.allowRequest call.now clientIP method
    (result.1, [⟨clientIP, method, call.now, result.2⟩])
  | .blockClient clientIP duration clock => (s.blockClient call.now clock clientIP duration, [])
  | .addToWhitelist ip =>
    match s.addToWhitelist ip with
    | .ok added => (added, [])
    | .error _ => (s, [])
  | .reset => (s.reset, [])
  | .cleanupInvites => ({ s with inviteLimiter := s.inviteLimiter.cleanup call.now }, [])
  | .cleanupRequests => ({ s with requestLimiter := s.requestLimiter.cleanup call.now }, [])

def Call.readings (call : Call) : List Int :=
  match call.operation with
  | .blockClient _ _ clock => [call.now, clock.inviteEnd, clock.requestStart, clock.requestEnd]
  | _ => [call.now]

def Ordered (calls : List Call) : Prop := (calls.flatMap Call.readings).Pairwise (· ≤ ·)

/-! ## Blocks -/

inductive Side where
  | invites
  | requests
deriving DecidableEq

def SIPLimiter.limiter (s : SIPLimiter) : Side → Limiter
  | .invites => s.inviteLimiter
  | .requests => s.requestLimiter

def route (clientIP method : String) : Side × String :=
  match parseMethod method with
  | .invite => (.invites, clientIP)
  | .register => (.requests, clientIP ++ ":REGISTER")
  | .options => (.requests, clientIP ++ ":OPTIONS")
  | _ => (.requests, clientIP)

def BlockClock.reading (clock : BlockClock) : Side → Int
  | .invites => clock.inviteEnd
  | .requests => clock.requestEnd

/-- When the block of a key ends after a call, if it ended at `current` before. -/
def blockEnd (side : Side) (key : String) (current : Option Int) (call : Call) : Option Int :=
  match call.operation with
  | .blockClient clientIP duration clock =>
    if key = clientIP then some (clock.reading side + duration) else current
  | .reset => none
  | _ => current

def BlockedAt (side : Side) (key : String) (calls : List Call) (now : Int) : Prop :=
  ∃ finish ∈ calls.foldl (blockEnd side key) none, now < finish

def Banned (now : Int) (bucket : Option Bucket) : Prop :=
  ∃ b ∈ bucket, b.blocked = true ∧ now < b.blockUntil

/-- What a call can do to a bucket, as far as blocks at later times are concerned. -/
inductive BanStep (now : Int) : Option Bucket → Option Bucket → Prop where
  | kept {before : Option Bucket} : BanStep now before before
  | free {before after : Option Bucket} (was : ¬ Banned now before)
      (is : ∀ b ∈ after, b.blocked = false) : BanStep now before after

section Bans

variable {now later : Int} {before after : Option Bucket} {l : Limiter}

theorem Banned.earlier (banned : Banned later before) (moves : now ≤ later) :
    Banned now before := by
  obtain ⟨b, present, blocked, ahead⟩ := banned
  exact ⟨b, present, blocked, lt_of_le_of_lt moves ahead⟩

@[simp]
theorem not_banned_none : ¬ Banned now none := by
  rintro ⟨b, present, -⟩
  cases present

theorem BanStep.banned_iff (change : BanStep now before after) (moves : now ≤ later) :
    Banned later after ↔ Banned later before := by
  cases change with
  | kept => exact Iff.rfl
  | free was is =>
    constructor
    · rintro ⟨b, present, blocked, -⟩
      rw [is b present] at blocked
      cases blocked
    · intro banned
      exact absurd (banned.earlier moves) was

theorem banned_bucket_iff (key : String) :
    ((l.bucket now key).blocked = true ∧ now < (l.bucket now key).blockUntil) ↔
      Banned now (l.clients key) := by
  unfold bucket Banned
  cases l.clients key with
  | none => simp
  | some b => simp

variable (l : Limiter) (now : Int) (key : String)

theorem allow_banStep (other : String) :
    BanStep now (l.clients other) ((l.allow now key).1.clients other) := by
  unfold allow allowN
  by_cases same : other = key
  · subst same
    dsimp only
    split
    case isTrue blocked =>
      -- a bucket that is blocked was there before
      obtain ⟨b, present, -⟩ := (banned_bucket_iff other).mp blocked
      rw [Option.mem_def] at present
      simpa [store, bucket, present] using BanStep.kept
    case isFalse unblocked =>
      have was : ¬ Banned now (l.clients other) := fun banned =>
        unblocked ((banned_bucket_iff other).mpr banned)
      split
      · refine .free was ?_
        simp [store, refill]
      · refine .free was ?_
        simp [store, refill]
  · dsimp only
    split
    · simpa [store, write_other same] using BanStep.kept
    · split <;> simpa [store, write_other same] using BanStep.kept

theorem cleanup_banStep : BanStep now (l.clients key) ((l.cleanup now).clients key) := by
  unfold cleanup
  dsimp only
  cases present : l.clients key with
  | none => exact .kept
  | some b =>
    cases isStale : l.stale now b with
    | false => simpa [Option.filter_some, isStale] using BanStep.kept
    | true =>
      have unbanned : !b.blocked || b.blockUntil < now := (Bool.and_eq_true_iff.mp isStale).2
      rw [Option.filter_some, isStale]
      refine .free ?_ (by simp)
      rintro ⟨_, ⟨⟩, blocked, ahead⟩
      simp [blocked, not_lt.mpr ahead.le] at unbanned

theorem block_banned_iff (l : Limiter) (start reading : Int) (key other : String) (duration : Int) :
    Banned later ((l.block start reading key duration).clients other) ↔
      if other = key then later < reading + duration else Banned later (l.clients other) := by
  unfold block
  by_cases same : other = key
  · simp [same, store, Banned]
  · simp [same, store, write_other same]

theorem allow_refused_iff :
    (l.allow now key).2 = false ↔
      Banned now (l.clients key) ∨ level l.rate l.burst now (l.clients key) < 1 := by
  have tokens : (l.refill now (l.bucket now key)).tokens =
      level l.rate l.burst now (l.clients key) := refill_tokens _
  unfold allow allowN
  dsimp only
  by_cases banned : Banned now (l.clients key)
  · rw [if_pos ((banned_bucket_iff key).mpr banned)]
    simp [banned]
  · rw [if_neg (mt (banned_bucket_iff key).mp banned), tokens]
    by_cases enough : (1 : ℚ) ≤ level l.rate l.burst now (l.clients key)
    · simp [enough, banned]
    · simp [enough, not_le.mp enough]

end Bans

open SIPLimiter

section Steps

variable {s : SIPLimiter} {call : Call} {side : Side} {key : String} {later : Int}

theorem allowRequest_banStep (s : SIPLimiter) (now : Int) (clientIP method : String) (side : Side)
    (key : String) :
    BanStep now ((s.limiter side).clients key)
      (((s.allowRequest now clientIP method).1.limiter side).clients key) := by
  have invite (asked : String) : BanStep now ((s.limiter side).clients key)
      (((s.allowInvite now asked).1.limiter side).clients key) := by
    cases side with
    | invites => exact allow_banStep s.inviteLimiter now asked key
    | requests => exact .kept
  have other (asked : String) : BanStep now ((s.limiter side).clients key)
      (((s.allowOther now asked).1.limiter side).clients key) := by
    cases side with
    | invites => exact .kept
    | requests => exact allow_banStep s.requestLimiter now asked key
  unfold allowRequest
  split
  · exact .kept
  · split
    · exact .kept
    · split
      · exact invite _
      · exact other _
      · exact other _
      · exact other _

theorem addToWhitelist_limiter {added : SIPLimiter} {ip : String}
    (ok : s.addToWhitelist ip = .ok added) : added.limiter side = s.limiter side := by
  unfold addToWhitelist at ok
  dsimp only at ok
  split at ok
  · cases ok
    rfl
  · split at ok
    · split at ok
      · cases ok
      · cases ok
        cases side <;> rfl
    · split at ok
      · cases ok
      · cases ok
        cases side <;> rfl

theorem step_banned_iff (moves : call.now ≤ later) {current : Option Int}
    (before : Banned later ((s.limiter side).clients key) ↔ ∃ finish ∈ current, later < finish) :
    Banned later (((step s call).1.limiter side).clients key) ↔
      ∃ finish ∈ blockEnd side key current call, later < finish := by
  obtain ⟨now, operation⟩ := call
  cases operation with
  | allowRequest clientIP method =>
    exact ((allowRequest_banStep s now clientIP method side key).banned_iff moves).trans before
  | blockClient clientIP duration clock =>
    have split : Banned later
        (((s.blockClient now clock clientIP duration).limiter side).clients key) ↔
          if key = clientIP then later < clock.reading side + duration
          else Banned later ((s.limiter side).clients key) := by
      cases side with
      | invites => exact block_banned_iff s.inviteLimiter _ _ _ _ _
      | requests => exact block_banned_iff s.requestLimiter _ _ _ _ _
    refine split.trans ?_
    by_cases same : key = clientIP
    · simp [blockEnd, same]
    · simpa [blockEnd, same] using before
  | addToWhitelist ip =>
    simp only [step]
    cases added : s.addToWhitelist ip with
    | ok result => simpa only [blockEnd, addToWhitelist_limiter added] using before
    | error text => exact before
  | reset =>
    cases side <;> simp [step, reset, SIPLimiter.limiter, blockEnd, empty]
  | cleanupInvites =>
    cases side with
    | invites => exact ((cleanup_banStep s.inviteLimiter now key).banned_iff moves).trans before
    | requests => exact before
  | cleanupRequests =>
    cases side with
    | invites => exact before
    | requests =>
      exact ((cleanup_banStep s.requestLimiter now key).banned_iff moves).trans before

theorem allowRequest_route (enabled : s.config.sipEnabled = true) {clientIP method : String}
    (foreign : s.isWhitelisted clientIP = false) (now : Int) :
    (s.allowRequest now clientIP method).2 =
      ((s.limiter (route clientIP method).1).allow now (route clientIP method).2).2 := by
  unfold allowRequest route
  rw [enabled, foreign]
  cases parseMethod method <;> rfl

theorem step_config (s : SIPLimiter) (call : Call) : (step s call).1.config = s.config := by
  obtain ⟨now, operation⟩ := call
  cases operation with
  | allowRequest clientIP method =>
    simp only [step, allowRequest]
    split
    · rfl
    · split
      · rfl
      · split <;> rfl
  | blockClient clientIP duration clock => rfl
  | addToWhitelist ip =>
    simp only [step, addToWhitelist]
    split <;> rename_i result
    · split at result
      · cases result
        rfl
      · split at result
        · split at result <;> cases result
          rfl
        · split at result <;> cases result
          rfl
    · rfl
  | _ => rfl

end Steps

/-! ## Whole histories -/

theorem run_config (s : SIPLimiter) (calls : List Call) : (run step s calls).1.config = s.config :=
  run_invariant (fun state => state.config = s.config)
    (fun state call same => (step_config state call).trans same) rfl

theorem run_banned_iff {s : SIPLimiter} {side : Side} {key : String} {later : Int}
    {calls : List Call} (moves : ∀ call ∈ calls, call.now ≤ later) {current : Option Int}
    (before : Banned later ((s.limiter side).clients key) ↔ ∃ finish ∈ current, later < finish) :
    Banned later (((run step s calls).1.limiter side).clients key) ↔
      ∃ finish ∈ calls.foldl (blockEnd side key) current, later < finish := by
  induction calls generalizing s current with
  | nil => exact before
  | cons call calls ih =>
    obtain ⟨here, rest⟩ := forall_mem_cons.mp moves
    exact ih rest (step_banned_iff here before)

def Call.Keeps (call : Call) (client : String) (now : Int) : Prop :=
  match call.operation with
  | .blockClient clientIP duration clock =>
    clientIP = client → ∀ side, now < clock.reading side + duration
  | .reset => False
  | _ => True

theorem foldl_blockEnd_ahead {side : Side} {client : String} {now finish : Int}
    {calls : List Call} (keeps : ∀ call ∈ calls, call.Keeps client now) (ahead : now < finish) :
    ∃ last ∈ calls.foldl (blockEnd side client) (some finish), now < last := by
  induction calls generalizing finish with
  | nil => exact ⟨finish, rfl, ahead⟩
  | cons call calls ih =>
    obtain ⟨here, rest⟩ := forall_mem_cons.mp keeps
    obtain ⟨time, operation⟩ := call
    cases operation with
    | blockClient clientIP duration clock =>
      by_cases same : client = clientIP
      · simpa [blockEnd, same] using! ih rest (here same.symm side)
      · simpa [blockEnd, same] using ih rest ahead
    | reset => exact absurd here id
    | _ => exact ih rest ahead

/-- A client that is blocked and makes a request, with all that has happened before, between
and since. -/
structure BlockedRequest where
  config : Config
  before : List Call
  client : String
  start : Int
  duration : Int
  clock : BlockClock
  between : List Call
  now : Int
  method : String
  ordered : Ordered (before ++ ⟨start, .blockClient client duration clock⟩ :: between ++
    [⟨now, .allowRequest client method⟩])
  /-- The duration of the block has not passed. -/
  within : now < start + duration
  /-- The client is not on the whitelist. -/
  foreign : (run step (newSIPLimiter config) (before ++
    ⟨start, .blockClient client duration clock⟩ :: between)).1.isWhitelisted client = false

namespace BlockedRequest

section

variable (r : BlockedRequest)

def block : Call := ⟨r.start, .blockClient r.client r.duration r.clock⟩

def history : List Call := r.before ++ r.block :: r.between

def limiter : SIPLimiter := (run step (newSIPLimiter r.config) r.history).1

def allowed : Bool := (r.limiter.allowRequest r.now r.client r.method).2

def bucket : Option Bucket :=
  (r.limiter.limiter (route r.client r.method).1).clients (route r.client r.method).2

def tokens : ℚ :=
  let l := r.limiter.limiter (route r.client r.method).1
  level l.rate l.burst r.now r.bucket

def StillBlocked : Prop :=
  BlockedAt (route r.client r.method).1 (route r.client r.method).2 r.history r.now

end

variable (r : BlockedRequest)

theorem ordered_split : (r.history.flatMap Call.readings).Pairwise (· ≤ ·) ∧
    ∀ reading ∈ r.history.flatMap Call.readings, reading ≤ r.now := by
  have ordered : Ordered (r.history ++ [⟨r.now, .allowRequest r.client r.method⟩]) := r.ordered
  rw [Ordered, flatMap_append, pairwise_append] at ordered
  refine ⟨ordered.1, fun reading mem => ordered.2.2 reading mem r.now ?_⟩
  simp [Call.readings]

theorem now_mem_readings (call : Call) : call.now ∈ call.readings := by
  unfold Call.readings
  split <;> exact mem_cons_self

theorem history_past : ∀ call ∈ r.history, call.now ≤ r.now := fun call mem =>
  r.ordered_split.2 call.now (mem_flatMap.mpr ⟨call, mem, now_mem_readings call⟩)

theorem banned_iff_stillBlocked : Banned r.now r.bucket ↔ r.StillBlocked := by
  refine run_banned_iff r.history_past (s := newSIPLimiter r.config) ?_
  cases (route r.client r.method).1 <;> simp [newSIPLimiter, SIPLimiter.limiter, newLimiter, empty]

theorem limiter_enabled : r.limiter.config.sipEnabled = r.config.sipEnabled :=
  congrArg Config.sipEnabled (run_config (newSIPLimiter r.config) r.history)

/-- Nothing between the block and the request ends the block before the request comes. -/
def Undisturbed : Prop := ∀ call ∈ r.between, call.Keeps r.client r.now

theorem block_ahead (side : Side) : r.now < r.clock.reading side + r.duration := by
  have ordered := r.ordered_split.1
  rw [history, flatMap_append, flatMap_cons, pairwise_append, pairwise_append] at ordered
  have readings := ordered.2.1.1
  have within := r.within
  simp only [block, Call.readings, pairwise_cons] at readings
  cases side with
  | invites =>
    have reached : r.start ≤ r.clock.inviteEnd := readings.1 _ (by simp)
    show r.now < r.clock.inviteEnd + r.duration
    omega
  | requests =>
    have reached : r.start ≤ r.clock.requestEnd := readings.1 _ (by simp)
    show r.now < r.clock.requestEnd + r.duration
    omega

theorem stillBlocked_of_undisturbed (own : (route r.client r.method).2 = r.client)
    (undisturbed : r.Undisturbed) : r.StillBlocked := by
  unfold StillBlocked BlockedAt history
  rw [own, foldl_append, foldl_cons]
  have set (side : Side) (current : Option Int) :
      blockEnd side r.client current r.block = some (r.clock.reading side + r.duration) := by
    simp [blockEnd, block]
  rw [set]
  exact foldl_blockEnd_ahead undisturbed (r.block_ahead _)

theorem refused_iff (enabled : r.config.sipEnabled = true) :
    r.allowed = false ↔ r.StillBlocked ∨ r.tokens < 1 := by
  have on : r.limiter.config.sipEnabled = true := r.limiter_enabled.trans enabled
  rw [allowed, allowRequest_route on r.foreign, allow_refused_iff, ← r.banned_iff_stillBlocked]
  rfl

end BlockedRequest

/-- Requests of every method but REGISTER and OPTIONS are refused until the block is over or
ended by a call. -/
theorem refused_of_undisturbed (r : BlockedRequest) (enabled : r.config.sipEnabled = true)
    (own : (route r.client r.method).2 = r.client) (undisturbed : r.Undisturbed) :
    r.allowed = false :=
  (r.refused_iff enabled).mpr (.inl (r.stillBlocked_of_undisturbed own undisturbed))

/-- A request of a blocked client is refused exactly if the limiter is switched on and either
the key that the method is counted under is blocked, or that key is out of tokens. -/
theorem blocked_request_refused_iff (r : BlockedRequest) :
    r.allowed = false ↔ r.config.sipEnabled = true ∧ (r.StillBlocked ∨ r.tokens < 1) := by
  cases enabled : r.config.sipEnabled with
  | true => simpa using r.refused_iff enabled
  | false =>
    have off : r.limiter.config.sipEnabled = false := r.limiter_enabled.trans enabled
    simp [BlockedRequest.allowed, allowRequest, off]

def registeringClient : BlockedRequest where
  config := { whitelistedIPs := [], sipEnabled := true, sipInvitesPerSecond := 10,
              sipInviteBurst := 50, sipRequestsPerSecond := 100, sipRequestBurst := 200 }
  before := []
  client := "192.0.2.7"
  start := 0
  duration := 60 * nanosecondsPerSecond
  clock := ⟨0, 0, 0⟩
  between := []
  now := nanosecondsPerSecond
  method := "REGISTER"
  ordered := by simp [Ordered, Call.readings, nanosecondsPerSecond]
  within := by decide
  foreign := by decide

/-- A client that called before and keeps calling, while the limiters are cleaned up and the
whitelist grows. -/
def callingClient : BlockedRequest :=
  { registeringClient with
    before := [⟨0, .allowRequest "192.0.2.7" "INVITE"⟩, ⟨0, .cleanupRequests⟩]
    between := [⟨1, .allowRequest "192.0.2.7" "INVITE"⟩, ⟨2, .cleanupInvites⟩,
      ⟨3, .addToWhitelist "192.0.2.8"⟩, ⟨4, .blockClient "192.0.2.8" 1 ⟨4, 4, 4⟩⟩]
    method := "INVITE"
    ordered := by simp [Ordered, Call.readings, registeringClient, nanosecondsPerSecond]
    foreign := by decide +kernel }

theorem invite_refused_while_blocked : callingClient.allowed = false := by
  refine refused_of_undisturbed callingClient rfl (by decide) ?_
  simp [BlockedRequest.Undisturbed, callingClient, registeringClient, Call.Keeps]

theorem registers_while_blocked : registeringClient.allowed = true := by decide +kernel

end SiprecServer.Ratelimit.SipLimiter
