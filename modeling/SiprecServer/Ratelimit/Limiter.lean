import Mathlib.Tactic.Linarith
import Mathlib.Tactic.Ring
import SiprecServer.Lib.Allowance
import SiprecServer.Lib.FileSystem

/-!
# The rate limiter

`Limiter` keeps one token bucket for each client.  `Allow` and `AllowN` refill the bucket
for the time that has passed and spend tokens, `Block` empties it, and `cleanup` forgets
the clients that have not been seen for a while.  Times are clock readings in
nanoseconds; tokens are rational numbers.
-/

namespace SiprecServer.Ratelimit

open Lib.FileSystem Lib.Transducer Lib.Allowance

/-! ## Buckets -/

structure Bucket where
  tokens : ℚ
  lastUpdate : Int
  blocked : Bool := false
  blockUntil : Int := 0

structure Limiter where
  rate : ℚ
  burst : Int
  clients : Store String Bucket
  cleanupTTL : Int

def nanosecondsPerSecond : Int := 1000000000

def defaultTTL : Int := 600 * nanosecondsPerSecond

def newLimiter (rate : ℚ) (burst : Int) : Limiter where
  rate
  burst
  clients := empty
  cleanupTTL := defaultTTL

/-- The time between two clock readings, as a saturating 64-bit duration. -/
def sub (now earlier : Int) : Int := max (-2 ^ 63) (min (now - earlier) (2 ^ 63 - 1))

def seconds (duration : Int) : ℚ := duration / nanosecondsPerSecond

namespace Limiter

section

variable (l : Limiter)

/-- A client that is not known has all its tokens. -/
def bucket (now : Int) (key : String) : Bucket :=
  (l.clients key).getD { tokens := l.burst, lastUpdate := now }

/-- What `Allow` and `AllowN` do to a bucket that is not blocked before they look at it. -/
def refill (now : Int) (b : Bucket) : Bucket :=
  { b with
    blocked := false
    tokens := min (b.tokens + seconds (sub now b.lastUpdate) * l.rate) l.burst
    lastUpdate := now }

def store (key : String) (b : Bucket) : Limiter :=
  { l with clients := write l.clients key b }

def allowN (now : Int) (key : String) (n : Nat) : Limiter × Bool :=
  let b := l.bucket now key
  if b.blocked ∧ now < b.blockUntil then (l.store key b, false)
  else
    let b := l.refill now b
    if n ≤ b.tokens then (l.store key { b with tokens := b.tokens - n }, true)
    else (l.store key b, false)

def allow (now : Int) (key : String) : Limiter × Bool := l.allowN now key 1

/-- The clock is read once for a new bucket and once for the end of the block. -/
def block (now later : Int) (key : String) (duration : Int) : Limiter :=
  let b := (l.clients key).getD { tokens := 0, lastUpdate := now }
  l.store key { b with blocked := true, blockUntil := later + duration, tokens := 0 }

/-- A client that has not been seen for long and is not blocked. -/
def stale (now : Int) (b : Bucket) : Bool :=
  l.cleanupTTL < sub now b.lastUpdate && (!b.blocked || b.blockUntil < now)

def cleanup (now : Int) : Limiter :=
  { l with clients := fun key => (l.clients key).filter fun b => !l.stale now b }

end

end Limiter

inductive Operation where
  | allow (key : String)
  | allowN (key : String) (n : Nat)
  | block (key : String) (duration later : Int)
  | cleanup

structure Call where
  now : Int
  operation : Operation

structure Grant where
  key : String
  requests : Nat
  now : Int
deriving DecidableEq

def grantIf (granted : Bool) (grant : Grant) : List Grant := if granted then [grant] else []

def step (l : Limiter) (call : Call) : Limiter × List Grant :=
  match call.operation with
  | .allow key =>
    let result := l.allow call.now key
    (result.1, grantIf result.2 ⟨key, 1, call.now⟩)
  | .allowN key n =>
    let result := l.allowN call.now key n
    (result.1, grantIf result.2 ⟨key, n, call.now⟩)
  | .block key duration later => (l.block call.now later key duration, [])
  | .cleanup => (l.cleanup call.now, [])

def Ordered (calls : List Call) : Prop := calls.Pairwise (·.now ≤ ·.now)

def granted (key : String) (start finish : Int) (grants : List Grant) : ℚ :=
  spent Grant.now (fun grant => if grant.key = key then (grant.requests : ℚ) else 0) start finish
    grants

variable (l : Limiter) (key : String) (call : Call) (now : Int)

theorem sub_self : sub now now = 0 := by
  unfold sub
  omega

theorem sub_nonneg {now earlier : Int} (reached : earlier ≤ now) : 0 ≤ sub now earlier := by
  unfold sub
  omega

/-- A saturating duration grows by no more than the time that passes. -/
theorem sub_le_add {earlier now later : Int} (reached : earlier ≤ now) (moves : now ≤ later) :
    sub later earlier ≤ sub now earlier + (later - now) := by
  unfold sub
  omega

theorem seconds_add (first second : Int) :
    seconds (first + second) = seconds first + seconds second := by
  unfold seconds
  push_cast
  ring

theorem seconds_mono {shorter longer : Int} (le : shorter ≤ longer) :
    seconds shorter ≤ seconds longer := by
  have positive : (0 : ℚ) < nanosecondsPerSecond := by norm_num [nanosecondsPerSecond]
  exact (div_le_div_iff_of_pos_right positive).mpr (by exact_mod_cast le)

@[simp]
theorem seconds_zero : seconds 0 = 0 := by
  unfold seconds
  norm_num

theorem seconds_nonneg {duration : Int} (nonneg : 0 ≤ duration) : 0 ≤ seconds duration :=
  seconds_zero ▸ seconds_mono nonneg

inductive BucketStep (l : Limiter) (now : Int) : Option Bucket → Option Bucket → ℚ → Prop where
  | kept {before : Option Bucket} : BucketStep l now before before 0
  | refused {before : Option Bucket} :
      BucketStep l now before
        (some (l.refill now (before.getD { tokens := l.burst, lastUpdate := now }))) 0
  | granted {before : Option Bucket} {b : Bucket} (requests : Nat)
      (refilled : b = l.refill now (before.getD { tokens := l.burst, lastUpdate := now }))
      (paid : requests ≤ b.tokens) :
      BucketStep l now before (some { b with tokens := b.tokens - requests }) requests
  | emptied {before : Option Bucket} (blockUntil : Int) :
      BucketStep l now before
        (some { before.getD { tokens := 0, lastUpdate := now } with
          blocked := true, blockUntil, tokens := 0 }) 0
  | evicted {b : Bucket} (stale : l.cleanupTTL < sub now b.lastUpdate) :
      BucketStep l now (some b) none 0

def requestsOf (key : String) (grants : List Grant) : ℚ :=
  (grants.map fun grant => if grant.key = key then (grant.requests : ℚ) else 0).sum

@[simp]
theorem requestsOf_nil : requestsOf key [] = 0 := rfl

theorem requestsOf_grantIf (granted : Bool) (grant : Grant) :
    requestsOf key (grantIf granted grant) =
      if granted ∧ grant.key = key then (grant.requests : ℚ) else 0 := by
  cases granted <;> simp [grantIf, requestsOf]

open Limiter BucketStep

theorem allowN_bucketStep (key other : String) (n : Nat) :
    BucketStep l now (l.clients other) ((l.allowN now key n).1.clients other)
      (requestsOf other (grantIf (l.allowN now key n).2 ⟨key, n, now⟩)) := by
  rw [requestsOf_grantIf]
  unfold allowN
  by_cases same : other = key
  · subst same
    dsimp only
    split
    case isTrue blocked =>
      -- a bucket that is blocked was there before
      cases present : l.clients other with
      | none => simp [bucket, present] at blocked
      | some b => simpa [store, bucket, present] using kept
    case isFalse =>
      split
      case isTrue enough =>
        simpa [store] using! BucketStep.granted n rfl enough
      case isFalse =>
        simpa [store] using! refused
  · have notKey : key ≠ other := fun eq => same eq.symm
    dsimp only
    split
    · simpa [store, write_other same, notKey] using kept
    · split <;> simpa [store, write_other same, notKey] using kept

theorem step_bucketStep (key : String) :
    BucketStep l call.now (l.clients key) ((step l call).1.clients key)
      (requestsOf key (step l call).2) := by
  obtain ⟨now, operation⟩ := call
  cases operation with
  | allow client => exact allowN_bucketStep l now client key 1
  | allowN client n => exact allowN_bucketStep l now client key n
  | block client duration later =>
    by_cases same : key = client
    · subst same
      simpa [step, block, store] using emptied (later + duration)
    · simpa [step, block, store, write_other same] using kept
  | cleanup =>
    simp only [step, cleanup, requestsOf_nil]
    cases present : l.clients key with
    | none => exact .kept
    | some b =>
      cases isStale : l.stale now b with
      | true =>
        have long : l.cleanupTTL < sub now b.lastUpdate :=
          of_decide_eq_true (Bool.and_eq_true_iff.mp isStale).1
        simpa [Option.filter_some, isStale] using evicted long
      | false => simpa [Option.filter_some, isStale] using kept

theorem step_settings :
    (step l call).1.rate = l.rate ∧ (step l call).1.burst = l.burst ∧
      (step l call).1.cleanupTTL = l.cleanupTTL := by
  obtain ⟨now, operation⟩ := call
  have allowing (key : String) (n : Nat) : (l.allowN now key n).1.rate = l.rate ∧
      (l.allowN now key n).1.burst = l.burst ∧
      (l.allowN now key n).1.cleanupTTL = l.cleanupTTL := by
    unfold allowN
    dsimp only
    split
    · exact ⟨rfl, rfl, rfl⟩
    · split <;> exact ⟨rfl, rfl, rfl⟩
  cases operation with
  | allow key => exact allowing key 1
  | allowN key n => exact allowing key n
  | block key duration later => exact ⟨rfl, rfl, rfl⟩
  | cleanup => exact ⟨rfl, rfl, rfl⟩

end SiprecServer.Ratelimit
