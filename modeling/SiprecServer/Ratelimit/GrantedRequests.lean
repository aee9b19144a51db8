import SiprecServer.Ratelimit.Limiter

/-!
# How many requests a client is granted

The level of a client's bucket pays for its requests.  A client that is forgotten comes
back with all its tokens, so the limiter keeps to its rate exactly when a bucket fills up
within the time after which a client can be forgotten.
-/

namespace SiprecServer.Ratelimit

open Lib.FileSystem Lib.Transducer Lib.Allowance Limiter List

def level (rate : ℚ) (burst : Int) (t : Int) : Option Bucket → ℚ
  | none => burst
  | some b => min (b.tokens + seconds (sub t b.lastUpdate) * rate) burst

/-- The tokens are between zero and the burst size, and the bucket is not ahead of time. -/
structure Bucket.Sound (burst : Int) (t : Int) (b : Bucket) : Prop where
  nonneg : 0 ≤ b.tokens
  capped : b.tokens ≤ burst
  past : b.lastUpdate ≤ t

section Levels

variable {rate : ℚ} {burst : Int} {t t' : Int} {bucket : Option Bucket} {b : Bucket}

theorem Bucket.Sound.later (sound : b.Sound burst t) (moves : t ≤ t') : b.Sound burst t' :=
  { sound with past := sound.past.trans moves }

theorem level_le_burst : level rate burst t bucket ≤ burst := by
  cases bucket with
  | none => exact le_rfl
  | some b => exact min_le_right _ _

theorem refilled_nonneg (filling : 0 ≤ rate) (sound : b.Sound burst t) :
    0 ≤ b.tokens + seconds (sub t b.lastUpdate) * rate :=
  add_nonneg sound.nonneg (mul_nonneg (seconds_nonneg (sub_nonneg sound.past)) filling)

theorem level_nonneg (room : 0 ≤ burst) (filling : 0 ≤ rate)
    (sound : ∀ b ∈ bucket, b.Sound burst t) : 0 ≤ level rate burst t bucket := by
  have positive : (0 : ℚ) ≤ burst := by exact_mod_cast room
  cases bucket with
  | none => exact positive
  | some b => exact le_min (refilled_nonneg filling (sound b rfl)) positive

theorem level_grows (filling : 0 ≤ rate) (sound : ∀ b ∈ bucket, b.Sound burst t) (moves : t ≤ t') :
    level rate burst t' bucket ≤ level rate burst t bucket + seconds (t' - t) * rate := by
  have accrued : 0 ≤ seconds (t' - t) * rate :=
    mul_nonneg (seconds_nonneg (by omega)) filling
  cases bucket with
  | none => exact le_add_of_nonneg_right accrued
  | some b =>
    have longer : seconds (sub t' b.lastUpdate) * rate ≤
        seconds (sub t b.lastUpdate) * rate + seconds (t' - t) * rate := by
      rw [← add_mul, ← seconds_add]
      exact mul_le_mul_of_nonneg_right (seconds_mono (sub_le_add (sound b rfl).past moves)) filling
    have first : b.tokens + seconds (sub t' b.lastUpdate) * rate ≤
        b.tokens + seconds (sub t b.lastUpdate) * rate + seconds (t' - t) * rate := by linarith
    rw [level, level, min_add]
    exact min_le_min first (le_add_of_nonneg_right accrued)

theorem level_updated (now : b.lastUpdate = t) (capped : b.tokens ≤ burst) :
    level rate burst t (some b) = b.tokens := by
  rw [level, now, sub_self, seconds_zero, zero_mul, add_zero, min_eq_left capped]

end Levels

/-- A bucket that is still unused when its client can be forgotten is full. -/
def FillsInTime (l : Limiter) : Prop := (l.burst : ℚ) ≤ seconds (l.cleanupTTL + 1) * l.rate

section Calls

variable {l : Limiter} {now : Int} {before after : Option Bucket} {requests : ℚ}

theorem refill_tokens (before : Option Bucket) :
    (l.refill now (before.getD { tokens := l.burst, lastUpdate := now })).tokens =
      level l.rate l.burst now before := by
  cases before with
  | none => simp [refill, level, sub_self]
  | some b => rfl

theorem BucketStep.sound (change : BucketStep l now before after requests) (room : 0 ≤ l.burst)
    (filling : 0 ≤ l.rate) (sound : ∀ b ∈ before, b.Sound l.burst now) :
    ∀ b ∈ after, b.Sound l.burst now := by
  have positive : (0 : ℚ) ≤ l.burst := by exact_mod_cast room
  have enough := level_nonneg room filling sound
  have capped : level l.rate l.burst now before ≤ l.burst := level_le_burst
  cases change with
  | kept => exact sound
  | refused =>
    rintro _ ⟨⟩
    exact ⟨refill_tokens before ▸ enough, refill_tokens before ▸ capped, le_rfl⟩
  | @granted _ b requests refilled paid =>
    rintro _ ⟨⟩
    have tokens : b.tokens = level l.rate l.burst now before := refilled ▸ refill_tokens before
    have updated : b.lastUpdate = now := refilled ▸ rfl
    exact ⟨by simpa using paid, by dsimp only; linarith, updated.le⟩
  | emptied =>
    rintro _ ⟨⟩
    refine ⟨le_rfl, positive, ?_⟩
    cases before with
    | none => exact le_rfl
    | some b => exact (sound b rfl).past
  | evicted => rintro _ ⟨⟩

theorem BucketStep.pays (change : BucketStep l now before after requests)
    (filling : 0 ≤ l.rate) (fills : FillsInTime l) (sound : ∀ b ∈ before, b.Sound l.burst now) :
    level l.rate l.burst now after + requests ≤ level l.rate l.burst now before := by
  have capped : level l.rate l.burst now before ≤ l.burst := level_le_burst
  cases change with
  | kept => rw [add_zero]
  | refused =>
    have tokens : (l.refill now _).tokens = _ := refill_tokens before
    rw [add_zero, ← tokens]
    exact (level_updated rfl (tokens ▸ capped)).le
  | @granted _ b requests refilled paid =>
    have tokens : b.tokens = level l.rate l.burst now before := refilled ▸ refill_tokens before
    have updated : b.lastUpdate = now := refilled ▸ rfl
    have left : level l.rate l.burst now (some { b with tokens := b.tokens - requests }) =
        b.tokens - requests := level_updated updated (by dsimp only; linarith)
    linarith
  | emptied =>
    rw [add_zero]
    cases before with
    | none => exact level_le_burst
    | some b =>
      refine min_le_min (add_le_add_left ?_ _) le_rfl
      exact (sound b rfl).nonneg
  | @evicted b stale =>
    -- the bucket has filled up since it was used
    have full : (l.burst : ℚ) ≤ seconds (sub now b.lastUpdate) * l.rate :=
      fills.trans (mul_le_mul_of_nonneg_right (seconds_mono (Int.add_one_le_of_lt stale)) filling)
    have held := (sound b rfl).nonneg
    rw [add_zero, level, level, min_eq_right (by linarith)]

end Calls

structure Limiter.Sound (rate : ℚ) (burst : Int) (l : Limiter) (t : Int) : Prop where
  rate_eq : l.rate = rate
  burst_eq : l.burst = burst
  ttl_eq : l.cleanupTTL = defaultTTL
  buckets : ∀ key, ∀ b ∈ l.clients key, b.Sound burst t

section Runs

variable {rate : ℚ} {burst : Int} {l : Limiter} {t : Int}

theorem newLimiter_sound : (newLimiter rate burst).Sound rate burst t :=
  ⟨rfl, rfl, rfl, fun _ _ absent => by cases absent⟩

theorem Limiter.Sound.step (sound : l.Sound rate burst t) {call : Call} (now : call.now = t)
    (room : 0 ≤ burst) (filling : 0 ≤ rate) :
    (step l call).1.Sound rate burst t := by
  obtain ⟨rate_eq, burst_eq, ttl_eq⟩ := step_settings l call
  obtain ⟨rfl, rfl, ttl, buckets⟩ := sound
  subst now
  exact ⟨rate_eq, burst_eq, ttl_eq.trans ttl, fun key =>
    (step_bucketStep l call key).sound room filling (buckets key)⟩

def accrual (filling : 0 ≤ rate) : Accrual Int ℚ where
  accrued a b := seconds (b - a) * rate
  add a b c := by
    rw [← add_mul, ← seconds_add]
    congr 2
    omega
  nonneg moves := mul_nonneg (seconds_nonneg (by omega)) filling

theorem step_stamped {call : Call} {grant : Grant} (mem : grant ∈ (step l call).2) :
    grant.now = call.now := by
  obtain ⟨now, operation⟩ := call
  have stamped {granted : Bool} {key : String} {n : Nat}
      (mem : grant ∈ grantIf granted ⟨key, n, now⟩) : grant.now = now := by
    cases granted with
    | true => exact mem_singleton.mp mem ▸ rfl
    | false => cases mem
  cases operation with
  | allow => exact stamped mem
  | allowN => exact stamped mem
  | block => cases mem
  | cleanup => cases mem

def clientPotential (room : 0 ≤ burst) (filling : 0 ≤ rate)
    (fills : (burst : ℚ) ≤ seconds (defaultTTL + 1) * rate) (key : String) :
    Potential step Call.now Grant.now
      (fun grant => if grant.key = key then (grant.requests : ℚ) else 0) (accrual filling)
      (burst : ℚ) (Sound rate burst) where
  potential l t := level rate burst t (l.clients key)
  later sound moves := { sound with
    buckets := fun key b present => (sound.buckets key b present).later moves }
  keeps sound := sound.step rfl room filling
  stamped := step_stamped
  nonneg sound := level_nonneg room filling (sound.buckets key)
  capped _ := level_le_burst
  grows sound moves := level_grows filling (sound.buckets key) moves
  pays {l call} sound := by
    obtain ⟨rfl, rfl, ttl, buckets⟩ := sound
    have inTime : FillsInTime l := by
      rw [FillsInTime, ttl]
      exact fills
    exact (step_bucketStep l call key).pays filling inTime (buckets key)

theorem run_sound (room : 0 ≤ burst) (filling : 0 ≤ rate) {calls : List Call}
    (ordered : Ordered calls) (sound : l.Sound rate burst t)
    (from_t : ∀ call ∈ calls, t ≤ call.now) :
    ∃ t, (run step l calls).1.Sound rate burst t := by
  induction calls generalizing l t with
  | nil => exact ⟨t, sound⟩
  | cons call calls ih =>
    obtain ⟨later, ordered⟩ := pairwise_cons.mp ordered
    have here : l.Sound rate burst call.now := { sound with
      buckets := fun key b present =>
        (sound.buckets key b present).later (from_t call mem_cons_self) }
    exact ih ordered (here.step rfl room filling) later

end Runs

/-- The tokens of every client stay between zero and the burst size, and no client is granted
more in an interval than the burst size and what the rate allows in its length. -/
structure KeepsRate (rate : ℚ) (burst : Int) (calls : List Call) : Prop where
  tokens : ∀ key b, (run step (newLimiter rate burst) calls).1.clients key = some b →
    0 ≤ b.tokens ∧ b.tokens ≤ burst
  granted : ∀ key start finish, start ≤ finish →
    granted key start finish (run step (newLimiter rate burst) calls).2 ≤
      burst + seconds (finish - start) * rate

theorem keepsRate_of_fills {rate : ℚ} {burst : Int} (room : 0 ≤ burst) (filling : 0 ≤ rate)
    (fills : (burst : ℚ) ≤ seconds (defaultTTL + 1) * rate) {calls : List Call}
    (ordered : Ordered calls) : KeepsRate rate burst calls := by
  -- there is a time before all calls
  obtain ⟨t, from_t⟩ : ∃ t, ∀ call ∈ calls, t ≤ call.now := by
    cases calls with
    | nil => exact ⟨0, fun call mem => by cases mem⟩
    | cons call calls => exact ⟨call.now, forall_mem_cons.mpr
        ⟨le_rfl, (pairwise_cons.mp ordered).1⟩⟩
  refine ⟨fun key b present => ?_, fun key start finish proper => ?_⟩
  · obtain ⟨t, sound⟩ := run_sound room filling ordered (newLimiter_sound (t := t)) from_t
    exact ⟨(sound.buckets key b present).nonneg, (sound.buckets key b present).capped⟩
  · exact (clientPotential room filling fills key).spent_le proper ordered newLimiter_sound from_t

section Failures

variable {rate : ℚ} {burst : Int}

def spendBurst (burst now : Int) : Call := ⟨now, .allowN "client" burst.toNat⟩

theorem cast_toNat (room : 0 ≤ burst) : ((burst.toNat : Nat) : ℚ) = burst := by
  exact_mod_cast Int.toNat_of_nonneg room

theorem step_spendBurst {l : Limiter} (room : 0 ≤ l.burst) (unknown : l.clients "client" = none)
    (now : Int) :
    step l (spendBurst l.burst now) =
      (l.store "client" ⟨0, now, false, 0⟩, [⟨"client", l.burst.toNat, now⟩]) := by
  have whole := cast_toNat room
  simp [step, spendBurst, allowN, bucket, unknown, refill, sub_self, whole, grantIf, store]

theorem not_keepsRate_of_no_room (negative : burst < 0) :
    ¬ KeepsRate rate burst [⟨0, .allow "client"⟩] := by
  intro keeps
  have below : (burst : ℚ) < 0 := by exact_mod_cast negative
  have refused : ¬ (1 : ℚ) ≤ burst := by linarith
  have tokens := keeps.tokens "client" ⟨burst, 0, false, 0⟩ (by
    simp [run, step, allow, allowN, bucket, newLimiter, empty, refill, sub_self, store, refused])
  linarith [tokens.1]

def emptied (rate : ℚ) (burst : Int) : Limiter :=
  (newLimiter rate burst).store "client" ⟨0, 0, false, 0⟩

theorem step_emptied (room : 0 ≤ burst) :
    step (newLimiter rate burst) (spendBurst burst 0) =
      (emptied rate burst, [⟨"client", burst.toNat, 0⟩]) :=
  step_spendBurst (l := newLimiter rate burst) room rfl 0

theorem not_keepsRate_of_draining (room : 0 ≤ burst) (negative : rate < 0) :
    ¬ KeepsRate rate burst
      [spendBurst burst 0, ⟨nanosecondsPerSecond, .allowN "client" 0⟩] := by
  intro keeps
  have second : sub nanosecondsPerSecond 0 = nanosecondsPerSecond := by decide
  have whole : seconds nanosecondsPerSecond = 1 := by norm_num [seconds, nanosecondsPerSecond]
  have below : rate ≤ burst := negative.le.trans (by exact_mod_cast room)
  have refused : ¬ 0 ≤ rate := not_le.mpr negative
  have tokens := keeps.tokens "client" ⟨rate, nanosecondsPerSecond, false, 0⟩ (by
    rw [run_cons_state, step_emptied room]
    simp [run, step, allowN, bucket, emptied, newLimiter, refill, second,
      whole, below, store, refused])
  linarith [tokens.1]

theorem emptied_forgotten :
    ((emptied rate burst).cleanup (defaultTTL + 1)).clients "client" = none := by
  have stale : (emptied rate burst).stale (defaultTTL + 1) ⟨0, 0, false, 0⟩ = true := by
    have long : defaultTTL < sub (defaultTTL + 1) 0 := by decide
    simp [stale, emptied, newLimiter, store, long]
  have present : (emptied rate burst).clients "client" = some ⟨0, 0, false, 0⟩ := by
    simp [emptied, store]
  simp [cleanup, present, stale]

theorem not_keepsRate_of_forgotten (room : 0 ≤ burst)
    (unfilled : seconds (defaultTTL + 1) * rate < burst) :
    ¬ KeepsRate rate burst
      [spendBurst burst 0, ⟨defaultTTL + 1, .cleanup⟩, spendBurst burst (defaultTTL + 1)] := by
  intro keeps
  have again := step_spendBurst (l := (emptied rate burst).cleanup (defaultTTL + 1)) room
    emptied_forgotten (defaultTTL + 1)
  have grants : (run step (newLimiter rate burst)
      [spendBurst burst 0, ⟨defaultTTL + 1, .cleanup⟩, spendBurst burst (defaultTTL + 1)]).2 =
      [⟨"client", burst.toNat, 0⟩, ⟨"client", burst.toNat, defaultTTL + 1⟩] := by
    rw [run_cons_output, step_emptied room, run_cons_output, run_cons_output]
    exact congrArg (fun result => [_] ++ ([] ++ (result.2 ++ []))) again
  have bound := keeps.granted "client" 0 (defaultTTL + 1) (by decide)
  have inside : (0 : Int) ≤ defaultTTL + 1 := by decide
  rw [grants] at bound
  simp only [granted, spent, filter_cons, inside, le_refl, and_self, decide_true, if_true,
    filter_nil, map_cons, map_nil, sum_cons, sum_nil, add_zero,
    cast_toNat room, sub_zero] at bound
  linarith

end Failures

/-- A limiter keeps to its rate in every run exactly if its burst size and rate are not negative
and the rate fills a bucket within the time after which a client can be forgotten. -/
theorem keeps_rate_iff (rate : ℚ) (burst : Int) :
    (∀ calls, Ordered calls → KeepsRate rate burst calls) ↔
      0 ≤ burst ∧ 0 ≤ rate ∧ (burst : ℚ) ≤ seconds (defaultTTL + 1) * rate := by
  constructor
  · intro keeps
    have room : 0 ≤ burst := not_lt.mp fun negative =>
      not_keepsRate_of_no_room negative (keeps _ (pairwise_singleton _ _))
    have filling : 0 ≤ rate := not_lt.mp fun negative =>
      not_keepsRate_of_draining room negative (keeps _ (pairwise_pair.mpr (by
        show (0 : Int) ≤ nanosecondsPerSecond
        decide)))
    refine ⟨room, filling, not_lt.mp fun unfilled =>
      not_keepsRate_of_forgotten room unfilled (keeps _ ?_)⟩
    simp [Ordered, spendBurst, defaultTTL, nanosecondsPerSecond]
  · rintro ⟨room, filling, fills⟩ calls ordered
    exact keepsRate_of_fills room filling fills ordered

/-- A burst of a hundred at a rate of one request in ten seconds.  The third tick of the cleanup
forgets the client of the burst, which is then granted 200 requests in 15 minutes, ten more than
the burst size and the rate allow. -/
theorem forgotten_client_granted_again :
    let tick : Int := 900 * nanosecondsPerSecond
    let calls := [spendBurst 100 0, ⟨tick, .cleanup⟩, spendBurst 100 tick]
    (run step (newLimiter (1 / 10) 100) calls).2 =
        [⟨"client", 100, 0⟩, ⟨"client", 100, tick⟩] ∧
      ¬ KeepsRate (1 / 10) 100 calls := by
  intro tick calls
  have grants : (run step (newLimiter (1 / 10) 100) calls).2 =
      [⟨"client", 100, 0⟩, ⟨"client", 100, tick⟩] := by decide +kernel
  refine ⟨grants, fun keeps => ?_⟩
  have bound := keeps.granted "client" 0 tick (by decide)
  exact absurd bound (by decide +kernel)

end SiprecServer.Ratelimit
