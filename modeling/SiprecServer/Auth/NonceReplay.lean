import SiprecServer.Auth.SipAuth

/-!
# Nonces are not replayed

Between the inspection of a nonce and the commit of its count other attempts may run.
The commit compares the count with the one that was inspected, so the counts that are
accepted for a nonce grow; and a nonce keeps the address and the time it was issued with.
-/

namespace SiprecServer.Auth

open Lib Lib.FileSystem Lib.Transducer List

variable (past : List Observation)

def issues : List (String × String × Int) :=
  past.filterMap fun
    | .issued nonce clientIP now => some (nonce, clientIP, now)
    | .accepted .. => none

def acceptances : List (String × Nat) :=
  past.filterMap fun
    | .issued .. => none
    | .accepted _ nonce count _ _ => some (nonce, count)

def acceptedCounts (nonce : String) (past : List Observation) : List Nat :=
  ((acceptances past).filter (·.1 = nonce)).map (·.2)

def DistinctNonces : Prop := ((issues past).map (·.1)).Nodup

def Justified (timeout : Int) (past : List Observation) : Prop :=
  ∀ before attempt nonce count clientIP now after,
    past = before ++ .accepted attempt nonce count clientIP now :: after →
      ∃ timestamp, .issued nonce clientIP timestamp ∈ before ∧ now - timestamp ≤ timeout

section Histories

variable {timeout : Int} {past more : List Observation} {nonce clientIP : String} {now : Int}
  {attempt count : Nat}

theorem mem_issues : (nonce, clientIP, now) ∈ issues past ↔ .issued nonce clientIP now ∈ past := by
  simp only [issues, mem_filterMap]
  constructor
  · rintro ⟨observation, mem, same⟩
    cases observation with
    | issued => cases same; exact mem
    | accepted => cases same
  · exact fun mem => ⟨_, mem, rfl⟩

theorem mem_acceptedCounts : count ∈ acceptedCounts nonce past ↔
    ∃ attempt clientIP now, .accepted attempt nonce count clientIP now ∈ past := by
  simp only [acceptedCounts, acceptances, mem_map, mem_filter, mem_filterMap]
  constructor
  · rintro ⟨⟨_, _⟩, ⟨⟨observation, mem, same⟩, isNonce⟩, rfl⟩
    cases observation with
    | issued => cases same
    | accepted attempt other count clientIP now =>
      cases same
      exact ⟨attempt, clientIP, now, of_decide_eq_true isNonce ▸ mem⟩
  · rintro ⟨attempt, clientIP, now, mem⟩
    exact ⟨(nonce, count), ⟨⟨_, mem, rfl⟩, decide_eq_true rfl⟩, rfl⟩

theorem DistinctNonces.of_append (distinct : DistinctNonces (past ++ more)) :
    DistinctNonces past := by
  unfold DistinctNonces issues at *
  rw [filterMap_append, map_append] at distinct
  exact distinct.of_append_left

theorem DistinctNonces.unique (distinct : DistinctNonces past) {clientIP' : String} {now' : Int}
    (first : .issued nonce clientIP now ∈ past) (second : .issued nonce clientIP' now' ∈ past) :
    clientIP = clientIP' ∧ now = now' := by
  have same := inj_on_of_nodup_map distinct (mem_issues.mpr first) (mem_issues.mpr second) rfl
  exact ⟨congrArg (·.2.1) same, congrArg (·.2.2) same⟩

theorem DistinctNonces.fresh (distinct : DistinctNonces (past ++ [.issued nonce clientIP now]))
    {clientIP' : String} {now' : Int} : .issued nonce clientIP' now' ∉ past := by
  intro mem
  unfold DistinctNonces issues at distinct
  rw [filterMap_append, map_append] at distinct
  exact disjoint_of_nodup_append distinct
    (mem_map_of_mem (mem_issues.mpr mem)) (mem_singleton_self nonce)

theorem Justified.concat (justified : Justified timeout past) {observation : Observation}
    (here : ∀ attempt nonce count clientIP now,
      observation = .accepted attempt nonce count clientIP now →
        ∃ timestamp, .issued nonce clientIP timestamp ∈ past ∧ now - timestamp ≤ timeout) :
    Justified timeout (past ++ [observation]) := by
  intro before attempt nonce count clientIP now after split
  rcases eq_nil_or_concat after with rfl | ⟨front, last, rfl⟩
  · obtain ⟨rfl, same⟩ := append_inj' split rfl
    exact here _ _ _ _ _ (List.cons.inj same).1
  · rw [concat_eq_append, ← cons_append, ← append_assoc] at split
    obtain ⟨earlier, -⟩ := append_inj' split rfl
    exact justified before attempt nonce count clientIP now front earlier

theorem Justified.issued (justified : Justified timeout past)
    (mem : .accepted attempt nonce count clientIP now ∈ past) :
    ∃ timestamp, .issued nonce clientIP timestamp ∈ past := by
  obtain ⟨before, after, rfl⟩ := append_of_mem mem
  obtain ⟨timestamp, issued, -⟩ := justified _ _ _ _ _ _ _ rfl
  exact ⟨timestamp, mem_append_left _ issued⟩

end Histories

def Stage.Backed : Stage → Prop
  | .inspects _ creds _ _ info => .issued creds.nonce info.clientIP info.timestamp ∈ past
  | .commits request creds _ _ => ∃ timestamp, .issued creds.nonce request.clientIP timestamp ∈ past
  | _ => True

def Stage.succeeded : Stage → Bool
  | .done result => result.success
  | _ => false

/-- Some nonces may be gone; those that are left are the same. -/
def Shrinks (before after : Store String NonceInfo) : Prop :=
  ∀ nonce info, after nonce = some info → before nonce = some info

inductive Advance (s : SIPAuthenticator) (attempt : Nat) :
    Stage → Store String NonceInfo → Stage → List Observation → Prop where
  | plain {stage next : Stage} {nonces : Store String NonceInfo} (shrinks : Shrinks s.nonces nonces)
      (unaware : ∀ past, next.Backed past) (same : next.succeeded = stage.succeeded) :
      Advance s attempt stage nonces next []
  | inspects {request : AuthRequest} {creds : DigestCredentials} {user : SIPUser} {ncVal : Nat}
      {info : NonceInfo} (present : s.nonces creds.nonce = some info) :
      Advance s attempt (.findsNonce request creds user) s.nonces
        (.inspects request creds user ncVal info) []
  | agrees {request : AuthRequest} {creds : DigestCredentials} {user : SIPUser} {ncVal : Nat}
      {info : NonceInfo} (sameIP : info.clientIP = request.clientIP) :
      Advance s attempt (.inspects request creds user ncVal info) s.nonces
        (.commits request creds info.count ncVal) []
  | accepts {request : AuthRequest} {creds : DigestCredentials} {expected next : Nat} {now : Int}
      {info : NonceInfo} {result : AuthResult} (present : s.nonces creds.nonce = some info)
      (ahead : info.count < next) (alive : now - info.timestamp ≤ s.nonceTimeout)
      (success : result.success = true) :
      Advance s attempt (.commits request creds expected next)
        (write s.nonces creds.nonce { info with count := next }) (.done result)
        [.accepted attempt creds.nonce next request.clientIP now]
  | issues {request : AuthRequest} {username reason : String} {result : AuthResult}
      (nonce : String) (now : Int) (failure : result.success = false) :
      Advance s attempt (.challenges request username reason)
        (write s.nonces nonce ⟨nonce, now, 0, request.clientIP⟩) (.done result)
        [.issued nonce request.clientIP now]

open SIPAuthenticator

section Steps

variable {md5Hex : String → String} {s : SIPAuthenticator} {nonce : String} {now later : Int}

theorem Shrinks.refl (nonces : Store String NonceInfo) : Shrinks nonces nonces :=
  fun _ _ present => present

theorem expire_shrinks : Shrinks s.nonces (s.expire nonce now).nonces := by
  intro other info present
  unfold expire at present
  split at present
  · exact present
  · split at present
    · exact (remove_eq_some_iff.mp present).2
    · exact present

theorem expire_timeout : (s.expire nonce now).nonceTimeout = s.nonceTimeout := by
  unfold expire
  split
  · rfl
  · split <;> rfl

theorem cleanup_shrinks : Shrinks s.nonces (s.cleanupNonces now).nonces :=
  fun _ _ present => (Option.filter_eq_some_iff.mp present).1

theorem commit_cases (s : SIPAuthenticator) (nonce : String) (expected next : Nat)
    (now later : Int) :
    (∃ info, s.nonces nonce = some info ∧ info.count = expected ∧ expected < next ∧
        now - info.timestamp ≤ s.nonceTimeout ∧
        s.commitNonceCount nonce expected next now later =
          ({ s with nonces := write s.nonces nonce { info with count := next } }, true)) ∨
      s.commitNonceCount nonce expected next now later = (s, false) ∨
      s.commitNonceCount nonce expected next now later = (s.expire nonce later, false) := by
  unfold commitNonceCount
  split
  · exact .inr (.inl rfl)
  · rename_i ahead
    split
    · exact .inr (.inl rfl)
    · rename_i info present
      split
      · exact .inr (.inr rfl)
      · rename_i fine
        obtain ⟨same, fresh⟩ := not_or.mp fine
        have alive : now - info.timestamp ≤ s.nonceTimeout := by
          simpa [expired] using fresh
        exact .inl ⟨info, present, not_not.mp same, Nat.lt_of_not_le ahead, alive, rfl⟩

theorem inspectNonce_advance (request : AuthRequest) (creds : DigestCredentials) (user : SIPUser)
    (ncVal : Nat) (info : NonceInfo) (attempt : Nat) :
    Advance s attempt (.inspects request creds user ncVal info) s.nonces
      (inspectNonce md5Hex s now request creds user ncVal info) [] := by
  unfold inspectNonce
  split
  · exact .plain (.refl _) (fun _ => True.intro) rfl
  · split
    · exact .plain (.refl _) (fun _ => True.intro) rfl
    · rename_i fine
      split
      · exact .plain (.refl _) (fun _ => True.intro) rfl
      · exact .agrees (not_not.mp (not_or.mp fine).1)

theorem advance_outcome (s : SIPAuthenticator) (attempt : Nat) (around : Surroundings)
    (stage : Stage) :
    let after := stage.advance md5Hex s attempt around
    Advance s attempt stage after.1.nonces after.2.1 after.2.2 ∧
      after.1.nonceTimeout = s.nonceTimeout := by
  have plain {stage next : Stage} (unaware : ∀ past, next.Backed past)
      (same : next.succeeded = stage.succeeded) : Advance s attempt stage s.nonces next [] :=
    .plain (.refl _) unaware same
  cases stage with
  | begins request =>
    rw [Stage.advance]
    split
    · exact ⟨plain (fun _ => True.intro) rfl, rfl⟩
    · split <;> exact ⟨plain (fun _ => True.intro) rfl, rfl⟩
  | findsUser request creds =>
    rw [Stage.advance]
    split
    · exact ⟨plain (fun _ => True.intro) rfl, rfl⟩
    · split <;> exact ⟨plain (fun _ => True.intro) rfl, rfl⟩
  | findsNonce request creds user =>
    rw [Stage.advance]
    split
    · rename_i present
      exact ⟨.inspects present, rfl⟩
    · exact ⟨plain (fun _ => True.intro) rfl, rfl⟩
  | inspects request creds user ncVal info =>
    exact ⟨inspectNonce_advance request creds user ncVal info attempt, rfl⟩
  | expires request creds =>
    exact ⟨.plain expire_shrinks (fun _ => True.intro) rfl, expire_timeout⟩
  | commits request creds expected next =>
    rw [Stage.advance]
    obtain ⟨info, present, same, ahead, alive, committed⟩ | committed | committed :=
      commit_cases s creds.nonce expected next around.now around.later
    · rw [committed]
      exact ⟨.accepts present (same ▸ ahead) alive rfl, rfl⟩
    · rw [committed]
      exact ⟨plain (fun _ => True.intro) rfl, rfl⟩
    · rw [committed]
      exact ⟨.plain expire_shrinks (fun _ => True.intro) rfl, expire_timeout⟩
  | challenges request username reason =>
    rw [Stage.advance]
    split
    · exact ⟨plain (fun _ => True.intro) rfl, rfl⟩
    · exact ⟨.issues _ _ rfl, rfl⟩
  | done result => exact ⟨plain (fun _ => True.intro) rfl, rfl⟩

end Steps

/-! ## Invariants -/

structure NonceInv (timeout : Int) (past : List Observation) (nonces : Store String NonceInfo) :
    Prop where
  stored : ∀ nonce info, nonces nonce = some info →
    .issued nonce info.clientIP info.timestamp ∈ past
  counted : ∀ nonce info, nonces nonce = some info →
    ∀ count ∈ acceptedCounts nonce past, count ≤ info.count
  increasing : ∀ nonce, (acceptedCounts nonce past).Pairwise (· < ·)
  justified : Justified timeout past

def Settled (attempts : List Stage) : Prop :=
  ∀ attempt, (∃ nonce count clientIP now, .accepted attempt nonce count clientIP now ∈ past) ↔
    ∃ stage, attempts[attempt]? = some stage ∧ stage.succeeded = true

structure Inv (timeout : Int) (past : List Observation) (system : System) : Prop where
  timeout_eq : system.authenticator.nonceTimeout = timeout
  nonces : NonceInv timeout past system.authenticator.nonces
  backed : ∀ stage ∈ system.attempts, stage.Backed past
  settled : Settled past system.attempts

def CountsKept (before after : Store String NonceInfo) (seen : List Observation) : Prop :=
  ∀ nonce info info', before nonce = some info → after nonce = some info' →
    info'.count ≠ info.count → ∃ attempt clientIP now,
      .accepted attempt nonce info'.count clientIP now ∈ seen

section Preservation

variable {timeout : Int} {past : List Observation} {nonces after : Store String NonceInfo}
  {s : SIPAuthenticator} {stage next : Stage} {attempt : Nat} {seen : List Observation}

theorem Stage.Backed.mono (backed : stage.Backed past) (more : List Observation) :
    stage.Backed (past ++ more) := by
  cases stage with
  | inspects => exact mem_append_left _ backed
  | commits =>
    obtain ⟨timestamp, issued⟩ := backed
    exact ⟨timestamp, mem_append_left _ issued⟩
  | _ => exact True.intro

theorem NonceInv.shrinks (inv : NonceInv timeout past nonces) (shrinks : Shrinks nonces after) :
    NonceInv timeout past after :=
  { inv with
    stored := fun nonce info present => inv.stored nonce info (shrinks nonce info present)
    counted := fun nonce info present => inv.counted nonce info (shrinks nonce info present) }

theorem NonceInv.issues (inv : NonceInv timeout past nonces) {nonce clientIP : String} {now : Int}
    (distinct : DistinctNonces (past ++ [.issued nonce clientIP now])) :
    NonceInv timeout (past ++ [.issued nonce clientIP now])
      (write nonces nonce ⟨nonce, now, 0, clientIP⟩) := by
  have unaccepted (other : String) :
      acceptedCounts other (past ++ [.issued nonce clientIP now]) = acceptedCounts other past := by
    simp [acceptedCounts, acceptances]
  constructor
  · intro other info present
    obtain ⟨rfl, rfl⟩ | ⟨-, present⟩ := write_eq_some_iff.mp present
    · exact mem_append_right _ (mem_singleton_self _)
    · exact mem_append_left _ (inv.stored other info present)
  · intro other info present count mem
    rw [unaccepted] at mem
    obtain ⟨rfl, rfl⟩ | ⟨-, present⟩ := write_eq_some_iff.mp present
    · obtain ⟨attempt, clientIP', now', accepted⟩ := mem_acceptedCounts.mp mem
      obtain ⟨timestamp, issued⟩ := inv.justified.issued accepted
      exact absurd issued distinct.fresh
    · exact inv.counted other info present count mem
  · intro other
    rw [unaccepted]
    exact inv.increasing other
  · exact inv.justified.concat fun _ _ _ _ _ same => by cases same

theorem NonceInv.accepts (inv : NonceInv timeout past nonces) (distinct : DistinctNonces past)
    {nonce clientIP : String} {info : NonceInfo} {count : Nat} {now timestamp : Int}
    (present : nonces nonce = some info) (ahead : info.count < count)
    (alive : now - info.timestamp ≤ timeout) (issued : .issued nonce clientIP timestamp ∈ past) :
    NonceInv timeout (past ++ [.accepted attempt nonce count clientIP now])
      (write nonces nonce { info with count }) := by
  have counts (other : String) :
      acceptedCounts other (past ++ [.accepted attempt nonce count clientIP now]) =
        acceptedCounts other past ++ if nonce = other then [count] else [] := by
    by_cases same : nonce = other <;> simp [acceptedCounts, acceptances, same]
  have below : ∀ earlier ∈ acceptedCounts nonce past, earlier < count := fun earlier mem =>
    Nat.lt_of_le_of_lt (inv.counted nonce info present earlier mem) ahead
  constructor
  · intro other found isFound
    refine mem_append_left _ ?_
    obtain ⟨rfl, rfl⟩ | ⟨-, isFound⟩ := write_eq_some_iff.mp isFound
    · exact inv.stored other info present
    · exact inv.stored other found isFound
  · intro other found isFound earlier mem
    rw [counts] at mem
    obtain ⟨rfl, rfl⟩ | ⟨different, isFound⟩ := write_eq_some_iff.mp isFound
    · rw [if_pos rfl] at mem
      obtain old | new := mem_append.mp mem
      · exact Nat.le_of_lt (below earlier old)
      · exact Nat.le_of_eq (mem_singleton.mp new)
    · rw [if_neg different.symm, append_nil] at mem
      exact inv.counted other found isFound earlier mem
  · intro other
    rw [counts]
    split
    · rename_i same
      subst same
      exact pairwise_append.mpr ⟨inv.increasing nonce, pairwise_singleton _ _,
        fun earlier mem last isLast => mem_singleton.mp isLast ▸ below earlier mem⟩
    · rw [append_nil]
      exact inv.increasing other
  · refine inv.justified.concat fun _ _ _ _ _ same => ?_
    cases same
    -- the nonce was issued once, with the address and the time that are stored
    obtain ⟨sameIP, -⟩ := distinct.unique issued (inv.stored nonce info present)
    exact ⟨info.timestamp, sameIP ▸ inv.stored nonce info present, alive⟩

theorem Advance.nonceInv (outcome : Advance s attempt stage after next seen)
    (timeout_eq : s.nonceTimeout = timeout) (inv : NonceInv timeout past s.nonces)
    (backed : stage.Backed past) (distinct : DistinctNonces (past ++ seen)) :
    NonceInv timeout (past ++ seen) after := by
  cases outcome with
  | plain shrinks => simpa using inv.shrinks shrinks
  | inspects => simpa using inv
  | agrees => simpa using inv
  | accepts present ahead alive =>
    obtain ⟨timestamp, issued⟩ := backed
    exact inv.accepts distinct.of_append present ahead (timeout_eq ▸ alive) issued
  | issues => exact inv.issues distinct

theorem Advance.backed (outcome : Advance s attempt stage after next seen)
    (inv : NonceInv timeout past s.nonces) (backed : stage.Backed past) :
    next.Backed (past ++ seen) := by
  cases outcome with
  | plain _ unaware => exact unaware _
  | inspects present => exact mem_append_left _ (inv.stored _ _ present)
  | agrees sameIP =>
    have issued : .issued _ _ _ ∈ past := backed
    exact ⟨_, mem_append_left _ (sameIP ▸ issued)⟩
  | accepts => exact True.intro
  | issues => exact True.intro

theorem Shrinks.countsKept (shrinks : Shrinks nonces after) (seen : List Observation) :
    CountsKept nonces after seen := by
  intro nonce info info' before isAfter changed
  cases Option.some.inj (before.symm.trans (shrinks nonce info' isAfter))
  exact absurd rfl changed

theorem CountsKept.write {nonce : String} {written : NonceInfo}
    (here : ∀ info, nonces nonce = some info → written.count ≠ info.count →
      ∃ attempt clientIP now, .accepted attempt nonce written.count clientIP now ∈ seen) :
    CountsKept nonces (write nonces nonce written) seen := by
  intro other info info' before isAfter changed
  obtain ⟨rfl, rfl⟩ | ⟨-, isAfter⟩ := write_eq_some_iff.mp isAfter
  · exact here info before changed
  · cases Option.some.inj (before.symm.trans isAfter)
    exact absurd rfl changed

section

variable (outcome : Advance s attempt stage after next seen)

include outcome

/-- Counts change by acceptance only; a nonce that is issued was not there before. -/
theorem Advance.countsKept (inv : NonceInv timeout past s.nonces)
    (distinct : DistinctNonces (past ++ seen)) :
    CountsKept s.nonces after seen := by
  cases outcome with
  | plain shrinks => exact shrinks.countsKept _
  | inspects => exact (Shrinks.refl _).countsKept _
  | agrees => exact (Shrinks.refl _).countsKept _
  | accepts => exact .write fun _ _ _ => ⟨_, _, _, mem_singleton_self _⟩
  | issues nonce =>
    exact .write fun info before _ => absurd (inv.stored nonce info before) distinct.fresh

theorem Advance.accepted_iff (other : Nat) :
    (∃ nonce count clientIP now, .accepted other nonce count clientIP now ∈ seen) ↔
      other = attempt ∧ next.succeeded = true ∧ stage.succeeded = false := by
  cases outcome with
  | plain _ _ same => simp [same]
  | inspects => simp [Stage.succeeded]
  | agrees => simp [Stage.succeeded]
  | accepts _ _ _ success => simp [Stage.succeeded, success]
  | issues _ _ failure => simp [Stage.succeeded, failure]

theorem Advance.succeeded (success : stage.succeeded = true) : next.succeeded = true := by
  cases outcome with
  | plain _ _ same => exact same.trans success
  | _ => cases success

theorem Advance.settled {attempts : List Stage} (settled : Settled past attempts)
    (present : attempts[attempt]? = some stage) :
    Settled (past ++ seen) (attempts.set attempt next) := by
  intro other
  have observed : (∃ nonce count clientIP now,
      .accepted other nonce count clientIP now ∈ past ++ seen) ↔
        (∃ stage, attempts[other]? = some stage ∧ stage.succeeded = true) ∨
          other = attempt ∧ next.succeeded = true ∧ stage.succeeded = false := by
    rw [← settled other, ← outcome.accepted_iff other]
    simp only [mem_append, exists_or]
  rw [observed]
  by_cases same : other = attempt
  · subst same
    have inside : other < attempts.length := (List.getElem?_eq_some_iff.mp present).1
    rw [List.getElem?_set_self inside]
    cases before : stage.succeeded with
    | true => simp [present, before, outcome.succeeded before]
    | false => simp [present, before]
  · rw [getElem?_set_ne fun eq => same eq.symm]
    simp [same]

end

end Preservation

section Runs

variable {md5Hex : String → String} {timeout : Int} {past : List Observation} {system : System}

section

variable (inv : Inv timeout past system)

include inv

theorem Inv.shrinks {after : SIPAuthenticator}
    (shrinks : Shrinks system.authenticator.nonces after.nonces)
    (timeout_eq : after.nonceTimeout = system.authenticator.nonceTimeout) :
    Inv timeout (past ++ []) { system with authenticator := after } := by
  rw [append_nil]
  exact { inv with
    timeout_eq := timeout_eq.trans inv.timeout_eq
    nonces := inv.nonces.shrinks shrinks }

omit inv in
theorem setEnabled_nonces (s : SIPAuthenticator) (username : String) (enabled : Bool) :
    (s.setEnabled username enabled).nonces = s.nonces ∧
      (s.setEnabled username enabled).nonceTimeout = s.nonceTimeout := by
  unfold setEnabled
  split <;> exact ⟨rfl, rfl⟩

theorem Inv.arrives (request : AuthRequest) :
    Inv timeout (past ++ []) { system with attempts := system.attempts ++ [.begins request] } := by
  rw [append_nil]
  refine { inv with
    backed := fun stage mem => ?_
    settled := fun attempt => ?_ }
  · obtain old | new := mem_append.mp mem
    · exact inv.backed stage old
    · exact mem_singleton.mp new ▸ True.intro
  · rw [inv.settled attempt]
    by_cases inside : attempt < system.attempts.length
    · rw [getElem?_append_left inside]
    · -- a new attempt has not succeeded
      have outside := Nat.le_of_not_lt inside
      rw [getElem?_append_right outside, getElem?_eq_none outside]
      cases attempt - system.attempts.length <;> simp [Stage.succeeded]

theorem step_inv (event : Event)
    (distinct : DistinctNonces (past ++ (step md5Hex system event).2)) :
    Inv timeout (past ++ (step md5Hex system event).2) (step md5Hex system event).1 ∧
      CountsKept system.authenticator.nonces (step md5Hex system event).1.authenticator.nonces
        (step md5Hex system event).2 := by
  have same : Shrinks system.authenticator.nonces system.authenticator.nonces := .refl _
  cases event with
  | arrives request => exact ⟨inv.arrives request, same.countsKept _⟩
  | advances attempt around =>
    unfold step at distinct ⊢
    dsimp only at distinct ⊢
    cases present : system.attempts[attempt]? with
    | none => exact ⟨inv.shrinks same rfl, same.countsKept _⟩
    | some stage =>
      rw [present] at distinct
      obtain ⟨outcome, timeouts⟩ :=
        @advance_outcome md5Hex system.authenticator attempt around stage
      have backed := inv.backed stage (mem_of_getElem? present)
      refine ⟨⟨timeouts.trans inv.timeout_eq,
        outcome.nonceInv inv.timeout_eq inv.nonces backed distinct, fun other mem => ?_,
        outcome.settled inv.settled present⟩, outcome.countsKept inv.nonces distinct⟩
      obtain old | new := mem_or_eq_of_mem_set mem
      · exact (inv.backed other old).mono _
      · exact new ▸ outcome.backed inv.nonces backed
  | addUser username password => exact ⟨inv.shrinks same rfl, same.countsKept _⟩
  | removeUser username => exact ⟨inv.shrinks same rfl, same.countsKept _⟩
  | setEnabled username enabled =>
    obtain ⟨nonces, timeouts⟩ := setEnabled_nonces system.authenticator username enabled
    have shrinks : Shrinks system.authenticator.nonces
        (system.authenticator.setEnabled username enabled).nonces := nonces ▸ .refl _
    exact ⟨inv.shrinks shrinks timeouts, shrinks.countsKept _⟩
  | cleanup now => exact ⟨inv.shrinks cleanup_shrinks rfl, cleanup_shrinks.countsKept _⟩

theorem run_inv (events : List Event)
    (distinct : DistinctNonces (past ++ (run (step md5Hex) system events).2)) :
    Inv timeout (past ++ (run (step md5Hex) system events).2)
        (run (step md5Hex) system events).1 ∧
      Along (step md5Hex) (fun system event =>
        CountsKept system.authenticator.nonces (step md5Hex system event).1.authenticator.nonces
          (step md5Hex system event).2) system events := by
  induction events generalizing past system with
  | nil => exact ⟨by simpa using inv, True.intro⟩
  | cons event events ih =>
    rw [run_cons_output, ← append_assoc] at distinct ⊢
    obtain ⟨next, kept⟩ := step_inv inv event distinct.of_append
    obtain ⟨final, later⟩ := ih next distinct
    exact ⟨final, kept, later⟩

end

theorem newSystem_inv (realm : String) : Inv defaultNonceTimeout [] (newSystem realm) where
  timeout_eq := rfl
  nonces :=
    { stored := fun _ _ absent => by cases absent
      counted := fun _ _ absent => by cases absent
      increasing := fun _ => List.Pairwise.nil
      justified := fun before _ _ _ _ _ _ split => by cases before <;> cases split }
  backed _ absent := by cases absent
  settled attempt := by simp [newSystem]

end Runs

theorem nodup_of_values {pairs : List (String × Nat)}
    (values : ∀ key, ((pairs.filter (·.1 = key)).map (·.2)).Nodup) : pairs.Nodup := by
  induction pairs with
  | nil => exact nodup_nil
  | cons pair pairs ih =>
    obtain ⟨key, value⟩ := pair
    refine nodup_cons.mpr ⟨fun mem => ?_, ih fun other => ?_⟩
    · have distinct := values key
      rw [filter_cons_of_pos (by simp), map_cons] at distinct
      exact (nodup_cons.mp distinct).1 (mem_map.mpr
        ⟨(key, value), mem_filter.mpr ⟨mem, by simp⟩, rfl⟩)
    · refine (values other).sublist (List.Sublist.map _ (List.Sublist.filter _ ?_))
      exact sublist_cons_self _ _

structure ReplaySafe (timeout : Int) (seen : List Observation) : Prop where
  /-- Each pair of nonce and count is accepted at most once. -/
  once : (acceptances seen).Nodup
  increasing : ∀ nonce, (acceptedCounts nonce seen).Pairwise (· < ·)
  /-- A nonce is accepted for the address it was issued to and before it expires. -/
  justified : Justified timeout seen

/-- For every interleaving of attempts, with each other and with the other operations: nonces are
not replayed, counts change by acceptance only, and the attempts that succeed are those whose
acceptance is observed. -/
theorem nonces_not_replayed (md5Hex : String → String) (realm : String) (events : List Event)
    (distinct : DistinctNonces (run (step md5Hex) (newSystem realm) events).2) :
    ReplaySafe defaultNonceTimeout (run (step md5Hex) (newSystem realm) events).2 ∧
      Along (step md5Hex) (fun system event =>
        CountsKept system.authenticator.nonces (step md5Hex system event).1.authenticator.nonces
          (step md5Hex system event).2) (newSystem realm) events ∧
      Settled (run (step md5Hex) (newSystem realm) events).2
        (run (step md5Hex) (newSystem realm) events).1.attempts := by
  obtain ⟨inv, kept⟩ := run_inv (newSystem_inv realm) events distinct
  refine ⟨⟨nodup_of_values fun nonce => ?_, inv.nonces.increasing, inv.nonces.justified⟩, kept,
    inv.settled⟩
  exact (inv.nonces.increasing nonce).imp fun less => Nat.ne_of_lt less

/-- A client asks for a challenge and then sends the same credentials twice, at the same time. -/
def replayedEvents : List Event :=
  let header := "Digest username=\"alice\", realm=\"pbx\", nonce=\"n\", uri=\"sip:srs\", " ++
    "response=\"digest\", algorithm=MD5, qop=auth, nc=00000001, cnonce=\"c\""
  let request : AuthRequest := ⟨header, "INVITE", "sip:srs", "10.0.0.1"⟩
  let advances (attempt : Nat) : Event := .advances attempt ⟨1, 1, none⟩
  [.addUser "alice" "secret", .arrives { request with authHeader := "" },
    advances 0, .advances 0 ⟨0, 0, some "n"⟩, .arrives request, .arrives request] ++
  [1, 2, 1, 2, 1, 2, 1, 2, 1, 2].map advances

/-- Both attempts get as far as the commit, and one of them is accepted. -/
theorem replay_refused :
    (run (step fun _ => "digest") (newSystem "pbx") replayedEvents).2 =
        [.issued "n" "10.0.0.1" 0, .accepted 1 "n" 1 "10.0.0.1" 1] ∧
      ReplaySafe defaultNonceTimeout
        (run (step fun _ => "digest") (newSystem "pbx") replayedEvents).2 := by
  have seen : (run (step fun _ => "digest") (newSystem "pbx") replayedEvents).2 =
      [.issued "n" "10.0.0.1" 0, .accepted 1 "n" 1 "10.0.0.1" 1] := by decide +kernel
  refine ⟨seen, (nonces_not_replayed (fun _ => "digest") "pbx" replayedEvents ?_).1⟩
  rw [seen]
  exact nodup_singleton _

end SiprecServer.Auth
