import SiprecServer.Media.PortsHeld

/-!
# Which pair of ports is handed out

The loops start at the lower bound and go in steps of two, so that a range with an odd lower
bound has no pairs for them.  The cooldown set is what the cache of released ports still
has: a release that it has evicted counts as none.
-/

namespace SiprecServer.Media.Ports

open Lib Util List

/-! ## Holders and releases -/

structure History where
  held : Finset Int
  releases : List (Int × Int)

def releaseOf (held : Finset Int) (now port : Int) : List (Int × Int) :=
  if port ∈ held then [(port, now)] else []

def Call.released (held : Finset Int) : Call → List (Int × Int)
  | .releasePort now port => releaseOf held now port
  | .releasePortPair now (some pair) =>
    releaseOf (held.erase pair.rtpPort) now pair.rtcpPort ++ releaseOf held now pair.rtpPort
  | _ => []

def History.note (manager : PortManager) (history : History) (call : Call) : History where
  held := heldAfter history.held (step manager call).2 call
  releases := call.released history.held ++ history.releases

def reached (minPort maxPort : Int) (calls : List Call) : PortManager × History :=
  (Transducer.run (Transducer.tracked step History.note) (newPortManager minPort maxPort, ⟨∅, []⟩)
    calls).1

def History.Recent (history : History) (now port : Int) : Prop :=
  ∃ time, (port, time) ∈ history.releases ∧ now ≤ time + cooldown

section Pairs

variable (state : PortManager × History) (env : Environment)

def FreePair (port : Int) : Prop :=
  port % 2 = 0 ∧ state.1.minPort ≤ port ∧ port + 1 ≤ state.1.maxPort ∧
    port ∉ state.2.held ∧ port + 1 ∉ state.2.held ∧
    env.available .fresh port ∧ env.available .fresh (port + 1)

def FreshPair (port : Int) : Prop :=
  FreePair state env port ∧ ¬state.2.Recent env.now port

def ForgottenPair (port : Int) : Prop :=
  FreePair state env port ∧ state.2.Recent env.now port ∧ port ∉ state.1.cooling env

/-- A pair is handed out, in the range, and a fresh one if there is any. -/
def Served : Prop :=
  ∃ after pair, state.1.allocatePortPair env = (after, .ok pair) ∧ pair.rtpPort % 2 = 0 ∧
    pair.rtcpPort = pair.rtpPort + 1 ∧ state.1.minPort ≤ pair.rtpPort ∧
    pair.rtcpPort ≤ state.1.maxPort ∧
    ((∃ port, FreshPair state env port) → ¬state.2.Recent env.now pair.rtpPort)

end Pairs

def Belongs (minPort maxPort port : Int) : Prop :=
  minPort ≤ port ∧ port ≤ maxPort ∧ (minPort % 2 = 1 → port % 2 = 1)

structure Knows (manager : PortManager) (history : History) : Prop where
  used : manager.usedPorts = history.held
  ttl : manager.recentlyUsed.defaultTTL = cooldown
  cached : ∀ item ∈ manager.recentlyUsed.items,
    (item.value, item.expiration - cooldown) ∈ history.releases
  held : ∀ port ∈ history.held, Belongs manager.minPort manager.maxPort port
  released : ∀ release ∈ history.releases, Belongs manager.minPort manager.maxPort release.1

open PortManager

section Searches

variable {manager : PortManager} {history : History} {env : Environment} {port : Int}

variable (knows : Knows manager history)

include knows

theorem Knows.recent (cools : port ∈ manager.cooling env) : history.Recent env.now port := by
  obtain ⟨item, inside, rfl, live⟩ := mem_cooling.mp cools
  exact ⟨item.expiration - cooldown, knows.cached item inside, by omega⟩

theorem Knows.belongs (cools : port ∈ manager.cooling env) :
    Belongs manager.minPort manager.maxPort port := by
  obtain ⟨time, release, -⟩ := knows.recent cools
  exact knows.released _ release

omit knows in
theorem belongs_of_mem_ports {demand : Demand} (mem : port ∈ manager.ports demand)
    (suits : demand.suits port = true) :
    ∀ taken ∈ demand.ports port, Belongs manager.minPort manager.maxPort taken := by
  have bounds := mem_stepPorts.mp mem
  intro taken among
  unfold Belongs
  cases demand with
  | single =>
    have : port ≤ manager.maxPort := bounds.2.1
    rw [mem_singleton.mp among]
    omega
  | pair =>
    have even : port % 2 = 0 := of_decide_eq_true suits
    have : port ≤ manager.maxPort - 1 := bounds.2.1
    obtain rfl | second := mem_cons.mp among
    · omega
    · rw [mem_singleton.mp second]
      omega

theorem Knows.found {demand : Demand} {reused : Bool}
    (found : manager.search demand (manager.cooling env) env = some (port, reused)) :
    demand.suits port = true ∧ ∀ taken ∈ demand.ports port,
      Belongs manager.minPort manager.maxPort taken := by
  have outcome : Search demand manager (manager.cooling env) env (some (port, reused)) :=
    found ▸ search_outcome
  cases outcome with
  | fresh first =>
    have meets := find?_some first
    simp only [isFresh, Bool.and_eq_true] at meets
    exact ⟨meets.1.1.1, belongs_of_mem_ports (mem_of_find?_eq_some first) meets.1.1.1⟩
  | cooling mem meets _ =>
    have belongs := knows.belongs mem
    simp only [isCooling, Bool.and_eq_true] at meets
    refine ⟨meets.1.1.1, fun taken among => ?_⟩
    cases demand with
    | single =>
      rw [mem_singleton.mp among]
      exact belongs
    | pair =>
      have even : port % 2 = 0 := of_decide_eq_true meets.1.1.1
      have fits : port + 1 ≤ manager.maxPort := of_decide_eq_true meets.1.1.2
      obtain rfl | second := mem_cons.mp among
      · exact belongs
      · rw [mem_singleton.mp second]
        unfold Belongs at belongs ⊢
        omega
  | lastResort last _ _ =>
    have meets := find?_some last
    simp only [isLastResort, Bool.and_eq_true] at meets
    exact ⟨meets.1, belongs_of_mem_ports (mem_of_find?_eq_some last) meets.1⟩

end Searches

theorem knows_new (minPort maxPort : Int) : Knows (newPortManager minPort maxPort) ⟨∅, []⟩ := by
  unfold newPortManager
  split
  all_goals exact ⟨rfl, rfl, fun item mem => absurd mem not_mem_nil,
    fun port mem => absurd mem (Finset.notMem_empty port),
    fun release mem => absurd mem not_mem_nil⟩

section Steps

variable {manager : PortManager} {history : History}

section

variable (knows : Knows manager history)

include knows

theorem Knows.allocate (demand : Demand) (env : Environment) :
    Knows (manager.allocate demand env).1
      ⟨(manager.granted demand env).toFinset ∪ history.held, history.releases⟩ := by
  have granted : ∀ port ∈ manager.granted demand env,
      Belongs manager.minPort manager.maxPort port := by
    unfold granted PortManager.allocate
    cases found : manager.search demand (manager.cooling env) env with
    | none => exact fun port mem => absurd mem not_mem_nil
    | some result => exact (knows.found found).2
  have used := allocate_usedPorts manager demand env
  have fields : (manager.allocate demand env).1.minPort = manager.minPort ∧
      (manager.allocate demand env).1.maxPort = manager.maxPort ∧
      (manager.allocate demand env).1.recentlyUsed = (manager.lookedUp env).recentlyUsed := by
    unfold PortManager.allocate
    cases manager.search demand (manager.cooling env) env with
    | none => exact ⟨rfl, rfl, rfl⟩
    | some result => exact ⟨rfl, rfl, rfl⟩
  obtain ⟨lower, upper, cache⟩ := fields
  refine ⟨by rw [used, knows.used], ?_, ?_, ?_, ?_⟩
  · rw [cache]
    exact (getRecentlyFreedPorts_defaultTTL _ _ _).trans knows.ttl
  · rw [cache]
    exact fun item mem => knows.cached item ((getRecentlyFreedPorts_spec _ _ _).1 item mem)
  · rw [lower, upper]
    intro port mem
    obtain new | old := Finset.mem_union.mp mem
    · exact granted port (mem_toFinset.mp new)
    · exact knows.held port old
  · rw [lower, upper]
    exact knows.released

theorem Knows.releases_belong {now port : Int} {release : Int × Int}
    (mem : release ∈ releaseOf history.held now port ++ history.releases) :
    Belongs manager.minPort manager.maxPort release.1 := by
  obtain new | old := mem_append.mp mem
  · unfold releaseOf at new
    split at new
    next held =>
      rw [mem_singleton.mp new]
      exact knows.held port held
    next => cases new
  · exact knows.released release old

theorem Knows.free (now port : Int) :
    Knows (manager.free port)
      ⟨history.held.erase port, releaseOf history.held now port ++ history.releases⟩ := by
  have fields : (manager.free port).minPort = manager.minPort ∧
      (manager.free port).maxPort = manager.maxPort ∧
      (manager.free port).recentlyUsed = manager.recentlyUsed := by
    unfold PortManager.free
    split <;> exact ⟨rfl, rfl, rfl⟩
  obtain ⟨lower, upper, cache⟩ := fields
  refine ⟨by rw [free_usedPorts, knows.used], by rw [cache, knows.ttl], ?_, ?_, ?_⟩
  · rw [cache]
    exact fun item mem => mem_append_right _ (knows.cached item mem)
  · rw [lower, upper]
    exact fun other mem => knows.held other (Finset.mem_of_mem_erase mem)
  · rw [lower, upper]
    exact fun release mem => knows.releases_belong mem

theorem Knows.freeCached (now port : Int) :
    Knows (manager.freeCached now port)
      ⟨history.held.erase port, releaseOf history.held now port ++ history.releases⟩ := by
  have freed := knows.free now port
  unfold PortManager.freeCached
  by_cases used : port ∈ manager.usedPorts
  · rw [if_pos used]
    refine ⟨freed.used, (LRUCache.set_defaultTTL _ _ _ _).trans freed.ttl, fun item mem => ?_,
      freed.held, freed.released⟩
    obtain rfl | old := LRUCache.mem_set_items mem
    · have noted : releaseOf history.held now port = [(port, now)] :=
        if_pos (knows.used ▸ used)
      rw [noted, freed.ttl]
      simp
    · exact freed.cached item old
  · rw [if_neg used]
    have unchanged : manager.free port = manager := if_neg used
    exact unchanged ▸ freed

theorem Knows.updateStats : Knows manager.updateStats history :=
  { knows with }

theorem Knows.step (call : Call) :
    Knows (Ports.step manager call).1 (history.note manager call) := by
  cases call with
  | allocatePort env =>
    unfold History.note
    rw [step_allocatePort]
    exact knows.allocate .single env
  | allocatePortPair env =>
    unfold History.note
    rw [step_allocatePortPair]
    exact knows.allocate .pair env
  | releasePort now port =>
    have freed := knows.freeCached now port
    by_cases used : port ∈ manager.usedPorts
    · have released : (Ports.step manager (.releasePort now port)).1 =
          (manager.freeCached now port).updateStats := if_pos used
      rw [released]
      exact freed.updateStats
    · have ignored :
          (Ports.step manager (.releasePort now port)).1 = manager.freeCached now port := by
        unfold PortManager.freeCached
        rw [if_neg used]
        exact if_neg used
      rw [ignored]
      exact freed
  | releasePortPair now pair =>
    cases pair with
    | none =>
      have same : history.note manager (.releasePortPair now none) = history :=
        congrArg (History.mk · history.releases) (Finset.empty_union _)
      rw [same]
      exact knows
    | some pair =>
      have freed := ((knows.freeCached now pair.rtpPort).free now pair.rtcpPort).updateStats
      rw [← append_assoc] at freed
      exact freed
  | removeExpired now =>
    have same : history.note manager (.removeExpired now) = history :=
      congrArg (History.mk · history.releases) (Finset.empty_union _)
    rw [same]
    exact { knows with cached := fun item mem => knows.cached item (mem_filter.mp mem).1 }

end

end Steps

theorem knows_reached (minPort maxPort : Int) (calls : List Call) :
    Knows (reached minPort maxPort calls).1 (reached minPort maxPort calls).2 :=
  Transducer.run_invariant (fun state : PortManager × History => Knows state.1 state.2)
    (fun _ call knows => knows.step call) (knows_new minPort maxPort)

section Result

variable {manager : PortManager} {history : History} {env : Environment}

section

variable (knows : Knows manager history)

include knows

section

variable (even : manager.minPort % 2 = 0)

include even

theorem Knows.isFresh_iff {port : Int} :
    port ∈ manager.ports .pair ∧ manager.isFresh .pair (manager.cooling env) env port = true ↔
      FreePair (manager, history) env port ∧ port ∉ manager.cooling env := by
  have among : port ∈ manager.ports .pair ↔ manager.minPort ≤ port ∧
      port ≤ manager.maxPort - 1 ∧ (port - manager.minPort) % 2 = 0 := mem_stepPorts
  simp only [among, isFresh, Bool.and_eq_true, unused_iff, FreePair, ← knows.used,
    Demand.suits, Demand.ports, Environment.probes, all_cons, all_nil,
    decide_eq_true_eq, forall_mem_cons, Bool.and_true]
  constructor
  · rintro ⟨⟨lower, upper, -⟩, ⟨⟨suits, first, second, -⟩, cools⟩, available⟩
    exact ⟨⟨suits, lower, by omega, first, second, available⟩, cools⟩
  · rintro ⟨⟨suits, lower, upper, first, second, available⟩, cools⟩
    exact ⟨⟨lower, by omega, by omega⟩,
      ⟨⟨suits, first, second, fun _ mem => absurd mem not_mem_nil⟩, cools⟩, available⟩

theorem Knows.accepts {port : Int} (fresh : FreshPair (manager, history) env port) :
    port ∈ manager.ports .pair ∧ manager.isFresh .pair (manager.cooling env) env port = true :=
  (knows.isFresh_iff even).mpr ⟨fresh.1, fun cools => fresh.2 (knows.recent cools)⟩

theorem Knows.lowest {found : Int}
    (first : (manager.ports .pair).find? (manager.isFresh .pair (manager.cooling env) env) =
      some found) :
    (FreePair (manager, history) env found ∧ found ∉ manager.cooling env) ∧
      ∀ other, FreePair (manager, history) env other → other ∉ manager.cooling env →
        found ≤ other := by
  refine ⟨(knows.isFresh_iff even).mp ⟨mem_of_find?_eq_some first, find?_some first⟩, ?_⟩
  intro other free cools
  obtain ⟨mem, meets⟩ := (knows.isFresh_iff even).mpr ⟨free, cools⟩
  exact find?_le (stepPorts_ascending _ _) first mem meets

end

theorem Knows.served_iff_found :
    Served (manager, history) env ↔ ∃ port reused,
      manager.search .pair (manager.cooling env) env = some (port, reused) ∧
        ((∃ port, FreshPair (manager, history) env port) → ¬history.Recent env.now port) := by
  unfold Served allocatePortPair PortManager.allocate
  cases found : manager.search .pair (manager.cooling env) env with
  | none =>
    refine iff_of_false ?_ ?_
    · rintro ⟨after, pair, result, -⟩
      cases (Prod.mk.inj result).2
    · rintro ⟨port, reused, absent, -⟩
      cases absent
  | some result =>
    obtain ⟨port, reused⟩ := result
    obtain ⟨suits, belongs⟩ := knows.found found
    constructor
    · rintro ⟨after, pair, result, -, -, -, -, prefers⟩
      have same : pair = ⟨port, port + 1⟩ := (Except.ok.inj (Prod.mk.inj result).2).symm
      rw [same] at prefers
      exact ⟨port, reused, rfl, prefers⟩
    · rintro ⟨other, again, same, prefers⟩
      obtain ⟨rfl, -⟩ := Prod.mk.inj (Option.some.inj same)
      exact ⟨_, ⟨port, port + 1⟩, rfl, of_decide_eq_true suits, rfl, (belongs port (.head _)).1,
        (belongs (port + 1) (.tail _ (.head _))).2.1, prefers⟩

theorem Knows.preferred {found : Int} {reused : Bool}
    (search : manager.search .pair (manager.cooling env) env = some (found, reused))
    (prefers : (∃ port, FreshPair (manager, history) env port) → ¬history.Recent env.now found) :
    manager.minPort % 2 = 0 ∧
      ((∃ port, FreshPair (manager, history) env port) →
        ∃ port, FreshPair (manager, history) env port ∧
          ∀ other, ForgottenPair (manager, history) env other → port < other) := by
  obtain ⟨suits, belongs⟩ := knows.found search
  have suitsEven : found % 2 = 0 := of_decide_eq_true suits
  have parity := (belongs found (.head _)).2.2
  have evenRange : manager.minPort % 2 = 0 := by omega
  refine ⟨evenRange, fun some => ?_⟩
  obtain ⟨fresh, isFresh⟩ := id some
  have candidate := knows.accepts evenRange isFresh
  have outcome : Search .pair manager (manager.cooling env) env
      (manager.search .pair (manager.cooling env) env) := search_outcome
  rw [search] at outcome
  cases outcome with
  | fresh first =>
    obtain ⟨free, least⟩ := knows.lowest evenRange first
    refine ⟨found, ⟨free.1, prefers some⟩, fun other forgotten => ?_⟩
    have below := least other forgotten.1 forgotten.2.2
    have differs : found ≠ other := fun same => prefers some (same ▸ forgotten.2.1)
    omega
  | cooling mem meets notFresh => exact absurd ⟨fresh, candidate⟩ notFresh
  | lastResort last notFresh notCooling => exact absurd ⟨fresh, candidate⟩ notFresh

theorem Knows.finds {port : Int} (even : port % 2 = 0) (lower : manager.minPort ≤ port)
    (upper : port + 1 ≤ manager.maxPort)
    (available : ∀ pass, env.available pass port ∧ env.available pass (port + 1))
    (evenRange : manager.minPort % 2 = 0)
    (preferred : (∃ port, FreshPair (manager, history) env port) →
      ∃ port, FreshPair (manager, history) env port ∧
        ∀ other, ForgottenPair (manager, history) env other → port < other) :
    ∃ port reused, manager.search .pair (manager.cooling env) env = some (port, reused) ∧
      ((∃ port, FreshPair (manager, history) env port) → ¬history.Recent env.now port) := by
  have outcome : Search .pair manager (manager.cooling env) env
      (manager.search .pair (manager.cooling env) env) := search_outcome
  -- a fresh pair keeps the search from going on to the later passes
  have someFresh : (∃ port, FreshPair (manager, history) env port) →
      manager.SomeFresh .pair (manager.cooling env) env := fun ⟨fresh, isFresh⟩ =>
    ⟨fresh, knows.accepts evenRange isFresh⟩
  generalize manager.search .pair (manager.cooling env) env = result at outcome
  cases outcome with
  | @fresh found first =>
    refine ⟨found, false, rfl, fun some recent => ?_⟩
    obtain ⟨fresh, isFresh, below⟩ := preferred some
    obtain ⟨free, least⟩ := knows.lowest evenRange first
    have before := least fresh isFresh.1 fun cools => isFresh.2 (knows.recent cools)
    have after := below found ⟨free.1, recent, free.2⟩
    omega
  | @cooling found mem meets notFresh =>
    exact ⟨found, true, rfl, fun some => absurd (someFresh some) notFresh⟩
  | @lastResort found last notFresh notCooling =>
    exact ⟨found, false, rfl, fun some => absurd (someFresh some) notFresh⟩
  | nothing unavailable notFresh notCooling =>
    have mem : port ∈ manager.ports .pair :=
      mem_stepPorts.mpr ⟨lower, show port ≤ manager.maxPort - 1 by omega, by omega⟩
    have refused := unavailable port mem
    simp [isLastResort, Demand.suits, even, Environment.probes, Demand.ports, available]
      at refused

end

end Result

/-- For every range and after any calls, if some even port and the next one in the range probe as
available, a pair is served as it should if and only if the lower bound is even and no pair whose
release has been forgotten lies below the lowest fresh one. -/
theorem pair_served_iff (minPort maxPort : Int) (calls : List Call) (env : Environment) {port : Int}
    (even : port % 2 = 0) (lower : (reached minPort maxPort calls).1.minPort ≤ port)
    (upper : port + 1 ≤ (reached minPort maxPort calls).1.maxPort)
    (available : ∀ pass, env.available pass port ∧ env.available pass (port + 1)) :
    Served (reached minPort maxPort calls) env ↔
      (reached minPort maxPort calls).1.minPort % 2 = 0 ∧
        ((∃ port, FreshPair (reached minPort maxPort calls) env port) →
          ∃ port, FreshPair (reached minPort maxPort calls) env port ∧
            ∀ other, ForgottenPair (reached minPort maxPort calls) env other → port < other) := by
  have knows := knows_reached minPort maxPort calls
  rw [knows.served_iff_found]
  constructor
  · rintro ⟨found, reused, search, prefers⟩
    exact knows.preferred search prefers
  · rintro ⟨evenRange, preferred⟩
    exact knows.finds even lower upper available evenRange preferred

/-- One of two pairs was released more than the cooldown ago. -/
theorem released_pair_served :
    let calls : List Call := [.allocatePortPair unbound, .allocatePortPair unbound,
      .releasePortPair 0 (some ⟨2, 3⟩)]
    Served (reached 2 5 calls) { unbound with now := cooldown + 1 } := by
  intro calls
  have releases : (reached 2 5 calls).2.releases = [(3, 0), (2, 0)] := by decide
  have cooled (port : Int) : ¬(reached 2 5 calls).2.Recent (cooldown + 1) port := by
    rintro ⟨time, release, recent⟩
    simp only [releases, mem_cons, Prod.mk.injEq, not_mem_nil, or_false] at release
    omega
  refine (pair_served_iff 2 5 calls _ (show (2 : Int) % 2 = 0 by decide) (by decide) (by decide)
    fun _ => ⟨rfl, rfl⟩).mpr ⟨by decide, fun _ => ⟨2, ⟨?_, cooled 2⟩, ?_⟩⟩
  · exact ⟨by decide, by decide, by decide, by decide, by decide, by decide, by decide⟩
  · exact fun other forgotten => absurd forgotten.2.1 (cooled other)

def pairReleased : List Call := [.allocatePortPair unbound, .releasePortPair 0 (some ⟨2, 3⟩)]

/-- A range with an odd lower bound has no pairs; in a small range releases are forgotten at once,
and the pair released last is handed out although another one is fresh. -/
theorem pairs_missed :
    (((reached 1 4 []).1.allocatePortPair unbound).2.toOption = none ∧
      ¬Served (reached 1 4 []) unbound) ∧
    ((reached 2 5 pairReleased).1.allocatePortPair unbound).2.toOption = some ⟨2, 3⟩ ∧
      FreshPair (reached 2 5 pairReleased) unbound 4 ∧
      ¬Served (reached 2 5 pairReleased) unbound := by
  have failed : ((reached 1 4 []).1.allocatePortPair unbound).2.toOption = none := by
    decide +kernel
  have again : ((reached 2 5 pairReleased).1.allocatePortPair unbound).2.toOption =
      some ⟨2, 3⟩ := by decide +kernel
  have released : (reached 2 5 pairReleased).2.releases = [(3, 0), (2, 0)] := by decide +kernel
  have fresh : FreshPair (reached 2 5 pairReleased) unbound 4 := by
    refine ⟨⟨by decide, by decide +kernel, by decide +kernel, by decide +kernel,
      by decide +kernel, rfl, rfl⟩, ?_⟩
    rintro ⟨time, release, -⟩
    rw [released] at release
    simp at release
  refine ⟨⟨failed, ?_⟩, again, fresh, ?_⟩
  · rintro ⟨after, pair, result, -⟩
    rw [result] at failed
    cases failed
  · rintro ⟨after, pair, result, -, -, -, -, prefers⟩
    rw [result] at again
    have taken : pair.rtpPort = 2 := congrArg PortPair.rtpPort (Option.some.inj again)
    refine prefers ⟨4, fresh⟩ ⟨0, ?_, by decide⟩
    rw [released, taken]
    decide

end SiprecServer.Media.Ports
