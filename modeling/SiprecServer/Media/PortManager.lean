import Mathlib.Data.Finset.Card
import SiprecServer.Lib.Transducer
import SiprecServer.Util.LruCache

/-!
# The port manager

Ports are searched in three passes: those that are free and have not been released lately,
those that have (the cooldown set, which the LRU cache of released ports gives), and as a
last resort all of them, free or not.  Whether a port is available is asked anew in every
pass; the answers, the clock and the orders in which maps are gone through are the
environment of a call.
-/

namespace SiprecServer.Media.Ports

open Lib Util List

structure PortPair where
  rtpPort : Int
  rtcpPort : Int
deriving DecidableEq

structure PortManagerStats where
  totalPorts : Int
  usedPorts : Int := 0
  availablePorts : Int := 0
  allocationCount : Int := 0
  deallocationCount : Int := 0
  reuseHits : Int := 0
deriving DecidableEq

structure PortManager where
  minPort : Int
  maxPort : Int
  usedPorts : Finset Int
  recentlyUsed : LRUCache String Int
  stats : PortManagerStats
  range : 0 < minPort ∧ minPort < maxPort

def cooldown : Int := 300000000000

/-- A manager of a range; a quarter of its even ports fit into the cache. -/
def PortManager.ofRange (minPort maxPort : Int) (range : 0 < minPort ∧ minPort < maxPort) :
    PortManager :=
  let totalPorts := (maxPort - minPort + 1) / 2
  { minPort, maxPort, range
    usedPorts := ∅
    recentlyUsed := .new (totalPorts / 4).toNat cooldown
    stats := { totalPorts } }

def newPortManager (minPort maxPort : Int) : PortManager :=
  if valid : 0 < minPort ∧ minPort < maxPort then .ofRange minPort maxPort valid
  else .ofRange 10000 20000 (by decide)

inductive Pass where
  | fresh
  | cooling
  | lastResort
deriving DecidableEq

/-- What a call meets: the clock, the answers of the probe, and the orders of map iterations. -/
structure Environment where
  now : Int
  available : Pass → Int → Bool
  keyOrder : List String → List String
  portOrder : List Int → List Int
  keyOrder_perm : ∀ keys, (keyOrder keys).Perm keys
  portOrder_perm : ∀ ports, (portOrder ports).Perm ports

def portKey (port : Int) : String := "port_" ++ toString port

def getRecentlyFreedPorts (now : Int) :
    List String → LRUCache String Int → List Int × LRUCache String Int
  | [], cache => ([], cache)
  | key :: keys, cache =>
    let (cached, cache) := cache.get now key
    let (ports, cache) := getRecentlyFreedPorts now keys cache
    (cached.toList ++ ports, cache)

def buildCooldownSet (cache : LRUCache String Int) (env : Environment) :
    List Int × LRUCache String Int :=
  let (ports, cache) := getRecentlyFreedPorts env.now (env.keyOrder cache.keys) cache
  (ports.dedup, cache)

inductive Demand where
  | single
  | pair
deriving DecidableEq

namespace Demand

def ports : Demand → Int → List Int
  | .single, port => [port]
  | .pair, port => [port, port + 1]

def suits : Demand → Int → Bool
  | .single, _ => true
  | .pair, port => port % 2 = 0

def last : Demand → Int → Int
  | .single, maxPort => maxPort
  | .pair, maxPort => maxPort - 1

/-- The loop over the cooldown set checks the range for pairs only. -/
def fits : Demand → Int → Int → Bool
  | .single, _, _ => true
  | .pair, maxPort, port => port + 1 ≤ maxPort

end Demand

def stepPorts (first last : Int) : List Int :=
  (List.range ((last - first) / 2 + 1).toNat).map fun step : Nat => first + 2 * (step : Int)

section Search

variable (demand : Demand) (manager : PortManager) (cooling : List Int) (env : Environment)

def PortManager.ports : List Int := stepPorts manager.minPort (demand.last manager.maxPort)

def PortManager.unused (port : Int) : Bool := (demand.ports port).all (· ∉ manager.usedPorts)

def Environment.probes (pass : Pass) (port : Int) : Bool :=
  (demand.ports port).all (env.available pass)

def PortManager.isFresh (port : Int) : Bool :=
  demand.suits port && manager.unused demand port && port ∉ cooling && env.probes demand .fresh port

def PortManager.isCooling (port : Int) : Bool :=
  demand.suits port && demand.fits manager.maxPort port && manager.unused demand port &&
    env.probes demand .cooling port

/-- The condition of the last pass: what is in use is not looked at. -/
def isLastResort (port : Int) : Bool := demand.suits port && env.probes demand .lastResort port

def PortManager.search : Option (Int × Bool) :=
  (((manager.ports demand).find? (manager.isFresh demand cooling env)).map (·, false)).or
    ((((env.portOrder cooling).find? (manager.isCooling demand env)).map (·, true)).or
      (((manager.ports demand).find? (isLastResort demand env)).map (·, false)))

end Search

/-! ## The operations -/

section

variable (manager : PortManager)

def PortManager.updateStats : PortManager :=
  { manager with
    stats := { manager.stats with
      usedPorts := manager.usedPorts.card
      availablePorts := manager.stats.totalPorts - manager.usedPorts.card } }

def PortManager.handOut (ports : List Int) (reused : Bool) : PortManager :=
  { manager with
    usedPorts := ports.toFinset ∪ manager.usedPorts
    stats := { manager.stats with
      allocationCount := manager.stats.allocationCount + ports.length
      reuseHits := manager.stats.reuseHits + if reused then 1 else 0 } }.updateStats

def PortManager.cooling (env : Environment) : List Int :=
  (buildCooldownSet manager.recentlyUsed env).1

def PortManager.lookedUp (env : Environment) : PortManager :=
  { manager with recentlyUsed := (buildCooldownSet manager.recentlyUsed env).2 }

def PortManager.allocate (demand : Demand) (env : Environment) : PortManager × Option Int :=
  match manager.search demand (manager.cooling env) env with
  | some (port, reused) =>
    ((manager.lookedUp env).handOut (demand.ports port) reused, some port)
  | none => (manager.lookedUp env, none)

def PortManager.allocatePort (env : Environment) : PortManager × Except String Int :=
  match manager.allocate .single env with
  | (manager, some port) => (manager, .ok port)
  | (manager, none) =>
    (manager, .error ("no free ports available in range " ++ toString manager.minPort ++ "-" ++
      toString manager.maxPort))

def PortManager.allocatePortPair (env : Environment) : PortManager × Except String PortPair :=
  match manager.allocate .pair env with
  | (manager, some port) => (manager, .ok ⟨port, port + 1⟩)
  | (manager, none) =>
    (manager, .error ("no free RTP/RTCP port pairs available in range " ++
      toString manager.minPort ++ "-" ++ toString manager.maxPort))

def PortManager.free (port : Int) : PortManager :=
  if port ∈ manager.usedPorts then
    { manager with
      usedPorts := manager.usedPorts.erase port
      stats := { manager.stats with deallocationCount := manager.stats.deallocationCount + 1 } }
  else manager

def PortManager.freeCached (now port : Int) : PortManager :=
  if port ∈ manager.usedPorts then
    let manager := manager.free port
    { manager with recentlyUsed := manager.recentlyUsed.set now (portKey port) port }
  else manager

def PortManager.releasePort (now port : Int) : PortManager :=
  if port ∈ manager.usedPorts then (manager.freeCached now port).updateStats else manager

/-- The RTCP port of a pair is not noted as released. -/
def PortManager.releasePortPair (now : Int) (pair : Option PortPair) : PortManager :=
  match pair with
  | none => manager
  | some pair => ((manager.freeCached now pair.rtpPort).free pair.rtcpPort).updateStats

end

inductive Call where
  | allocatePort (env : Environment)
  | allocatePortPair (env : Environment)
  | releasePort (now port : Int)
  | releasePortPair (now : Int) (pair : Option PortPair)
  -- the tick of the cache's cleanup
  | removeExpired (now : Int)

def step (manager : PortManager) : Call → PortManager × List Int
  | .allocatePort env =>
    match manager.allocatePort env with
    | (manager, .ok port) => (manager, [port])
    | (manager, .error _) => (manager, [])
  | .allocatePortPair env =>
    match manager.allocatePortPair env with
    | (manager, .ok pair) => (manager, [pair.rtpPort, pair.rtcpPort])
    | (manager, .error _) => (manager, [])
  | .releasePort now port => (manager.releasePort now port, [])
  | .releasePortPair now pair => (manager.releasePortPair now pair, [])
  | .removeExpired now =>
    ({ manager with recentlyUsed := manager.recentlyUsed.removeExpired now }, [])

theorem mem_stepPorts {first last port : Int} :
    port ∈ stepPorts first last ↔ first ≤ port ∧ port ≤ last ∧ (port - first) % 2 = 0 := by
  simp only [stepPorts, mem_map, mem_range]
  constructor
  · rintro ⟨step, inside, rfl⟩
    omega
  · rintro ⟨above, below, even⟩
    exact ⟨((port - first) / 2).toNat, by omega, by omega⟩

theorem stepPorts_ascending (first last : Int) : (stepPorts first last).Pairwise (· < ·) := by
  refine List.Pairwise.map _ (fun a b before => ?_) pairwise_lt_range
  omega

theorem find?_le {ports : List Int} (ascending : ports.Pairwise (· < ·)) {condition : Int → Bool}
    {found port : Int} (first : ports.find? condition = some found) (mem : port ∈ ports)
    (meets : condition port = true) : found ≤ port := by
  obtain ⟨-, before, after, rfl, unmet⟩ := find?_eq_some_iff_append.mp first
  obtain earlier | later := mem_append.mp mem
  · have fails := unmet port earlier
    simp [meets] at fails
  · obtain rfl | behind := mem_cons.mp later
    · exact Int.le_refl _
    · have tail := (pairwise_append.mp ascending).2.1
      exact Int.le_of_lt (rel_of_pairwise_cons tail behind)

section

variable (now : Int) (keys : List String) (cache : LRUCache String Int)

theorem getRecentlyFreedPorts_spec :
    (∀ item ∈ (getRecentlyFreedPorts now keys cache).2.items, item ∈ cache.items) ∧
    ∀ port, port ∈ (getRecentlyFreedPorts now keys cache).1 ↔
      ∃ item ∈ cache.items, item.key ∈ keys ∧ item.value = port ∧ now ≤ item.expiration := by
  induction keys generalizing cache with
  | nil => exact ⟨fun item mem => mem, fun port => by simp [getRecentlyFreedPorts]⟩
  | cons key keys ih =>
    obtain ⟨kept, found⟩ := ih (cache.get now key).2
    refine ⟨fun item mem => (LRUCache.mem_get_items.mp (kept item mem)).1, fun port => ?_⟩
    have listed : port ∈ (getRecentlyFreedPorts now (key :: keys) cache).1 ↔
        (cache.get now key).1 = some port ∨
          port ∈ (getRecentlyFreedPorts now keys (cache.get now key).2).1 := by
      simp [getRecentlyFreedPorts]
    rw [listed, LRUCache.get_eq_some_iff, found]
    constructor
    · rintro (⟨item, inside, same, is, live⟩ | ⟨item, inside, later, is, live⟩)
      · exact ⟨item, inside, same ▸ .head _, is, live⟩
      · exact ⟨item, (LRUCache.mem_get_items.mp inside).1, .tail _ later, is, live⟩
    · rintro ⟨item, inside, among, is, live⟩
      obtain same | later := mem_cons.mp among
      · exact .inl ⟨item, inside, same, is, live⟩
      · refine .inr ⟨item, LRUCache.mem_get_items.mpr ⟨inside, fun gone => ?_⟩, later, is, live⟩
        exact absurd gone.2 (Int.not_lt.mpr live)

theorem getRecentlyFreedPorts_defaultTTL :
    (getRecentlyFreedPorts now keys cache).2.defaultTTL = cache.defaultTTL := by
  induction keys generalizing cache with
  | nil => rfl
  | cons key keys ih => exact (ih _).trans (LRUCache.get_defaultTTL cache now key)

end

theorem mem_cooling {manager : PortManager} {env : Environment} {port : Int} :
    port ∈ manager.cooling env ↔
      ∃ item ∈ manager.recentlyUsed.items, item.value = port ∧ env.now ≤ item.expiration := by
  have spec := (getRecentlyFreedPorts_spec env.now (env.keyOrder manager.recentlyUsed.keys)
    manager.recentlyUsed).2 port
  have all {item : CacheItem String Int} (inside : item ∈ manager.recentlyUsed.items) :
      item.key ∈ env.keyOrder manager.recentlyUsed.keys :=
    (env.keyOrder_perm _).mem_iff.mpr (mem_map_of_mem inside)
  simp only [PortManager.cooling, buildCooldownSet, mem_dedup, spec]
  exact ⟨fun ⟨item, inside, _, rest⟩ => ⟨item, inside, rest⟩,
    fun ⟨item, inside, rest⟩ => ⟨item, inside, all inside, rest⟩⟩

section Outcome

variable {demand : Demand} {manager : PortManager} {cooling : List Int} {env : Environment}

def PortManager.SomeFresh (manager : PortManager) (demand : Demand) (cooling : List Int)
    (env : Environment) : Prop :=
  ∃ port ∈ manager.ports demand, manager.isFresh demand cooling env port

def PortManager.SomeCooling (manager : PortManager) (demand : Demand) (cooling : List Int)
    (env : Environment) : Prop :=
  ∃ port ∈ cooling, manager.isCooling demand env port

inductive Search (demand : Demand) (manager : PortManager) (cooling : List Int)
    (env : Environment) : Option (Int × Bool) → Prop where
  | fresh {port : Int}
      (found : (manager.ports demand).find? (manager.isFresh demand cooling env) = some port) :
      Search demand manager cooling env (some (port, false))
  | cooling {port : Int} (member : port ∈ cooling) (suits : manager.isCooling demand env port)
      (notFresh : ¬manager.SomeFresh demand cooling env) :
      Search demand manager cooling env (some (port, true))
  | lastResort {port : Int}
      (found : (manager.ports demand).find? (isLastResort demand env) = some port)
      (notFresh : ¬manager.SomeFresh demand cooling env)
      (notCooling : ¬manager.SomeCooling demand cooling env) :
      Search demand manager cooling env (some (port, false))
  | nothing (unavailable : ∀ port ∈ manager.ports demand, isLastResort demand env port = false)
      (notFresh : ¬manager.SomeFresh demand cooling env)
      (notCooling : ¬manager.SomeCooling demand cooling env) :
      Search demand manager cooling env none

theorem search_outcome : Search demand manager cooling env (manager.search demand cooling env) := by
  unfold PortManager.search
  cases fresh : (manager.ports demand).find? (manager.isFresh demand cooling env) with
  | some port => exact .fresh fresh
  | none =>
    have notFresh : ¬manager.SomeFresh demand cooling env := fun ⟨port, mem, meets⟩ =>
      find?_eq_none.mp fresh port mem meets
    cases second : (env.portOrder cooling).find? (manager.isCooling demand env) with
    | some port =>
      have mem := (env.portOrder_perm cooling).mem_iff.mp (mem_of_find?_eq_some second)
      exact .cooling mem (find?_some second) notFresh
    | none =>
      have notCooling : ¬manager.SomeCooling demand cooling env := fun ⟨port, mem, meets⟩ =>
        find?_eq_none.mp second port ((env.portOrder_perm cooling).mem_iff.mpr mem) meets
      cases last : (manager.ports demand).find? (isLastResort demand env) with
      | some port => exact .lastResort last notFresh notCooling
      | none =>
        refine .nothing (fun port mem => ?_) notFresh notCooling
        simpa using find?_eq_none.mp last port mem

end Outcome

end SiprecServer.Media.Ports
