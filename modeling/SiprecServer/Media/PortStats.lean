import SiprecServer.Media.PortsHeld

/-!
# The statistics of the port manager

The total counts pairs and the ports in use are counted one by one, so that a pair in use takes
two from what is reported as available.  A port that is handed out twice counts twice.
-/

namespace SiprecServer.Media.Ports

open Lib.Transducer List
open PortManager

variable (manager : PortManager)

def PortManager.getStats : PortManagerStats :=
  { manager.stats with
    usedPorts := manager.usedPorts.card
    availablePorts := manager.stats.totalPorts - manager.usedPorts.card }

def PortManager.pairs : Finset Int :=
  (manager.ports .pair).toFinset.filter fun port => Demand.pair.suits port

/-- The pairs that a search can find without taking a held port. -/
def PortManager.freePairs : Finset Int := manager.pairs.filter fun port => manager.unused .pair port

def PortManager.Accounted : Prop :=
  let stats := manager.getStats
  stats.allocationCount - stats.deallocationCount = manager.usedPorts.card ∧
    0 ≤ stats.availablePorts ∧ stats.availablePorts ≤ stats.totalPorts ∧
    stats.availablePorts = manager.freePairs.card

/-- The even port of a pair. -/
def pairOf (port : Int) : Int := port - port % 2

def PortManager.heldPairs : Finset Int := manager.usedPorts.image pairOf

/-- The held ports are of different pairs in the range; if that begins with an odd port and so has
no pairs, as many ports are held as are counted. -/
def PortManager.HeldSingly : Prop :=
  if manager.minPort % 2 = 0 then
    Set.InjOn pairOf manager.usedPorts ∧ manager.heldPairs ⊆ manager.pairs
  else manager.usedPorts.card = manager.stats.totalPorts

/-- How many ports have been handed out while they were held, and an error in the total. -/
def PortManager.ledger : Int × Int :=
  (manager.stats.allocationCount - manager.stats.deallocationCount - manager.usedPorts.card,
    manager.stats.totalPorts - (manager.maxPort - manager.minPort + 1) / 2)

theorem free_ledger (port : Int) : (manager.free port).ledger = manager.ledger := by
  unfold free
  split
  case isTrue used =>
    have card := Finset.card_erase_add_one used
    refine Prod.ext ?_ rfl
    simp only [ledger]
    omega
  case isFalse => rfl

theorem freeCached_ledger (now port : Int) :
    (manager.freeCached now port).ledger = manager.ledger := by
  unfold freeCached
  split
  · exact free_ledger manager port
  · rfl

theorem allocate_ledger (demand : Demand) (env : Environment) :
    (manager.allocate demand env).1.ledger = (manager.ledger.1 +
      ((manager.granted demand env).toFinset ∩ manager.usedPorts).card, manager.ledger.2) := by
  have distinct : (manager.granted demand env).Nodup := by
    unfold granted
    cases (manager.allocate demand env).2 <;> cases demand <;>
      grind [Demand.ports]
  have counted : (manager.allocate demand env).1.ledger = (manager.stats.allocationCount +
      (manager.granted demand env).length - manager.stats.deallocationCount -
        (manager.allocate demand env).1.usedPorts.card, manager.ledger.2) := by
    unfold granted allocate
    cases manager.search demand (manager.cooling env) env with
    | none => simp [ledger, lookedUp]
    | some found => rfl
  have both := Finset.card_union_add_card_inter (manager.granted demand env).toFinset
    manager.usedPorts
  rw [toFinset_card_of_nodup distinct, ← allocate_usedPorts] at both
  rw [counted, Prod.mk.injEq, ledger]
  omega

theorem step_ledger (call : Call) : (step manager call).1.ledger =
    (manager.ledger.1 + ((step manager call).2.toFinset ∩ manager.usedPorts).card,
      manager.ledger.2) := by
  have nothing : manager.ledger = (manager.ledger.1 +
      ((([] : List Int).toFinset ∩ manager.usedPorts).card : Int), manager.ledger.2) := by
    simp
  cases call with
  | allocatePort env =>
    rw [step_allocatePort]
    exact allocate_ledger manager .single env
  | allocatePortPair env =>
    rw [step_allocatePortPair]
    exact allocate_ledger manager .pair env
  | releasePort now port =>
    refine Eq.trans ?_ nothing
    simp only [step, releasePort]
    split
    · exact freeCached_ledger manager now port
    · rfl
  | releasePortPair now pair =>
    cases pair with
    | none => exact nothing
    | some pair =>
      have cached := freeCached_ledger manager now pair.rtpPort
      exact ((free_ledger _ pair.rtcpPort).trans cached).trans nothing
  | removeExpired now => exact nothing

/-- Nothing is counted twice exactly if no held port is ever handed out. -/
theorem run_ledger (calls : List Call) :
    (run step manager calls).1.ledger.2 = manager.ledger.2 ∧
      manager.ledger.1 ≤ (run step manager calls).1.ledger.1 ∧
      ((run step manager calls).1.ledger.1 = manager.ledger.1 ↔
        Along step (fun manager call => call.Spares manager) manager calls) := by
  induction calls generalizing manager with
  | nil => exact ⟨rfl, Int.le_refl _, iff_of_true rfl True.intro⟩
  | cons call calls ih =>
    have spares : ((step manager call).2.toFinset ∩ manager.usedPorts).card = 0 ↔
        call.Spares manager := by
      rw [← step_spares_iff, Finset.card_eq_zero, ← Finset.disjoint_iff_inter_eq_empty,
        Finset.disjoint_left]
      simp
    obtain ⟨total, grows, none_⟩ := ih (step manager call).1
    rw [step_ledger] at total grows none_
    rw [run_cons_state, Along, ← none_, ← spares]
    refine ⟨total, ?_⟩
    omega

theorem freePairs_eq : manager.freePairs = manager.pairs \ manager.heldPairs := by
  ext port
  simp only [freePairs, heldPairs, Finset.mem_filter, Finset.mem_sdiff, Finset.mem_image,
    unused_iff, pairOf]
  refine and_congr_right fun mem => ⟨?_, ?_⟩
  · rintro unused ⟨held, used, rfl⟩
    obtain even | odd : held % 2 = 0 ∨ held % 2 = 1 := by omega
    · exact unused held (by simp [Demand.ports, even]) used
    · exact unused held (by simp [Demand.ports, odd]) used
  · have even : port % 2 = 0 := of_decide_eq_true (Finset.mem_filter.mp mem).2
    intro apart taken among used
    refine apart ⟨taken, used, ?_⟩
    simp only [Demand.ports, mem_cons, not_mem_nil, or_false] at among
    omega

open Finset

theorem card_pairs : manager.pairs.card =
    if manager.minPort % 2 = 0 then (manager.maxPort - manager.minPort + 1) / 2 else 0 := by
  have among {port : Int} (mem : port ∈ (manager.ports .pair).toFinset) :=
    mem_stepPorts.mp (mem_toFinset.mp mem)
  by_cases even : manager.minPort % 2 = 0
  · have all : manager.pairs = (manager.ports .pair).toFinset := by
      refine filter_true_of_mem fun port mem => decide_eq_true ?_
      have steps := among mem
      omega
    have distinct := (stepPorts_ascending manager.minPort (manager.maxPort - 1)).nodup
    have range := manager.range
    rw [if_pos even, all, ports, Demand.last, toFinset_card_of_nodup distinct, stepPorts,
      length_map, length_range]
    omega
  · have none_ : manager.pairs = ∅ := by
      refine filter_false_of_mem fun port mem suits => ?_
      have steps := among mem
      have isEven : port % 2 = 0 := of_decide_eq_true suits
      omega
    rw [if_neg even, none_]
    rfl

theorem heldSingly_iff (sized : manager.ledger.2 = 0) :
    manager.stats.totalPorts - manager.usedPorts.card = manager.freePairs.card ↔
      manager.HeldSingly := by
  have total := card_pairs manager
  have parts := card_sdiff_add_card_inter manager.pairs manager.heldPairs
  have image : manager.heldPairs.card ≤ _ := card_image_le
  have inner : (manager.pairs ∩ manager.heldPairs).card ≤ _ :=
    card_le_card inter_subset_right
  rw [freePairs_eq]
  unfold ledger at sized
  unfold HeldSingly
  split
  case isTrue even =>
    rw [if_pos even] at total
    have same : manager.pairs ∩ manager.heldPairs = manager.heldPairs ↔
        manager.heldPairs.card ≤ (manager.pairs ∩ manager.heldPairs).card :=
      ⟨fun same => (congrArg card same).ge,
        eq_of_subset_of_card_le inter_subset_right⟩
    rw [← card_image_iff, ← inter_eq_right, same, ← heldPairs]
    omega
  case isFalse odd =>
    rw [if_neg odd] at total
    omega

/-- The statistics are right after some calls exactly if none of them has handed out a held port,
and the ports that are held now are of different pairs. -/
theorem accounted_iff (minPort maxPort : Int) (calls : List Call) :
    (run step (newPortManager minPort maxPort) calls).1.Accounted ↔
      Along step (fun manager call => call.Spares manager) (newPortManager minPort maxPort)
        calls ∧
      (run step (newPortManager minPort maxPort) calls).1.HeldSingly := by
  have fresh : (newPortManager minPort maxPort).ledger = (0, 0) := by
    unfold newPortManager
    split <;> simp [ledger, ofRange]
  obtain ⟨sized, -, counted⟩ := run_ledger (newPortManager minPort maxPort) calls
  rw [fresh] at sized counted
  rw [← counted, ← heldSingly_iff _ sized]
  simp only [Accounted, getStats, ledger]
  omega

/-- One of two pairs is held, and the other is not said to be available. -/
theorem pair_counts_twice : ¬(run step (newPortManager 10000 10003)
    [.allocatePortPair unbound]).1.Accounted := by
  intro accounted
  exact absurd accounted.2.2.2 (by decide +kernel)

end SiprecServer.Media.Ports
