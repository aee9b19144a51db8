import SiprecServer.Media.PortManager

/-!
# Ports that are handed out twice

A port is held from the call that hands it out to the call that releases it.  The first two
passes of a search leave held ports alone; the last one does not look at them, so that a
port is handed out again as soon as nothing free is left that the probe finds available.
-/

namespace SiprecServer.Media.Ports

open Lib PortManager List

def heldAfter (held : Finset Int) (granted : List Int) : Call → Finset Int
  | .releasePort _ port => held.erase port
  | .releasePortPair _ (some pair) => (held.erase pair.rtpPort).erase pair.rtcpPort
  | _ => granted.toFinset ∪ held

section

variable (manager : PortManager)

def Exclusive (calls : List Call) : Prop :=
  Transducer.Along
    (Transducer.tracked step fun manager held call => heldAfter held (step manager call).2 call)
    (fun state call => ∀ port ∈ (step state.1 call).2, port ∉ state.2) (manager, ∅) calls

/-- The search ends in one of the first two passes, or on ports that nobody holds. -/
def PortManager.Spares (demand : Demand) (env : Environment) : Prop :=
  manager.SomeFresh demand (manager.cooling env) env ∨
    manager.SomeCooling demand (manager.cooling env) env ∨
    ∀ port, (manager.ports demand).find? (isLastResort demand env) = some port →
      manager.unused demand port

def Call.Spares : Call → Prop
  | .allocatePort env => manager.Spares .single env
  | .allocatePortPair env => manager.Spares .pair env
  | _ => True

def PortManager.granted (demand : Demand) (env : Environment) : List Int :=
  ((manager.allocate demand env).2.map demand.ports).getD []

end

variable (manager : PortManager)

theorem step_allocatePort (env : Environment) :
    step manager (.allocatePort env) =
      ((manager.allocate .single env).1, manager.granted .single env) := by
  simp only [step, allocatePort, granted]
  generalize manager.allocate .single env = result
  obtain ⟨after, _ | port⟩ := result <;> rfl

section

variable (demand : Demand) (env : Environment) (call : Call)

theorem step_allocatePortPair :
    step manager (.allocatePortPair env) =
      ((manager.allocate .pair env).1, manager.granted .pair env) := by
  simp only [step, allocatePortPair, granted]
  generalize manager.allocate .pair env = result
  obtain ⟨after, _ | port⟩ := result <;> rfl

theorem unused_iff {manager : PortManager} {demand : Demand} {port : Int} :
    manager.unused demand port = true ↔ ∀ taken ∈ demand.ports port, taken ∉ manager.usedPorts := by
  simp [unused]

theorem allocate_usedPorts :
    (manager.allocate demand env).1.usedPorts =
      (manager.granted demand env).toFinset ∪ manager.usedPorts := by
  unfold granted allocate
  cases manager.search demand (manager.cooling env) env with
  | none => exact (Finset.empty_union _).symm
  | some found => rfl

theorem granted_unused_iff :
    (∀ port ∈ manager.granted demand env, port ∉ manager.usedPorts) ↔
      manager.Spares demand env := by
  have found : manager.granted demand env =
      ((manager.search demand (manager.cooling env) env).map fun result =>
        demand.ports result.1).getD [] := by
    unfold granted allocate
    cases manager.search demand (manager.cooling env) env <;> rfl
  rw [found]
  have outcome : Search demand manager (manager.cooling env) env
      (manager.search demand (manager.cooling env) env) := search_outcome
  generalize manager.search demand (manager.cooling env) env = result at outcome
  cases outcome with
  | @fresh port first =>
    have meets : manager.isFresh demand (manager.cooling env) env port := find?_some first
    refine iff_of_true ?_ (.inl ⟨port, mem_of_find?_eq_some first, meets⟩)
    simp only [isFresh, Bool.and_eq_true] at meets
    exact unused_iff.mp meets.1.1.2
  | @cooling port mem meets notFresh =>
    refine iff_of_true ?_ (.inr (.inl ⟨port, mem, meets⟩))
    simp only [isCooling, Bool.and_eq_true] at meets
    exact unused_iff.mp meets.1.2
  | @lastResort port last notFresh notCooling =>
    constructor
    · intro free
      refine .inr (.inr fun other again => ?_)
      rw [Option.some.inj (again.symm.trans last)]
      exact unused_iff.mpr free
    · rintro (fresh | cooling | unused)
      · exact absurd fresh notFresh
      · exact absurd cooling notCooling
      · exact unused_iff.mp (unused port last)
  | nothing unavailable notFresh notCooling =>
    refine iff_of_true (fun port mem => absurd mem not_mem_nil) (.inr (.inr ?_))
    intro port last
    have meets := find?_some last
    rw [unavailable port (mem_of_find?_eq_some last)] at meets
    cases meets

theorem free_usedPorts (port : Int) :
    (manager.free port).usedPorts = manager.usedPorts.erase port := by
  unfold free
  split
  · rfl
  next unused => exact (Finset.erase_eq_of_notMem unused).symm

theorem freeCached_usedPorts (now port : Int) :
    (manager.freeCached now port).usedPorts = manager.usedPorts.erase port := by
  unfold freeCached
  split
  · exact free_usedPorts manager port
  next unused => exact (Finset.erase_eq_of_notMem unused).symm

theorem step_usedPorts :
    (step manager call).1.usedPorts = heldAfter manager.usedPorts (step manager call).2 call := by
  cases call with
  | allocatePort env =>
    rw [step_allocatePort]
    exact allocate_usedPorts manager .single env
  | allocatePortPair env =>
    rw [step_allocatePortPair]
    exact allocate_usedPorts manager .pair env
  | releasePort now port =>
    by_cases used : port ∈ manager.usedPorts
    · have released : (step manager (.releasePort now port)).1 =
          (manager.freeCached now port).updateStats := if_pos used
      rw [released]
      exact freeCached_usedPorts manager now port
    · have ignored : (step manager (.releasePort now port)).1 = manager := if_neg used
      rw [ignored]
      exact (Finset.erase_eq_of_notMem used).symm
  | releasePortPair now pair =>
    cases pair with
    | none => exact (Finset.empty_union _).symm
    | some pair =>
      change ((manager.freeCached now pair.rtpPort).free pair.rtcpPort).usedPorts = _
      rw [free_usedPorts, freeCached_usedPorts]
      rfl
  | removeExpired now => exact (Finset.empty_union _).symm

theorem step_spares_iff :
    (∀ port ∈ (step manager call).2, port ∉ manager.usedPorts) ↔ call.Spares manager := by
  have nothing : (∀ port ∈ ([] : List Int), port ∉ manager.usedPorts) ↔ True :=
    iff_of_true (fun port mem => absurd mem not_mem_nil) trivial
  cases call with
  | allocatePort env =>
    rw [step_allocatePort]
    exact granted_unused_iff manager .single env
  | allocatePortPair env =>
    rw [step_allocatePortPair]
    exact granted_unused_iff manager .pair env
  | _ => exact nothing

end

/-- No held port is handed out if and only if every search ends in one of the first two passes or
on ports that nobody holds. -/
theorem exclusive_iff (minPort maxPort : Int) (calls : List Call) :
    Exclusive (newPortManager minPort maxPort) calls ↔
      Transducer.Along step (fun manager call => call.Spares manager)
        (newPortManager minPort maxPort) calls := by
  refine Transducer.along_tracked_iff (fun manager held => manager.usedPorts = held)
    (fun manager held call same => ?_) (fun manager held call same => ?_) ?_
  · rw [← same]
    exact step_usedPorts manager call
  · subst same
    exact step_spares_iff manager call
  · unfold newPortManager
    split <;> rfl

def unbound : Environment where
  now := 0
  available _ _ := true
  keyOrder := id
  portOrder := id
  keyOrder_perm keys := .refl keys
  portOrder_perm ports := .refl ports

/-- With one port in the range, the second caller is given the port of the first. -/
theorem port_handed_out_twice :
    (Transducer.run step (newPortManager 10000 10001)
      [.allocatePort unbound, .allocatePort unbound]).2 = [10000, 10000] ∧
    ¬Exclusive (newPortManager 10000 10001) [.allocatePort unbound, .allocatePort unbound] :=
  ⟨by decide +kernel, fun exclusive => exclusive.2.1 10000 (by decide +kernel) (by decide +kernel)⟩

end SiprecServer.Media.Ports
