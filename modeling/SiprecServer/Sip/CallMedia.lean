import SiprecServer.Sip.CallStages

/-!
# A handler at work on the media of a call

While one INVITE or re-INVITE handler changes the media of the open call, every
forwarder with ports is among those that the handler holds or has published.
-/

namespace SiprecServer.Sip.Lifecycle

open List

/-! ## What a step of the worker may do -/


section Media

variable {callID : String} {server : Server} {thread call : Nat} {point : Point}

theorem updateCall_same (change : CallState → CallState) :
    (server.updateCall call change).calls call = change (server.calls call) := if_pos rfl

variable {other : Nat} {next : Option Point} {f : Nat} {state : CallState} {forwarders : List Nat}

theorem updateCall_other (different : other ≠ call) (change : CallState → CallState) :
    (server.updateCall call change).calls other = server.calls other := if_neg different

def workerOf (thread : Nat) (next : Option Point) : Option (Nat × Point) :=
  (next.filter Point.isMedia).map (thread, ·)

theorem workerOf_eq_some {point : Point} : workerOf thread next = some (other, point) ↔
      other = thread ∧ next = some point ∧ point.isMedia = true := by
  simp only [workerOf, Option.map_eq_some_iff, Option.filter_eq_some_iff, Prod.mk.injEq]
  constructor
  · rintro ⟨found, ⟨isNext, media⟩, same, rfl⟩
    exact ⟨same.symm, isNext, media⟩
  · rintro ⟨same, isNext, media⟩
    exact ⟨point, ⟨isNext, media⟩, same.symm, rfl⟩

def heldAfter (call : CallState) : Option Point → List Nat
  | none => call.primary
  | some point => point.held call

theorem held_workerOf (calls : Nat → CallState) (next : Option Point) :
    (Stage.open call (workerOf thread next)).held calls = heldAfter (calls call) next := by
  cases next with
  | none => rfl
  | some point => cases point <;> rfl

/-- What a step of the handler at work may do: change its own call state, ports of its
own call, and move on. -/
structure Worked (callID : String) (server : Server) (thread call : Nat) (next : Option Point)
    (after : Server) : Prop where
  handlers : after.handlers = (server.goto thread next).handlers
  nextThread : after.nextThread = server.nextThread
  nextCall : after.nextCall = server.nextCall
  callStates : after.callStates = server.callStates
  others : ∀ other, other ≠ call → after.calls other = server.calls other
  once : (after.calls call).finalizeOnce = .idle
  key : (after.calls call).activeKey callID = callID
  active : ∀ key other, after.activeCalls key = some other → other = call ∧ key = callID
  ports : ∀ f other, after.ports f = some other →
    other = call ∧ f ∈ heldAfter (after.calls call) next
  onCall : ∀ point ∈ next, point.call = some call ∧ point.isFinalizing = false ∧
    point.Consistent (after.calls call)

/-- What there is to show about the point that the handler moves on to. -/
def OnCall (call : Nat) (state : CallState) (next : Option Point) : Prop :=
  ∀ point ∈ next, point.call = some call ∧ point.isFinalizing = false ∧ point.Consistent state

theorem Worked.tidy {after : Server} (fits : Fits callID server (.open call (some (thread, point))))
    (worked : Worked callID server thread call next after) : Tidy callID after := by
  have bound : call < after.nextCall := worked.nextCall ▸ fits.current call rfl
  obtain ⟨standing, -⟩ := fits.here.2.2 thread point rfl
  refine ⟨.open call (workerOf thread next), ?_, ?_, ?_, ?_, ?_, ?_, worked.once, worked.key, ?_⟩
  · refine fits.attended.goto standing worked.handlers worked.nextThread
      (Nat.le_of_eq worked.nextCall.symm) ?_ ?_
    · intro point mem
      obtain ⟨onCall, calm, -⟩ := worked.onCall point mem
      refine ⟨fun found same => ?_, fun works => ?_⟩
      · rw [onCall] at same
        exact Option.some.inj same ▸ bound
      · rw [Point.works, calm, Bool.or_false] at works
        rw [Stage.thread, workerOf_eq_some.mpr ⟨rfl, mem, works⟩]
        rfl
    · exact fun other different same => absurd (Option.some.inj same).symm different
  · exact fun found same => Option.some.inj same ▸ bound
  · intro other small different
    have notCall : other ≠ call := fun same => different (congrArg some same.symm)
    rw [worked.others other notCall]
    exact fits.finished other (worked.nextCall ▸ small) fun same =>
      notCall (Option.some.inj same).symm
  · intro f other held
    obtain ⟨same, mem⟩ := worked.ports f other held
    rw [held_workerOf]
    exact ⟨congrArg some same.symm, mem⟩
  · intro key other stored
    obtain ⟨same, isKey⟩ := worked.active key other stored
    exact ⟨congrArg some same.symm, isKey⟩
  · exact worked.callStates.trans fits.entry
  · intro other point worker
    obtain ⟨same, isNext, media⟩ := workerOf_eq_some.mp worker
    obtain ⟨onCall, -, consistent⟩ := worked.onCall point isNext
    rw [worked.handlers, same, goto_same]
    exact ⟨isNext, media, onCall, consistent⟩

theorem Fits.activeAtWork {worker : Option (Nat × Point)}
    (fits : Fits callID server (.open call worker)) :
    ∀ key other, server.activeCalls key = some other → other = call ∧ key = callID := by
  intro key other stored
  obtain ⟨same, isKey⟩ := fits.active key other stored
  exact ⟨(Option.some.inj same).symm, isKey⟩

theorem newForwarder_ports (held : (server.newForwarder call).ports f = some other) :
    (f = server.nextForwarder ∧ other = call) ∨ server.ports f = some other := by
  by_cases same : f = server.nextForwarder
  · simp only [Server.newForwarder, same, if_pos, Option.some.injEq] at held
    exact Or.inl ⟨same, held.symm⟩
  · simp only [Server.newForwarder, if_neg same] at held
    exact Or.inr held

open CallState

section

variable (fits : Fits callID server (.open call (some (thread, point))))

include fits

theorem Fits.heldAtWork (held : server.ports f = some other) :
    other = call ∧ f ∈ point.held (server.calls call) := by
  obtain ⟨same, mem⟩ := fits.ports f other held
  exact ⟨(Option.some.inj same).symm, mem⟩

theorem Fits.moves {ports : Nat → Option Nat} {nextForwarder : Nat}
    (held : ∀ f other, ports f = some other → other = call ∧ f ∈ heldAfter (server.calls call) next)
    (onCall : OnCall call (server.calls call) next) :
    Tidy callID ({ server with ports, nextForwarder }.goto thread next) := by
  refine Worked.tidy fits ⟨rfl, rfl, rfl, rfl, ?_, ?_, ?_, ?_, held, onCall⟩
  · exact fun _ _ => rfl
  · exact fits.here.1
  · exact fits.here.2.1
  · exact fits.activeAtWork

theorem Fits.changes {change : CallState → CallState}
    (once : (change (server.calls call)).finalizeOnce = (server.calls call).finalizeOnce)
    (key : (change (server.calls call)).activeKey callID = callID)
    (held : ∀ f ∈ point.held (server.calls call), server.ports f = some call →
      f ∈ heldAfter (change (server.calls call)) next)
    (onCall : OnCall call (change (server.calls call)) next) :
    Tidy callID ((server.updateCall call change).goto thread next) := by
  have changed : ((server.updateCall call change).goto thread next).calls call =
      change (server.calls call) := updateCall_same change
  refine Worked.tidy fits ⟨rfl, rfl, rfl, rfl, ?_, ?_, ?_, ?_, ?_, ?_⟩
  · exact fun other different => updateCall_other different change
  · exact (congrArg finalizeOnce changed).trans (once.trans fits.here.1)
  · exact (congrArg (activeKey callID) changed).trans key
  · exact fits.activeAtWork
  · intro f other stillHeld
    obtain ⟨same, mem⟩ := fits.heldAtWork stillHeld
    subst same
    rw [changed]
    exact ⟨rfl, held f mem stillHeld⟩
  · intro point mem
    obtain ⟨onCall, calm, consistent⟩ := onCall point mem
    exact ⟨onCall, calm, changed.symm ▸ consistent⟩

theorem Fits.leaves (held : ∀ f ∈ point.held (server.calls call), server.ports f = some call →
      f ∈ heldAfter (server.calls call) next)
    (onCall : OnCall call (server.calls call) next) : Tidy callID (server.goto thread next) := by
  have kept : Tidy callID ({ server with ports := server.ports }.goto thread next) := by
    refine fits.moves ?_ onCall
    intro f other stillHeld
    obtain ⟨same, mem⟩ := fits.heldAtWork stillHeld
    subst same
    exact ⟨rfl, held f mem stillHeld⟩
  exact kept

theorem Fits.givesUp (onCall : OnCall call (server.calls call) next) :
    Tidy callID ((server.cleanUp (point.held (server.calls call))).goto thread next) := by
  refine fits.moves ?_ onCall
  intro f other held
  obtain ⟨outside, stillHeld⟩ := cleanUp_ports.mp held
  exact absurd (fits.heldAtWork stillHeld).2 outside

theorem Fits.allocates {next : Point}
    (held : next.held (server.calls call) = point.held (server.calls call) ++ [server.nextForwarder])
    (onCall : OnCall call (server.calls call) (some next)) :
    Tidy callID ((server.newForwarder call).goto thread (some next)) := by
  refine fits.moves ?_ onCall
  intro f other allocated
  rw [heldAfter, held]
  rcases newForwarder_ports allocated with ⟨rfl, same⟩ | before
  · exact ⟨same, mem_append_right _ mem_cons_self⟩
  · obtain ⟨same, mem⟩ := fits.heldAtWork before
    exact ⟨same, mem_append_left _ mem⟩

end

theorem onCall_some {next : Point} (onCall : next.call = some call)
    (calm : next.isFinalizing = false) (consistent : next.Consistent state) :
    OnCall call state (some next) := by
  rintro point ⟨⟩
  exact ⟨onCall, calm, consistent⟩

theorem onCall_none : OnCall call state none := by
  rintro point ⟨⟩

theorem primary_publish (mem : f ∈ forwarders) (state : CallState) :
    f ∈ (state.publish forwarders).primary := by
  rw [primary, publish, if_pos (ne_nil_of_mem mem)]
  exact mem

theorem primary_prune {stopped : List Nat} (mem : f ∈ state.primary) (live : f ∉ stopped) :
    f ∈ (state.prune stopped).primary := by
  by_cases empty : state.rtpForwarders = []
  · simp_all [primary, prune]
  · have among : f ∈ state.rtpForwarders := by
      rwa [primary, if_pos empty] at mem
    have kept : f ∈ state.rtpForwarders.filter (· ∉ stopped) :=
      mem_filter.mpr ⟨among, decide_eq_true live⟩
    rw [primary, prune, if_pos (ne_nil_of_mem kept)]
    exact kept

theorem activeKey_session {sessionID : String} (same : state.sessionID = some sessionID)
    (keeps : keepsKey callID sessionID) : state.activeKey callID = callID := by
  rw [activeKey, same]
  rcases keeps with empty | isCallID
  · exact if_neg (not_not.mpr empty)
  · dsimp only
    rw [isCallID, ite_id]

section

variable (outcome : Outcome)

include outcome

theorem inviteEarly_tidy (fits : Fits callID server (.open call (some (thread, .inviteEarly call))))
    (orderly : OrderlyAt callID server outcome (.inviteEarly call)) :
    Tidy callID (proceed callID server thread outcome (.inviteEarly call)).1 := by
  -- No forwarder has been allocated yet.
  have nothing : ∀ f ∈ (Point.inviteEarly call).held (server.calls call),
      server.ports f = some call → ∀ held : List Nat, f ∈ held :=
    fun f none => absurd none not_mem_nil
  cases outcome with
  | offer sessionID labels =>
    have key : ({ server.calls call with sessionID := some sessionID }).activeKey callID
        = callID := activeKey_session rfl orderly
    rw [proceed]
    split
    · exact fits.changes rfl key (fun f mem held => nothing f mem held _)
        (onCall_some rfl rfl True.intro)
    · exact fits.changes rfl key (fun f mem held => nothing f mem held _)
        (onCall_some rfl rfl True.intro)
  | _ =>
    exact fits.leaves (fun f mem held => nothing f mem held _)
      (onCall_some rfl rfl True.intro)

theorem inviteAnswered_tidy
    (fits : Fits callID server (.open call (some (thread, .inviteAnswered call)))) :
    Tidy callID (proceed callID server thread outcome (.inviteAnswered call)).1 := by
  have isCallID := fits.here.2.1
  refine Worked.tidy fits ⟨rfl, rfl, rfl, rfl, fun _ _ => rfl, fits.here.1, isCallID, ?_, ?_,
    onCall_none⟩
  · intro key other stored
    by_cases same : key = (server.calls call).activeKey callID
    · have isCall : some call = some other := (if_pos same).symm.trans stored
      exact ⟨(Option.some.inj isCall).symm, same.trans isCallID⟩
    · exact fits.activeAtWork key other ((if_neg same).symm.trans stored)
  · exact fun f other held => fits.heldAtWork held

theorem reInvite_tidy (fits : Fits callID server (.open call (some (thread, .reInvite call))))
    (orderly : OrderlyAt callID server outcome (.reInvite call)) :
    Tidy callID (proceed callID server thread outcome (.reInvite call)).1 := by
  cases outcome with
  | reoffer sessionID stopped hasSDP hasMediaConfig labels =>
    obtain ⟨released, keeps⟩ := orderly
    have key : ({ (server.calls call).prune stopped with
        sessionID := (server.calls call).sessionID.or sessionID }).activeKey callID
          = callID := by
      cases known : (server.calls call).sessionID with
      | none =>
        cases sessionID with
        | none => rfl
        | some id => exact activeKey_session rfl (keeps known id rfl)
      | some id => exact (activeKey_congr known.symm).trans fits.here.2.1
    -- What is dropped has released its ports.
    have kept : ∀ f ∈ (server.calls call).primary, server.ports f = some call →
        f ∈ ((server.calls call).prune stopped).primary := by
      intro f mem held
      refine primary_prune mem fun dropped => ?_
      rw [released f dropped] at held
      cases held
    rw [proceed]
    simp only [updateCall_same]
    split
    · split
      · exact fits.changes rfl key kept
          (onCall_some rfl rfl ⟨Nat.le_refl _, take_subset _ _⟩)
      · exact fits.changes rfl key kept onCall_none
    · exact fits.changes rfl key kept (onCall_some rfl rfl True.intro)
  | _ => exact fits.leaves (fun f mem _ => mem) onCall_none

theorem reInviteAllocating_tidy {streams : List (Option String)} {existing : Nat}
    (fits : Fits callID server
      (.open call (some (thread, .reInviteAllocating call streams existing forwarders))))
    (orderly : OrderlyAt callID server outcome
      (.reInviteAllocating call streams existing forwarders)) :
    Tidy callID (proceed callID server thread outcome
      (.reInviteAllocating call streams existing forwarders)).1 := by
  obtain ⟨-, -, -, enough, consistent⟩ := fits.here.2.2 thread _ rfl
  rw [proceed]
  split
  case isTrue missing =>
    split
    case isTrue fails =>
      refine fits.leaves (fun f mem _ => consistent ?_) onCall_none
      rw [take_of_length_le (orderly missing fails)]
      exact mem
    case isFalse =>
      refine fits.allocates rfl (onCall_some rfl rfl ⟨?_, ?_⟩)
      · rw [length_append]
        exact Nat.le_add_right_of_le enough
      · rw [take_append_of_le_length enough]
        exact consistent
  case isFalse =>
    refine fits.moves ?_ (onCall_some rfl rfl True.intro)
    intro f other held
    obtain ⟨outside, stillHeld⟩ := cleanUp_ports.mp held
    obtain ⟨same, mem⟩ := fits.heldAtWork stillHeld
    refine ⟨same, ?_⟩
    rw [Point.held, ← take_append_drop streams.length forwarders, mem_append] at mem
    exact mem.resolve_right outside

end

end Media

end SiprecServer.Sip.Lifecycle
