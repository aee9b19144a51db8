import SiprecServer.Sip.CallMedia

/-!
# What is left of a finalised call

A call that has been finalised in an orderly run has released its ports and has no
entry in `callStates` or `ActiveCalls`; it is finalised once, and its finalisation
removes no entry but its own.
-/

namespace SiprecServer.Sip.Lifecycle

open Lib.Transducer List

/-! ## Handlers that take up a call -/

open CallState

section TakingUp

variable {callID : String} {server : Server} {stage : Stage} {thread call : Nat} {point : Point}

theorem entry_call (stored : stage.entry = some call) : stage.call = some call := by
  cases stage with
  | absent => cases stored
  | «open» open_ worker => exact stored
  | ending ended other phase =>
    cases phase with
    | active => cases stored
    | _ => exact stored

theorem Server.NoneAt.not_standing {kind : Point → Bool} (nobody : server.NoneAt kind)
    (fits : Fits callID server stage) (standing : server.handlers thread = some point) :
    kind point = false :=
  nobody thread (fits.attended.threads thread point standing) point standing

theorem Fits.unattended {worker : Option (Nat × Point)}
    (fits : Fits callID server (.open call worker)) (nobody : server.NoneAt Point.isMedia) :
    worker = none := by
  cases worker with
  | none => rfl
  | some worker =>
    obtain ⟨standing, media, -⟩ := fits.here.2.2 worker.1 worker.2 rfl
    rw [nobody.not_standing fits standing] at media
    cases media

theorem noneAt_media (nobody : server.NoneAt Point.works) : server.NoneAt Point.isMedia :=
  fun thread bound point standing =>
    (Bool.or_eq_false_iff.mp (nobody thread bound point standing)).1

section

variable (fits : Fits callID server stage)

include fits

theorem Fits.open_of_entry (stored : server.callStates = some call)
    (nobody : server.NoneAt Point.works) : stage = .open call none := by
  have isCall := entry_call (fits.entry.symm.trans stored)
  cases stage with
  | absent => cases isCall
  | «open» open_ worker =>
    cases isCall
    rw [fits.unattended (noneAt_media nobody)]
  | ending ended other phase => cases nobody.not_standing fits fits.here.2

theorem Fits.absent_of_entry (nothing : server.callStates = none)
    (nobody : server.NoneAt Point.isFinalizing) : stage = .absent := by
  have noEntry := fits.entry.symm.trans nothing
  cases stage with
  | absent => rfl
  | «open» open_ worker => cases noEntry
  | ending ended other phase => cases nobody.not_standing fits fits.here.2

theorem Fits.open_of_idle (known : call < server.nextCall)
    (idle : (server.calls call).finalizeOnce = .idle) (nobody : server.NoneAt Point.isMedia) :
    stage = .open call none := by
  have isCall : stage.call = some call := by
    refine Decidable.byContradiction fun other => ?_
    rw [fits.finished call known other] at idle
    cases idle
  cases stage with
  | absent => cases isCall
  | «open» open_ worker =>
    cases isCall
    rw [fits.unattended nobody]
  | ending ended other phase =>
    cases isCall
    rw [fits.here.1] at idle
    cases idle

end

variable (fits : Fits callID server (.open call none))
  (standing : server.handlers thread = some point)

include fits standing

theorem Fits.takesUp :
    Fits callID (server.goto thread (some (.reInvite call)))
      (.open call (some (thread, .reInvite call))) := by
  refine { fits with attended := ?_, here := ⟨fits.here.1, fits.here.2.1, ?_⟩ }
  · refine fits.attended.goto standing rfl rfl (Nat.le_refl _) ?_ fun other _ none => by cases none
    rintro next ⟨⟩
    exact ⟨fits.current, fun _ => rfl⟩
  · rintro other next ⟨⟩
    exact ⟨goto_same _, rfl, rfl, True.intro⟩

omit fits standing in
theorem Fits.stores (fits : Fits callID server .absent)
    (standing : server.handlers thread = some point) :
    Fits callID (server.storeCall.goto thread (some (.inviteStored server.nextCall)))
      (.open server.nextCall (some (thread, .inviteStored server.nextCall))) := by
  have new : server.storeCall.calls server.nextCall = .new := if_pos rfl
  refine ⟨?_, ?_, ?_, ?_, ?_, rfl, congrArg finalizeOnce new,
    congrArg (activeKey callID) new, ?_⟩
  · refine fits.attended.goto standing rfl rfl (Nat.le_succ _) ?_ fun other _ none => by cases none
    rintro next ⟨⟩
    refine ⟨?_, fun _ => rfl⟩
    rintro call ⟨⟩
    exact Nat.lt_succ_self _
  · rintro call ⟨⟩
    exact Nat.lt_succ_self _
  · intro call small different
    have notNew : call ≠ server.nextCall := fun same => different (congrArg some same.symm)
    have old : call < server.nextCall := Nat.lt_of_le_of_ne (Nat.le_of_lt_succ small) notNew
    have kept : server.storeCall.calls call = server.calls call := if_neg notNew
    exact (congrArg finalizeOnce kept).trans (fits.finished call old nofun)
  · intro f call held
    cases (fits.ports f call held).1
  · intro key call stored
    cases (fits.active key call stored).1
  · rintro other next ⟨⟩
    exact ⟨goto_same _, rfl, rfl, True.intro⟩

theorem Fits.closes : Fits callID
    ((server.updateCall call fun old => { old with finalizeOnce := .running }).goto
      thread (some (.finalizing call .primary))) (.ending call thread .primary) := by
  have changed : (server.updateCall call fun old => { old with finalizeOnce := .running }).calls
      call = { server.calls call with finalizeOnce := .running } := updateCall_same _
  refine ⟨?_, fits.current, ?_, ?_, fits.active, fits.entry,
    congrArg finalizeOnce changed, goto_same _⟩
  · refine fits.attended.goto standing rfl rfl (Nat.le_refl _) ?_ fun other _ none => by cases none
    rintro next ⟨⟩
    exact ⟨fits.current, fun _ => rfl⟩
  · intro other small different
    have notCall : other ≠ call := fun same => different (congrArg some same.symm)
    exact (congrArg finalizeOnce (if_neg notCall)).trans
      (fits.finished other small different)
  · intro f other held
    obtain ⟨same, mem⟩ := fits.ports f other held
    exact ⟨same, (congrArg (f ∈ primary ·) changed).mpr mem⟩

end TakingUp

section Ending

variable {callID : String} {server : Server} {thread call : Nat} {phase : Phase}

theorem Fits.ends (fits : Fits callID server (.ending call thread phase)) {after : Server}
    {next : Phase}
    (handlers : after.handlers = (server.goto thread (some (.finalizing call next))).handlers)
    (nextThread : after.nextThread = server.nextThread)
    (nextCall : after.nextCall = server.nextCall)
    (activeCalls : after.activeCalls = server.activeCalls)
    (calls : ∀ other, (after.calls other).finalizeOnce = (server.calls other).finalizeOnce)
    (ports : ∀ f other, after.ports f = some other →
      server.ports f = some other ∧ f ∈ (Stage.ending call thread next).held after.calls)
    (entry : after.callStates = (Stage.ending call thread next).entry) :
    Fits callID after (.ending call thread next) := by
  have current : ∀ found ∈ some call, found < after.nextCall := nextCall ▸ fits.current
  refine ⟨?_, current, ?_, ?_, activeCalls ▸ fits.active, entry, ?_, ?_⟩
  · refine fits.attended.goto fits.here.2 handlers nextThread (Nat.le_of_eq nextCall.symm) ?_
      fun other _ same => same
    rintro point ⟨⟩
    exact ⟨current, fun _ => rfl⟩
  · intro other small different
    exact (calls other).trans (fits.finished other (nextCall ▸ small) different)
  · intro f other held
    obtain ⟨before, mem⟩ := ports f other held
    exact ⟨(fits.ports f other before).1, mem⟩
  · exact (calls call).trans fits.here.1
  · exact (congrFun handlers thread).trans (goto_same _)

theorem updateCall_once (change : CallState → CallState)
    (same : ∀ state, (change state).finalizeOnce = state.finalizeOnce) (other : Nat) :
    ((server.updateCall call change).calls other).finalizeOnce =
      (server.calls other).finalizeOnce := by
  by_cases isCall : other = call
  · rw [isCall, updateCall_same, same]
  · rw [updateCall_other isCall]

theorem Fits.concludes (fits : Fits callID server (.ending call thread .active)) :
    Fits callID (finalizePhase callID server thread call .active).1 .absent := by
  refine ⟨?_, nofun, ?_, ?_, ?_, fits.entry, True.intro⟩
  · refine fits.attended.goto fits.here.2 rfl rfl (Nat.le_refl _) nofun ?_
    exact fun other different same => absurd (Option.some.inj same).symm different
  · intro other small _
    by_cases isCall : other = call
    · exact congrArg finalizeOnce (if_pos isCall)
    · refine (congrArg finalizeOnce (if_neg isCall)).trans (fits.finished other small ?_)
      exact fun same => isCall (Option.some.inj same).symm
  · intro f other held
    exact absurd (fits.ports f other held).2 not_mem_nil
  · intro key other stored
    by_cases isCallID : key = callID
    · cases (if_pos isCallID).symm.trans stored
    · exact absurd (fits.active key other ((if_neg isCallID).symm.trans stored)).2 isCallID

theorem finalizePhase_tidy (fits : Fits callID server (.ending call thread phase)) :
    Tidy callID (finalizePhase callID server thread call phase).1 := by
  cases phase with
  | primary =>
    refine ⟨.ending call thread .streams, fits.ends rfl rfl rfl rfl ?_ ?_ fits.entry⟩
    · exact updateCall_once (fun old => { old with rtpForwarders := [], rtpForwarder := none })
        fun _ => rfl
    · intro f other held
      obtain ⟨outside, before⟩ := cleanUp_ports.mp held
      exact absurd (fits.ports f other before).2 outside
  | streams =>
    refine ⟨.ending call thread .state, fits.ends rfl rfl rfl rfl ?_ ?_ fits.entry⟩
    · exact updateCall_once (fun old => { old with streamForwarders := [] }) fun _ => rfl
    · intro f other held
      have before := (cleanUp_ports.mp held).2
      exact ⟨before, (fits.ports f other before).2⟩
  | state =>
    refine ⟨.ending call thread .registry, fits.ends rfl rfl rfl rfl ?_ ?_ fits.entry⟩
    · exact updateCall_once (fun old => { old with state := .terminated }) fun _ => rfl
    · exact fun f other held => ⟨held, (fits.ports f other held).2⟩
  | registry =>
    refine ⟨.ending call thread .active, fits.ends rfl rfl rfl rfl (fun _ => rfl) ?_ rfl⟩
    exact fun f other held => ⟨held, (fits.ports f other held).2⟩
  | active => exact ⟨.absent, fits.concludes⟩

end Ending

section Step

variable {callID : String} {server : Server} {stage : Stage} {thread : Nat} {point : Point}

theorem calm_none : Calm server none := by
  rintro point ⟨⟩

theorem calm_some {next : Point} (calm : next.works = false)
    (known : ∀ call ∈ next.call, call < server.nextCall) :
    Calm server (some next) := by
  rintro point ⟨⟩
  exact ⟨calm, known⟩

variable {call : Nat}

theorem known_some (known : call < server.nextCall) :
    ∀ found ∈ some call, found < server.nextCall := by
  rintro found ⟨⟩
  exact known

variable (outcome : Outcome)

section

variable (fits : Fits callID server stage)

include fits

theorem lookUp_tidy {kind : Request} (standing : server.handlers thread = some (.request kind))
    (orderly : OrderlyAt callID server outcome (.request kind)) :
    Tidy callID (lookUp server thread outcome kind) := by
  have returns : Tidy callID (server.goto thread none) :=
    ⟨stage, fits.bystander standing rfl calm_none⟩
  cases stored : server.callStates with
  | none =>
    cases kind with
    | invite =>
      simp only [lookUp, stored]
      split
      · exact returns
      · exact ⟨stage, fits.bystander standing rfl (calm_some rfl nofun)⟩
    | _ => simpa only [lookUp, stored] using returns
  | some call =>
    have known := fits.current call (entry_call (fits.entry.symm.trans stored))
    have goesOn : ∀ next : Point, next.works = false → next.call = some call →
        Tidy callID (server.goto thread (some next)) := fun next calm onCall =>
      ⟨stage, fits.bystander standing rfl (calm_some calm (onCall ▸ known_some known))⟩
    cases kind with
    | invite =>
      simp only [lookUp, stored]
      split
      · exact returns
      case isFalse accepted =>
        have isOpen := fits.open_of_entry stored
          (orderly accepted (congrArg Option.isSome stored))
        subst isOpen
        exact ⟨_, fits.takesUp standing⟩
    | ack =>
      simp only [lookUp, stored]
      exact ⟨stage, (fits.setState call .connected).bystander standing rfl calm_none⟩
    | bye =>
      simp only [lookUp, stored]
      split
      · exact goesOn _ rfl rfl
      · exact returns
    | cancel =>
      simp only [lookUp, stored]
      split
      · exact returns
      · exact goesOn _ rfl rfl
    | update => exact returns
    | reap =>
      simp only [lookUp, stored]
      split
      · exact goesOn _ rfl rfl
      · exact returns

section

variable (standing : server.handlers thread = some point)

include standing

theorem Fits.works (works : point.works) :
    (point.isMedia ∧ ∃ call, point.call = some call ∧ stage = .open call (some (thread, point))) ∨
      ∃ call phase, point = .finalizing call phase ∧ stage = .ending call thread phase := by
  have isWorker := fits.attended.workers thread point standing works
  cases stage with
  | absent => cases isWorker
  | «open» call worker =>
    obtain ⟨⟨other, working⟩, isWorking, same⟩ := Option.map_eq_some_iff.mp isWorker
    obtain rfl : other = thread := same
    obtain ⟨at_, media, onCall, -⟩ := fits.here.2.2 other working isWorking
    obtain rfl : working = point := Option.some.inj (at_.symm.trans standing)
    exact .inl ⟨media, call, onCall, congrArg (Stage.open call) isWorking⟩
  | ending call other phase =>
    obtain rfl : other = thread := Option.some.inj isWorker
    exact .inr ⟨call, phase, Option.some.inj (standing.symm.trans fits.here.2), rfl⟩

theorem Fits.worker (media : point.isMedia) :
    ∃ call, point.call = some call ∧ stage = .open call (some (thread, point)) := by
  rcases fits.works standing (by rw [Point.works, media]; rfl) with ⟨-, worker⟩ | ⟨_, _, rfl, -⟩
  · exact worker
  · cases media

omit standing in
theorem Fits.finalizer {phase : Phase}
    (standing : server.handlers thread = some (.finalizing call phase)) :
    stage = .ending call thread phase := by
  obtain ⟨media, -⟩ | ⟨_, _, ⟨⟩, ending⟩ := fits.works standing rfl
  · cases media
  · exact ending

theorem media_tidy (media : point.isMedia) (orderly : OrderlyAt callID server outcome point) :
    Tidy callID (proceed callID server thread outcome point).1 := by
  obtain ⟨call, onCall, rfl⟩ := fits.worker standing media
  cases point <;> cases media <;> cases onCall
  case inviteStored =>
    exact (fits.setState call .early).leaves (fun _ none => absurd none not_mem_nil)
      (onCall_some rfl rfl True.intro)
  case inviteEarly => exact inviteEarly_tidy outcome fits orderly
  case inviteAllocating =>
    rw [proceed]
    split
    · split
      · exact fits.givesUp (onCall_some rfl rfl True.intro)
      · exact fits.allocates rfl (onCall_some rfl rfl True.intro)
    · exact fits.changes rfl fits.here.2.1 (fun f mem _ => mem)
        (onCall_some rfl rfl fun f mem => primary_publish mem _)
  case invitePublished =>
    obtain ⟨-, -, -, published⟩ := fits.here.2.2 thread _ rfl
    rw [proceed]
    split
    · exact fits.givesUp (onCall_some rfl rfl True.intro)
    · exact fits.changes rfl fits.here.2.1 (fun f mem _ => published mem)
        (onCall_some rfl rfl True.intro)
  case inviteAnswering =>
    rw [proceed]
    split
    · exact fits.leaves (fun f mem _ => mem) (onCall_some rfl rfl True.intro)
    · exact (fits.setState call .awaitingAck).leaves (fun f mem _ => mem)
        (onCall_some rfl rfl True.intro)
  case inviteAnswered => exact inviteAnswered_tidy outcome fits
  case reInvite => exact reInvite_tidy outcome fits orderly
  case reInviteAllocating => exact reInviteAllocating_tidy outcome fits orderly
  case reInvitePublishing streams forwarders =>
    have published : ∀ f ∈ forwarders, server.ports f = some call →
        f ∈ ((server.calls call).publish forwarders).primary :=
      fun f mem _ => primary_publish mem _
    cases outcome with
    | srtpMissing stream => exact fits.changes rfl fits.here.2.1 published onCall_none
    | _ => exact fits.changes rfl fits.here.2.1 published (onCall_some rfl rfl True.intro)
  case reInviteAnswering =>
    rw [proceed]
    split
    · exact fits.leaves (fun f mem _ => mem) onCall_none
    · exact (fits.setState call .awaitingAck).leaves (fun f mem _ => mem) onCall_none

theorem proceed_tidy (orderly : OrderlyAt callID server outcome point) :
    Tidy callID (proceed callID server thread outcome point).1 := by
  cases point with
  | request kind => exact lookUp_tidy outcome fits standing orderly
  | inviteNew =>
    rw [proceed]
    split
    case isTrue => exact ⟨stage, fits.bystander standing rfl calm_none⟩
    case isFalse accepted =>
      obtain ⟨nothing, nobody⟩ := orderly accepted
      have isAbsent := fits.absent_of_entry nothing nobody
      subst isAbsent
      exact ⟨_, fits.stores standing⟩
  | byeAccepted call =>
    have known := fits.attended.known thread _ standing call rfl
    exact ⟨stage, (fits.setState call .terminating).bystander standing rfl
      (calm_some rfl (known_some known))⟩
  | closing call =>
    have known := fits.attended.known thread _ standing call rfl
    rw [proceed]
    split
    case h_1 idle =>
      have isOpen := fits.open_of_idle known idle (orderly idle)
      subst isOpen
      exact ⟨_, fits.closes standing⟩
    case h_2 => exact ⟨stage, fits⟩
    case h_3 => exact ⟨stage, fits.bystander standing rfl calm_none⟩
  | finalizing call phase =>
    obtain rfl := fits.finalizer standing
    exact finalizePhase_tidy fits
  | _ => exact media_tidy outcome fits standing rfl orderly

end

theorem arrive_tidy (kind : Request) : Tidy callID (step callID server (.arrive kind)).1 := by
  have fresh : server.handlers server.nextThread = none := by
    cases at_ : server.handlers server.nextThread with
    | none => rfl
    | some point => exact absurd (fits.attended.threads _ _ at_) (Nat.lt_irrefl _)
  have kept : ∀ other working, server.handlers other = some working →
      (server.goto server.nextThread (some (.request kind))).handlers other = some working := by
    intro other working at_
    refine (goto_other ?_ _).trans at_
    rintro rfl
    rw [fresh] at at_
    cases at_
  refine ⟨stage, { fits with attended := ⟨?_, ?_, ?_⟩, here := ?_ }⟩
  · intro other point at_
    rcases goto_handlers at_ with ⟨rfl, -⟩ | ⟨-, before⟩
    · exact Nat.lt_succ_self _
    · exact Nat.lt_succ_of_lt (fits.attended.threads other point before)
  · intro other point at_
    rcases goto_handlers at_ with ⟨-, ⟨⟩⟩ | ⟨-, before⟩
    · exact nofun
    · exact fits.attended.known other point before
  · intro other point at_ works
    rcases goto_handlers at_ with ⟨-, ⟨⟩⟩ | ⟨-, before⟩
    · cases works
    · exact fits.attended.workers other point before works
  · cases stage with
    | absent => exact True.intro
    | «open» call worker =>
      refine ⟨fits.here.1, fits.here.2.1, fun other working same => ?_⟩
      obtain ⟨at_, rest⟩ := fits.here.2.2 other working same
      exact ⟨kept other working at_, rest⟩
    | ending call other phase => exact ⟨fits.here.1, kept other _ fits.here.2⟩

end

theorem step_tidy (server : Server) (action : Action) (tidy : Tidy callID server)
    (orderly : Orderly callID server action) : Tidy callID (step callID server action).1 := by
  obtain ⟨stage, fits⟩ := tidy
  cases action with
  | arrive kind => exact arrive_tidy fits kind
  | forwarderExits forwarder => exact ⟨stage, fits.cleanUp [forwarder]⟩
  | proceed thread outcome =>
    cases standing : server.handlers thread with
    | none =>
      simp only [step, standing]
      exact ⟨stage, fits⟩
    | some point =>
      simp only [step, standing]
      exact proceed_tidy outcome fits standing (orderly point standing)

end Step

/-! ## Finalised once -/

section Once

variable {callID : String} {server : Server} {call : Nat}

def Spent (call : Nat) (server : Server) : Prop :=
  call < server.nextCall ∧ (server.calls call).finalizeOnce ≠ .idle

variable {thread other : Nat} {outcome : Outcome}

theorem spent_goto {next : Option Point} :
    Spent call (server.goto thread next) ↔ Spent call server := Iff.rfl

theorem spent_updateCall {change : CallState → CallState}
    (kept : ∀ state, state.finalizeOnce ≠ .idle → (change state).finalizeOnce ≠ .idle)
    (spent : Spent call server) : Spent call (server.updateCall other change) := by
  refine ⟨spent.1, ?_⟩
  by_cases same : call = other
  · subst same
    rw [updateCall_same]
    exact kept _ spent.2
  · rw [updateCall_other same]
    exact spent.2

theorem spent_setState {state : DialogState} (spent : Spent call server) :
    Spent call (server.setState other state) :=
  spent_updateCall (fun _ begun => begun) spent

variable {output : Observation} {action : Action} {point : Point}

theorem spent_proceed (spent : Spent call server) :
    Spent call (proceed callID server thread outcome point).1 := by
  cases point with
  | request kind =>
    cases kind with
    | ack =>
      simp only [proceed, lookUp]
      split
      · exact spent
      · exact spent_setState spent
    | update => exact spent
    | _ =>
      simp only [proceed, lookUp]
      repeat' split
      all_goals exact spent
  | inviteNew =>
    simp only [proceed]
    split
    · exact spent
    · have kept : server.storeCall.calls call = server.calls call :=
        if_neg (Nat.ne_of_lt spent.1)
      exact ⟨Nat.lt_succ_of_lt spent.1, kept ▸ spent.2⟩
  | inviteStored other => exact spent_setState spent
  | finalizing other phase =>
    cases phase with
    | registry => exact spent
    | _ =>
      simp only [proceed, finalizePhase, Server.setState, spent_goto]
      refine spent_updateCall ?_ spent
      simp
  | _ =>
    simp only [proceed]
    repeat' split
    all_goals simp only [spent_goto, Server.setState]
    all_goals first
      | exact spent
      | refine spent_updateCall ?_ spent
        simp [prune, publish]

def Observed (callID : String) (server : Server) (thread : Nat) (output : Observation)
    (point : Point) : Prop :=
  (∃ call, point = .closing call ∧ (server.calls call).finalizeOnce = .idle ∧
    output = .finalised call) ∨
  ∃ call phase, point = .finalizing call phase ∧
    output ∈ (finalizePhase callID server thread call phase).2

theorem proceed_observed (mem : output ∈ (proceed callID server thread outcome point).2) :
    Observed callID server thread output point := by
  cases point with
  | closing call =>
    simp only [proceed] at mem
    split at mem
    case h_1 idle => exact Or.inl ⟨call, rfl, idle, mem_singleton.mp mem⟩
    all_goals cases mem
  | finalizing call phase => exact Or.inr ⟨call, phase, rfl, mem⟩
  | request kind => cases mem
  | _ =>
    simp only [proceed] at mem
    repeat' split at mem
    all_goals cases mem

theorem step_observed (mem : output ∈ (step callID server action).2) :
    ∃ thread outcome point, action = .proceed thread outcome ∧
      server.handlers thread = some point ∧ Observed callID server thread output point := by
  cases action with
  | proceed thread outcome =>
    cases standing : server.handlers thread with
    | none =>
      simp only [step, standing] at mem
      cases mem
    | some point =>
      simp only [step, standing] at mem
      exact ⟨thread, outcome, point, rfl, standing, proceed_observed mem⟩
  | _ => cases mem

theorem finalised_of_step (begins : .finalised call ∈ (step callID server action).2) :
    ∃ thread outcome, action = .proceed thread outcome ∧
      server.handlers thread = some (.closing call) ∧
      (server.calls call).finalizeOnce = .idle := by
  obtain ⟨thread, outcome, point, isProceed, standing, observed⟩ := step_observed begins
  rcases observed with ⟨other, rfl, idle, ⟨⟩⟩ | ⟨other, phase, rfl, mem⟩
  · exact ⟨thread, outcome, isProceed, standing, idle⟩
  · cases phase <;> simp [finalizePhase] at mem

theorem spent_step (action : Action) (spent : Spent call server) :
    Spent call (step callID server action).1 ∧
      .finalised call ∉ (step callID server action).2 := by
  constructor
  · cases action with
    | proceed thread outcome =>
      simp only [step]
      split
      · exact spent
      · exact spent_proceed spent
    | _ => exact spent
  · intro begins
    obtain ⟨-, -, -, -, idle⟩ := finalised_of_step begins
    exact spent.2 idle

theorem step_spends (action : Action) (tidy : Tidy callID server)
    (begins : .finalised call ∈ (step callID server action).2) :
    Spent call (step callID server action).1 ∧
      (step callID server action).2.count (.finalised call) ≤ 1 := by
  obtain ⟨stage, fits⟩ := tidy
  obtain ⟨thread, outcome, rfl, standing, idle⟩ := finalised_of_step begins
  have known := fits.attended.known thread _ standing call rfl
  simp only [step, standing, proceed, idle]
  refine ⟨⟨known, ?_⟩, by simp⟩
  simp [Server.goto, Server.updateCall]

end Once

def Observation.Own : Observation → Prop
  | .finalised _ => True
  | .removed call victim => victim = call

section Results

variable {callID : String} {server : Server}

theorem finalizePhase_own {thread call : Nat} {phase : Phase}
    (fits : Fits callID server (.ending call thread phase)) :
    ∀ output ∈ (finalizePhase callID server thread call phase).2, output.Own := by
  cases phase with
  | registry =>
    intro output mem
    simp only [finalizePhase, fits.entry, Stage.entry, Option.toList_some, map_cons,
      map_nil, mem_singleton] at mem
    exact mem ▸ rfl
  | active =>
    intro output mem
    obtain ⟨victim, stored, rfl⟩ := mem_map.mp mem
    obtain ⟨same, -⟩ := fits.active callID victim (Option.mem_toList.mp stored)
    exact (Option.some.inj same).symm
  | _ => exact fun output mem => absurd mem not_mem_nil

theorem step_own (server : Server) (action : Action) (tidy : Tidy callID server) :
    ∀ output ∈ (step callID server action).2, output.Own := by
  obtain ⟨stage, fits⟩ := tidy
  intro output mem
  obtain ⟨thread, outcome, point, -, standing, observed⟩ := step_observed mem
  rcases observed with ⟨call, -, -, rfl⟩ | ⟨call, phase, rfl, taken⟩
  · exact True.intro
  · obtain rfl := fits.finalizer standing
    exact finalizePhase_own fits output taken

structure Settled (server : Server) (call : Nat) : Prop where
  ports : ∀ forwarder, server.ports forwarder ≠ some call
  callStates : server.callStates ≠ some call
  activeCalls : ∀ key, server.activeCalls key ≠ some call

theorem Fits.unfinished {stage : Stage} {call : Nat} (fits : Fits callID server stage)
    (isCall : stage.call = some call) : (server.calls call).finalizeOnce ≠ .done := by
  cases stage with
  | absent => cases isCall
  | «open» open_ worker =>
    cases isCall
    rw [fits.here.1]
    exact nofun
  | ending ended thread phase =>
    cases isCall
    rw [fits.here.1]
    exact nofun

theorem Tidy.settled {call : Nat} (tidy : Tidy callID server)
    (done : (server.calls call).finalizeOnce = .done) : Settled server call := by
  obtain ⟨stage, fits⟩ := tidy
  refine ⟨fun f held => ?_, fun stored => ?_, fun key stored => ?_⟩
  · exact fits.unfinished (fits.ports f call held).1 done
  · exact fits.unfinished (entry_call (fits.entry.symm.trans stored)) done
  · exact fits.unfinished (fits.active key call stored).1 done

end Results

/-- In an orderly run a finalised call leaves nothing behind, every call is finalised at
most once, and a finalisation only removes the entries of its own call. -/
theorem orderly_calls_settled (callID : String) (actions : List Action)
    (orderly : Along (step callID) (Orderly callID) idleServer actions) :
    (∀ call, ((run (step callID) idleServer actions).1.calls call).finalizeOnce = .done →
      Settled (run (step callID) idleServer actions).1 call) ∧
    (∀ call, (run (step callID) idleServer actions).2.count (.finalised call) ≤ 1) ∧
    (∀ call victim, .removed call victim ∈ (run (step callID) idleServer actions).2 →
      victim = call) := by
  have start := idleServer_tidy callID
  refine ⟨fun call done => ?_, fun call => ?_, fun call victim removed => ?_⟩
  · exact (orderly.invariant (Tidy callID) step_tidy start).settled done
  · exact (orderly.atMostOnce (Tidy callID) step_tidy (fun _ action _ => spent_step action)
      (fun _ action tidy => step_spends action tidy) start).1
  · exact orderly.outputs (Tidy callID) step_tidy
      (fun server action tidy _ => step_own server action tidy) start _ removed

def dialog (sessionID : String) : List Action :=
  [.arrive .invite, .proceed 0 .succeeds, .proceed 0 .succeeds, .proceed 0 .succeeds,
    .proceed 0 (.offer sessionID ["leg"]), .proceed 0 .succeeds, .proceed 0 .succeeds,
    .proceed 0 .succeeds, .proceed 0 .succeeds, .proceed 0 .succeeds,
    .arrive .ack, .proceed 1 .succeeds,
    .arrive .bye, .proceed 2 .succeeds, .proceed 2 .succeeds, .proceed 2 .succeeds,
    .proceed 2 .succeeds, .proceed 2 .succeeds, .proceed 2 .succeeds, .proceed 2 .succeeds,
    .proceed 2 .succeeds]

theorem plain_dialog_settled :
    Along (step "call") (Orderly "call") idleServer (dialog "") ∧
      ((run (step "call") idleServer (dialog "")).1.calls 0).finalizeOnce = .done ∧
      Settled (run (step "call") idleServer (dialog "")).1 0 := by
  have orderly : Along (step "call") (Orderly "call") idleServer (dialog "") := by decide
  have done : ((run (step "call") idleServer (dialog "")).1.calls 0).finalizeOnce = .done := by
    decide
  exact ⟨orderly, done, (orderly_calls_settled "call" _ orderly).1 0 done⟩

/-- With a session ID that is not the Call-ID the finalised call stays in `ActiveCalls`
after every handler has returned. -/
theorem session_call_stays_active :
    (∀ thread < 3, (run (step "call") idleServer (dialog "session")).1.handlers thread = none) ∧
      ((run (step "call") idleServer (dialog "session")).1.calls 0).finalizeOnce = .done ∧
      (run (step "call") idleServer (dialog "session")).1.activeCalls "session" = some 0 := by
  decide

/-- A CANCEL that is handled while the INVITE allocates: the forwarder keeps its ports. -/
example :
    let after := (run (step "call") idleServer
      [.arrive .invite, .proceed 0 .succeeds, .proceed 0 .succeeds, .proceed 0 .succeeds,
        .proceed 0 (.offer "" ["leg"]), .arrive .cancel, .proceed 1 .succeeds,
        .proceed 1 .succeeds, .proceed 1 .succeeds, .proceed 1 .succeeds, .proceed 1 .succeeds,
        .proceed 1 .succeeds, .proceed 1 .succeeds, .proceed 0 .succeeds, .proceed 0 .succeeds,
        .proceed 0 .succeeds, .proceed 0 .succeeds, .proceed 0 .succeeds]).1
    (∀ thread < after.nextThread, after.handlers thread = none) ∧
      (after.calls 0).finalizeOnce = .done ∧ after.ports 0 = some 0 := by
  decide

end SiprecServer.Sip.Lifecycle
