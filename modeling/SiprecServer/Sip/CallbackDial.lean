import SiprecServer.Lib.FileSystem
import SiprecServer.Lib.IpClasses
import SiprecServer.Lib.Transducer

/-!
# Connections of the metadata notifier

The transport of the notifier connects through its own dial function: it looks the host of a
callback up, checks every address of the answer and connects to the addresses of that answer.
Several calls of the function run at the same time.  Each is a goroutine that advances from one
effect to the next, lookups and attempts to connect are its only effects, and the resolver and
the network may answer each time as they like.
-/

namespace SiprecServer.Sip.CallbackDial

open Lib.Endpoint Lib.IpAddress Lib.IpClasses List
open Lib.FileSystem (Store write write_same write_other)
open Lib.Transducer

inductive BlockReason where
  /-- "callback to private/loopback IP blocked: %s" -/
  | privateOrLoopback (ip : List Char)
  /-- "callback to metadata endpoint blocked" -/
  | metadata
deriving DecidableEq

variable (ip : IP)

/-- `ip.Equal(net.ParseIP(text))`; nothing equals an address that cannot be read. -/
def equalsText (text : String) : Bool :=
  match parseIP text with
  | some other => equal ip.bytes other
  | none => false

def checkBlockedIP : Except BlockReason Unit :=
  if isLoopback ip.bytes || isPrivate ip.bytes || isLinkLocalUnicast ip.bytes ||
      isLinkLocalMulticast ip.bytes || isUnspecified ip.bytes then
    .error (.privateOrLoopback ip.text)
  else if equalsText ip "169.254.169.254" || equalsText ip "fd00:ec2::254" then
    .error .metadata
  else .ok ()

def Metadata : Prop :=
  to16 ip.bytes = to16 [169, 254, 169, 254] ∨
    ip.bytes = [0xfd, 0, 0x0e, 0xc2, 0, 0, 0, 0, 0, 0, 0, 0, 0, 0, 0x02, 0x54]

def Forbidden : Prop :=
  Loopback ip ∨ Private ip ∨ LinkLocal ip ∨ Unspecified ip ∨ Metadata ip

theorem parseIP_metadata4 : parseIP "169.254.169.254" = some (to16 [169, 254, 169, 254]) := by
  decide

theorem parseIP_metadata6 : parseIP "fd00:ec2::254" =
    some [0xfd, 0, 0x0e, 0xc2, 0, 0, 0, 0, 0, 0, 0, 0, 0, 0, 0x02, 0x54] := by
  decide

theorem to16_eq_iff {ip : IP} {other : Bytes} (sixteen : other.length = 16)
    (notFour : to4 other = none) : to16 ip.bytes = other ↔ ip.bytes = other := by
  constructor
  · intro same
    rcases ip.family with four | long
    · obtain ⟨a, b, c, d, bytes⟩ := length_eq_four.mp four
      rw [bytes] at same
      rw [← same] at notFour
      cases notFour
    · rw [← same, to16_of_sixteen long]
  · intro same
    rw [same, to16_of_sixteen sixteen]

theorem equalsText_metadata :
    (equalsText ip "169.254.169.254" || equalsText ip "fd00:ec2::254") = true ↔ Metadata ip := by
  unfold equalsText
  rw [parseIP_metadata4, parseIP_metadata6]
  unfold equal Metadata
  rw [Bool.or_eq_true, decide_eq_true_iff, decide_eq_true_iff]
  exact or_congr Iff.rfl (to16_eq_iff rfl (by decide))

/-- The classes are tested first, the addresses of metadata services after them. -/
theorem forbidden_iff {ip : IP} : Forbidden ip ↔
    (Loopback ip ∨ Private ip ∨ LinkLocal ip ∨ Unspecified ip) ∨ Metadata ip := by
  rw [Forbidden, or_assoc, or_assoc, or_assoc]

theorem checkBlockedIP_iff : checkBlockedIP ip = .ok () ↔ ¬ Forbidden ip := by
  have classes : (isLoopback ip.bytes || isPrivate ip.bytes || isLinkLocalUnicast ip.bytes ||
      isLinkLocalMulticast ip.bytes || isUnspecified ip.bytes) = true ↔
      Loopback ip ∨ Private ip ∨ LinkLocal ip ∨ Unspecified ip := by
    rw [Bool.or_assoc (isLoopback ip.bytes || isPrivate ip.bytes), Bool.or_eq_true,
      Bool.or_eq_true, Bool.or_eq_true, isLinkLocal_iff, isLoopback_iff, isPrivate_iff,
      isUnspecified_iff, or_assoc, or_assoc]
  rw [forbidden_iff, not_or]
  unfold checkBlockedIP
  by_cases blocked : Loopback ip ∨ Private ip ∨ LinkLocal ip ∨ Unspecified ip
  · rw [if_pos (classes.mpr blocked)]
    refine ⟨fun passed => ?_, fun allowed => absurd blocked allowed.1⟩
    cases passed
  · rw [if_neg (mt classes.mp blocked)]
    by_cases metadata : Metadata ip
    · rw [if_pos ((equalsText_metadata ip).mpr metadata)]
      refine ⟨fun passed => ?_, fun allowed => absurd metadata allowed.2⟩
      cases passed
    · rw [if_neg (mt (equalsText_metadata ip).mp metadata)]
      exact iff_of_true rfl ⟨blocked, metadata⟩

/-! ## Calls of the dial function -/

inductive DialError where
  /-- "invalid callback address %q: %w" -/
  | invalidAddress (address : List Char) (reason : AddrError)
  | lookup (reason : String)
  /-- "callback hostname %s has no addresses" -/
  | noAddresses (host : List Char)
  /-- "callback hostname %s resolves to blocked IP: %w" -/
  | blocked (host : List Char) (reason : BlockReason)
  /-- "callback connection failed: %w" -/
  | connectionFailed (last : Option String)
deriving DecidableEq

def checkAll (host : List Char) : List IP → Except DialError Unit
  | [] => .ok ()
  | ip :: ips =>
    match checkBlockedIP ip with
    | .error reason => .error (.blocked host reason)
    | .ok () => checkAll host ips

def resolveAndValidateCallbackHost (host : List Char) :
    Except String (List IP) → Except DialError (List IP)
  | .error reason => .error (.lookup reason)
  | .ok ips =>
    if ips = [] then .error (.noAddresses host)
    else
      match checkAll host ips with
      | .error error => .error error
      | .ok () => .ok ips

/-- Where a call of `dialCallbackContextWithResolverAndDialer` stands between two effects. -/
inductive Stage where
  | entered (address : List Char)
  /-- The addresses of its lookup passed; some of them have not been tried. -/
  | dialling (port : List Char) (remaining : List IP) (lastErr : Option String)
  | returned (result : Except DialError (List Char))

inductive Effect where
  | lookup (host : List Char) (answer : Except String (List IP))
  | dial (address : List Char) (answer : Except String Unit)

/-- The `n`-th lookup, and the `n`-th attempt to connect, whoever makes it. -/
structure World where
  resolver : Nat → List Char → Except String (List IP)
  dialer : Nat → List Char → Except String Unit

/-- What a call does next; `n` counts the effects so far. -/
def advance (world : World) (n : Nat) : Stage → Stage × List Effect
  | .entered address =>
    match splitHostPort address with
    | .error reason => (.returned (.error (.invalidAddress address reason)), [])
    | .ok (host, port) =>
      let answer := world.resolver n host
      match resolveAndValidateCallbackHost host answer with
      | .error error => (.returned (.error error), [.lookup host answer])
      | .ok ips => (.dialling port ips none, [.lookup host answer])
  | .dialling _ [] lastErr => (.returned (.error (.connectionFailed lastErr)), [])
  | .dialling port (ip :: remaining) _ =>
    let target := joinHostPort ip.text port
    match world.dialer n target with
    | .ok () => (.returned (.ok target), [.dial target (.ok ())])
    | .error reason => (.dialling port remaining (some reason), [.dial target (.error reason)])
  | .returned result => (.returned result, [])

structure Transport where
  calls : Store Nat Stage := fun _ => none
  effects : Nat := 0

inductive Event where
  /-- The transport calls its `DialContext`; a number that is taken stands for no new call. -/
  | dialContext (call : Nat) (address : List Char)
  /-- The goroutine of a call runs to its next effect. -/
  | run (call : Nat)

def step (world : World) (t : Transport) : Event → Transport × List (Nat × Effect)
  | .dialContext call address =>
    match t.calls call with
    | none => ({ t with calls := write t.calls call (.entered address) }, [])
    | some _ => (t, [])
  | .run call =>
    match t.calls call with
    | none => (t, [])
    | some stage =>
      let next := advance world t.effects stage
      ({ calls := write t.calls call next.1, effects := t.effects + next.2.length },
        next.2.map fun effect => (call, effect))

def ofCall (call : Nat) (trace : List (Nat × Effect)) : List Effect :=
  (trace.filter (·.1 = call)).map (·.2)

def DialsOneOf (ips : List IP) : Effect → Prop
  | .lookup _ _ => False
  | .dial address _ => ∃ ip ∈ ips, ∃ port, endpoint address = some (to16 ip.bytes, port)

/-- A call makes one lookup before anything else.  It connects to addresses of that lookup only,
and only if all of them pass the check and none is forbidden. -/
def Guarded : List Effect → Prop
  | [] => True
  | .dial _ _ :: _ => False
  | .lookup _ answer :: attempts =>
    attempts ≠ [] → ∃ ips, answer = .ok ips ∧
      (∀ ip ∈ ips, checkBlockedIP ip = .ok () ∧ ¬ Forbidden ip) ∧
      ∀ attempt ∈ attempts, DialsOneOf ips attempt

variable {host : List Char} {ips : List IP} {stage : Stage} {world : World} {n call : Nat}
  {t : Transport} {past : List (Nat × Effect)}

theorem checkAll_ok (ok : checkAll host ips = .ok ()) : ∀ ip ∈ ips, checkBlockedIP ip = .ok () := by
  induction ips with
  | nil => exact fun ip mem => absurd mem not_mem_nil
  | cons first ips ih =>
    unfold checkAll at ok
    cases checked : checkBlockedIP first with
    | error reason =>
      rw [checked] at ok
      cases ok
    | ok passed =>
      rw [checked] at ok
      intro ip mem
      rcases mem_cons.mp mem with rfl | later
      · exact checked
      · exact ih ok ip later

theorem resolveAndValidate_ok {answer : Except String (List IP)}
    (ok : resolveAndValidateCallbackHost host answer = .ok ips) :
    answer = .ok ips ∧ ∀ ip ∈ ips, checkBlockedIP ip = .ok () := by
  cases answer with
  | error reason => cases ok
  | ok found =>
    unfold resolveAndValidateCallbackHost at ok
    dsimp only at ok
    by_cases none : found = []
    · rw [if_pos none] at ok
      cases ok
    · rw [if_neg none] at ok
      cases checked : checkAll host found with
      | error error =>
        rw [checked] at ok
        cases ok
      | ok passed =>
        rw [checked] at ok
        cases ok
        exact ⟨rfl, checkAll_ok checked⟩

def Done : Stage → List Effect → Prop
  | .entered _, past => past = []
  | .dialling port remaining _, past =>
    PlainPort port ∧ ∃ host ips attempts, past = .lookup host (.ok ips) :: attempts ∧
      (∀ ip ∈ ips, checkBlockedIP ip = .ok ()) ∧ remaining ⊆ ips ∧
      ∀ attempt ∈ attempts, DialsOneOf ips attempt
  | .returned _, past => Guarded past

theorem guarded_of_checked {attempts : List Effect}
    (passed : ∀ ip ∈ ips, checkBlockedIP ip = .ok ())
    (within : ∀ attempt ∈ attempts, DialsOneOf ips attempt) :
    Guarded (.lookup host (.ok ips) :: attempts) := by
  intro _
  refine ⟨ips, rfl, ?_, within⟩
  intro ip mem
  exact ⟨passed ip mem, (checkBlockedIP_iff ip).mp (passed ip mem)⟩

section

variable {past : List Effect} (call : Nat)

theorem Done.guarded (done : Done stage past) : Guarded past := by
  cases stage with
  | entered address =>
    have nothing : past = [] := done
    rw [nothing]
    exact True.intro
  | dialling port remaining lastErr =>
    obtain ⟨_, host, ips, attempts, rfl, passed, _, within⟩ := done
    exact guarded_of_checked passed within
  | returned result => exact done

theorem enter_done (world : World) (n : Nat) (address : List Char) :
    Done (advance world n (.entered address)).1 (advance world n (.entered address)).2 := by
  cases split : splitHostPort address with
  | error reason =>
    simp only [advance, split]
    exact True.intro
  | ok parts =>
    obtain ⟨host, port⟩ := parts
    cases checked : resolveAndValidateCallbackHost host (world.resolver n host) with
    | error error =>
      simp only [advance, split, checked]
      exact fun attempted => absurd rfl attempted
    | ok ips =>
      obtain ⟨answer, passed⟩ := resolveAndValidate_ok checked
      simp only [advance, split, checked]
      refine ⟨splitHostPort_port split, host, ips, [], ?_, passed,
        fun _ mem => mem, fun attempt none => absurd none not_mem_nil⟩
      rw [answer]

theorem dial_done {port : List Char} {remaining : List IP} {lastErr : Option String}
    (done : Done (.dialling port remaining lastErr) past) :
    Done (advance world n (.dialling port remaining lastErr)).1
      (past ++ (advance world n (.dialling port remaining lastErr)).2) := by
  obtain ⟨plain, host, ips, attempts, rfl, passed, subset, within⟩ := done
  cases remaining with
  | nil =>
    have guarded : Guarded (.lookup host (.ok ips) :: attempts ++ []) := by
      rw [append_nil]
      exact guarded_of_checked passed within
    exact guarded
  | cons ip remaining =>
    -- Whatever the network answers, the attempt went to an address of the lookup.
    have here : ∀ answer,
        ∀ attempt ∈ attempts ++ [Effect.dial (joinHostPort ip.text port) answer],
          DialsOneOf ips attempt := by
      intro answer attempt mem
      rcases mem_append.mp mem with earlier | new
      · exact within attempt earlier
      · rw [mem_singleton.mp new]
        exact ⟨ip, subset mem_cons_self, port, endpoint_joinHostPort ip plain⟩
    cases answer : world.dialer n (joinHostPort ip.text port) with
    | ok connected =>
      have guarded : Guarded (.lookup host (.ok ips) ::
          (attempts ++ [.dial (joinHostPort ip.text port) (.ok ())])) :=
        guarded_of_checked passed (here _)
      simp only [advance, answer]
      exact guarded
    | error reason =>
      simp only [advance, answer]
      refine ⟨plain, host, ips, _, rfl, passed, ?_, here _⟩
      intro other mem
      exact subset (mem_cons_of_mem _ mem)

theorem advance_done (done : Done stage past) :
    Done (advance world n stage).1 (past ++ (advance world n stage).2) := by
  cases stage with
  | entered address =>
    have nothing : past = [] := done
    rw [nothing, nil_append]
    exact enter_done world n address
  | dialling port remaining lastErr => exact dial_done done
  | returned result =>
    have same : past ++ (advance world n (.returned result)).2 = past := append_nil past
    rw [same]
    exact done

theorem ofCall_append (first second : List (Nat × Effect)) :
    ofCall call (first ++ second) = ofCall call first ++ ofCall call second := by
  unfold ofCall
  rw [filter_append, map_append]

theorem ofCall_same (effects : List Effect) :
    ofCall call (effects.map fun effect => (call, effect)) = effects := by
  unfold ofCall
  rw [filter_eq_self.mpr (by simp), map_map]
  exact map_id effects

end

theorem ofCall_other {other : Nat} (different : other ≠ call) (effects : List Effect) :
    ofCall other (effects.map fun effect => (call, effect)) = [] := by
  unfold ofCall
  rw [filter_eq_nil_iff.mpr (by simp [different.symm]), map_nil]

def Consistent (t : Transport) (past : List (Nat × Effect)) : Prop :=
  ∀ call, match t.calls call with
    | none => ofCall call past = []
    | some stage => Done stage (ofCall call past)

section

variable (consistent : Consistent t past)

include consistent

theorem Consistent.of_none (fresh : t.calls call = none) : ofCall call past = [] := by
  have holds := consistent call
  rw [fresh] at holds
  exact holds

theorem Consistent.of_some (stands : t.calls call = some stage) :
    Done stage (ofCall call past) := by
  have holds := consistent call
  rw [stands] at holds
  exact holds

theorem Consistent.update {new : List (Nat × Effect)}
    (others : ∀ other, other ≠ call → ofCall other new = [])
    (done : Done stage (ofCall call (past ++ new))) :
    Consistent { calls := write t.calls call stage, effects := n } (past ++ new) := by
  intro other
  by_cases same : other = call
  · rw [same]
    dsimp only
    rw [write_same]
    exact done
  · dsimp only
    rw [write_other same, ofCall_append, others other same, append_nil]
    exact consistent other

theorem step_consistent (event : Event) :
    Consistent (step world t event).1 (past ++ (step world t event).2) := by
  cases event with
  | dialContext call address =>
    cases found : t.calls call with
    | none =>
      simp only [step, found]
      refine consistent.update (fun other _ => rfl) ?_
      rw [append_nil]
      exact consistent.of_none found
    | some stage =>
      simp only [step, found, append_nil]
      exact consistent
  | run call =>
    cases found : t.calls call with
    | none =>
      simp only [step, found, append_nil]
      exact consistent
    | some stage =>
      simp only [step, found]
      refine consistent.update (fun other different => ofCall_other different _) ?_
      rw [ofCall_append, ofCall_same]
      exact advance_done (consistent.of_some found)

end

theorem run_consistent (world : World) (consistent : Consistent t past) (events : List Event) :
    Consistent (run (step world) t events).1 (past ++ (run (step world) t events).2) := by
  induction events generalizing t past with
  | nil =>
    rw [run_nil, append_nil]
    exact consistent
  | cons event events ih =>
    rw [run_cons_state, run_cons_output, ← append_assoc]
    exact ih (step_consistent consistent event)

theorem Consistent.guarded (consistent : Consistent t past) (call : Nat) :
    Guarded (ofCall call past) := by
  cases found : t.calls call with
  | none =>
    rw [consistent.of_none found]
    exact True.intro
  | some stage => exact (consistent.of_some found).guarded

/-- Whatever the addresses, the resolver's answers, the network and the interleaving of the
calls, every call connects to checked addresses of its only lookup. -/
theorem dials_guarded (world : World) (events : List Event) (call : Nat) :
    Guarded (ofCall call (run (step world) {} events).2) := by
  have start : Consistent {} [] := fun _ => rfl
  have reached := run_consistent world start events
  exact reached.guarded call

def publicIP : IP := ⟨[203, 0, 113, 7], Or.inl rfl⟩

def loopbackIP : IP := ⟨[127, 0, 0, 1], Or.inl rfl⟩

/-- A resolver that turns to the loopback address after the first lookup; the network takes
every connection. -/
def rebinding : World where
  resolver n _ := .ok (if n = 0 then [publicIP] else [publicIP, loopbackIP])
  dialer _ _ := .ok ()

/-- The first call connects to the address it looked up.  The second sees the loopback address
in its own lookup and connects to nothing. -/
example : ((run (step rebinding) {} [.dialContext 0 "a.example:443".toList,
      .dialContext 1 "a.example:443".toList, .run 0, .run 0, .run 1, .run 1]).2.map fun entry =>
        match entry with
        | (call, .dial address _) => (call, some (String.ofList address))
        | (call, .lookup _ _) => (call, none)) =
    [(0, none), (0, some "203.0.113.7:443"), (1, none)] := by
  decide

end SiprecServer.Sip.CallbackDial
