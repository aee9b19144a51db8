import Mathlib.Data.List.Infix
import SiprecServer.Lib.ExchangeSort
import SiprecServer.Lib.FileSystem
import SiprecServer.Lib.Transducer
import SiprecServer.Siprec.RsMetadata

/-!
# Recording policies

A policy manager holds rules by ID and, for every session evaluated since it was last
cleared, the decision.  A decision that is not held is made from the first of the matching
rules after sorting by priority, and the rules come in the order in which the map is gone
through.  Held decisions are returned whatever has become of the rules.
-/

namespace SiprecServer.Siprec.Policy

open Lib.ExchangeSort Lib.FileSystem Lib.Text Lib.Transducer Siprec.Metadata List

/-! ## Rules -/

inductive PolicyAction
  | record
  | noRecord
  | selective
  | pause
  | resume
  | other (text : String)
deriving DecidableEq

inductive Weekday
  | sunday | monday | tuesday | wednesday | thursday | friday | saturday
deriving DecidableEq

structure TimeRange where
  startHour : Int
  endHour : Int
  days : List Weekday := []
deriving DecidableEq

structure PolicyCriteria where
  participantAOR : List String := []
  participantRole : List String := []
  sessionType : List String := []
  direction : List String := []
  timeRanges : List TimeRange := []
deriving DecidableEq

structure MediaFilter where
  allowAudio : Bool := false
  allowVideo : Bool := false
  allowText : Bool := false
deriving DecidableEq

structure PolicyRule where
  id : String
  name : String := ""
  priority : Int := 0
  action : PolicyAction
  matchCriteria : PolicyCriteria := {}
  mediaFilter : MediaFilter := {}
  retentionDays : Int := 0
  enabled : Bool := false
deriving DecidableEq

structure PolicyDecision where
  action : PolicyAction
  policyID : String := ""
  reason : String := ""
  allowAudio : Bool
  allowVideo : Bool
  allowText : Bool
  retentionDays : Int := 0
  priority : Int := 0
  timestamp : Nat
deriving DecidableEq

structure RecordingSession where
  id : String
  direction : String := ""
  recordingType : String := ""
deriving DecidableEq

structure Moment where
  instant : Nat
  hour : Int
  weekday : Weekday
deriving DecidableEq

structure Library where
  toLower : String → String
  equalFold : String → String → Bool

def isInTimeRange (now : Moment) (range : TimeRange) : Bool :=
  if range.days ≠ [] ∧ now.weekday ∉ range.days then false
  else if range.startHour ≤ range.endHour then
    range.startHour ≤ now.hour ∧ now.hour < range.endHour
  else range.startHour ≤ now.hour ∨ now.hour < range.endHour

section Matching

variable (library : Library)

def matchPattern (value pattern : String) : Bool :=
  let text := pattern.toList
  if pattern = "*" then true
  else if text.head? = some '*' ∧ text.getLast? = some '*' then
    text.tail.dropLast <:+: value.toList
  else if text.head? = some '*' then text.tail <:+ value.toList
  else if text.getLast? = some '*' then text.dropLast <+: value.toList
  else library.equalFold value pattern

def matchesAOR (patterns : List String) (metadata : RSMetadata) : Bool :=
  metadata.participants.any fun participant => participant.aor.any fun aor =>
    patterns.any fun pattern =>
      matchPattern library aor.value pattern || matchPattern library aor.uri pattern

def matchesRole (roles : List String) (metadata : RSMetadata) : Bool :=
  metadata.participants.any fun participant => roles.any fun role =>
    library.toLower (trimSpace participant.role) = library.toLower role

/-- A criterion that names nothing is met, and so is one about data that is not there. -/
def meets {α : Type} (named : List String) (data : Option α) (test : α → Bool) : Bool :=
  match data with
  | none => true
  | some data => named = [] || test data

def ruleMatches (rule : PolicyRule) (now : Moment) (session : Option RecordingSession)
    (metadata : Option RSMetadata) : Bool :=
  let criteria := rule.matchCriteria
  (criteria.timeRanges = [] || criteria.timeRanges.any (isInTimeRange now)) &&
    meets criteria.participantAOR metadata (matchesAOR library criteria.participantAOR) &&
    meets criteria.participantRole metadata (matchesRole library criteria.participantRole) &&
    meets criteria.direction session (fun session => criteria.direction.any fun direction =>
      library.equalFold session.direction direction || direction = "both") &&
    meets criteria.sessionType session fun session => criteria.sessionType.any fun type =>
      library.equalFold session.recordingType type

end Matching

/-! ## The manager -/

structure PolicyManager where
  rules : List (String × PolicyRule) := []
  sessionPolicies : Store String PolicyDecision := empty
  defaultAction : PolicyAction

def newPolicyManager (defaultAction : PolicyAction) : PolicyManager :=
  { defaultAction := if defaultAction = .other "" then .record else defaultAction }

structure RuleOrder where
  order : List PolicyRule → List PolicyRule
  isPerm : ∀ rules, (order rules).Perm rules

namespace PolicyManager

section

variable (m : PolicyManager)

def addRule : Option PolicyRule → Except String PolicyManager
  | none => .error "rule cannot be nil"
  | some rule =>
    if rule.id = "" then .error "rule ID cannot be empty"
    else .ok { m with rules := m.rules.filter (·.1 ≠ rule.id) ++ [(rule.id, rule)] }

def removeRule (ruleID : String) : PolicyManager :=
  { m with rules := m.rules.filter (·.1 ≠ ruleID) }

/-- A rule is changed in place by those who got it from `GetRule`. -/
def changeRule (ruleID : String) (change : PolicyRule → PolicyRule) : PolicyManager :=
  { m with rules := m.rules.map fun (id, rule) => (id, if id = ruleID then change rule else rule) }

def clearSessionPolicies (sessionID : String) : PolicyManager :=
  { m with sessionPolicies := remove m.sessionPolicies sessionID }

def cached : Option RecordingSession → Option PolicyDecision
  | none => none
  | some session => if session.id = "" then none else m.sessionPolicies session.id

def cache (decision : PolicyDecision) : Option RecordingSession → PolicyManager
  | none => m
  | some session =>
    if session.id = "" then m
    else { m with sessionPolicies := write m.sessionPolicies session.id decision }

def defaultDecision (now : Moment) : PolicyDecision :=
  { action := m.defaultAction
    allowAudio := true
    allowVideo := true
    allowText := true
    timestamp := now.instant }

end

end PolicyManager

def PolicyRule.decision (rule : PolicyRule) (now : Moment) : PolicyDecision :=
  { action := rule.action
    policyID := rule.id
    reason := rule.name
    allowAudio := rule.mediaFilter.allowAudio
    allowVideo := rule.mediaFilter.allowVideo
    allowText := rule.mediaFilter.allowText
    retentionDays := rule.retentionDays
    priority := rule.priority
    timestamp := now.instant }

section Evaluation

variable (library : Library)

structure Query where
  now : Moment
  session : Option RecordingSession
  metadata : Option RSMetadata

def Query.selects (query : Query) (rule : PolicyRule) : Bool :=
  rule.enabled && ruleMatches library rule query.now query.session query.metadata

def PolicyManager.evaluateSession (m : PolicyManager) (order : RuleOrder) (query : Query) :
    PolicyManager × PolicyDecision :=
  match m.cached query.session with
  | some decision => (m, decision)
  | none =>
    let matchingRules := (order.order (m.rules.map Prod.snd)).filter (query.selects library)
    let decision :=
      match exchangeSort PolicyRule.priority matchingRules with
      | [] => m.defaultDecision query.now
      | rule :: _ => rule.decision query.now
    (m.cache decision query.session, decision)

inductive Operation
  | addRule (rule : Option PolicyRule)
  | removeRule (ruleID : String)
  | changeRule (ruleID : String) (change : PolicyRule → PolicyRule)
  | clearSessionPolicies (sessionID : String)
  | evaluateSession (order : RuleOrder) (query : Query)

def step (m : PolicyManager) : Operation → PolicyManager × List PolicyDecision
  | .addRule rule => ((m.addRule rule).toOption.getD m, [])
  | .removeRule ruleID => (m.removeRule ruleID, [])
  | .changeRule ruleID change => (m.changeRule ruleID change, [])
  | .clearSessionPolicies sessionID => (m.clearSessionPolicies sessionID, [])
  | .evaluateSession order query =>
    let (next, decision) := m.evaluateSession library order query
    (next, [decision])

def PolicyManager.selected (m : PolicyManager) (query : Query) : List PolicyRule :=
  (m.rules.map Prod.snd).filter (query.selects library)

def Foremost (rules : List PolicyRule) (rule : PolicyRule) : Prop :=
  rule ∈ rules ∧ ∀ other ∈ rules, other.priority ≤ rule.priority

/-- The action of a matching rule of maximal priority, or the default if none matches. -/
def Mandates (m : PolicyManager) (query : Query) (action : PolicyAction) : Prop :=
  (m.selected library query = [] ∧ action = m.defaultAction) ∨
    ∃ rule, Foremost (m.selected library query) rule ∧ action = rule.action

structure FollowsRules (m : PolicyManager) (query : Query) : Prop where
  mandated : ∀ order, Mandates library m query (m.evaluateSession library order query).2.action
  orderFree : ∀ order other, (m.evaluateSession library order query).2 =
    (m.evaluateSession library other query).2

def EvaluationsFollow (m : PolicyManager) (operations : List Operation) : Prop :=
  Along (step library) (fun m operation =>
    match operation with
    | .evaluateSession _ query => FollowsRules library m query
    | _ => True) m operations

/-- A held decision is that of a foremost rule, or the default one if no rule applies, and without
one no two foremost rules decide apart. -/
def Unambiguous (m : PolicyManager) (query : Query) : Prop :=
  match m.cached query.session with
  | some decision =>
    (m.selected library query = [] ∧ decision.action = m.defaultAction) ∨
      ∃ rule, Foremost (m.selected library query) rule ∧ decision.action = rule.action
  | none => ∀ rule other, Foremost (m.selected library query) rule →
      Foremost (m.selected library query) other → rule.decision query.now = other.decision query.now

end Evaluation

section Evaluated

variable {library : Library} {m : PolicyManager} {query : Query}

theorem evaluate_cached {decision : PolicyDecision} (held : m.cached query.session = some decision)
    (order : RuleOrder) : (m.evaluateSession library order query).2 = decision := by
  rw [PolicyManager.evaluateSession, held]

theorem evaluate_fresh (fresh : m.cached query.session = none) (order : RuleOrder) :
    (m.selected library query = [] ∧
        (m.evaluateSession library order query).2 = m.defaultDecision query.now) ∨
      ∃ rule, Foremost (m.selected library query) rule ∧
        (m.evaluateSession library order query).2 = rule.decision query.now := by
  have perm := (order.isPerm (m.rules.map Prod.snd)).filter (query.selects library)
  rw [PolicyManager.evaluateSession, fresh]
  dsimp only
  obtain ⟨none_match, sorted⟩ | ⟨best, others, sorted, mem, greatest⟩ :=
    exchangeSort_cases PolicyRule.priority
      ((order.order (m.rules.map Prod.snd)).filter (query.selects library))
  · rw [none_match] at perm
    rw [sorted]
    exact .inl ⟨perm.nil_eq.symm, rfl⟩
  · rw [sorted]
    exact .inr ⟨best, ⟨perm.subset mem, fun other selected =>
      greatest other (perm.symm.subset selected)⟩, rfl⟩

def RuleOrder.first (rule : PolicyRule) : RuleOrder where
  order rules := if rule ∈ rules then rule :: rules.erase rule else rules
  isPerm rules := by
    split
    case isTrue member => exact (perm_cons_erase member).symm
    case isFalse => exact .refl _

theorem evaluate_first (fresh : m.cached query.session = none) {rule : PolicyRule}
    (foremost : Foremost (m.selected library query) rule) :
    (m.evaluateSession library (.first rule) query).2 = rule.decision query.now := by
  obtain ⟨mem, selects⟩ := mem_filter.mp foremost.1
  have matching : ((RuleOrder.first rule).order (m.rules.map Prod.snd)).filter
      (query.selects library) =
        rule :: ((m.rules.map Prod.snd).erase rule).filter (query.selects library) := by
    have arranged : (RuleOrder.first rule).order (m.rules.map Prod.snd) =
        rule :: (m.rules.map Prod.snd).erase rule := if_pos mem
    rw [arranged, filter_cons_of_pos selects]
  have greatest : ∀ other ∈ ((m.rules.map Prod.snd).erase rule).filter (query.selects library),
      other.priority ≤ rule.priority := by
    intro other kept
    obtain ⟨left, selected⟩ := mem_filter.mp kept
    exact foremost.2 other (mem_filter.mpr ⟨mem_of_mem_erase left, selected⟩)
  obtain ⟨others, sorted⟩ := exchangeSort_of_greatest PolicyRule.priority greatest
  rw [PolicyManager.evaluateSession, fresh]
  dsimp only
  rw [matching, sorted]

theorem followsRules_iff : FollowsRules library m query ↔ Unambiguous library m query := by
  unfold Unambiguous
  cases held : m.cached query.session with
  | some decision =>
    constructor
    · intro follows
      have mandated := follows.mandated (.first { id := "", action := .record })
      rwa [evaluate_cached held] at mandated
    · intro mandated
      exact ⟨fun order => by rwa [evaluate_cached held],
        fun order other => by rw [evaluate_cached held, evaluate_cached held]⟩
  | none =>
    constructor
    · intro follows rule other foremost foremost'
      rw [← evaluate_first held foremost, ← evaluate_first held foremost']
      exact follows.orderFree _ _
    · intro agree
      constructor
      · intro order
        obtain ⟨none_selected, decided⟩ | ⟨rule, foremost, decided⟩ :=
          @evaluate_fresh library m query held order
        · exact .inl ⟨none_selected, by rw [decided]; rfl⟩
        · exact .inr ⟨rule, foremost, by rw [decided]; rfl⟩
      · intro order other
        obtain ⟨none_selected, decided⟩ | ⟨rule, foremost, decided⟩ :=
          @evaluate_fresh library m query held order <;>
        obtain ⟨none_selected', decided'⟩ | ⟨rule', foremost', decided'⟩ :=
          @evaluate_fresh library m query held other
        · rw [decided, decided']
        · cases none_selected ▸ foremost'.1
        · cases none_selected' ▸ foremost.1
        · rw [decided, decided', agree rule rule' foremost foremost']

end Evaluated

/-- Every evaluation of a run follows the rules of its time if and only if at each of them the
rules leave no doubt and what is held is not outdated. -/
theorem evaluations_follow_iff (library : Library) (defaultAction : PolicyAction)
    (operations : List Operation) :
    EvaluationsFollow library (newPolicyManager defaultAction) operations ↔
      Along (step library) (fun m operation =>
        match operation with
        | .evaluateSession _ query => Unambiguous library m query
        | _ => True) (newPolicyManager defaultAction) operations := by
  refine along_congr fun m operation => ?_
  cases operation with
  | evaluateSession order query => exact followsRules_iff
  | addRule | removeRule | changeRule | clearSessionPolicies => exact Iff.rfl

/-- A session that was evaluated keeps its decision when a rule forbids recording, and of two
rules with one priority the order in which they come decides. -/
theorem held_decision_outlives_rules :
    let library : Library := ⟨id, fun text other => text = other⟩
    let query : Query := ⟨⟨0, 12, .monday⟩, some { id := "session" }, none⟩
    let forbid : PolicyRule := { id := "a", priority := 10, action := .noRecord, enabled := true }
    let permit : PolicyRule := { id := "b", priority := 10, action := .record, enabled := true }
    let asStored : RuleOrder := ⟨id, fun _ => .refl _⟩
    let reversed : RuleOrder := ⟨List.reverse, reverse_perm⟩
    let start := newPolicyManager .record
    let before := (run (step library) start
      [.evaluateSession asStored query, .addRule (some forbid)]).1
    let tied := (run (step library) start [.addRule (some forbid), .addRule (some permit)]).1
    before.selected library query = [forbid] ∧
      (before.evaluateSession library asStored query).2.action = .record ∧
      (tied.evaluateSession library asStored query).2.action = .noRecord ∧
      (tied.evaluateSession library reversed query).2.action = .record := by
  decide +kernel

end SiprecServer.Siprec.Policy
