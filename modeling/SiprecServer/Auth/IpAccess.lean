import SiprecServer.Lib.IpAddress

/-!
# Access by address

A controller holds single addresses as they were spelled and networks as they were parsed.  A
query is answered from its text and its address: blocked entries come first, then allowed
ones, then the default.  A single-address entry counts only for queries spelled like it, so
what is answered depends on spellings unless the single-address entries make no difference.
-/

namespace SiprecServer.Auth

open Lib.IpAddress List

structure IPAccessController where
  allowedNetworks : List IPNet := []
  blockedNetworks : List IPNet := []
  allowedIPs : List String := []
  blockedIPs : List String := []
  defaultAllow : Bool
deriving DecidableEq

namespace IPAccessController

section

variable (c : IPAccessController) (ipAddr : String)

def addAllowedIP : Except String IPAccessController :=
  if parseIP ipAddr = none then .error ("invalid IP address: " ++ ipAddr)
  else .ok { c with allowedIPs := c.allowedIPs.insert ipAddr }

def addBlockedIP : Except String IPAccessController :=
  if parseIP ipAddr = none then .error ("invalid IP address: " ++ ipAddr)
  else .ok { c with blockedIPs := c.blockedIPs.insert ipAddr }

def addAllowedNetwork (cidr : String) : Except String IPAccessController :=
  match parseCIDR cidr with
  | none => .error ("invalid CIDR: " ++ cidr)
  | some network => .ok { c with allowedNetworks := c.allowedNetworks ++ [network] }

def addBlockedNetwork (cidr : String) : Except String IPAccessController :=
  match parseCIDR cidr with
  | none => .error ("invalid CIDR: " ++ cidr)
  | some network => .ok { c with blockedNetworks := c.blockedNetworks ++ [network] }

def isAllowed : Bool :=
  match parseIP ipAddr with
  | none => false
  | some parsedIP =>
    if ipAddr ∈ c.blockedIPs then false
    else if c.blockedNetworks.any (·.contains parsedIP) then false
    else if ipAddr ∈ c.allowedIPs then true
    else if c.allowedNetworks.any (·.contains parsedIP) then true
    else c.defaultAllow

end

end IPAccessController

inductive AccessEntry
  | allowedIP (text : String)
  | blockedIP (text : String)
  | allowedNetwork (text : String)
  | blockedNetwork (text : String)
deriving DecidableEq

variable (c : IPAccessController)

def IPAccessController.add : AccessEntry → Except String IPAccessController
  | .allowedIP text => c.addAllowedIP text
  | .blockedIP text => c.addBlockedIP text
  | .allowedNetwork text => c.addAllowedNetwork text
  | .blockedNetwork text => c.addBlockedNetwork text

/-- A new controller with some entries; one that is refused changes nothing. -/
def configured (defaultAllow : Bool) (entries : List AccessEntry) : IPAccessController :=
  entries.foldl (fun c entry => (c.add entry).toOption.getD c) { defaultAllow }

inductive Coverage
  | address (ip : Bytes)
  | network (covered : Network)

def Coverage.Covers : Coverage → Bytes → Prop
  | .address covered, ip => covered = ip
  | .network covered, ip => covered.Covers ip

structure AccessRule where
  blocks : Bool
  coverage : Coverage

def AccessEntry.rule : AccessEntry → Option AccessRule
  | .allowedIP text => (parseIP text).map fun ip => ⟨false, .address ip⟩
  | .blockedIP text => (parseIP text).map fun ip => ⟨true, .address ip⟩
  | .allowedNetwork text => (cidrNetwork text).map fun covered => ⟨false, .network covered⟩
  | .blockedNetwork text => (cidrNetwork text).map fun covered => ⟨true, .network covered⟩

def Covered (rules : List AccessRule) (blocks : Bool) (ip : Bytes) : Prop :=
  ∃ rule ∈ rules, rule.blocks = blocks ∧ rule.coverage.Covers ip

def Permitted (rules : List AccessRule) (defaultAllow : Bool) (ip : Bytes) : Prop :=
  ¬ Covered rules true ip ∧ (Covered rules false ip ∨ defaultAllow = true)

def rules (entries : List AccessEntry) : List AccessRule := entries.filterMap AccessEntry.rule

def Respelled (entries others : List AccessEntry) : Prop :=
  entries.map AccessEntry.rule = others.map AccessEntry.rule

/-- The answers depend on addresses only, and no address is allowed that an entry blocks. -/
structure AnswersByAddress (defaultAllow : Bool) (entries : List AccessEntry) : Prop where
  spelling : ∀ others, Respelled entries others → ∀ s t, parseIP s = parseIP t →
    (configured defaultAllow entries).isAllowed s = (configured defaultAllow others).isAllowed t
  blocked : ∀ s ip, parseIP s = some ip → Covered (rules entries) true ip →
    (configured defaultAllow entries).isAllowed s = false

def AccessEntry.Sees (text : String) : AccessEntry → Prop
  | .allowedIP spelled | .blockedIP spelled => text = spelled
  | .allowedNetwork _ | .blockedNetwork _ => True

def AccessEntry.Catches (entry : AccessEntry) (blocks : Bool) (text : String) (ip : Bytes) : Prop :=
  entry.Sees text ∧ ∃ rule, entry.rule = some rule ∧ rule.blocks = blocks ∧ rule.coverage.Covers ip

def IPAccessController.Lists : (blocks : Bool) → (text : String) → (ip : Bytes) → Prop
  | true, text, ip => text ∈ c.blockedIPs ∨ c.blockedNetworks.any (·.contains ip) = true
  | false, text, ip => text ∈ c.allowedIPs ∨ c.allowedNetworks.any (·.contains ip) = true

variable {text : String} {ip : Bytes}

open IPAccessController

theorem isAllowed_iff (parsed : parseIP text = some ip) :
    c.isAllowed text = true ↔
      ¬ c.Lists true text ip ∧ (c.Lists false text ip ∨ c.defaultAllow = true) := by
  unfold isAllowed IPAccessController.Lists
  rw [parsed]
  by_cases blockedIP : text ∈ c.blockedIPs
  · simp [blockedIP]
  · by_cases blockedNetwork : c.blockedNetworks.any (·.contains ip) = true
    · simp [blockedIP, blockedNetwork]
    · simp only [blockedIP, blockedNetwork, if_false, or_false, not_false_eq_true, true_and,
        Bool.false_eq_true]
      split
      · simp [*]
      · split <;> simp [*]

theorem single_catches {spelled : String} (parsed : parseIP text = some ip) (own blocks : Bool) :
    (text = spelled ∧ ∃ rule, ((parseIP spelled).map fun ip => AccessRule.mk own (.address ip)) =
        some rule ∧ rule.blocks = blocks ∧ rule.coverage.Covers ip) ↔
      own = blocks ∧ text = spelled := by
  constructor
  · rintro ⟨same, rule, denoted, side, -⟩
    obtain ⟨covered, -, rfl⟩ := Option.map_eq_some_iff.mp denoted
    exact ⟨side, same⟩
  · rintro ⟨rfl, rfl⟩
    exact ⟨rfl, _, congrArg (Option.map _) parsed, rfl, rfl⟩

theorem network_catches (cidr : String) (ip : Bytes) (own blocks : Bool) :
    (True ∧ ∃ rule, ((cidrNetwork cidr).map fun covered => AccessRule.mk own (.network covered)) =
        some rule ∧ rule.blocks = blocks ∧ rule.coverage.Covers ip) ↔
      own = blocks ∧ ∃ net, parseCIDR cidr = some net ∧ net.contains ip = true := by
  obtain ⟨refused, absent⟩ | ⟨net, covered, parsed, denoted, contains⟩ :=
    parseCIDR_cidrNetwork cidr
  · simp [refused, absent]
  · simp [parsed, denoted, contains, Coverage.Covers]

open AccessEntry

theorem add_lists (entry : AccessEntry) (blocks : Bool) (parsed : parseIP text = some ip) :
    ((c.add entry).toOption.getD c).Lists blocks text ip ↔
      c.Lists blocks text ip ∨ entry.Catches blocks text ip := by
  have refusedText {spelled : String} (refused : parseIP spelled = none) : text ≠ spelled := by
    rintro rfl
    cases refused.symm.trans parsed
  unfold Catches Sees rule
  cases entry with
  | allowedIP spelled =>
    rw [single_catches parsed, add, addAllowedIP]
    split
    case isTrue refused => simp [Except.toOption, refusedText refused]
    case isFalse =>
      cases blocks <;>
        simp [Except.toOption, IPAccessController.Lists, or_assoc, or_comm]
  | blockedIP spelled =>
    rw [single_catches parsed, add, addBlockedIP]
    split
    case isTrue refused => simp [Except.toOption, refusedText refused]
    case isFalse =>
      cases blocks <;>
        simp [Except.toOption, IPAccessController.Lists, or_assoc, or_comm]
  | allowedNetwork cidr =>
    rw [network_catches, add, addAllowedNetwork]
    cases cidrParsed : parseCIDR cidr with
    | none => simp [Except.toOption]
    | some net => cases blocks <;> simp [Except.toOption, IPAccessController.Lists, or_assoc]
  | blockedNetwork cidr =>
    rw [network_catches, add, addBlockedNetwork]
    cases cidrParsed : parseCIDR cidr with
    | none => simp [Except.toOption]
    | some net => cases blocks <;> simp [Except.toOption, IPAccessController.Lists, or_assoc]

theorem add_defaultAllow (entry : AccessEntry) :
    ((c.add entry).toOption.getD c).defaultAllow = c.defaultAllow := by
  cases entry <;>
    simp only [add, addAllowedIP,
      addBlockedIP, addAllowedNetwork,
      addBlockedNetwork] <;>
    split <;> rfl

variable (defaultAllow : Bool) (entries : List AccessEntry)

theorem configured_lists (blocks : Bool)
    (parsed : parseIP text = some ip) : (configured defaultAllow entries).Lists blocks text ip ↔
      ∃ entry ∈ entries, entry.Catches blocks text ip := by
  have from_any (c : IPAccessController) :
      (entries.foldl (fun c entry => (c.add entry).toOption.getD c) c).Lists blocks text ip ↔
        c.Lists blocks text ip ∨ ∃ entry ∈ entries, entry.Catches blocks text ip := by
    induction entries generalizing c with
    | nil => simp
    | cons entry entries ih =>
      rw [foldl_cons, ih, add_lists c entry blocks parsed]
      simp [or_assoc]
  have empty : ¬ ({ defaultAllow } : IPAccessController).Lists blocks text ip := by
    cases blocks <;> simp [IPAccessController.Lists]
  exact (from_any _).trans (or_iff_right empty)

theorem configured_defaultAllow :
    (configured defaultAllow entries).defaultAllow = defaultAllow := by
  have from_any (c : IPAccessController) :
      (entries.foldl (fun c entry => (c.add entry).toOption.getD c) c).defaultAllow =
        c.defaultAllow := by
    induction entries generalizing c with
    | nil => rfl
    | cons entry entries ih => rw [foldl_cons, ih, add_defaultAllow]
  exact from_any _

theorem configured_isAllowed_iff
    (parsed : parseIP text = some ip) : (configured defaultAllow entries).isAllowed text = true ↔
      (¬ ∃ entry ∈ entries, entry.Catches true text ip) ∧
        ((∃ entry ∈ entries, entry.Catches false text ip) ∨ defaultAllow = true) := by
  rw [isAllowed_iff _ parsed, configured_lists _ _ _ parsed, configured_lists _ _ _ parsed,
    configured_defaultAllow]

/-! ## Spellings -/

def AccessRule.isNetwork (rule : AccessRule) : Bool :=
  match rule.coverage with
  | .address _ => false
  | .network _ => true

def keeping (keep : Bool → Bool) (rules : List AccessRule) : List AccessRule :=
  rules.filter fun rule => rule.isNetwork || keep rule.blocks

/-- The single-address entries for an address in another spelling: `s` where they are kept and
`t` where not. -/
def AccessEntry.respell (ip : Bytes) (keep : Bool → Bool) (s t : String) : AccessEntry → AccessEntry
  | .allowedIP text =>
    .allowedIP (if parseIP text = some ip then if keep false then s else t else text)
  | .blockedIP text =>
    .blockedIP (if parseIP text = some ip then if keep true then s else t else text)
  | .allowedNetwork text => .allowedNetwork text
  | .blockedNetwork text => .blockedNetwork text

section Respelling

variable {ip : Bytes} {s t : String} (keep : Bool → Bool)

section

variable (first : parseIP s = some ip) (second : parseIP t = some ip)

include first second

theorem parseIP_respelled (kept : Bool) (text : String) :
    parseIP (if parseIP text = some ip then if kept then s else t else text) = parseIP text := by
  split
  case isTrue same => cases kept <;> simp [first, second, same]
  case isFalse => rfl

theorem respell_rule (entry : AccessEntry) : (entry.respell ip keep s t).rule = entry.rule := by
  cases entry <;>
    simp only [respell, rule, parseIP_respelled first second]

theorem respelled (entries : List AccessEntry) :
    Respelled entries (entries.map (respell ip keep s t)) := by
  unfold Respelled
  rw [map_map]
  exact map_congr_left fun entry _ => (respell_rule keep first second entry).symm

end

theorem respell_sees (different : s ≠ t) {entry : AccessEntry} {rule : AccessRule}
    (denoted : entry.rule = some rule) (covers : rule.coverage.Covers ip) :
    (entry.respell ip keep s t).Sees s ↔ (rule.isNetwork || keep rule.blocks) = true := by
  cases entry with
  | allowedIP text =>
    obtain ⟨covered, parsed, rfl⟩ := Option.map_eq_some_iff.mp denoted
    cases covers
    cases kept : keep false <;>
      simp [respell, Sees, AccessRule.isNetwork, parsed, kept, different]
  | blockedIP text =>
    obtain ⟨covered, parsed, rfl⟩ := Option.map_eq_some_iff.mp denoted
    cases covers
    cases kept : keep true <;>
      simp [respell, Sees, AccessRule.isNetwork, parsed, kept, different]
  | allowedNetwork text | blockedNetwork text =>
    obtain ⟨covered, -, rfl⟩ := Option.map_eq_some_iff.mp denoted
    simp [respell, Sees, AccessRule.isNetwork]

end Respelling

theorem covered_keeping (keep : Bool → Bool) (entries : List AccessEntry) (blocks : Bool)
    (ip : Bytes) :
    Covered (keeping keep (rules entries)) blocks ip ↔
      ∃ entry ∈ entries, ∃ rule, entry.rule = some rule ∧
        (rule.isNetwork || keep rule.blocks) = true ∧ rule.blocks = blocks ∧
          rule.coverage.Covers ip := by
  constructor
  · rintro ⟨rule, kept, side, covers⟩
    obtain ⟨mem, kept⟩ := mem_filter.mp kept
    obtain ⟨entry, inside, denoted⟩ := mem_filterMap.mp mem
    exact ⟨entry, inside, rule, denoted, kept, side, covers⟩
  · rintro ⟨entry, inside, rule, denoted, kept, side, covers⟩
    exact ⟨rule, mem_filter.mpr ⟨mem_filterMap.mpr ⟨entry, inside, denoted⟩, kept⟩, side, covers⟩

theorem keeping_all (rules : List AccessRule) : keeping (fun _ => true) rules = rules := by
  simp [keeping]

variable {blocks : Bool} {ip : Bytes} {entries : List AccessEntry}

theorem Covered.kept {keep : Bool → Bool} {rules : List AccessRule}
    (covered : Covered rules blocks ip) (keeps : keep blocks = true) :
    Covered (keeping keep rules) blocks ip := by
  obtain ⟨rule, mem, rfl, covers⟩ := covered
  exact ⟨rule, mem_filter.mpr ⟨mem, by simp [keeps]⟩, rfl, covers⟩

theorem Covered.networks {keep : Bool → Bool} {rules : List AccessRule}
    (covered : Covered (keeping keep rules) blocks ip) (drops : keep blocks = false) :
    Covered (keeping (fun _ => false) rules) blocks ip := by
  obtain ⟨rule, mem, rfl, covers⟩ := covered
  obtain ⟨mem, kept⟩ := mem_filter.mp mem
  rw [drops] at kept
  exact ⟨rule, mem_filter.mpr ⟨mem, kept⟩, rfl, covers⟩

/-- Entries spelled apart from a query answer as if they were left out. -/
theorem respelled_isAllowed_iff (keep : Bool → Bool) (defaultAllow : Bool)
    (entries : List AccessEntry) {s t : String} (different : s ≠ t) (first : parseIP s = some ip)
    (second : parseIP t = some ip) :
    (configured defaultAllow (entries.map (respell ip keep s t))).isAllowed s = true ↔
      Permitted (keeping keep (rules entries)) defaultAllow ip := by
  have caught (blocks : Bool) :
      (∃ entry ∈ entries.map (respell ip keep s t), entry.Catches blocks s ip) ↔
        Covered (keeping keep (rules entries)) blocks ip := by
    rw [covered_keeping]
    simp only [mem_map, exists_exists_and_eq_and]
    refine exists_congr fun entry => and_congr_right fun _ => ?_
    unfold Catches
    rw [respell_rule keep first second]
    constructor
    · rintro ⟨sees, rule, denoted, side, covers⟩
      exact ⟨rule, denoted, (respell_sees keep different denoted covers).mp sees, side, covers⟩
    · rintro ⟨rule, denoted, kept, side, covers⟩
      exact ⟨(respell_sees keep different denoted covers).mpr kept, rule, denoted, side, covers⟩
  rw [configured_isAllowed_iff _ _ first, caught, caught]
  rfl

theorem Covered.of_catches {text : String}
    (caught : ∃ entry ∈ entries, entry.Catches blocks text ip) :
    Covered (rules entries) blocks ip := by
  obtain ⟨entry, inside, -, rule, denoted, side, covers⟩ := caught
  exact ⟨rule, mem_filterMap.mpr ⟨entry, inside, denoted⟩, side, covers⟩

theorem catches_of_network (covered : Covered (keeping (fun _ => false) (rules entries)) blocks ip)
    (text : String) : ∃ entry ∈ entries, entry.Catches blocks text ip := by
  obtain ⟨entry, inside, rule, denoted, network, side, covers⟩ :=
    (covered_keeping _ _ _ _).mp covered
  refine ⟨entry, inside, ?_, rule, denoted, side, covers⟩
  cases entry with
  | allowedIP text | blockedIP text =>
    obtain ⟨covered, -, rfl⟩ := Option.map_eq_some_iff.mp denoted
    cases network
  | allowedNetwork text | blockedNetwork text => trivial

theorem rules_of_respelled {others : List AccessEntry} (same : Respelled entries others) :
    rules entries = rules others := by
  have through_map (entries : List AccessEntry) :
      rules entries = (entries.map rule).filterMap id := by
    rw [filterMap_map]
    rfl
  rw [through_map, through_map, same]

/-- If the single addresses make no difference, every spelling is answered by its address. -/
theorem isAllowed_iff_permitted {defaultAllow : Bool} {text : String}
    (parsed : parseIP text = some ip)
    (idle : ∀ keep, Permitted (keeping keep (rules entries)) defaultAllow ip ↔
      Permitted (rules entries) defaultAllow ip) :
    (configured defaultAllow entries).isAllowed text = true ↔
      Permitted (rules entries) defaultAllow ip := by
  rw [configured_isAllowed_iff _ _ parsed]
  constructor
  · rintro ⟨unblocked, allowed⟩
    -- the networks do not block, and leaving out the single blocked addresses changes nothing
    refine (idle fun blocks => !blocks).mp ⟨fun covered => unblocked ?_, ?_⟩
    · exact catches_of_network (covered.networks rfl) text
    · exact allowed.imp_left fun caught => (Covered.of_catches caught).kept rfl
  · intro permitted
    refine ⟨fun blocked => permitted.1 (Covered.of_catches blocked), ?_⟩
    obtain ⟨-, allowed⟩ := (idle fun _ => false).mpr permitted
    exact allowed.imp_left fun covered => catches_of_network covered text

/-- The answers depend on addresses only, and respect every blocked entry, if and only if no
answer changes when the single addresses of either list are left out. -/
theorem answers_by_address_iff (defaultAllow : Bool) (entries : List AccessEntry) :
    AnswersByAddress defaultAllow entries ↔
      ∀ ip : Bytes, ip.length = 16 → ∀ keep : Bool → Bool,
        (Permitted (keeping keep (rules entries)) defaultAllow ip ↔
          Permitted (rules entries) defaultAllow ip) := by
  constructor
  · intro answers ip sixteen keep
    obtain ⟨s, t, different, first, second⟩ := exists_spellings sixteen
    have alike (keep : Bool → Bool) :
        (configured defaultAllow entries).isAllowed s = true ↔
          Permitted (keeping keep (rules entries)) defaultAllow ip := by
      rw [answers.spelling _ (respelled keep first second entries) s s rfl]
      exact respelled_isAllowed_iff keep defaultAllow entries different first second
    have all := alike fun _ => true
    rw [keeping_all] at all
    exact (alike keep).symm.trans all
  · intro idle
    have by_address {others : List AccessEntry} (same : Respelled entries others) {s : String}
        {ip : Bytes} (parsed : parseIP s = some ip) :
        (configured defaultAllow others).isAllowed s = true ↔
          Permitted (rules entries) defaultAllow ip := by
      have idle_here := idle ip (parseIP_length parsed)
      rw [rules_of_respelled same] at idle_here ⊢
      exact isAllowed_iff_permitted parsed idle_here
    constructor
    · intro others same s t alike
      cases parsed : parseIP s with
      | none =>
        have refused := alike.symm.trans parsed
        simp only [isAllowed, parsed, refused]
      | some ip =>
        rw [Bool.eq_iff_iff, by_address rfl parsed, by_address same (alike.symm.trans parsed)]
    · intro s ip parsed blocked
      rw [Bool.eq_false_iff, ne_eq, by_address rfl parsed]
      exact fun permitted => permitted.1 blocked

/-- A blocked address is allowed in its IPv4-mapped form. -/
theorem blocked_address_respelled :
    Covered (rules [.blockedIP "10.0.0.1"]) true (v4InV6Prefix ++ [10, 0, 0, 1]) ∧
      parseIP "::ffff:10.0.0.1" = some (v4InV6Prefix ++ [10, 0, 0, 1]) ∧
      (configured true [.blockedIP "10.0.0.1"]).isAllowed "10.0.0.1" = false ∧
      (configured true [.blockedIP "10.0.0.1"]).isAllowed "::ffff:10.0.0.1" = true := by
  have plain : parseIP "10.0.0.1" = some (v4InV6Prefix ++ [10, 0, 0, 1]) := by decide +kernel
  refine ⟨⟨⟨true, .address (v4InV6Prefix ++ [10, 0, 0, 1])⟩, ?_, rfl, rfl⟩, ?_, ?_, ?_⟩
  · simp [rules, rule, plain]
  all_goals decide +kernel

end SiprecServer.Auth
