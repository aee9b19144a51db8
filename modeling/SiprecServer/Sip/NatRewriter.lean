import SiprecServer.Lib.IpAddress

/-!
# Addresses in outgoing responses

`RewriteOutgoingResponse` puts the external address and port into the Via, Contact and
Record-Route entries of a response.  The host of an entry is tested before it is replaced; the
port is replaced untested.
-/

namespace SiprecServer.Sip.NatRewriter

open Lib.IpAddress

inductive HeaderKind where
  | via | contact | recordRoute

structure NATConfig where
  behindNAT : Bool
  internalIP : String
  externalPort : Int
  /-- `RewriteVia`, `RewriteContact` and `RewriteRecordRoute`. -/
  rewrites : HeaderKind → Bool
  forceRewrite : Bool

/-- A rewriter with the external address that it knows; `equalFold` is `strings.EqualFold`. -/
structure NATRewriter where
  config : NATConfig
  externalIP : String
  equalFold : String → String → Bool

structure Entry where
  host : String
  port : Int

abbrev Response := HeaderKind → List Entry

def containsPrivateIP (input : String) : Bool :=
  ["192.168.", "10.", "172.16.", "172.17.", "172.18.", "172.19.", "172.2", "172.30.", "172.31.",
    "127."].any fun start => decide (start.toList <:+: input.toList)

def privateNetworks : List IPNet :=
  ["10.0.0.0/8", "172.16.0.0/12", "192.168.0.0/16", "127.0.0.0/8"].filterMap parseCIDR

def isPrivateIPOptimized (ip : Bytes) : Bool := privateNetworks.any fun network =>
  network.contains ip

namespace NATRewriter

section Rewriting

variable (rewriter : NATRewriter)

def shouldRewriteHost (host : String) : Bool :=
  if host = "" then false
  else if rewriter.equalFold host rewriter.config.internalIP then true
  else if rewriter.config.forceRewrite then containsPrivateIP host
  else false

def updateURIHost (uri : Entry) : Entry :=
  { host := if rewriter.shouldRewriteHost uri.host then rewriter.externalIP else uri.host
    port := if rewriter.config.externalPort ≠ 0 then rewriter.config.externalPort else uri.port }

/-- The update of a header; `updateViaHeader` repeats the statements of `updateURIHost`. -/
def update : HeaderKind → Entry → Entry
  | .via => rewriter.updateURIHost
  | .contact => rewriter.updateURIHost
  | .recordRoute => rewriter.updateURIHost

/-- The guards at the head of `RewriteOutgoingResponse`. -/
def Active : Prop :=
  (rewriter.config.behindNAT = true ∨ rewriter.config.forceRewrite = true) ∧
    rewriter.config.internalIP ≠ "" ∧ rewriter.externalIP ≠ ""

instance : Decidable rewriter.Active := inferInstanceAs (Decidable (_ ∧ _))

def rewriteOutgoingResponse (response : Response) : Response := fun kind =>
  if rewriter.Active ∧ rewriter.config.rewrites kind then
    (response kind).map (rewriter.update kind)
  else response kind

def Internal (host : String) : Prop :=
  host ≠ "" ∧ (rewriter.equalFold host rewriter.config.internalIP = true ∨
    rewriter.config.forceRewrite = true ∧
      ∃ ip, parseIP host = some ip ∧ isPrivateIPOptimized ip = true)

/-- The entries of the response with any other host are found unchanged in their places. -/
def KeepsOthers (response : Response) : Prop :=
  ∀ (kind : HeaderKind) (i : Nat) (entry : Entry), (response kind)[i]? = some entry →
    ¬ rewriter.Internal entry.host →
    (rewriter.rewriteOutgoingResponse response kind)[i]? = some entry

/-- No external port replaces another one, and forced rewriting does not find the beginning of a
private address in the host. -/
def Spares (entry : Entry) : Prop :=
  (rewriter.config.externalPort ≠ 0 → entry.port = rewriter.config.externalPort) ∧
    (rewriter.config.forceRewrite = true → containsPrivateIP entry.host = true →
      entry.host = rewriter.externalIP)

end Rewriting

variable {rewriter : NATRewriter}

theorem shouldRewriteHost_iff {host : String} (other : ¬ rewriter.Internal host) :
    rewriter.shouldRewriteHost host = true ↔
      rewriter.config.forceRewrite = true ∧ containsPrivateIP host = true := by
  unfold shouldRewriteHost
  split
  · rename_i empty
    subst empty
    have nothing : containsPrivateIP "" = false := by decide
    simp [nothing]
  · rename_i named
    rw [if_neg fun same => other ⟨named, .inl same⟩]
    split
    · rename_i forced
      exact (and_iff_right forced).symm
    · rename_i unforced
      exact iff_of_false Bool.false_ne_true fun wrong => unforced wrong.1

theorem update_eq_iff (kind : HeaderKind) {entry : Entry} (other : ¬ rewriter.Internal entry.host) :
    rewriter.update kind entry = entry ↔ rewriter.Spares entry := by
  have same : rewriter.update kind entry = rewriter.updateURIHost entry := by cases kind <;> rfl
  obtain ⟨host, port⟩ := entry
  rw [same]
  simp only [updateURIHost, Spares, Entry.mk.injEq, ite_eq_right_iff, shouldRewriteHost_iff other,
    and_imp, eq_comm (a := rewriter.externalIP), eq_comm (a := rewriter.config.externalPort)]
  exact and_comm

/-- A response keeps all other entries exactly if rewriting is off or spares them, for every kind
of header that is rewritten. -/
theorem response_keepsOthers_iff (rewriter : NATRewriter) (response : Response) :
    rewriter.KeepsOthers response ↔
      ∀ kind, rewriter.Active ∧ rewriter.config.rewrites kind = true →
        ∀ entry ∈ response kind, ¬ rewriter.Internal entry.host → rewriter.Spares entry := by
  refine forall_congr' fun kind => ?_
  dsimp only [rewriteOutgoingResponse]
  by_cases rewritten : rewriter.Active ∧ rewriter.config.rewrites kind = true
  · rw [if_pos rewritten, forall_prop_of_true rewritten]
    constructor
    · intro keeps entry member other
      obtain ⟨i, found⟩ := List.mem_iff_getElem?.mp member
      have kept := keeps i entry found other
      rw [List.getElem?_map, found] at kept
      exact (update_eq_iff kind other).mp (Option.some.inj kept)
    · intro spares i entry found other
      have kept := spares entry (List.mem_of_getElem? found) other
      rw [List.getElem?_map, found, Option.map_some, (update_eq_iff kind other).mpr kept]
  · rw [if_neg rewritten]
    exact iff_of_true (fun _ _ found _ => found) fun wrong => absurd wrong rewritten

/-- The Via entry of another node gets the port of this one. -/
theorem foreign_via_port_changed : let rewriter : NATRewriter :=
      { config := ⟨true, "192.168.1.5", 5080, fun _ => true, false⟩
        externalIP := "203.0.113.5"
        equalFold := fun first second => first == second }
    ¬ rewriter.KeepsOthers fun _ => [⟨"198.51.100.7", 5060⟩] := by
  intro rewriter keeps
  have other : ¬ rewriter.Internal "198.51.100.7" := by
    rintro ⟨-, same | ⟨forced, -⟩⟩
    · exact absurd same (by decide)
    · cases forced
  have kept := keeps .via 0 _ rfl other
  revert kept
  simp [rewriter, rewriteOutgoingResponse, Active, update, updateURIHost]

end NATRewriter

end SiprecServer.Sip.NatRewriter
