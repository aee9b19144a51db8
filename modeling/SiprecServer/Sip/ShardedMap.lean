import Mathlib.Data.List.AList
import Mathlib.Data.Set.Card
import SiprecServer.Lib.FileSystem
import SiprecServer.Lib.Transducer

/-!
# The sharded map

Keys are distributed over shards by a hash of 32 bits.  The map refines a single one: whatever
the requested number of shards, every key has its place in one of them.
-/

namespace SiprecServer.Sip.Sharding

open Lib.FileSystem Lib.Transducer List

abbrev Key := List UInt8

abbrev Items (V : Type) := AList fun _ : Key => V

abbrev Item (V : Type) := Sigma fun _ : Key => V

structure ShardedMap (V : Type) (shardCount : Nat) where
  shards : Fin shardCount → Items V
  shardMask : UInt32
  inRange : shardMask.toNat < shardCount

/-- Sixteen shards unless the request is a power of two. -/
def usedCount (shardCount : Int) : Nat :=
  if shardCount ≤ 0 ∨ shardCount.toNat &&& (shardCount.toNat - 1) ≠ 0 then 16
  else shardCount.toNat

def newShardedMap (V : Type) (shardCount : Int) : ShardedMap V (usedCount shardCount) where
  shards _ := ∅
  shardMask := UInt32.ofNat (usedCount shardCount - 1)
  inRange := by
    have positive : 0 < usedCount shardCount := by
      unfold usedCount
      split <;> omega
    have masked : (usedCount shardCount - 1) % 2 ^ 32 ≤ usedCount shardCount - 1 := Nat.mod_le _ _
    rw [UInt32.toNat_ofNat']
    omega

/-- FNV-1a. -/
def hash (key : Key) : UInt32 :=
  key.foldl (fun hash byte => (hash ^^^ byte.toUInt32) * 16777619) 2166136261

/-- Go visits a map in any order. -/
structure MapOrder (V : Type) where
  order : Items V → List (Item V)
  isPerm : ∀ items, (order items).Perm items.entries

variable {V : Type} {shardCount : Nat}

namespace ShardedMap

variable (sm : ShardedMap V shardCount) (key : Key) (order : MapOrder V)

def getShard : Fin shardCount :=
  ⟨(hash key &&& sm.shardMask).toNat, by
    rw [UInt32.toNat_and]
    exact Nat.lt_of_le_of_lt Nat.and_le_right sm.inRange⟩

def edit (change : Items V → Items V) : ShardedMap V shardCount :=
  { sm with
    shards := Function.update sm.shards (sm.getShard key) (change (sm.shards (sm.getShard key))) }

def store (value : V) : ShardedMap V shardCount := sm.edit key (AList.insert key value)

def load : Option V := (sm.shards (sm.getShard key)).lookup key

def delete : ShardedMap V shardCount := sm.edit key (AList.erase key)

def count : Nat :=
  ((List.finRange shardCount).map fun shard => (sm.shards shard).entries.length).sum

/-- What a loop over the shards comes across. -/
def visited : List (Item V) :=
  (List.finRange shardCount).flatMap fun shard => order.order (sm.shards shard)

def keys : List Key := (sm.visited order).map (·.1)

/-- Pass items to a function until it stops the loop; `goesOn` is what it returns after some. -/
def rangeOver (goesOn : List (Item V) → Bool) : List (Item V) → List (Item V) → List (Item V)
  | seen, [] => seen
  | seen, item :: rest =>
    if goesOn (seen ++ [item]) then rangeOver goesOn (seen ++ [item]) rest else seen ++ [item]

def range (goesOn : List (Item V) → Bool) : List (Item V) :=
  rangeOver goesOn [] (sm.visited order)

end ShardedMap

inductive Operation (V : Type) where
  | store (key : Key) (value : V)
  | load (key : Key)
  | delete (key : Key)

def step (sm : ShardedMap V shardCount) : Operation V → ShardedMap V shardCount × List (Option V)
  | .store key value => (sm.store key value, [])
  | .load key => (sm, [sm.load key])
  | .delete key => (sm.delete key, [])

/-! ## A single map -/

def singleStep (m : Store Key V) : Operation V → Store Key V × List (Option V)
  | .store key value => (write m key value, [])
  | .load key => (m, [m key])
  | .delete key => (remove m key, [])

/-- A key has in its own shard what the single map holds, and nothing in the others. -/
def Represents (sm : ShardedMap V shardCount) (m : Store Key V) : Prop :=
  ∀ shard key, (sm.shards shard).lookup key = if shard = sm.getShard key then m key else none

def ListsKeys (m : Store Key V) (keys : List Key) : Prop :=
  keys.Nodup ∧ ∀ key, key ∈ keys ↔ (m key).isSome

open ShardedMap

section Representation

variable {sm : ShardedMap V shardCount} {m : Store Key V} (represents : Represents sm m)

include represents

theorem Represents.edit {key : Key} {change : Items V → Items V} {after : Store Key V}
    (own : ∀ items, (change items).lookup key = after key)
    (others : ∀ other, other ≠ key → after other = m other ∧
      ∀ items, (change items).lookup other = items.lookup other) :
    Represents (sm.edit key change) after := by
  intro shard other
  change (Function.update sm.shards _ _ shard).lookup other =
    if shard = sm.getShard other then after other else none
  by_cases isKey : other = key
  · subst isKey
    by_cases isOwn : shard = sm.getShard other
    · rw [isOwn, Function.update_self, own, if_pos rfl]
    · rw [Function.update_of_ne isOwn, represents, if_neg isOwn, if_neg isOwn]
  · obtain ⟨same, kept⟩ := others other isKey
    rw [same, ← represents]
    by_cases isOwn : shard = sm.getShard key
    · rw [isOwn, Function.update_self, kept]
    · rw [Function.update_of_ne isOwn]

theorem step_represents (operation : Operation V) :
    Represents (step sm operation).1 (singleStep m operation).1 ∧
      (step sm operation).2 = (singleStep m operation).2 := by
  cases operation with
  | store key value =>
    refine ⟨represents.edit (fun items => ?_) fun other different => ?_, rfl⟩
    · exact (AList.lookup_insert items).trans write_same.symm
    · exact ⟨write_other different, fun items => AList.lookup_insert_ne different⟩
  | load key =>
    refine ⟨represents, ?_⟩
    simp only [step, singleStep, load, represents (sm.getShard key) key, if_true]
  | delete key =>
    refine ⟨represents.edit (fun items => ?_) fun other different => ?_, rfl⟩
    · exact (AList.lookup_erase key items).trans (if_pos rfl).symm
    · exact ⟨if_neg different, fun items => AList.lookup_erase_ne different⟩

theorem run_represents (operations : List (Operation V)) :
    Represents (run step sm operations).1 (run singleStep m operations).1 ∧
      (run step sm operations).2 = (run singleStep m operations).2 := by
  induction operations generalizing sm m with
  | nil => exact ⟨represents, rfl⟩
  | cons operation operations ih =>
    obtain ⟨kept, answered⟩ := step_represents represents operation
    obtain ⟨later, laterAnswered⟩ := ih kept
    exact ⟨later, by rw [run_cons_output, run_cons_output, answered, laterAnswered]⟩

theorem Represents.mem_shard {shard : Fin shardCount} {key : Key} :
    key ∈ sm.shards shard ↔ shard = sm.getShard key ∧ (m key).isSome := by
  rw [← AList.lookup_isSome, represents]
  by_cases own : shard = sm.getShard key <;> simp [own]

variable (order : MapOrder V)

theorem Represents.listsKeys : ListsKeys m (sm.keys order) := by
  have mem_keys (shard : Fin shardCount) :
      ((order.order (sm.shards shard)).map (·.1)).Perm (sm.shards shard).keys :=
    (order.isPerm _).map _
  have held {shard : Fin shardCount} {key : Key} :
      key ∈ (order.order (sm.shards shard)).map (·.1) ↔
        shard = sm.getShard key ∧ (m key).isSome :=
    (mem_keys shard).mem_iff.trans represents.mem_shard
  rw [ShardedMap.keys, visited, map_flatMap]
  constructor
  · rw [nodup_flatMap]
    refine ⟨fun shard _ => (mem_keys shard).nodup_iff.mpr (sm.shards shard).keys_nodup, ?_⟩
    refine (nodup_finRange _).imp fun different key inFirst inSecond => different ?_
    exact (held.mp inFirst).1.trans (held.mp inSecond).1.symm
  · intro key
    simp [held]

theorem Represents.count_eq : sm.count = Set.ncard { key | (m key).isSome } := by
  obtain ⟨nodup, mem_keys⟩ := represents.listsKeys ⟨AList.entries, fun _ => .refl _⟩
  have held : { key | (m key).isSome } =
      (sm.keys ⟨AList.entries, fun _ => .refl _⟩).toFinset := by
    ext key
    simp [mem_keys]
  rw [held, Set.ncard_coe_finset, toFinset_card_of_nodup nodup]
  simp [ShardedMap.count, ShardedMap.keys, visited, length_flatMap]

end Representation

theorem rangeOver_visits (goesOn : List (Item V) → Bool) (seen items : List (Item V)) :
    rangeOver goesOn seen items <+: seen ++ items ∧
      ((∀ items, goesOn items = true) →
        rangeOver goesOn seen items = seen ++ items) := by
  induction items generalizing seen with
  | nil => simp [rangeOver]
  | cons item rest ih =>
    obtain ⟨begun, all⟩ := ih (seen ++ [item])
    rw [append_assoc, singleton_append] at begun all
    unfold rangeOver
    split
    · exact ⟨begun, all⟩
    case isFalse stops => exact ⟨⟨rest, by simp⟩, fun always => absurd (always _) stops⟩

/-- After any operations the shards have answered as one map does; every key is in one shard, and
counting, listing and ranging go over the keys of that map, each once. -/
theorem shardedMap_refines (shardCount : Int) (operations : List (Operation V))
    (order : MapOrder V) :
    let sharded := run step (newShardedMap V shardCount) operations
    let single := run singleStep empty operations
    sharded.2 = single.2 ∧
      (∀ key, (single.1 key).isSome → ∃! shard, key ∈ sharded.1.shards shard) ∧
      sharded.1.count = Set.ncard { key | (single.1 key).isSome } ∧
      ListsKeys single.1 (sharded.1.keys order) ∧
      (∀ goesOn, sharded.1.range order goesOn <+: sharded.1.visited order) ∧
      ListsKeys single.1 ((sharded.1.range order fun _ => true).map (·.1)) := by
  have new : Represents (newShardedMap V shardCount) empty := by
    intro shard key
    exact (AList.lookup_empty key).trans (ite_self none).symm
  obtain ⟨represents, answered⟩ := run_represents new operations
  have listed := represents.listsKeys order
  refine ⟨answered, fun key present => ?_, represents.count_eq, listed,
    fun goesOn => (rangeOver_visits goesOn _ _).1, ?_⟩
  · exact ⟨_, represents.mem_shard.mpr ⟨rfl, present⟩, fun other held =>
      (represents.mem_shard.mp held).1⟩
  · rw [ShardedMap.range, (rangeOver_visits _ _ _).2 fun _ => rfl]
    exact listed

end SiprecServer.Sip.Sharding
