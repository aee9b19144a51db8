import Mathlib.Data.List.Nodup

/-!
# The LRU cache of the utilities

A cache with a capacity and a time to live for each entry.  Looking an entry up makes it
the most recently used one, unless it has expired: then it is removed.  Setting a new key
evicts the least recently used entries beyond the capacity.
-/

namespace SiprecServer.Util

open List

structure CacheItem (K V : Type) where
  key : K
  value : V
  expiration : Int
deriving DecidableEq

structure LRUCache (K V : Type) where
  -- the most recently used first
  items : List (CacheItem K V)
  maxSize : Nat
  defaultTTL : Int
  distinct : (items.map (·.key)).Nodup

namespace LRUCache

variable {K V : Type}

def new (maxSize : Nat) (defaultTTL : Int) : LRUCache K V :=
  ⟨[], maxSize, defaultTTL, nodup_nil⟩

section

variable (cache : LRUCache K V)

def size : Nat := cache.items.length

/-- All keys; the order of a map's keys is up to the caller's environment. -/
def keys : List K := cache.items.map (·.key)

def clear : LRUCache K V :=
  { cache with items := [], distinct := nodup_nil }

def restrict (keep : CacheItem K V → Bool) : LRUCache K V :=
  { cache with
    items := cache.items.filter keep
    distinct := cache.distinct.sublist (filter_sublist.map _) }

/-- The cleanup goroutine's tick. -/
def removeExpired (now : Int) : LRUCache K V :=
  cache.restrict fun item => decide (now ≤ item.expiration)

end

variable {cache : LRUCache K V} {item : CacheItem K V} {key : K} {now : Int}

theorem eq_of_key {other : CacheItem K V} (inside : item ∈ cache.items)
    (mem : other ∈ cache.items) (same : item.key = other.key) : item = other :=
  inj_on_of_nodup_map cache.distinct inside mem same

variable [DecidableEq K]

section

variable (cache : LRUCache K V)

def delete (key : K) : LRUCache K V :=
  cache.restrict fun item => item.key ≠ key

theorem key_not_mem_delete (key : K) : key ∉ (cache.delete key).items.map (·.key) := by
  intro mem
  obtain ⟨item, inside, rfl⟩ := mem_map.mp mem
  simpa using (mem_filter.mp inside).2

def pushFront (item : CacheItem K V) : LRUCache K V :=
  { cache with
    items := item :: (cache.delete item.key).items
    distinct := nodup_cons.mpr
      ⟨cache.key_not_mem_delete item.key, (cache.delete item.key).distinct⟩ }

/-- Drop the least recently used items beyond the capacity. -/
def evictIfNeeded : LRUCache K V :=
  { cache with
    items := cache.items.take cache.maxSize
    distinct := cache.distinct.sublist ((take_sublist _ _).map _) }

def get (now : Int) (key : K) : Option V × LRUCache K V :=
  match cache.items.find? (·.key = key) with
  | none => (none, cache)
  | some item =>
    if item.expiration < now then (none, cache.delete key)
    else (some item.value, cache.pushFront item)

def setWithTTL (now : Int) (key : K) (value : V) (ttl : Int) : LRUCache K V :=
  let item : CacheItem K V := ⟨key, value, now + ttl⟩
  if key ∈ cache.keys then cache.pushFront item
  else (cache.pushFront item).evictIfNeeded

def set (now : Int) (key : K) (value : V) : LRUCache K V :=
  cache.setWithTTL now key value cache.defaultTTL

end

/-! ## What the operations keep -/

@[simp]
theorem mem_delete : item ∈ (cache.delete key).items ↔ item ∈ cache.items ∧ item.key ≠ key := by
  simp [delete, restrict]

@[simp]
theorem mem_pushFront {other : CacheItem K V} : other ∈ (cache.pushFront item).items ↔
      other = item ∨ other ∈ cache.items ∧ other.key ≠ item.key := by
  simp [pushFront]

theorem get_cases (cache : LRUCache K V) (now : Int) (key : K) :
    ((∀ item ∈ cache.items, item.key ≠ key) ∧ cache.get now key = (none, cache)) ∨
    ∃ item ∈ cache.items, item.key = key ∧
      (item.expiration < now ∧ cache.get now key = (none, cache.delete key) ∨
        now ≤ item.expiration ∧ cache.get now key = (some item.value, cache.pushFront item)) := by
  unfold get
  cases found : cache.items.find? (·.key = key) with
  | none =>
    refine .inl ⟨fun item mem same => ?_, rfl⟩
    simpa [same] using find?_eq_none.mp found item mem
  | some item =>
    have same : item.key = key := by simpa using find?_some found
    refine .inr ⟨item, mem_of_find?_eq_some found, same, ?_⟩
    by_cases expired : item.expiration < now
    · exact .inl ⟨expired, if_pos expired⟩
    · exact .inr ⟨Int.not_lt.mp expired, if_neg expired⟩

theorem get_defaultTTL (cache : LRUCache K V) (now : Int) (key : K) :
    (cache.get now key).2.defaultTTL = cache.defaultTTL := by
  obtain ⟨-, result⟩ | ⟨found, -, -, ⟨-, result⟩ | ⟨-, result⟩⟩ := cache.get_cases now key
  all_goals exact congrArg (·.2.defaultTTL) result

theorem mem_get_items : item ∈ (cache.get now key).2.items ↔
      item ∈ cache.items ∧ ¬(item.key = key ∧ item.expiration < now) := by
  obtain ⟨absent, result⟩ | ⟨found, inside, rfl, ⟨expired, result⟩ | ⟨live, result⟩⟩ :=
    cache.get_cases now key
  · rw [result]
    exact ⟨fun mem => ⟨mem, fun is => absent item mem is.1⟩, And.left⟩
  · rw [result, mem_delete]
    refine and_congr_right fun mem => ⟨mt And.left, fun kept same => kept ⟨same, ?_⟩⟩
    exact cache.eq_of_key mem inside same ▸ expired
  · rw [result, mem_pushFront]
    constructor
    · rintro (rfl | ⟨mem, other⟩)
      · exact ⟨inside, fun is => absurd is.2 (Int.not_lt.mpr live)⟩
      · exact ⟨mem, fun is => other is.1⟩
    · rintro ⟨mem, -⟩
      by_cases same : item.key = found.key
      · exact .inl (cache.eq_of_key mem inside same)
      · exact .inr ⟨mem, same⟩

theorem get_eq_some_iff {value : V} : (cache.get now key).1 = some value ↔
      ∃ item ∈ cache.items, item.key = key ∧ item.value = value ∧ now ≤ item.expiration := by
  obtain ⟨absent, result⟩ | ⟨found, inside, rfl, ⟨expired, result⟩ | ⟨live, result⟩⟩ :=
    cache.get_cases now key
  · rw [result]
    refine iff_of_false (Option.some_ne_none value).symm ?_
    rintro ⟨item, mem, same, -⟩
    exact absent item mem same
  · rw [result]
    refine iff_of_false (Option.some_ne_none value).symm ?_
    rintro ⟨item, mem, same, -, live⟩
    rw [cache.eq_of_key mem inside same] at live
    exact absurd expired (Int.not_lt.mpr live)
  · rw [result, Option.some.injEq]
    constructor
    · rintro rfl
      exact ⟨found, inside, rfl, rfl, live⟩
    · rintro ⟨item, mem, same, rfl, -⟩
      rw [cache.eq_of_key mem inside same]

theorem mem_set_items {value : V} (mem : item ∈ (cache.set now key value).items) :
    item = ⟨key, value, now + cache.defaultTTL⟩ ∨ item ∈ cache.items := by
  unfold set setWithTTL at mem
  have front {item : CacheItem K V}
      (mem : item ∈ (cache.pushFront ⟨key, value, now + cache.defaultTTL⟩).items) :
      item = ⟨key, value, now + cache.defaultTTL⟩ ∨ item ∈ cache.items :=
    (mem_pushFront.mp mem).imp id And.left
  split at mem
  · exact front mem
  · exact front (mem_of_mem_take mem)

theorem set_defaultTTL (cache : LRUCache K V) (now : Int) (key : K) (value : V) :
    (cache.set now key value).defaultTTL = cache.defaultTTL := by
  unfold set setWithTTL
  split <;> rfl

end LRUCache

end SiprecServer.Util
