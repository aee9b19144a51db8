import Mathlib.Data.List.Induction

/-!
# Hash chains

Entries that carry their own hash and the hash of the entry before them.  With a hash that
has no collisions, the last hash of a linked chain stands for all of its entries.
-/

namespace SiprecServer.Lib.HashChain

open List

variable {Entry Hash : Type}

/-- How entries carry hashes.  An entry is sealed if the hash it carries is that of its
contents, the hash before it included. -/
structure Scheme (Entry Hash : Type) where
  prev : Entry → Hash
  hash : Entry → Hash
  start : Hash
  Sealed : Entry → Prop
  determined : ∀ {a b : Entry}, Sealed a → Sealed b → hash a = hash b → a = b
  fresh : ∀ {a : Entry}, Sealed a → hash a ≠ start

variable (scheme : Scheme Entry Hash)

def hashOf (entry : Option Entry) : Hash := (entry.map scheme.hash).getD scheme.start

def Linked : (before : Option Entry) → List Entry → Prop
  | _, [] => True
  | before, entry :: entries =>
    scheme.prev entry = hashOf scheme before ∧ scheme.Sealed entry ∧ Linked (some entry) entries

variable {scheme}

theorem hashOf_inj {a b : Option Entry} (sealedA : ∀ entry ∈ a, scheme.Sealed entry)
    (sealedB : ∀ entry ∈ b, scheme.Sealed entry) :
    hashOf scheme a = hashOf scheme b ↔ a = b := by
  constructor
  · intro same
    cases a with
    | none =>
      cases b with
      | none => rfl
      | some entry => exact absurd same.symm (scheme.fresh (sealedB entry rfl))
    | some first =>
      cases b with
      | none => exact absurd same (scheme.fresh (sealedA first rfl))
      | some second =>
        exact congrArg some (scheme.determined (sealedA first rfl) (sealedB second rfl) same)
  · intro same
    rw [same]

variable {entries : List Entry}

theorem linked_append_singleton {before : Option Entry} {entry : Entry} :
    Linked scheme before (entries ++ [entry]) ↔
      Linked scheme before entries ∧
        scheme.prev entry = hashOf scheme (entries.getLast?.or before) ∧ scheme.Sealed entry := by
  induction entries generalizing before with
  | nil => simp [Linked]
  | cons first rest ih =>
    have last : (first :: rest).getLast?.or before = rest.getLast?.or (some first) := by
      cases rest with
      | nil => rfl
      | cons second rest => rw [getLast?_cons_cons, getLast?_cons, Option.some_or, Option.some_or]
    rw [cons_append, last]
    unfold Linked
    rw [ih, and_assoc, and_assoc]

theorem Linked.sealed {before : Option Entry} (linked : Linked scheme before entries) :
    ∀ entry ∈ entries, scheme.Sealed entry := by
  induction entries generalizing before with
  | nil => exact fun entry mem => absurd mem not_mem_nil
  | cons first rest ih =>
    intro entry mem
    rcases mem_cons.mp mem with rfl | later
    · exact linked.2.1
    · exact ih linked.2.2 entry later

theorem Linked.last_sealed (linked : Linked scheme none entries) :
    ∀ entry ∈ entries.getLast?, scheme.Sealed entry := by
  intro entry last
  exact linked.sealed entry (mem_of_getLast? last)

theorem Linked.determined_by_last {first second : List Entry}
    (linkedFirst : Linked scheme none first) (linkedSecond : Linked scheme none second)
    (same : hashOf scheme first.getLast? = hashOf scheme second.getLast?) : first = second := by
  have sameLast : first.getLast? = second.getLast? :=
    (hashOf_inj linkedFirst.last_sealed linkedSecond.last_sealed).mp same
  -- From the end: equal last entries carry equal hashes of what stands before them.
  induction first using List.reverseRecOn generalizing second with
  | nil => exact (getLast?_eq_none_iff.mp sameLast.symm).symm
  | append_singleton front entry ih =>
    rcases eq_nil_or_concat second with empty | ⟨back, other, isConcat⟩
    · rw [empty, getLast?_concat] at sameLast
      cases sameLast
    · rw [concat_eq_append] at isConcat
      subst isConcat
      rw [getLast?_concat, getLast?_concat] at sameLast
      obtain rfl : entry = other := Option.some.inj sameLast
      obtain ⟨linkedFront, prevFront, _⟩ := linked_append_singleton.mp linkedFirst
      obtain ⟨linkedBack, prevBack, _⟩ := linked_append_singleton.mp linkedSecond
      rw [Option.or_none] at prevFront prevBack
      have sameBefore : hashOf scheme front.getLast? = hashOf scheme back.getLast? :=
        prevFront.symm.trans prevBack
      have shorter := ih linkedFront linkedBack sameBefore
        ((hashOf_inj linkedFront.last_sealed linkedBack.last_sealed).mp sameBefore)
      rw [shorter]

end SiprecServer.Lib.HashChain
