import SiprecServer.Lib.FileSystem

/-!
# Records under keys that their owners choose

Every owner has at most one open record, and a registry holds the open records by a key
that the record carries.  As long as no two open records have the same key, the registry
answers for each owner as if it had a registry of its own.
-/

namespace SiprecServer.Lib.Registry

open Lib.FileSystem

variable {Owner Key Record : Type}

structure Registers (key : Record → Key) (opened : Store Owner Record)
    (registry : Store Key Record) : Prop where
  found : ∀ {owner record}, opened owner = some record → registry (key record) = some record
  owned : ∀ {name record}, registry name = some record →
    key record = name ∧ ∃ owner, opened owner = some record
  distinct : ∀ {first second record other}, opened first = some record →
    opened second = some other → key record = key other → first = second

namespace Registers

variable {key : Record → Key} {opened : Store Owner Record} {registry : Store Key Record}
  {owner : Owner} {record : Record}

variable (registers : Registers key opened registry)

include registers

theorem key_ne (fresh : registry (key record) = none) {other : Record}
    (isOpen : opened owner = some other) : key other ≠ key record := by
  intro same
  have present := registers.found isOpen
  rw [same, fresh] at present
  cases present

theorem other_key (isOpen : opened owner = some record) {other : Owner} {found : Record}
    (different : other ≠ owner) (isOpen' : opened other = some found) : key found ≠ key record :=
  fun same => different (registers.distinct isOpen' isOpen same)

variable [DecidableEq Owner] [DecidableEq Key]

theorem enter (idle : opened owner = none) (fresh : registry (key record) = none) :
    Registers key (write opened owner record) (write registry (key record) record) where
  found {other found} isOpen := by
    obtain ⟨rfl, rfl⟩ | ⟨-, isOpen⟩ := write_eq_some_iff.mp isOpen
    · exact write_same
    · rw [write_other (registers.key_ne fresh isOpen)]
      exact registers.found isOpen
  owned {name found} isFound := by
    obtain ⟨rfl, rfl⟩ | ⟨-, isFound⟩ := write_eq_some_iff.mp isFound
    · exact ⟨rfl, owner, write_same⟩
    · obtain ⟨isKey, other, isOpen⟩ := registers.owned isFound
      refine ⟨isKey, other, ?_⟩
      rw [write_other, isOpen]
      rintro rfl
      rw [idle] at isOpen
      cases isOpen
  distinct {first second one other} isOpen isOpen' sameKey := by
    obtain ⟨isFirst, rfl⟩ | ⟨-, isOpen⟩ := write_eq_some_iff.mp isOpen <;>
      obtain ⟨isSecond, rfl⟩ | ⟨-, isOpen'⟩ := write_eq_some_iff.mp isOpen'
    · rw [isFirst, isSecond]
    · exact absurd sameKey.symm (registers.key_ne fresh isOpen')
    · exact absurd sameKey (registers.key_ne fresh isOpen)
    · exact registers.distinct isOpen isOpen' sameKey

theorem leave (isOpen : opened owner = some record) :
    Registers key (remove opened owner) (remove registry (key record)) where
  found {other found} isOpen' := by
    obtain ⟨different, isOpen'⟩ := remove_eq_some_iff.mp isOpen'
    rw [remove_other (registers.other_key isOpen different isOpen')]
    exact registers.found isOpen'
  owned {name found} isFound := by
    obtain ⟨different, isFound⟩ := remove_eq_some_iff.mp isFound
    obtain ⟨isKey, other, isOpen'⟩ := registers.owned isFound
    refine ⟨isKey, other, remove_eq_some_iff.mpr ⟨?_, isOpen'⟩⟩
    rintro rfl
    rw [isOpen] at isOpen'
    cases isOpen'
    exact different isKey.symm
  distinct isOpen' isOpen'' sameKey :=
    registers.distinct (remove_eq_some_iff.mp isOpen').2 (remove_eq_some_iff.mp isOpen'').2 sameKey

end Registers

end SiprecServer.Lib.Registry
