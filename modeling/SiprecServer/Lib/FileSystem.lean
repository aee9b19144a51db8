import Mathlib.Data.List.Nodup

/-!
# A store of named contents

A directory tree, a bucket or any other store that maps names to whole contents.
Each operation says what it does to the name it is given; every other name keeps
its contents.
-/

namespace SiprecServer.Lib.FileSystem

open List

variable {Name Content : Type} [DecidableEq Name]

abbrev Store (Name Content : Type) := Name → Option Content

def empty : Store Name Content := fun _ => none

section

variable (store : Store Name Content)

def write (name : Name) (content : Content) : Store Name Content :=
  fun other => if other = name then some content else store other

def remove (name : Name) : Store Name Content :=
  fun other => if other = name then none else store other

def rename (source target : Name) : Store Name Content :=
  match store source with
  | none => store
  | some content => write (remove store source) target content

def writeAll (entries : List (Name × Content)) : Store Name Content :=
  entries.foldl (fun store entry => write store entry.1 entry.2) store

end

variable {store : Store Name Content} {name other : Name} {content : Content}

@[simp]
theorem write_same : write store name content name = some content := if_pos rfl

theorem write_other (different : other ≠ name) :
    write store name content other = store other := if_neg different

theorem write_eq_some_iff {found : Content} :
    write store name content other = some found ↔
      (other = name ∧ content = found) ∨ (other ≠ name ∧ store other = some found) := by
  by_cases same : other = name
  · simp [same]
  · simp [same, write_other same]

theorem write_eq_self_iff : write store name content = store ↔ store name = some content := by
  constructor
  · intro same
    rw [← same, write_same]
  · intro present
    funext other
    by_cases isName : other = name
    · rw [isName, write_same, present]
    · exact write_other isName

@[simp]
theorem remove_same : remove store name name = none := if_pos rfl

theorem remove_other (different : other ≠ name) :
    remove store name other = store other := if_neg different

theorem remove_absent (absent : store name = none) : remove store name = store := by
  funext other
  by_cases same : other = name
  · rw [same, remove_same, absent]
  · exact remove_other same

theorem remove_eq_some_iff :
    remove store name other = some content ↔ other ≠ name ∧ store other = some content := by
  by_cases same : other = name
  · simp [same]
  · simp [same, remove_other same]

variable {entries : List (Name × Content)}

theorem writeAll_cons {entry : Name × Content} :
    writeAll store (entry :: entries) = writeAll (write store entry.1 entry.2) entries := rfl

theorem writeAll_mem (found : writeAll store entries name = some content) :
    store name = some content ∨ (name, content) ∈ entries := by
  induction entries generalizing store with
  | nil => exact Or.inl found
  | cons entry entries ih =>
    rcases ih found with before | later
    · obtain ⟨rfl, rfl⟩ | ⟨-, before⟩ := write_eq_some_iff.mp before
      · exact Or.inr mem_cons_self
      · exact Or.inl before
    · exact Or.inr (mem_cons_of_mem _ later)

theorem writeAll_outside (outside : name ∉ entries.map Prod.fst) :
    writeAll store entries name = store name := by
  induction entries generalizing store with
  | nil => rfl
  | cons entry entries ih =>
    rw [map_cons, mem_cons, not_or] at outside
    rw [writeAll_cons, ih outside.2]
    exact write_other outside.1

theorem writeAll_of_mem (distinct : (entries.map Prod.fst).Nodup)
    (mem : (name, content) ∈ entries) : writeAll store entries name = some content := by
  induction entries generalizing store with
  | nil => cases mem
  | cons entry entries ih =>
    rw [map_cons, nodup_cons] at distinct
    rw [writeAll_cons]
    rcases mem_cons.mp mem with here | later
    · subst here
      rw [writeAll_outside distinct.1]
      exact write_same
    · exact ih distinct.2 later

def Injective (store : Store Name Content) : Prop :=
  ∀ ⦃first second content⦄, store first = some content → store second = some content →
    first = second

omit [DecidableEq Name] in
theorem Injective.filter (injective : Injective store) (keeps : Content → Bool) :
    Injective fun name => (store name).filter keeps := by
  intro first second content found found'
  exact injective (Option.filter_eq_some_iff.mp found).1 (Option.filter_eq_some_iff.mp found').1

theorem writeAll_injective (distinct : (entries.map Prod.snd).Nodup) :
    Injective (writeAll empty entries) := by
  intro first second content found found'
  have one : (first, content) ∈ entries := (writeAll_mem found).resolve_left nofun
  have two : (second, content) ∈ entries := (writeAll_mem found').resolve_left nofun
  exact congrArg Prod.fst (inj_on_of_nodup_map distinct one two rfl)

theorem rename_target {source target : Name} (present : store source = some content) :
    rename store source target target = some content := by
  rw [rename, present]
  exact write_same

end SiprecServer.Lib.FileSystem
