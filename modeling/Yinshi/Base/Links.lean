import Mathlib.Data.Set.Card
import Mathlib.Logic.Function.Basic

/-! Directories of hard links. A name stands for an inode; an inode counts its names. The
count is kept by every call, so that a reader may trust it to say who else names a file. -/

namespace Yinshi.Links
open Function Option

structure Inode (γ : Type) where
  links : Nat
  content : γ

/-- Inode numbers below `next` are in use; the others are free. -/
structure Directory (ν γ : Type) where
  entry : ν → Option Nat
  inode : Nat → Inode γ
  next : Nat

namespace Directory
variable {ν γ : Type}
variable {number target : Nat} {other : ν}

def empty (content : γ) : Directory ν γ := ⟨fun _ => none, fun _ => ⟨0, content⟩, 0⟩

section Calls
variable [DecidableEq ν]

def create (directory : Directory ν γ) (name : ν) (content : γ) : Directory ν γ where
  entry := update directory.entry name (some directory.next)
  inode := update directory.inode directory.next ⟨1, content⟩
  next := directory.next + 1

def write (directory : Directory ν γ) (number : Nat) (content : γ) : Directory ν γ :=
  { directory with inode := update directory.inode number { directory.inode number with content := content } }

def link (directory : Directory ν γ) (number : Nat) (name : ν) : Directory ν γ where
  entry := update directory.entry name (some number)
  inode := update directory.inode number
    { directory.inode number with links := (directory.inode number).links + 1 }
  next := directory.next

/-- `unlink` of a name that stands for the inode `number`. -/
def unlink (directory : Directory ν γ) (number : Nat) (name : ν) : Directory ν γ where
  entry := update directory.entry name none
  inode := update directory.inode number
    { directory.inode number with links := (directory.inode number).links - 1 }
  next := directory.next

end Calls

def namesOf (directory : Directory ν γ) (number : Nat) : Set ν := Set.preimage directory.entry {some number}

theorem mem_namesOf {directory : Directory ν γ} {name : ν} :
    name ∈ directory.namesOf number ↔ directory.entry name = some number := Iff.rfl

/-- Every inode in use counts its names, and no name stands for a free one. -/
structure Counted (directory : Directory ν γ) : Prop where
  used : ∀ name number, directory.entry name = some number → number < directory.next
  finite : ∀ number, (directory.namesOf number).Finite
  count : ∀ number, (directory.inode number).links = (directory.namesOf number).ncard

attribute [local simp] mem_namesOf

theorem counted_empty (content : γ) : Counted (empty content : Directory ν γ) where
  used _ _ entry := by simp [empty] at entry
  finite number := by
    have nobody : (empty content : Directory ν γ).namesOf number = ∅ := by
      ext name
      simp [empty]
    rw [nobody]
    exact Set.finite_empty
  count number := by
    have nobody : (empty content : Directory ν γ).namesOf number = ∅ := by
      ext name
      simp [empty]
    rw [nobody, Set.ncard_empty]
    rfl

variable {directory : Directory ν γ} {number : Nat} {name : ν}

theorem Counted.namesOf_next (hc : Counted directory) : directory.namesOf directory.next = ∅ := by
  ext name
  simp only [mem_namesOf, Set.mem_empty_iff_false, iff_false]
  intro entry
  exact lt_irrefl _ (hc.used name _ entry)

theorem Counted.eq_of_single (hc : Counted directory) (single : (directory.inode number).links = 1)
    (entry : directory.entry name = some number)
    (otherEntry : directory.entry other = some number) : other = name := by
  rw [hc.count, Set.ncard_eq_one] at single
  obtain ⟨_, names⟩ := single
  have first : name ∈ directory.namesOf number := entry
  have second : other ∈ directory.namesOf number := otherEntry
  rw [names, Set.mem_singleton_iff] at first second
  rw [first, second]

theorem Counted.links_eq_one (hc : Counted directory) (entry : directory.entry name = some number)
    (only : ∀ other, directory.entry other = some number → other = name) :
    (directory.inode number).links = 1 := by
  rw [hc.count, Set.ncard_eq_one]
  refine ⟨name, ?_⟩
  ext other
  exact ⟨fun hh => only other hh, fun hs => by rw [Set.mem_singleton_iff.mp hs]; exact entry⟩

theorem Counted.nameless (hc : Counted directory) (none : (directory.inode number).links = 0) :
    directory.entry name ≠ some number := by
  intro entry
  rw [hc.count, Set.ncard_eq_zero (hc.finite number)] at none
  have hh : name ∈ directory.namesOf number := entry
  rw [none] at hh
  exact hh

variable {content : γ}

@[simp] theorem entry_write : (directory.write number content).entry = directory.entry := rfl

@[simp] theorem links_write (other : Nat) :
    ((directory.write number content).inode other).links = (directory.inode other).links := by
  unfold write
  by_cases hs : other = number
  · subst hs
    simp
  · simp [hs]

theorem Counted.write (hc : Counted directory) (number : Nat) (content : γ) :
    Counted (directory.write number content) where
  used := hc.used
  finite := hc.finite
  count other := by
    rw [links_write]
    exact hc.count other

theorem content_write (ha : number ≠ target) :
    ((directory.write target content).inode number).content = (directory.inode number).content := by
  change (update directory.inode target _ number).content = _
  rw [update_of_ne ha]

theorem content_write_self : ((directory.write number content).inode number).content = content := by
  change (update directory.inode number _ number).content = _
  rw [update_self]

variable [DecidableEq ν]

theorem namesOf_update_none (entry : directory.entry name = some number) (other : Nat) :
    Set.preimage (update directory.entry name none) {some other} =
      if other = number then directory.namesOf number \ {name} else directory.namesOf other := by
  ext candidate
  by_cases hs : candidate = name
  · subst hs
    by_cases own : other = number
    · simp [own]
    · have foreign : ¬ number = other := fun equal => own equal.symm
      simp [own, entry, foreign]
  · by_cases own : other = number
    · subst own
      simp [hs]
    · simp [own, hs]

theorem namesOf_update_some (ha : directory.entry name = none) (other : Nat) :
    Set.preimage (update directory.entry name (some number)) {some other} =
      if other = number then insert name (directory.namesOf number) else
      directory.namesOf other := by
  ext candidate
  by_cases hs : candidate = name
  · subst hs
    by_cases own : other = number
    · simp [own]
    · have foreign : ¬ number = other := fun equal => own equal.symm
      simp [own, ha, foreign]
  · by_cases own : other = number
    · subst own
      simp [hs]
    · simp [own, hs]

theorem Counted.create (hc : Counted directory) (ha : directory.entry name = none) (content : γ) :
    Counted (directory.create name content) where
  used other number entry := by
    change update directory.entry name (some directory.next) other = some number at entry
    change number < directory.next + 1
    by_cases hs : other = name
    · subst hs
      rw [update_self] at entry
      have := some.inj entry
      omega
    · rw [update_of_ne hs] at entry
      have := hc.used other number entry
      omega
  finite number := by
    change (Set.preimage (update directory.entry name (some directory.next)) {some number}).Finite
    rw [namesOf_update_some ha]
    split
    · exact (hc.finite _).insert name
    · exact hc.finite number
  count number := by
    change (update directory.inode directory.next ⟨1, content⟩ number).links =
      (Set.preimage (update directory.entry name (some directory.next)) {some number}).ncard
    rw [namesOf_update_some ha]
    by_cases own : number = directory.next
    · subst own
      rw [update_self, if_pos rfl, hc.namesOf_next, insert_empty_eq, Set.ncard_singleton]
    · rw [update_of_ne own, if_neg own]
      exact hc.count number

theorem Counted.link (hc : Counted directory) (ha : directory.entry name = none)
    (hh : number < directory.next) : Counted (directory.link number name) where
  used other target entry := by
    change update directory.entry name (some number) other = some target at entry
    by_cases hs : other = name
    · subst hs
      rw [update_self] at entry
      rwa [← some.inj entry]
    · rw [update_of_ne hs] at entry
      exact hc.used other target entry
  finite target := by
    change (Set.preimage (update directory.entry name (some number)) {some target}).Finite
    rw [namesOf_update_some ha]
    split
    · exact (hc.finite _).insert name
    · exact hc.finite target
  count target := by
    change (update directory.inode number _ target).links =
      (Set.preimage (update directory.entry name (some number)) {some target}).ncard
    rw [namesOf_update_some ha]
    by_cases own : target = number
    · subst own
      have hf : name ∉ directory.namesOf target := by simp [ha]
      rw [update_self, if_pos rfl, Set.ncard_insert_of_notMem hf (hc.finite target), ← hc.count]
    · rw [update_of_ne own, if_neg own]
      exact hc.count target

theorem Counted.unlink (hc : Counted directory) (entry : directory.entry name = some number) :
    Counted (directory.unlink number name) where
  used other target found := by
    change update directory.entry name none other = some target at found
    by_cases hs : other = name
    · subst hs
      exact absurd found (by simp)
    · rw [update_of_ne hs] at found
      exact hc.used other target found
  finite target := by
    change (Set.preimage (update directory.entry name none) {some target}).Finite
    rw [namesOf_update_none entry]
    split
    · exact (hc.finite _).subset Set.sdiff_subset
    · exact hc.finite target
  count target := by
    change (update directory.inode number _ target).links =
      (Set.preimage (update directory.entry name none) {some target}).ncard
    rw [namesOf_update_none entry]
    by_cases own : target = number
    · subst own
      have hh : name ∈ directory.namesOf target := entry
      rw [update_self, if_pos rfl, Set.ncard_sdiff_singleton_of_mem hh, ← hc.count]
    · rw [update_of_ne own, if_neg own]
      exact hc.count target

theorem entry_create (entry : (directory.create name content).entry other = some number) :
    other = name ∧ number = directory.next ∨
    other ≠ name ∧ directory.entry other = some number := by
  change update directory.entry name (some directory.next) other = some number at entry
  by_cases hs : other = name
  · subst hs
    rw [update_self] at entry
    exact .inl ⟨rfl, (some.inj entry).symm⟩
  · rw [update_of_ne hs] at entry
    exact .inr ⟨hs, entry⟩

theorem entry_link (entry : (directory.link target name).entry other = some number) :
    other = name ∧ number = target ∨ other ≠ name ∧ directory.entry other = some number := by
  change update directory.entry name (some target) other = some number at entry
  by_cases hs : other = name
  · subst hs
    rw [update_self] at entry
    exact .inl ⟨rfl, (some.inj entry).symm⟩
  · rw [update_of_ne hs] at entry
    exact .inr ⟨hs, entry⟩

theorem entry_unlink (entry : (directory.unlink target name).entry other = some number) :
    other ≠ name ∧ directory.entry other = some number := by
  change update directory.entry name none other = some number at entry
  by_cases hs : other = name
  · subst hs
    exact absurd entry (by simp)
  · rw [update_of_ne hs] at entry
    exact ⟨hs, entry⟩

theorem entry_create_of_ne (ha : other ≠ name) :
    (directory.create name content).entry other = directory.entry other :=
  update_of_ne ha _ _

theorem entry_link_of_ne (ha : other ≠ name) :
    (directory.link target name).entry other = directory.entry other := update_of_ne ha _ _

theorem entry_link_self : (directory.link number name).entry name = some number := by
  change update directory.entry name (some number) name = _
  rw [update_self]

theorem entry_unlink_self : (directory.unlink number name).entry name = none := by
  change update directory.entry name none name = _
  rw [update_self]

theorem entry_unlink_of_ne (ha : other ≠ name) :
    (directory.unlink target name).entry other = directory.entry other := update_of_ne ha _ _

theorem inode_create_of_ne (ha : number ≠ directory.next) :
    (directory.create name content).inode number = directory.inode number :=
  update_of_ne ha _ _

theorem inode_link_of_ne (ha : number ≠ target) :
    (directory.link target name).inode number = directory.inode number :=
  update_of_ne ha _ _

theorem inode_unlink_of_ne (ha : number ≠ target) :
    (directory.unlink target name).inode number = directory.inode number := update_of_ne ha _ _

theorem links_unlink_self :
    ((directory.unlink number name).inode number).links = (directory.inode number).links - 1 := by
  change (update directory.inode number _ number).links = _
  rw [update_self]

theorem content_create (hb : number < directory.next) :
    ((directory.create name content).inode number).content = (directory.inode number).content := by
  change (update directory.inode directory.next ⟨1, content⟩ number).content = _
  rw [update_of_ne (Nat.ne_of_lt hb)]

theorem content_create_next : ((directory.create name content).inode directory.next).content = content := by
  change (update directory.inode directory.next ⟨1, content⟩ directory.next).content = _
  rw [update_self]

@[simp] theorem content_link (target : Nat) :
    ((directory.link target name).inode number).content = (directory.inode number).content := by
  change (update directory.inode target _ number).content = _
  by_cases hs : number = target
  · subst hs
    rw [update_self]
  · rw [update_of_ne hs]

@[simp] theorem content_unlink (target : Nat) :
    ((directory.unlink target name).inode number).content = (directory.inode number).content := by
  change (update directory.inode target _ number).content = _
  by_cases hs : number = target
  · subst hs
    rw [update_self]
  · rw [update_of_ne hs]

end Directory

end Yinshi.Links
