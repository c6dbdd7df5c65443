import Mathlib.Data.List.Basic
import Mathlib.Data.List.Nodup

/-! Tables as lists of rows. An update writes the rows that a test selects, a deletion
drops them, and the row count of a statement is the number of rows it selects. -/

namespace Yinshi.Rows
open List

variable {α κ : Type} {selected : α → Prop} [DecidablePred selected] {write : α → α} {rows : List α} {row : α}

def update (selected : α → Prop) [DecidablePred selected] (write : α → α) (rows : List α) : List α :=
  rows.map fun row => if selected row then write row else row

def delete (selected : α → Prop) [DecidablePred selected] (rows : List α) : List α :=
  rows.filter fun row => ¬ selected row

def rowcount (selected : α → Prop) [DecidablePred selected] (rows : List α) : Nat :=
  rows.countP selected

theorem mem_update : row ∈ update selected write rows ↔
    (row ∈ rows ∧ ¬ selected row) ∨ ∃ old ∈ rows, selected old ∧ row = write old := by
  constructor
  · intro hl
    obtain ⟨old, hm, rfl⟩ := mem_map.mp hl
    by_cases test : selected old
    · exact .inr ⟨old, hm, test, by simp [test]⟩
    · exact .inl ⟨by simpa [test] using hm, by simp [test]⟩
  · intro hl
    rcases hl with ⟨hm, test⟩ | ⟨old, hm, test, rfl⟩
    · exact mem_map.mpr ⟨row, hm, by simp [test]⟩
    · exact mem_map.mpr ⟨old, hm, by simp [test]⟩

theorem mem_update_of_not (hm : row ∈ rows) (test : ¬ selected row) : row ∈ update selected write rows :=
  mem_update.2 (.inl ⟨hm, test⟩)

@[simp] theorem mem_delete : row ∈ delete selected rows ↔ row ∈ rows ∧ ¬ selected row := by
  simp [delete]

theorem map_update {key : α → κ} (hk : ∀ row ∈ rows, selected row → key (write row) = key row) :
    (update selected write rows).map key = rows.map key := by
  rw [update, map_map]
  apply map_congr_left
  intro row hm
  by_cases test : selected row
  · simpa [test] using hk row hm test
  · simp [test]

theorem nodup_delete {key : α → κ} (hd : (rows.map key).Nodup) : ((delete selected rows).map key).Nodup :=
  hd.sublist (filter_sublist.map key)

theorem delete_of_none (unselected : ∀ row ∈ rows, ¬ selected row) : delete selected rows = rows := by
  apply filter_eq_self.mpr
  intro row hm
  simpa using unselected row hm

theorem eq_of_key {key : α → κ} {other : α} (hd : (rows.map key).Nodup) (hm : row ∈ rows)
    (hm' : other ∈ rows) (hs : key row = key other) : row = other :=
  inj_on_of_nodup_map hd hm hm' hs

section Keyed
variable {key : α → κ}

section
variable {old : α} (hd : (rows.map key).Nodup)
  (only : ∀ row ∈ rows, selected row → key row = key old) (hm : old ∈ rows) (test : selected old)
include hd only hm test

theorem rowcount_eq_one : rowcount selected rows = 1 := by
  apply Nat.le_antisymm
  · have keys : ((rows.filter fun row => selected row).map key).Nodup := hd.sublist (filter_sublist.map key)
    have all : ∀ k ∈ (rows.filter fun row => selected row).map key, k = key old := by
      intro _ hl
      obtain ⟨row, hf, rfl⟩ := mem_map.mp hl
      exact only row (mem_of_mem_filter hf) (by simpa using of_mem_filter hf)
    rw [eq_replicate_of_mem all, nodup_replicate, length_map] at keys
    rwa [rowcount, countP_eq_length_filter]
  · exact countP_pos_iff.mpr ⟨old, hm, by simpa using test⟩

end

theorem nodup_append_row (hd : (rows.map key).Nodup) (ha : ∀ other ∈ rows, key other ≠ key row) :
    ((rows ++ [row]).map key).Nodup := by
  rw [map_append, nodup_append]
  refine ⟨hd, by simp, ?_⟩
  intro _ hl _ hl' hs
  obtain ⟨other, hm, rfl⟩ := mem_map.mp hl
  exact ha other hm (hs.trans (by simpa using hl'))

end Keyed

end Yinshi.Rows
