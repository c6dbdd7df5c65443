import Mathlib.Data.List.Forall2
import Mathlib.Data.List.Sort
import Mathlib.Data.List.Nodup
import Mathlib.Order.Defs.LinearOrder

/-! Lists whose elements carry a key. Sorting by a key and looking an element up
by its key do not depend on the order of the list as long as the keys are
distinct; a strictly sorted list is determined by its members. -/

namespace Yinshi.Keyed
open List

variable {α β κ : Type} {xs : List α}

theorem key_inj_of_nodup {key : α → κ} {x y : α} (hd : (xs.map key).Nodup)
    (hx : x ∈ xs) (hy : y ∈ xs) (hs : key x = key y) : x = y :=
  inj_on_of_nodup_map hd hx hy hs

variable {r : α → β → Prop} {ys : List β}

theorem forall₂_mem_left (h : List.Forall₂ r xs ys) {x : α} (hm : x ∈ xs) : ∃ y ∈ ys, r x y := by
  induction h with
  | nil => simp at hm
  | cons first _ ih =>
    rcases mem_cons.mp hm with rfl | later
    · exact ⟨_, by simp, first⟩
    · obtain ⟨y, hl, related⟩ := ih later
      exact ⟨y, by simp [hl], related⟩

theorem forall₂_mem_right (h : List.Forall₂ r xs ys) {y : β} (hm : y ∈ ys) : ∃ x ∈ xs, r x y := by
  obtain ⟨x, hl, related⟩ := forall₂_mem_left h.flip hm
  exact ⟨x, hl, related⟩

theorem forall₂_find? {p : α → Bool} {q : β → Bool} (agree : ∀ x y, r x y → p x = q y) {xs : List α}
    (h : List.Forall₂ r xs ys) :
    (xs.find? p = none ∧ ys.find? q = none) ∨
    ∃ x ∈ xs, ∃ y ∈ ys, xs.find? p = some x ∧ ys.find? q = some y ∧ r x y := by
  induction h with
  | nil => exact .inl ⟨rfl, rfl⟩
  | @cons x y _ _ hh _ ih =>
    cases test : p x with
    | true =>
      refine .inr ⟨x, by simp, y, by simp, ?_, ?_, hh⟩
      · rw [find?_cons, test]
      · rw [find?_cons, ← agree x y hh, test]
    | false =>
      rw [find?_cons, find?_cons, ← agree x y hh, test]
      rcases ih with hm | ⟨x', hl, y', hl', first, second, related⟩
      · exact .inl hm
      · exact .inr ⟨x', by simp [hl], y', by simp [hl'], first, second, related⟩

theorem forall₂_countP_le {p : α → Bool} {q : β → Bool} (h : List.Forall₂ r xs ys)
    (reflects : ∀ x ∈ xs, ∀ y ∈ ys, r x y → q y = true → p x = true) :
    ys.countP q ≤ xs.countP p := by
  induction h with
  | nil => exact le_rfl
  | @cons x y _ _ here _ ih =>
    have rest := ih fun x hl y hl' => reflects x (mem_cons_of_mem _ hl) y (mem_cons_of_mem _ hl')
    have first := reflects x mem_cons_self y mem_cons_self here
    rw [countP_cons, countP_cons]
    split
    next hh => rw [if_pos (first hh)]; omega
    next => omega

theorem countP_le_one {key : α → κ} {p : α → Bool} (hd : (xs.map key).Nodup) (k : κ)
    (hs : ∀ x ∈ xs, p x = true → key x = k) : xs.countP p ≤ 1 := by
  have keys : ∀ other ∈ (xs.filter p).map key, other = k := by
    intro _ hl
    obtain ⟨x, hm, rfl⟩ := mem_map.mp hl
    exact hs x (mem_of_mem_filter hm) (of_mem_filter hm)
  have ha : ((xs.filter p).map key).Nodup := hd.sublist (filter_sublist.map key)
  rw [eq_replicate_of_mem keys, nodup_replicate, length_map] at ha
  rwa [countP_eq_length_filter]

section Lookup
variable [DecidableEq κ] (key : α → κ) {xs ys : List α} {k : κ} {x : α}

theorem find?_eq_some_iff (hd : (xs.map key).Nodup) : xs.find? (key · = k) = some x ↔ x ∈ xs ∧ key x = k := by
  constructor
  · intro hf
    exact ⟨mem_of_find?_eq_some hf, by simpa using find?_some hf⟩
  · rintro ⟨hm, rfl⟩
    cases hf : xs.find? (key · = key x) with
    | none => simpa using find?_eq_none.mp hf x hm
    | some y =>
      have hs : key y = key x := by simpa using find?_some hf
      rw [key_inj_of_nodup hd (mem_of_find?_eq_some hf) hm hs]

theorem find?_eq_none_iff : xs.find? (key · = k) = none ↔ ∀ x ∈ xs, key x ≠ k := by
  simp [find?_eq_none]

theorem find?_perm (hd : (xs.map key).Nodup) (perm : xs.Perm ys) :
    ys.find? (key · = k) = xs.find? (key · = k) := by
  have hd' : (ys.map key).Nodup := (perm.map key).nodup_iff.mp hd
  ext x
  rw [find?_eq_some_iff key hd, find?_eq_some_iff key hd', perm.mem_iff]

end Lookup

section Sorting
variable [LinearOrder κ] (key : α → κ)

def sortBy (xs : List α) : List α := xs.insertionSort fun a b => key a ≤ key b

variable {key} {xs ys : List α} {x : α}

theorem sortBy_perm : (sortBy key xs).Perm xs := perm_insertionSort _ xs

@[simp] theorem mem_sortBy : x ∈ sortBy key xs ↔ x ∈ xs := sortBy_perm.mem_iff

@[simp] theorem length_sortBy : (sortBy key xs).length = xs.length := sortBy_perm.length_eq

theorem pairwise_sortBy : (sortBy key xs).Pairwise fun a b => key a ≤ key b := by
  exact pairwise_insertionSort _ xs

theorem sortBy_eq_self (hs : xs.Pairwise fun a b => key a ≤ key b) : sortBy key xs = xs :=
  hs.insertionSort_eq

theorem nodup_keys_sortBy : ((sortBy key xs).map key).Nodup ↔ (xs.map key).Nodup :=
  (sortBy_perm.map key).nodup_iff

theorem eq_of_sorted_perm (perm : xs.Perm ys) (hd : (xs.map key).Nodup)
    (hx : xs.Pairwise fun a b => key a ≤ key b) (hy : ys.Pairwise fun a b => key a ≤ key b) :
    xs = ys := by
  refine perm.eq_of_pairwise ?_ hx hy
  intro _ _ ha hb le ge
  exact key_inj_of_nodup hd ha (perm.mem_iff.mpr hb) (le_antisymm le ge)

theorem sortBy_eq_of_perm (perm : xs.Perm ys) (hd : (xs.map key).Nodup) : sortBy key xs = sortBy key ys :=
  eq_of_sorted_perm ((sortBy_perm.trans perm).trans sortBy_perm.symm)
    (nodup_keys_sortBy.2 hd) pairwise_sortBy pairwise_sortBy

theorem pairwise_lt_of_nodup (hd : (xs.map key).Nodup)
    (hs : xs.Pairwise fun a b => key a ≤ key b) : xs.Pairwise fun a b => key a < key b := by
  have ha : xs.Pairwise fun a b => key a ≠ key b := pairwise_map.mp hd
  exact (hs.and ha).imp fun h => lt_of_le_of_ne h.1 h.2

theorem sortBy_filter (hd : (xs.map key).Nodup) (p : α → Bool) :
    sortBy key (xs.filter p) = (sortBy key xs).filter p := by
  have ha : ((xs.filter p).map key).Nodup := hd.sublist (filter_sublist.map key)
  refine eq_of_sorted_perm (sortBy_perm.trans (sortBy_perm.symm.filter p)) (nodup_keys_sortBy.2 ha)
    pairwise_sortBy (pairwise_sortBy.filter p)

theorem filter_above (hs : xs.Pairwise fun a b => key a < key b) {position : Nat}
    (hf : xs[position]? = some x) : xs.filter (key x < key ·) = xs.drop (position + 1) := by
  induction xs generalizing position with
  | nil => simp at hf
  | cons y _ ih =>
    obtain ⟨ha, rest⟩ := pairwise_cons.mp hs
    cases position with
    | zero =>
      obtain rfl : y = x := by simpa using hf
      simpa using ha
    | succ _ =>
      have hb : ¬ key x < key y := not_lt.mpr (ha x (mem_of_getElem? (by simpa using hf))).le
      rw [filter_cons_of_neg (by simpa using hb), ih rest (by simpa using hf)]
      rfl

end Sorting

end Yinshi.Keyed
