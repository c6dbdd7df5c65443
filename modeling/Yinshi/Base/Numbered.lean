import Mathlib.Data.List.Basic
import Mathlib.Data.List.Nodup
import Mathlib.Order.Defs.LinearOrder

/-! Logs whose entries carry consecutive numbers. Entries are found by position, the
next number is read off the length, and a cursor cuts the log in two. -/

namespace Yinshi.Numbered
open List

variable {α : Type} {key : α → Nat} {start : Nat} {xs ys : List α} {x : α}

/-- The numbers of the entries are `start`, `start + 1`, and so on. -/
def From (key : α → Nat) (start : Nat) (xs : List α) : Prop :=
  xs.map key = List.range' start xs.length

instance : Decidable (From key start xs) := inferInstanceAs (Decidable (_ = _))

theorem from_nil : From key start [] := rfl

theorem from_cons : From key start (x :: xs) ↔ key x = start ∧ From key (start + 1) xs := by
  simp [From, range'_succ]

theorem from_append : From key start (xs ++ ys) ↔ From key start xs ∧ From key (start + xs.length) ys := by
  induction xs generalizing start with
  | nil => simp [From]
  | cons _ _ ih =>
    rw [cons_append, from_cons, from_cons, ih, length_cons, and_assoc]
    rw [Nat.add_assoc, Nat.add_comm 1]

section
variable (numbered : From key start xs)
include numbered

theorem From.snoc (last : key x = start + xs.length) : From key start (xs ++ [x]) :=
  from_append.2 ⟨numbered, from_cons.2 ⟨last, from_nil⟩⟩

theorem From.drop (n : Nat) : From key (start + n) (xs.drop n) := by
  by_cases hw : n ≤ xs.length
  · rw [← take_append_drop n xs] at numbered
    have rest := (from_append.1 numbered).2
    rwa [length_take, Nat.min_eq_left hw] at rest
  · rw [drop_eq_nil_of_le (by omega)]
    exact from_nil

theorem From.key_getElem? {i : Nat} (entry : xs[i]? = some x) : key x = start + i := by
  have hb : i < xs.length := (List.getElem?_eq_some_iff.mp entry).1
  have number : (xs.map key)[i]? = some (key x) := by rw [getElem?_map, entry, Option.map_some]
  rw [numbered, getElem?_range' hb] at number
  simpa using (Option.some.inj number).symm

theorem From.key_ge (hm : x ∈ xs) : start ≤ key x := by
  obtain ⟨_, entry⟩ := getElem?_of_mem hm
  have := numbered.key_getElem? entry
  omega

theorem From.find? (i : Nat) : xs.find? (key · = start + i) = xs[i]? := by
  induction xs generalizing start i with
  | nil => rfl
  | cons _ _ ih =>
    obtain ⟨first, rest⟩ := from_cons.1 numbered
    cases i with
    | zero => simp [first]
    | succ _ =>
      rw [find?_cons_of_neg (by simp [first]), getElem?_cons_succ, ← ih rest]
      congr 2
      funext y
      rw [Nat.add_assoc, Nat.add_comm 1]

theorem From.filter_ge (n : Nat) : xs.filter (start + n ≤ key ·) = xs.drop n := by
  induction n generalizing start xs with
  | zero =>
    refine filter_eq_self.mpr fun x hm => ?_
    simpa using numbered.key_ge hm
  | succ _ ih =>
    cases xs with
    | nil => rfl
    | cons _ _ =>
      obtain ⟨first, rest⟩ := from_cons.1 numbered
      rw [filter_cons_of_neg (by simp [first]), drop_succ_cons, ← ih rest]
      congr 2
      funext y
      rw [Nat.add_assoc, Nat.add_comm 1]

theorem From.sorted : xs.Pairwise fun a b => key a ≤ key b := by
  rw [← pairwise_map (f := key) (R := fun a b => a ≤ b), numbered]
  exact pairwise_le_range'

end

theorem From.next (numbered : From key 0 xs) : ((xs.map key).max?).elim 0 (· + 1) = xs.length := by
  rw [numbered]
  cases xs.length with
  | zero => rfl
  | succ n =>
    have largest : (range' 0 (n + 1)).max? = some n := by
      rw [max?_eq_some_iff]
      refine ⟨by simp, fun b hm => ?_⟩
      have := mem_range'_1.mp hm
      omega
    rw [largest]
    rfl

end Yinshi.Numbered
