import Mathlib.Data.List.Pairwise
import Mathlib.Data.List.Infix
import Mathlib.Data.List.Nodup

/-! Lists processed from the left, whose elements carry a rank that never
decreases. What has been processed before an element is read off the ranks. -/

namespace Yinshi.Ranked
open List

variable {α β : Type} {rank : α → Nat} {xs done : List α} {x y : α}

def Next (xs done : List α) (x : α) : Prop := done ++ [x] <+: xs

theorem Next.mem (next : Next xs done x) : x ∈ xs := next.subset (by simp)

theorem Next.done_subset (next : Next xs done x) : done ⊆ xs := fun _ hm =>
  next.subset (by simp [hm])

theorem Next.rank_le (next : Next xs done x) (hs : xs.Pairwise fun a b => rank a ≤ rank b)
    (hm : y ∈ done) : rank y ≤ rank x := by
  have pairs := hs.sublist next.sublist
  exact (pairwise_append.mp pairs).2.2 y hm x (by simp)

theorem Next.mem_done (next : Next xs done x) (hs : xs.Pairwise fun a b => rank a ≤ rank b)
    (hm : y ∈ xs) (lower : rank y < rank x) : y ∈ done := by
  obtain ⟨_, rfl⟩ := next
  rw [append_assoc, mem_append] at hm
  refine hm.resolve_right fun later => ?_
  have pairs := (pairwise_append.mp (append_assoc .. ▸ hs)).2.1
  rcases mem_cons.mp later with rfl | later
  · exact lt_irrefl _ lower
  · have ha := (pairwise_cons.mp pairs).1 y later
    omega

theorem mem_of_rank_lt (prefix_ : done <+: xs) (hs : xs.Pairwise fun a b => rank a ≤ rank b)
    (processed : x ∈ done) (hm : y ∈ xs) (lower : rank y < rank x) : y ∈ done := by
  obtain ⟨_, rfl⟩ := prefix_
  refine (mem_append.mp hm).resolve_right fun later => ?_
  have ha := (pairwise_append.mp hs).2.2 x processed y later
  omega

theorem Next.key_ne {key : α → Option β} (next : Next xs done x) (hd : (xs.filterMap key).Nodup)
    {k : β} (selected : key x = some k) (hm : y ∈ done) : key y ≠ some k := by
  intro hs
  have pairs := hd.sublist (next.sublist.filterMap key)
  rw [filterMap_append, nodup_append'] at pairs
  refine pairs.2.2 (mem_filterMap.mpr ⟨y, hm, hs⟩) ?_
  simp [selected]

end Yinshi.Ranked
