import Mathlib.Data.List.Basic
import Mathlib.Tactic.Ring

/-! A payload cut into fragments of one size, and a buffer that the fragments fill in
order. -/

namespace Yinshi.Fragments
open List

variable {α : Type}

def count (size total : Nat) : Nat := max 1 ((total + size - 1) / size)

def piece (size index : Nat) (payload : List α) : List α := (payload.drop (index * size)).take size

def overwrite (buffer : List α) (start : Nat) (part : List α) : List α :=
  buffer.take start ++ part ++ buffer.drop (start + part.length)

structure Filled (size : Nat) (payload : List α) (done : Nat) (buffer : List α) : Prop where
  length : buffer.length = payload.length
  front : buffer.take (done * size) = payload.take (done * size)

theorem count_pos (size total : Nat) : 0 < count size total := by
  unfold count
  omega

theorem le_count_mul {size total : Nat} (hp : 0 < size) : total ≤ count size total * size := by
  have hw := Nat.div_add_mod (total + size - 1) size
  have part := Nat.mod_lt (total + size - 1) hp
  have hc : total ≤ (total + size - 1) / size * size := by
    rw [Nat.mul_comm]
    omega
  exact hc.trans (Nat.mul_le_mul_right size (le_max_right _ _))

theorem lt_count_iff {size total index : Nat} (hp : 0 < size) (hn : 0 < total) :
    index < count size total ↔ index * size < total := by
  unfold count
  rw [lt_max_iff, Nat.lt_iff_add_one_le (n := (total + size - 1) / size), Nat.le_div_iff_mul_le hp,
    Nat.add_mul, Nat.one_mul]
  constructor
  · rintro (_ | hi)
    · have : index = 0 := by omega
      subst this
      omega
    · omega
  · intro _
    right
    omega

theorem length_piece (size index : Nat) (payload : List α) :
    (piece size index payload).length = min size (payload.length - index * size) := by
  simp [piece]

theorem piece_overwrite_self {size index : Nat} {buffer part : List α}
    (hi : index * size < buffer.length)
    (hf : part.length = min size (buffer.length - index * size)) :
    piece size index (overwrite buffer (index * size) part) = part := by
  have front : (buffer.take (index * size)).length = index * size := by
    rw [length_take]
    omega
  have behind : (buffer.drop (index * size + part.length)).take (size - part.length) = [] := by
    rw [take_eq_nil_iff, drop_eq_nil_iff]
    omega
  rw [piece, overwrite, append_assoc, drop_left' front, take_append, take_of_length_le (by omega),
    behind, append_nil]

theorem piece_overwrite_earlier {size index earlier : Nat} {buffer : List α} (part : List α)
    (hi : index * size < buffer.length) (before : earlier < index) :
    piece size earlier (overwrite buffer (index * size) part) = piece size earlier buffer := by
  have room : earlier * size + size ≤ index * size := by
    rw [← Nat.add_one_mul]
    exact Nat.mul_le_mul_right size before
  have front : (overwrite buffer (index * size) part).take (earlier * size + size) =
      buffer.take (earlier * size + size) := by
    rw [overwrite, append_assoc, take_append_of_le_length (by rw [length_take]; omega), take_take,
      min_eq_left room]
  rw [piece, piece, take_drop, take_drop, front]

theorem flatMap_piece (size done : Nat) (payload : List α) :
    (List.range done).flatMap (piece size · payload) = payload.take (done * size) := by
  induction done with
  | zero => simp
  | succ _ ih => rw [range_succ, flatMap_append, ih, Nat.add_one_mul, take_add]; simp [piece]

theorem length_overwrite {buffer part : List α} {start : Nat}
    (room : start + part.length ≤ buffer.length) :
    (overwrite buffer start part).length = buffer.length := by
  simp only [overwrite, length_append, length_take, length_drop]
  omega

namespace Filled
variable {size done : Nat} {payload buffer : List α}

theorem start (length : buffer.length = payload.length) : Filled size payload 0 buffer :=
  ⟨length, by simp⟩

theorem write (filled : Filled size payload done buffer) (hi : done * size < payload.length) :
    Filled size payload (done + 1) (overwrite buffer (done * size) (piece size done payload)) := by
  have long := filled.length
  have room : done * size + (piece size done payload).length ≤ buffer.length := by
    rw [length_piece]
    omega
  refine ⟨(length_overwrite room).trans long, ?_⟩
  have next : (done + 1) * size = (buffer.take (done * size)).length + size := by
    rw [length_take, Nat.min_eq_left (by omega)]
    ring
  have short : (piece size done payload).length ≤ size := by
    rw [length_piece]
    omega
  -- a short fragment is the last one, and nothing of the buffer is behind it
  have behind : (buffer.drop (done * size + (piece size done payload).length)).take
      (size - (piece size done payload).length) = [] := by
    rw [take_eq_nil_iff, drop_eq_nil_iff, length_piece, long]
    omega
  calc (overwrite buffer (done * size) (piece size done payload)).take ((done + 1) * size)
      = buffer.take (done * size) ++ piece size done payload := by
        rw [overwrite, next, append_assoc, take_length_add_append, take_append,
          take_of_length_le short, behind, append_nil]
    _ = payload.take (done * size + size) := by rw [filled.front, take_add, piece]
    _ = payload.take ((done + 1) * size) := by rw [Nat.add_mul, Nat.one_mul]

theorem complete (filled : Filled size payload done buffer) (hc : payload.length ≤ done * size) :
    buffer = payload := by
  have front := filled.front
  rwa [take_of_length_le (filled.length.trans_le hc), take_of_length_le hc] at front

end Filled

end Yinshi.Fragments
