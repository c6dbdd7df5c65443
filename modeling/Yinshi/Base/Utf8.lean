import Yinshi.Base.ByteText

/-! UTF-8 under the `surrogateescape` handler: a byte that belongs to no character is read as a
low surrogate, and every byte string is recovered from the text that it is read as. -/

namespace Yinshi.Utf8
open ByteText List

def utf8 (point : Nat) : Bytes :=
  if point < 128 then [UInt8.ofNat point]
  else if point < 2048 then [UInt8.ofNat (192 + point / 64), UInt8.ofNat (128 + point % 64)]
  else if point < 65536 then
    if 55296 ≤ point ∧ point < 57344 then []
    else [UInt8.ofNat (224 + point / 4096), UInt8.ofNat (128 + point / 64 % 64), UInt8.ofNat (128 + point % 64)]
  else if point < 1114112 then
    [UInt8.ofNat (240 + point / 262144), UInt8.ofNat (128 + point / 4096 % 64),
      UInt8.ofNat (128 + point / 64 % 64), UInt8.ofNat (128 + point % 64)]
  else []

def escape (byte : UInt8) : Nat := 56320 + byte.toNat

def pair (a b : UInt8) : Nat := a.toNat % 32 * 64 + b.toNat % 64

def triple (a b c : UInt8) : Nat := a.toNat % 16 * 4096 + b.toNat % 64 * 64 + c.toNat % 64

def quadruple (a b c d : UInt8) : Nat :=
  a.toNat % 8 * 262144 + b.toNat % 64 * 4096 + c.toNat % 64 * 64 + d.toNat % 64

/-- The character at the front of a byte string, and the number of further bytes that it takes;
a sequence of bytes is a character when it is what that character is written as. -/
def front (a : UInt8) (rest : Bytes) : Nat × Nat :=
  let b := rest.getD 0 0
  let c := rest.getD 1 0
  let d := rest.getD 2 0
  if a.toNat < 128 then (a.toNat, 0)
  else if utf8 (pair a b) = [a, b] then (pair a b, 1)
  else if utf8 (triple a b c) = [a, b, c] then (triple a b c, 2)
  else if utf8 (quadruple a b c d) = [a, b, c, d] then (quadruple a b c d, 3)
  else (escape a, 0)

def decodeAfter : Nat → Bytes → Text
  | _, [] => []
  | taken + 1, _ :: rest => decodeAfter taken rest
  | 0, a :: rest => (front a rest).1 :: decodeAfter (front a rest).2 rest

def decode (raw : Bytes) : Text := decodeAfter 0 raw

def encodePoint (point : Nat) : Bytes :=
  if 56448 ≤ point ∧ point < 56576 then [UInt8.ofNat (point - 56320)] else utf8 point

def encode (value : Text) : Bytes := value.flatMap encodePoint

theorem utf8_tail {point : Nat} {a : UInt8} {rest : Bytes} (hu : utf8 point = a :: rest) :
    (0 : UInt8) ∉ rest := by
  have hc : ∀ digit, (0 : UInt8) ≠ UInt8.ofNat (128 + digit % 64) := by
    intro digit heq
    have := congrArg UInt8.toNat heq
    rw [UInt8.toNat_ofNat', UInt8.toNat_zero] at this
    omega
  unfold utf8 at hu
  split_ifs at hu <;> cases hu <;> simp only [mem_cons, not_mem_nil, hc, or_false, not_false_eq_true]

theorem encodePoint_of_utf8 {point : Nat} {a : UInt8} {rest : Bytes} (hu : utf8 point = a :: rest) :
    encodePoint point = a :: rest := by
  rw [encodePoint, if_neg, hu]
  intro hs
  rw [utf8, if_neg (by omega), if_neg (by omega), if_pos (by omega), if_pos (by omega)] at hu
  cases hu

theorem front_spec (a : UInt8) (rest : Bytes) :
    encodePoint (front a rest).1 = a :: rest.take (front a rest).2 ∧
    (front a rest).2 ≤ rest.length := by
  unfold front
  dsimp only
  split_ifs with hs hp ht hq
  · rw [encodePoint, if_neg (by omega), utf8, if_pos hs]
    simp
  · cases rest with
    | nil => exact absurd (utf8_tail hp) (by simp)
    | cons b rest => exact ⟨encodePoint_of_utf8 hp, by simp⟩
  · rcases rest with _ | ⟨b, _ | ⟨c, rest⟩⟩
    · exact absurd (utf8_tail ht) (by simp)
    · exact absurd (utf8_tail ht) (by simp)
    · exact ⟨encodePoint_of_utf8 ht, by simp⟩
  · rcases rest with _ | ⟨b, _ | ⟨c, _ | ⟨d, rest⟩⟩⟩
    · exact absurd (utf8_tail hq) (by simp)
    · exact absurd (utf8_tail hq) (by simp)
    · exact absurd (utf8_tail hq) (by simp)
    · exact ⟨encodePoint_of_utf8 hq, by simp⟩
  · have := a.toNat_lt
    rw [encodePoint, escape, if_pos (by omega), Nat.add_sub_cancel_left]
    simp

theorem front_append_zero (a : UInt8) (value rest : Bytes) :
    front a (value ++ 0 :: rest) = front a value := by
  have hz : ∀ point tail, (0 : UInt8) ∈ tail → utf8 point ≠ a :: tail := fun _ _ hm hu => utf8_tail hu hm
  rcases value with _ | ⟨b, _ | ⟨c, _ | ⟨d, value⟩⟩⟩
  · simp [front, hz]
  · simp [front, hz]
  · simp [front, hz]
  · rfl

theorem encode_decodeAfter (taken : Nat) (raw : Bytes) : encode (decodeAfter taken raw) = raw.drop taken := by
  induction raw generalizing taken with
  | nil => simp [decodeAfter, encode]
  | cons a rest ih =>
    cases taken with
    | zero =>
      have hf := (front_spec a rest).1
      rw [decodeAfter, encode, flatMap_cons, hf, ← encode, ih, cons_append, take_append_drop, drop_zero]
    | succ taken => exact ih taken

@[simp] theorem encode_of_decode (raw : Bytes) : encode (decode raw) = raw := encode_decodeAfter 0 raw

theorem decodeAfter_append_zero {taken : Nat} {value : Bytes} (ht : taken ≤ value.length)
    (rest : Bytes) :
    decodeAfter taken (value ++ 0 :: rest) = decodeAfter taken value ++ 0 :: decode rest := by
  induction value generalizing taken with
  | nil =>
    obtain rfl := Nat.le_zero.mp ht
    rfl
  | cons a value ih =>
    cases taken with
    | zero =>
      rw [cons_append, decodeAfter, decodeAfter, front_append_zero, ih (front_spec a value).2, cons_append]
    | succ taken => exact ih (Nat.le_of_succ_le_succ ht)

theorem decode_append_zero (value rest : Bytes) :
    decode (value ++ 0 :: rest) = decode value ++ 0 :: decode rest :=
  decodeAfter_append_zero (Nat.zero_le _) rest

theorem decode_ascii {a : UInt8} (hs : a.toNat < 128) (rest : Bytes) :
    decode (a :: rest) = a.toNat :: decode rest := by
  rw [decode, decodeAfter, front, if_pos hs]
  rfl

end Yinshi.Utf8
