import Yinshi.Base.ByteText

/-! Lower-case hexadecimal and unpadded base64url of byte strings. Both are one to one: what
was encoded decodes to itself. -/

namespace Yinshi.Encodings
open ByteText List Option

def hexAlphabet : Bytes := bytes "0123456789abcdef"

def hexDigit (value : Nat) : UInt8 := hexAlphabet.getD value 0

def hex : Bytes → Bytes
  | [] => []
  | byte :: rest => hexDigit (byte.toNat / 16) :: hexDigit (byte.toNat % 16) :: hex rest

def hexValue (digit : UInt8) : Option Nat := hexAlphabet.idxOf? digit

def unhex : Bytes → Option Bytes
  | [] => some []
  | [_] => none
  | high :: low :: rest => do
      let first ← hexValue high
      let second ← hexValue low
      let bytes ← unhex rest
      pure (UInt8.ofNat (first * 16 + second) :: bytes)

theorem hexDigit_hexValue {digit : UInt8} {value : Nat} (read : hexValue digit = some value) :
    value < 16 ∧ hexDigit value = digit := by
  obtain ⟨hs, same, -⟩ := idxOf?_eq_some_iff.mp read
  refine ⟨hs, ?_⟩
  rw [hexDigit, getD_eq_getElem?_getD, getElem?_eq_getElem hs, getD_some]
  exact same

theorem hex_unhex {digits raw : Bytes} (read : unhex digits = some raw) : hex raw = digits := by
  induction digits using unhex.induct generalizing raw with
  | case1 =>
    cases read
    rfl
  | case2 => simp [unhex] at read
  | case3 _ _ _ ih =>
    simp only [unhex, bind_eq_bind, bind_eq_some_iff, Option.pure_def, Option.some.injEq] at read
    obtain ⟨first, hf, second, isSecond, _, isTail, rfl⟩ := read
    obtain ⟨_, isHigh⟩ := hexDigit_hexValue hf
    obtain ⟨_, isLow⟩ := hexDigit_hexValue isSecond
    have value : (UInt8.ofNat (first * 16 + second)).toNat = first * 16 + second := by
      rw [UInt8.toNat_ofNat']
      omega
    have front : (first * 16 + second) / 16 = first := by omega
    have back : (first * 16 + second) % 16 = second := by omega
    rw [hex, value, front, back, isHigh, isLow, ih isTail]

def base64Alphabet : Bytes := bytes "ABCDEFGHIJKLMNOPQRSTUVWXYZabcdefghijklmnopqrstuvwxyz0123456789-_"

def sextets : Bytes → List Nat
  | [] => []
  | [a] => [a.toNat / 4, a.toNat % 4 * 16]
  | [a, b] => [a.toNat / 4, a.toNat % 4 * 16 + b.toNat / 16, b.toNat % 16 * 4]
  | a :: b :: c :: rest =>
    a.toNat / 4 :: (a.toNat % 4 * 16 + b.toNat / 16) :: (b.toNat % 16 * 4 + c.toNat / 64) ::
      (c.toNat % 64) :: sextets rest

def fromSextets : List Nat → Option Bytes
  | [] => some []
  | [_] => none
  | [w, x] => some [UInt8.ofNat (w * 4 + x / 16)]
  | [w, x, y] => some [UInt8.ofNat (w * 4 + x / 16), UInt8.ofNat (x % 16 * 16 + y / 4)]
  | w :: x :: y :: z :: rest => (fromSextets rest).map fun bytes =>
    UInt8.ofNat (w * 4 + x / 16) :: UInt8.ofNat (x % 16 * 16 + y / 4) :: UInt8.ofNat (y % 4 * 64 + z) :: bytes

def base64Url (raw : Bytes) : Bytes := (sextets raw).map fun digit => base64Alphabet.getD digit 0

def base64UrlDecode (encoded : Bytes) : Option Bytes :=
  (encoded.mapM fun digit => base64Alphabet.idxOf? digit).bind fromSextets

theorem sextets_small (raw : Bytes) : ∀ digit ∈ sextets raw, digit < 64 := by
  induction raw using sextets.induct with
  | case1 => simp [sextets]
  | case2 a =>
    have := a.toNat_lt
    simp only [sextets, forall_mem_cons, not_mem_nil, false_implies, implies_true, and_true]
    omega
  | case3 a b =>
    have := a.toNat_lt
    have := b.toNat_lt
    simp only [sextets, forall_mem_cons, not_mem_nil, false_implies, implies_true, and_true]
    omega
  | case4 a b c _ ih =>
    have := a.toNat_lt
    have := b.toNat_lt
    have := c.toNat_lt
    simp only [sextets, forall_mem_cons]
    refine ⟨by omega, by omega, by omega, by omega, ih⟩

theorem length_sextets (raw : Bytes) : (sextets raw).length = (4 * raw.length + 2) / 3 := by
  induction raw using sextets.induct with
  | case1 => rfl
  | case2 a | case3 a b => simp [sextets]
  | case4 _ _ _ _ ih =>
    simp only [sextets, length_cons, ih]
    omega

theorem ofNat_of_toNat_eq {byte : UInt8} {value : Nat} (hs : value = byte.toNat) :
    UInt8.ofNat value = byte := by
  rw [hs, UInt8.ofNat_toNat]

theorem fromSextets_sextets (raw : Bytes) : fromSextets (sextets raw) = some raw := by
  induction raw using sextets.induct with
  | case1 => rfl
  | case2 a =>
    have first : a.toNat / 4 * 4 + a.toNat % 4 * 16 / 16 = a.toNat := by omega
    simp only [sextets, fromSextets, ofNat_of_toNat_eq first]
  | case3 a b =>
    have := b.toNat_lt
    have first : a.toNat / 4 * 4 + (a.toNat % 4 * 16 + b.toNat / 16) / 16 = a.toNat := by omega
    have second : (a.toNat % 4 * 16 + b.toNat / 16) % 16 * 16 + b.toNat % 16 * 4 / 4 = b.toNat := by omega
    simp only [sextets, fromSextets, ofNat_of_toNat_eq first, ofNat_of_toNat_eq second]
  | case4 a b c _ ih =>
    have := b.toNat_lt
    have := c.toNat_lt
    have first : a.toNat / 4 * 4 + (a.toNat % 4 * 16 + b.toNat / 16) / 16 = a.toNat := by omega
    have second : (a.toNat % 4 * 16 + b.toNat / 16) % 16 * 16 + (b.toNat % 16 * 4 + c.toNat / 64) / 4 =
        b.toNat := by omega
    have third : (b.toNat % 16 * 4 + c.toNat / 64) % 4 * 64 + c.toNat % 64 = c.toNat := by omega
    simp only [sextets, fromSextets, ih, map_some, ofNat_of_toNat_eq first,
      ofNat_of_toNat_eq second, ofNat_of_toNat_eq third]

@[simp] theorem length_base64Url (raw : Bytes) : (base64Url raw).length = (4 * raw.length + 2) / 3 := by
  rw [base64Url, length_map, length_sextets]

theorem mem_base64Alphabet {raw : Bytes} {digit : UInt8} (hm : digit ∈ base64Url raw) :
    digit ∈ base64Alphabet := by
  obtain ⟨value, hl, rfl⟩ := mem_map.mp hm
  have hs : value < base64Alphabet.length := sextets_small raw value hl
  rw [getD_eq_getElem?_getD, getElem?_eq_getElem hs, getD_some]
  exact getElem_mem hs

theorem idxOf?_base64Alphabet {digit : Nat} (hs : digit < 64) :
    base64Alphabet.idxOf? (base64Alphabet.getD digit 0) = some digit := by
  have all : ∀ digit : Fin 64, base64Alphabet.idxOf? (base64Alphabet.getD digit 0) = some digit.val := by
    decide +kernel
  exact all ⟨digit, hs⟩

theorem mapM_idxOf?_base64 {digits : List Nat} (hs : ∀ digit ∈ digits, digit < 64) :
    (digits.map fun digit => base64Alphabet.getD digit 0).mapM
        (fun digit => base64Alphabet.idxOf? digit) = some digits := by
  induction digits with
  | nil => rfl
  | cons _ _ ih =>
    rw [forall_mem_cons] at hs
    rw [map_cons, mapM_cons, idxOf?_base64Alphabet hs.1, ih hs.2]
    rfl

@[simp] theorem base64UrlDecode_base64Url (raw : Bytes) : base64UrlDecode (base64Url raw) = some raw := by
  rw [base64UrlDecode, base64Url, mapM_idxOf?_base64 (sextets_small raw), bind_some, fromSextets_sextets]

end Yinshi.Encodings
