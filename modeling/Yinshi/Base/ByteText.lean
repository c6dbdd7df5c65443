import Mathlib.Data.List.DropRight
import Mathlib.Data.List.Lex
import Mathlib.Data.List.Infix
import Mathlib.Data.Prod.Lex
import Mathlib.Order.Lattice
import Mathlib.Tactic.Linarith
import Mathlib.Algebra.Order.Ring.Nat

/-! Byte strings, text, slash-separated paths and big-endian numbers.
Text is a list of code points, lone surrogates included; both texts and byte
strings are ordered lexicographically, as Python orders `str` and `bytes`. -/

namespace Yinshi.ByteText
open List

abbrev Bytes := List UInt8

abbrev Text := List Nat

def text (literal : String) : Text := literal.toList.map Char.toNat

def bytes (literal : String) : Bytes := literal.toList.map fun c => UInt8.ofNat c.toNat

instance lawfulUInt8 : LawfulBEq UInt8 := inferInstance

instance lawfulText : LawfulBEq Text := inferInstance

instance lawfulBytes : LawfulBEq Bytes := inferInstance

instance lawfulTexts : LawfulBEq (Text × Text) := inferInstance

instance decidableEach (p : UInt8 → Prop) [DecidablePred p] (raw : Bytes) :
    Decidable (∀ byte ∈ raw, p byte) :=
  decidableBAll p raw

instance orderedUInt8 : LinearOrder UInt8 where
  le_refl a := UInt8.le_refl a
  le_trans _ _ _ := UInt8.le_trans
  le_antisymm _ _ := UInt8.le_antisymm
  le_total := UInt8.le_total
  lt_iff_le_not_ge a b := by
    simp only [UInt8.lt_iff_toNat_lt, UInt8.le_iff_toNat_le]
    omega
  toDecidableLE := inferInstance
  toDecidableEq := inferInstance
  toDecidableLT := inferInstance

def whitespace (c : Nat) : Bool :=
  (9 ≤ c ∧ c ≤ 13) ∨ (28 ≤ c ∧ c ≤ 32) ∨ c = 0x85 ∨ c = 0xa0 ∨ c = 0x1680 ∨
  (0x2000 ≤ c ∧ c ≤ 0x200a) ∨ c = 0x2028 ∨ c = 0x2029 ∨ c = 0x202f ∨ c = 0x205f ∨ c = 0x3000

def strip (value : Text) : Text := (value.dropWhile whitespace).rdropWhile whitespace

open List in
theorem dropWhile_rdropWhile {α : Type} (drop : α → Bool) (value : List α)
    (hk : value.dropWhile drop = value) :
    (value.rdropWhile drop).dropWhile drop = value.rdropWhile drop := by
  cases shape : value.rdropWhile drop with
  | nil => rfl
  | cons first rest =>
    have starts : ∃ tail, value = first :: tail := by
      obtain ⟨tail, whole⟩ : value.rdropWhile drop <+: value := rdropWhile_prefix drop value
      rw [shape] at whole
      exact ⟨rest ++ tail, by rw [← whole]; rfl⟩
    obtain ⟨tail, rfl⟩ := starts
    have stays : ¬ drop first = true := by
      intro dropped
      rw [List.dropWhile_cons_of_pos dropped] at hk
      have hs := (List.dropWhile_suffix drop (l := tail)).length_le
      rw [hk] at hs
      simp only [List.length_cons] at hs
      omega
    rw [List.dropWhile_cons_of_neg stays]

@[simp] theorem strip_strip (value : Text) : strip (strip value) = strip value := by
  have inner := dropWhile_rdropWhile whitespace (value.dropWhile whitespace) (dropWhile_idempotent _ _)
  rw [strip, strip, inner, rdropWhile_idempotent]

def slash : UInt8 := 47

def components (path : Bytes) : List Bytes := path.splitOn slash

def joinComponents (parts : List Bytes) : Bytes := [slash].intercalate parts

/-- The joined component prefixes of lengths `1 .. n-1`, shortest first. -/
def properAncestors (path : Bytes) : List Bytes :=
  (List.range' 1 ((components path).length - 1)).map fun count =>
    joinComponents ((components path).take count)

def pathDepth (path : Bytes) : Nat := path.count slash

def parentPath (path : Bytes) : Option Bytes :=
  match path.reverse.dropWhile (· ≠ slash) with
  | [] => none
  | _ :: reversed => some reversed.reverse

theorem joinComponents_components (path : Bytes) : joinComponents (components path) = path :=
  intercalate_splitOn slash

theorem components_ne_nil (path : Bytes) : components path ≠ [] :=
  splitOn_ne_nil slash path

theorem slash_not_mem_component {path part : Bytes} (hm : part ∈ components path) : slash ∉ part := by
  unfold components at hm
  induction path generalizing part with
  | nil => simp_all
  | cons _ path ih =>
    rw [splitOn_cons_eq_if_modifyHead] at hm
    split at hm
    · rcases mem_cons.mp hm with rfl | hm
      · exact not_mem_nil
      · exact ih hm
    next other =>
      cases split : path.splitOn slash with
      | nil => exact absurd split (splitOn_ne_nil slash path)
      | cons _ _ =>
        rw [split, modifyHead_cons, mem_cons] at hm
        rcases hm with rfl | hm
        · refine fun ht => ih (by rw [split]; exact mem_cons_self ..) ((mem_cons.mp ht).resolve_left
            fun hs => ?_)
          simp [hs] at other
        · exact ih (by rw [split]; exact mem_cons_of_mem _ hm)

def beBytes : (width : Nat) → Nat → Bytes
  | 0, _ => []
  | width + 1, value => beBytes width (value / 256) ++ [UInt8.ofNat value]

def beNat (digits : Bytes) : Nat :=
  digits.foldl (fun value digit => value * 256 + digit.toNat) 0

@[simp] theorem length_beBytes (width value : Nat) : (beBytes width value).length = width := by
  induction width generalizing value with
  | zero => rfl
  | succ _ ih => simp [beBytes, ih]

theorem beNat_append_singleton (digits : Bytes) (digit : UInt8) :
    beNat (digits ++ [digit]) = beNat digits * 256 + digit.toNat := by
  simp [beNat]

theorem beNat_beBytes {width value : Nat} (hf : value < 256 ^ width) :
    beNat (beBytes width value) = value := by
  induction width generalizing value with
  | zero =>
    have : value = 0 := by simpa using hf
    subst this
    rfl
  | succ width ih =>
    have high : value / 256 < 256 ^ width := by omega
    rw [beBytes, beNat_append_singleton, ih high, UInt8.toNat_ofNat']
    omega

theorem beBytes_beNat (digits : Bytes) : beBytes digits.length (beNat digits) = digits := by
  induction digits using reverseRecOn with
  | nil => rfl
  | append_singleton digits digit ih =>
    have low := digit.toNat_lt
    have high : (beNat digits * 256 + digit.toNat) / 256 = beNat digits := by omega
    rw [length_append, length_singleton, beBytes, beNat_append_singleton, high, ih]
    congr 2
    apply UInt8.toNat_inj.mp
    rw [UInt8.toNat_ofNat']
    omega

theorem beNat_lt (digits : Bytes) : beNat digits < 256 ^ digits.length := by
  induction digits using reverseRecOn with
  | nil => simp [beNat]
  | append_singleton _ digit _ =>
    have low := digit.toNat_lt
    rw [length_append, length_singleton, beNat_append_singleton, pow_succ]
    omega

end Yinshi.ByteText
