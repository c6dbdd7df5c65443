import Mathlib.Logic.Basic
import Mathlib.Data.List.Basic
import Mathlib.Data.List.Nodup
import Mathlib.Data.List.Forall2
import Mathlib.Data.List.Perm.Basic

/-! Fallible checks as `Except` values. A validator is a sequence of refusals;
the lemmas below say exactly when such a sequence passes, so later proofs
peel a successful run apart without unfolding the monad. -/

namespace Yinshi.Checked
open List

variable {ε α β κ : Type}

def rejectIf (bad : Prop) [Decidable bad] (error : ε) : Except ε Unit :=
  if bad then .error error else .ok ()

def checkWhen (condition : Prop) [Decidable condition] (check : Except ε Unit) : Except ε Unit :=
  if condition then check else .ok ()

def each (check : α → Except ε Unit) : List α → Except ε Unit
  | [] => .ok ()
  | x :: xs => do
      check x
      each check xs

def orRaise (error : ε) : Option α → Except ε α
  | some x => .ok x
  | none => .error error

/-- A loop that refuses a repeated key: `before` runs first, then the test
against the keys seen so far, then `after`. -/
def eachFresh [DecidableEq κ] (key : α → κ) (before : α → Except ε Unit)
    (repeated : α → ε) (after : α → Except ε Unit) : List κ → List α → Except ε Unit
  | _, [] => .ok ()
  | seen, x :: xs => do
      before x
      rejectIf (key x ∈ seen) (repeated x)
      after x
      eachFresh key before repeated after (key x :: seen) xs

def eachAfter (check : List α → α → Except ε Unit) : List α → List α → Except ε Unit
  | _, [] => .ok ()
  | seen, x :: xs => do
      check seen x
      eachAfter check (x :: seen) xs

variable {f : α → Except ε β} {x : Except ε α}

@[simp] theorem bind_eq_ok {r : β} : (x >>= f) = .ok r ↔ ∃ a, x = .ok a ∧ f a = .ok r := by
  cases x with
  | error e | ok a => simp [bind, Except.bind]

@[simp] theorem exists_unit {holds : Unit → Prop} : (∃ u, holds u) ↔ holds () :=
  ⟨fun ⟨_, h⟩ => h, fun h => ⟨(), h⟩⟩

@[simp] theorem pure_eq_ok {a r : α} : (pure a : Except ε α) = .ok r ↔ a = r := by
  simp [pure, Except.pure]

@[simp] theorem map_eq_ok {f : α → β} {r : β} : (f <$> x) = .ok r ↔ ∃ a, x = .ok a ∧ f a = r := by
  cases x with
  | error e | ok a => simp [Functor.map, Except.map]

theorem toOption_eq_some {a : α} : x.toOption = some a ↔ x = .ok a := by
  cases x with
  | error e | ok a => simp [Except.toOption]

variable {u : Unit}

@[simp] theorem rejectIf_eq_ok {bad : Prop} [Decidable bad] {error : ε} :
    rejectIf bad error = .ok u ↔ ¬ bad := by
  unfold rejectIf
  split <;> simp_all

@[simp] theorem checkWhen_eq_ok {condition : Prop} [Decidable condition] {check : Except ε Unit} :
    checkWhen condition check = .ok u ↔ (condition → check = .ok ()) := by
  unfold checkWhen
  split <;> simp_all

@[simp] theorem orRaise_eq_ok {error : ε} {o : Option α} {a : α} : orRaise error o = .ok a ↔ o = some a := by
  cases o <;> simp [orRaise]

theorem steps_ok :
    (∀ {ε α β : Type} {x : Except ε α} {f : α → Except ε β} {r : β},
        (x >>= f) = .ok r ↔ ∃ a, x = .ok a ∧ f a = .ok r) ∧
    (∀ {holds : Unit → Prop}, (∃ u, holds u) ↔ holds ()) ∧
    (∀ {ε α : Type} {a r : α}, (pure a : Except ε α) = .ok r ↔ a = r) ∧
    (∀ {ε : Type} {bad : Prop} [Decidable bad] {error : ε} {u : Unit},
      rejectIf bad error = .ok u ↔ ¬ bad) ∧
    ∀ {ε α : Type} {error : ε} {o : Option α} {a : α}, orRaise error o = .ok a ↔ o = some a :=
  ⟨bind_eq_ok, exists_unit, pure_eq_ok, rejectIf_eq_ok, orRaise_eq_ok⟩

/-! What a refusal says. -/

theorem bind_eq_error {error : ε} :
    (x >>= f) = .error error ↔ x = .error error ∨ ∃ a, x = .ok a ∧ f a = .error error := by
  cases x with
  | error e | ok a => simp [bind, Except.bind]

theorem rejectIf_eq_error {bad : Prop} [Decidable bad] {error raised : ε} :
    rejectIf bad error = .error raised ↔ bad ∧ error = raised := by
  by_cases bad <;> simp_all [rejectIf]

theorem orRaise_eq_error {error raised : ε} {o : Option α} :
    orRaise error o = .error raised ↔ o = none ∧ error = raised := by
  cases o <;> simp [orRaise]

theorem map_eq_error {f : α → β} {error : ε} : f <$> x = .error error ↔ x = .error error := by
  cases x <;> simp [Functor.map, Except.map]

variable {xs : List α}

@[simp] theorem each_eq_ok {check : α → Except ε Unit} :
    each check xs = .ok u ↔ ∀ x ∈ xs, check x = .ok () := by
  induction xs with
  | nil => simp [each]
  | cons _ _ ih => simp only [each, steps_ok, ih, forall_mem_cons]

theorem eachFresh_eq_ok [DecidableEq κ] {key : α → κ} {before after : α → Except ε Unit}
    {repeated : α → ε} {seen : List κ} :
    eachFresh key before repeated after seen xs = .ok u ↔
    (∀ x ∈ xs, before x = .ok () ∧ after x = .ok ()) ∧ (xs.map key).Nodup ∧
    ∀ x ∈ xs, key x ∉ seen := by
  induction xs generalizing seen with
  | nil => simp [eachFresh]
  | cons x _ ih =>
    simp only [eachFresh, steps_ok, ih, mem_cons, forall_eq_or_imp, map_cons, nodup_cons, mem_map,
      not_or, not_exists, not_and]
    constructor
    · rintro ⟨first, hu, later, rest, hd, hf⟩
      exact ⟨⟨⟨first, later⟩, rest⟩, ⟨fun y hm => (hf y hm).1, hd⟩, hu, fun y hm => (hf y hm).2⟩
    · rintro ⟨⟨⟨first, later⟩, rest⟩, ⟨ha, hd⟩, hu, hf⟩
      exact ⟨first, hu, later, rest, hd,
        fun y hm => ⟨ha y hm, hf y hm⟩⟩

variable {check : List α → α → Except ε Unit}

theorem eachAfter_eq_ok (alone : α → Prop) (agrees : α → α → Prop)
    (spec : ∀ seen x, check seen x = .ok () ↔ alone x ∧ ∀ y ∈ seen, agrees y x) {seen xs : List α} :
    eachAfter check seen xs = .ok u ↔
    (∀ x ∈ xs, alone x) ∧ (∀ y ∈ seen, ∀ x ∈ xs, agrees y x) ∧ xs.Pairwise agrees := by
  induction xs generalizing seen with
  | nil => simp [eachAfter]
  | cons _ _ ih =>
    simp only [eachAfter, steps_ok, spec, ih, mem_cons, forall_eq_or_imp, pairwise_cons]
    constructor
    · rintro ⟨⟨single, earlier⟩, rest, ⟨next, later⟩, pairs⟩
      exact ⟨⟨single, rest⟩, fun y hm => ⟨earlier y hm, later y hm⟩, next, pairs⟩
    · rintro ⟨⟨single, rest⟩, earlier, next, pairs⟩
      exact ⟨⟨single, fun y hm => (earlier y hm).1⟩, rest, ⟨next, fun y hm => (earlier y hm).2⟩, pairs⟩

theorem eachAfter_distinct {key : α → κ}
    (refuses : ∀ seen x, check seen x = .ok () → ∀ y ∈ seen, key y ≠ key x)
    (hp : eachAfter check [] xs = .ok ()) : (xs.map key).Nodup := by
  have general : ∀ xs seen, eachAfter check seen xs = .ok () →
      (xs.map key).Nodup ∧ ∀ y ∈ seen, ∀ x ∈ xs, key y ≠ key x := by
    intro xs
    induction xs with
    | nil => simp
    | cons x xs ih =>
      intro seen h
      simp only [eachAfter, steps_ok] at h
      obtain ⟨hd, ha⟩ := ih (x :: seen) h.2
      have hu := refuses seen x h.1
      refine ⟨?_, ?_⟩
      · rw [map_cons, nodup_cons]
        refine ⟨fun hm => ?_, hd⟩
        obtain ⟨z, hl, hs⟩ := mem_map.mp hm
        exact ha x (by simp) z hl hs.symm
      · intro y hm z hl
        rcases mem_cons.mp hl with rfl | hl
        · exact hu y hm
        · exact ha y (by simp [hm]) z hl
  exact (general xs [] hp).1

theorem eachAfter_perm {alone : α → Prop} {agrees : α → α → Prop}
    (spec : ∀ seen x, check seen x = .ok () ↔ alone x ∧ ∀ y ∈ seen, agrees y x)
    (symm : ∀ {x y}, agrees x y → agrees y x) {xs ys : List α} (perm : xs.Perm ys)
    (hp : eachAfter check [] xs = .ok ()) : eachAfter check [] ys = .ok () := by
  obtain ⟨single, -, pairs⟩ := (eachAfter_eq_ok _ _ spec).mp hp
  refine (eachAfter_eq_ok _ _ spec).mpr ⟨?_, by simp, (perm.pairwise_iff symm).mp pairs⟩
  exact fun x hm => single x (perm.mem_iff.mpr hm)

theorem each_perm {check : α → Except ε Unit} {xs ys : List α} (perm : xs.Perm ys) :
    each check xs = .ok () ↔ each check ys = .ok () := by
  rw [each_eq_ok, each_eq_ok]
  exact forall_congr' fun x => by rw [perm.mem_iff]

theorem eachFresh_perm [DecidableEq κ] {key : α → κ} {before after : α → Except ε Unit}
    {repeated : α → ε} {xs ys : List α} (perm : xs.Perm ys) :
    eachFresh key before repeated after [] xs = .ok () ↔
    eachFresh key before repeated after [] ys = .ok () := by
  rw [eachFresh_eq_ok, eachFresh_eq_ok, (perm.map key).nodup_iff]
  simp only [perm.mem_iff]

variable {ys : List β}

theorem mapM_eq_ok : xs.mapM f = .ok ys ↔ List.Forall₂ (fun x y => f x = .ok y) xs ys := by
  induction xs generalizing ys with
  | nil => cases ys <;> simp
  | cons _ _ ih =>
    rw [mapM_cons]
    simp only [steps_ok, ih]
    cases ys with
    | nil => simp
    | cons y ys =>
      simp only [cons.injEq, forall₂_cons]
      constructor
      · rintro ⟨_, first, _, rest, rfl, rfl⟩
        exact ⟨first, rest⟩
      · rintro ⟨first, rest⟩
        exact ⟨y, first, ys, rest, rfl, rfl⟩

theorem mapM_mem (run : xs.mapM f = .ok ys) {y : β} (member : y ∈ ys) : ∃ x ∈ xs, f x = .ok y := by
  induction mapM_eq_ok.1 run with
  | nil => simp at member
  | cons first rest ih =>
    rcases mem_cons.mp member with rfl | member
    · exact ⟨_, by simp, first⟩
    · obtain ⟨x, hl, hm⟩ := ih (mapM_eq_ok.2 rest) member
      exact ⟨x, by simp [hl], hm⟩

theorem mem_mapM (run : xs.mapM f = .ok ys) {x : α} (member : x ∈ xs) : ∃ y ∈ ys, f x = .ok y := by
  induction mapM_eq_ok.1 run with
  | nil => simp at member
  | cons first rest ih =>
    rcases mem_cons.mp member with rfl | member
    · exact ⟨_, by simp, first⟩
    · obtain ⟨y, hl, hm⟩ := ih (mapM_eq_ok.2 rest) member
      exact ⟨y, by simp [hl], hm⟩

theorem mapM_perm {xs ys : List α} (perm : xs.Perm ys) {us : List β}
    (run : xs.mapM f = .ok us) : ∃ vs, ys.mapM f = .ok vs ∧ vs.Perm us := by
  obtain ⟨vs, each, hs⟩ := perm_comp_forall₂ perm.symm (mapM_eq_ok.1 run)
  exact ⟨vs, mapM_eq_ok.2 each, hs⟩

theorem map_of_mapM {g : β → κ} {h : α → κ} (hk : ∀ x y, f x = .ok y → g y = h x) {xs : List α}
    (run : xs.mapM f = .ok ys) : ys.map g = xs.map h := by
  induction mapM_eq_ok.1 run with
  | nil => rfl
  | cons first rest ih => rw [map_cons, map_cons, hk _ _ first, ih (mapM_eq_ok.2 rest)]

theorem lookup_eq_some_iff_mem [BEq κ] [LawfulBEq κ] {table : List (κ × α)}
    (hd : (table.map Prod.fst).Nodup) {k : κ} {v : α} :
    table.lookup k = some v ↔ (k, v) ∈ table := by
  induction table with
  | nil => simp
  | cons row table ih =>
    obtain ⟨k', _⟩ := row
    simp only [map_cons, nodup_cons] at hd
    by_cases hs : k = k'
    · subst hs
      have ha : (k, v) ∉ table := fun hm => hd.1 (mem_map.mpr ⟨(k, v), hm, rfl⟩)
      simp only [lookup_cons, beq_self_eq_true, Option.some.injEq, mem_cons, Prod.mk.injEq,
        true_and, ha, or_false]
      exact eq_comm
    · have differs : (k == k') = false := by simpa using hs
      simp [lookup_cons, differs, ih hd.2, hs]

theorem lookup_swap [BEq κ] [LawfulBEq κ] [BEq α] [LawfulBEq α] (table : List (κ × α))
    (keys : (table.map Prod.fst).Nodup) (values : (table.map Prod.snd).Nodup) {k : κ} {v : α} :
    (table.map Prod.swap).lookup v = some k ↔ table.lookup k = some v := by
  rw [lookup_eq_some_iff_mem keys, lookup_eq_some_iff_mem (by simpa [Function.comp_def] using values)]
  simp

end Yinshi.Checked
