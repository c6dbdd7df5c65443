import Mathlib.Logic.Function.Basic
import Mathlib.Logic.Relation

/-! Runs of transition systems and of threads that share a state. An invariant of a
pool has a part for the shared state and a part for each thread; a step of one thread
must keep the part of every other thread. -/

namespace Yinshi.Runs
open Relation List

section Steps
variable {σ : Type} {step : σ → σ → Prop} {first last : σ}
variable {n : Nat} {s t : σ}

theorem run_keeps (inv : σ → Prop) (hk : ∀ s t, step s t → inv s → inv t)
    (run : ReflTransGen step first last) (start : inv first) : inv last := by
  induction run with
  | refl => exact start
  | tail _ next ih => exact hk _ _ next ih

inductive Steps (step : σ → σ → Prop) : Nat → σ → σ → Prop
  | refl (s : σ) : Steps step 0 s s
  | next {count : Nat} {s t u : σ} (first : step s t) (rest : Steps step count t u) :
      Steps step (count + 1) s u

/-- A run in which every step is the only one possible; `holds` is true before each. -/
inductive Forced (step : σ → σ → Prop) (holds : σ → Prop) : Nat → σ → σ → Prop
  | refl (s : σ) : Forced step holds 0 s s
  | next {count : Nat} {s t u : σ} (here : holds s) (first : step s t) (only : ∀ t', step s t' → t' = t)
      (rest : Forced step holds count t u) : Forced step holds (count + 1) s u

variable {holds : σ → Prop}

theorem Forced.trans {m : Nat} {u : σ} (front : Forced step holds m s t)
    (back : Forced step holds n t u) : Forced step holds (m + n) s u := by
  induction front with
  | refl s => simpa using back
  | @next _ _ _ _ hh move only _ ih =>
    rw [Nat.add_right_comm]
    exact .next hh move only (ih back)

theorem Forced.mono {weaker : σ → Prop} (implies : ∀ s, holds s → weaker s)
    (run : Forced step holds n s t) : Forced step weaker n s t := by
  induction run with
  | refl s => exact .refl s
  | next hh move only _ ih => exact .next (implies _ hh) move only ih

theorem Forced.steps (run : Forced step holds n s t) : Steps step n s t := by
  induction run with
  | refl s => exact .refl s
  | next _ move _ _ ih => exact .next move ih

theorem Forced.complete {m : Nat} {u : σ} (run : Forced step holds n s u) (rests : ∀ v, ¬ step u v)
    (ends : holds u) (other : Steps step m s t) :
    m ≤ n ∧ holds t ∧ Forced step holds (n - m) t u := by
  induction other generalizing n with
  | refl s =>
    refine ⟨Nat.zero_le n, ?_, run⟩
    cases run with
    | refl => exact ends
    | next hh => exact hh
  | @next _ _ _ _ move _ ih =>
    cases run with
    | refl => exact absurd move (rests _)
    | @next _ _ _ _ _ _ only rest =>
      obtain rfl := only _ move
      obtain ⟨_, hh, _⟩ := ih rest
      exact ⟨by omega, hh, by rwa [Nat.add_sub_add_right]⟩

end Steps

section Replay
variable {σ ε : Type} {step : σ → ε → Option σ} {allowed : σ → ε → Bool} {s last : σ} {events : List ε}

/-- The state after the events, if each is allowed where it happens. -/
def replay (step : σ → ε → Option σ) (allowed : σ → ε → Bool) (s : σ) (events : List ε) : Option σ :=
  events.foldlM (fun s event => if allowed s event then step s event else none) s

theorem replay_keeps (inv : σ → Prop)
    (hk : ∀ s event t, inv s → allowed s event = true → step s event = some t → inv t)
    (start : inv s) (replayed : replay step allowed s events = some last) : inv last := by
  induction events generalizing s with
  | nil =>
    cases replayed
    exact start
  | cons event _ ih =>
    obtain ⟨t, hs, rest⟩ := Option.bind_eq_some_iff.mp replayed
    obtain ⟨ha, hs⟩ := Option.ite_none_right_eq_some.mp hs
    exact ih (hk s event t start ha hs) rest

theorem run_of_replay (replayed : replay step allowed s events = some last) :
    ReflTransGen (fun s t => ∃ event, step s event = some t) s last :=
  replay_keeps _ (fun _ event _ run _ hs => run.tail ⟨event, hs⟩) .refl replayed

end Replay

theorem forall_update {ι τ : Type} [DecidableEq ι] {threads : ι → Option τ} {holds : ι → τ → Prop}
    {number : ι} {thread : Option τ} (old : ∀ i, i ≠ number → ∀ other ∈ threads i, holds i other)
    (new : ∀ own ∈ thread, holds number own) :
    ∀ i, ∀ other ∈ Function.update threads number thread i, holds i other := by
  intro i other hl
  by_cases hs : i = number
  · subst hs
    rw [Function.update_self] at hl
    exact new other hl
  · rw [Function.update_of_ne hs] at hl
    exact old i hs other hl

theorem eq_of_update {ι τ : Type} [DecidableEq ι] {threads : ι → Option τ} {number : ι}
    {thread other : τ} (hf : Function.update threads number (some thread) number = some other) :
    thread = other := by
  rwa [Function.update_self, Option.some.injEq] at hf

structure Pool (σ τ : Type) where
  shared : σ
  threads : List τ

namespace Pool
variable {σ τ : Type}

inductive Step (spawn : τ → Prop) (act : σ → τ → σ → τ → Prop) : Pool σ τ → Pool σ τ → Prop
  | spawn {shared : σ} {threads : List τ} {thread : τ} (fresh : spawn thread) :
      Step spawn act ⟨shared, threads⟩ ⟨shared, threads ++ [thread]⟩
  | act {shared shared' : σ} {before after : List τ} {thread thread' : τ}
      (acts : act shared thread shared' thread') :
      Step spawn act ⟨shared, before ++ thread :: after⟩ ⟨shared', before ++ thread' :: after⟩

structure Holds (inv : σ → Prop) (here : σ → τ → Prop) (pool : Pool σ τ) : Prop where
  shared : inv pool.shared
  threads : ∀ thread ∈ pool.threads, here pool.shared thread

variable {spawn : τ → Prop} {act : σ → τ → σ → τ → Prop} {inv : σ → Prop} {here : σ → τ → Prop}

theorem step_holds (spawned : ∀ shared thread, spawn thread → inv shared → here shared thread)
    (acted : ∀ shared thread shared' thread', act shared thread shared' thread' → inv shared →
        here shared thread → inv shared' ∧ here shared' thread')
    (apart : ∀ shared thread shared' thread' other,
        act shared thread shared' thread' → inv shared → here shared thread → here shared other →
        here shared' other) (pool next : Pool σ τ) (step : Step spawn act pool next)
    (hh : Holds inv here pool) : Holds inv here next := by
  cases step with
  | spawn hf =>
    refine ⟨hh.shared, fun thread hm => ?_⟩
    rcases mem_append.mp hm with old | new
    · exact hh.threads thread old
    · rw [mem_singleton.mp new]
      exact spawned _ _ hf hh.shared
  | @act _ shared' before after thread _ ha =>
    have own := hh.threads thread (by simp)
    obtain ⟨hk, moved⟩ := acted _ _ _ _ ha hh.shared own
    refine ⟨hk, fun other hm => ?_⟩
    have others : other ∈ before ∨ other ∈ after → here shared' other := by
      intro hl
      refine apart _ _ _ _ other ha hh.shared own (hh.threads other ?_)
      rcases hl with left | hr
      · exact mem_append_left _ left
      · exact mem_append_right _ (mem_cons_of_mem _ hr)
    rcases mem_append.mp hm with left | hr
    · exact others (.inl left)
    · rcases mem_cons.mp hr with rfl | hr
      · exact moved
      · exact others (.inr hr)

end Pool

end Yinshi.Runs
