import Yinshi.Guest.StateRoot

/-! Recovery: in every state that a restore can be stopped in, the tree that recovery leaves
under each live root is the one of the last commit. -/

namespace Yinshi.Guest
open Faulty Prog Function Restoring List Option
variable {root : Root}

variable {π : Type} {s s' : StateRoot π} {j j' : Journal π}

theorem treeSize_removals {tree left : Option (Tree π)} (hm : left ∈ treeRemovals tree) :
    treeSize left < treeSize tree := by
  match tree with
  | none => exact absurd hm not_mem_nil
  | some [] =>
    obtain rfl := mem_singleton.mp hm
    exact Nat.zero_lt_one
  | some (x :: xs) =>
    obtain ⟨position, hb, rfl⟩ := mem_map.mp hm
    have less : position < (x :: xs).length := by simpa using hb
    simp only [treeSize, length_eraseIdx_of_lt less]
    omega

theorem mem_slotRemovals {trees left : Root → Option (Tree π)} (hm : left ∈ slotRemovals trees) :
    ∃ root tree, tree ∈ treeRemovals (trees root) ∧ left = update trees root tree := by
  obtain ⟨root, _, hh⟩ := mem_flatMap.mp hm
  obtain ⟨tree, hl, rfl⟩ := mem_map.mp hh
  exact ⟨root, tree, hl, rfl⟩

theorem slotSize_removals {trees left : Root → Option (Tree π)} (hm : left ∈ slotRemovals trees) :
    slotSize left < slotSize trees := by
  obtain ⟨root, _, hl, rfl⟩ := mem_slotRemovals hm
  have less := treeSize_removals hl
  cases root <;> simp [slotSize, update] <;> omega

theorem size_removals (hm : j' ∈ j.removals) : j'.size < j.size := by
  simp only [Journal.removals, mem_append, List.mem_map] at hm
  rcases hm with (((hm | hm) | ⟨_, hl, rfl⟩) | ⟨_, hl, rfl⟩) | hm
  · split at hm
    next hh =>
      obtain rfl := mem_singleton.mp hm
      simp [Journal.size, hh]
    next => exact absurd hm not_mem_nil
  · split at hm
    next hh =>
      obtain rfl := mem_singleton.mp hm
      simp [Journal.size, hh]
    next => exact absurd hm not_mem_nil
  · have less := slotSize_removals hl
    simp only [Journal.size]
    omega
  · have less := slotSize_removals hl
    simp only [Journal.size]
    omega
  · split at hm
    next hh =>
      obtain rfl := mem_singleton.mp hm
      simp [Journal.size, hh.1]
    next => exact absurd hm not_mem_nil

theorem kept_removals (hm : j' ∈ j.removals) (gone : j.kept root = none) : j'.kept root = none := by
  simp only [Journal.removals, mem_append, List.mem_map] at hm
  rcases hm with (((hm | hm) | ⟨_, hl, rfl⟩) | ⟨_, hl, rfl⟩) | hm
  · split at hm
    next => rw [mem_singleton.mp hm]; exact gone
    next => exact absurd hm not_mem_nil
  · split at hm
    next => rw [mem_singleton.mp hm]; exact gone
    next => exact absurd hm not_mem_nil
  · obtain ⟨other, _, entry, rfl⟩ := mem_slotRemovals hl
    have hd : root ≠ other := fun hs => by
      rw [← hs, gone] at entry
      exact absurd entry not_mem_nil
    exact (update_of_ne hd ..).trans gone
  · exact gone
  · split at hm
    next => rw [mem_singleton.mp hm]; exact gone
    next => exact absurd hm not_mem_nil

section Removal
variable {allowed : Step → StateRoot π → Fault Error → Prop} {inv : StateRoot π → Prop}
  {failed : Error → StateRoot π → Prop}

theorem removeTree_spec {label : Step} {journal : StateRoot π → Option (Journal π)}
    {put : StateRoot π → Option (Journal π) → StateRoot π} {after : StateRoot π → Prop}
    (holds : StateRoot π → Prop) (reads : ∀ s j, journal (put s j) = j)
    (hs : ∀ s, holds s → allowed label s .stop → inv s)
    (hf : ∀ s error, holds s → allowed label s (.fail error) → failed error s)
    (hk : ∀ s j j', holds s → journal s = some j → j' ∈ j.removals → holds (put s (some j')))
    (ends : ∀ s, holds s → after (put s none)) (start : holds s) :
    Wp allowed inv failed (fun _ => after) (removeTree label journal put) s := by
  refine .bind (.look (.seq _ (.drain holds (fun s => ((journal s).map Journal.size).getD 0) _ hs hf
    (fun s s' held hm => ?_) (fun s s' hm => ?_) start (Nat.le_refl _)) fun _ s' drained => ?_))
  · cases hh : journal s with
    | none => simp [hh] at hm
    | some j =>
      simp only [hh, map_some, getD_some, List.mem_map] at hm
      obtain ⟨j', removed, rfl⟩ := hm
      exact hk s j j' held hh removed
  · cases hh : journal s with
    | none => simp [hh] at hm
    | some _ =>
      simp only [hh, map_some, getD_some, List.mem_map] at hm
      obtain ⟨_, removed, rfl⟩ := hm
      simpa [reads] using size_removals removed
  · refine .step (hs s' drained.1) (fun error => hf s' error drained.1) (fun _ _ s'' hd => ?_)
      fun _ _ hd => ?_
    · rw [if_pos (by simpa using drained.2)] at hd
      cases hd
      exact ends s' drained.1
    · rw [if_pos (by simpa using drained.2)] at hd
      exact nomatch hd

end Removal

namespace StateRoot

def kept (s : StateRoot π) (root : Root) : Option (Tree π) := s.transaction.bind (·.kept root)

def held (s : StateRoot π) (root : Root) : Option (Tree π) :=
  match s.kept root with
  | some tree => some tree
  | none => s.live root

end StateRoot

structure Sound (s : StateRoot π) : Prop where
  held : ∀ root, s.held root = some (s.generation root)
  phase : ∀ j, s.transaction = some j → j.phase.isSome = true
  apart : s.cleanup.isSome = true → s.transaction = none

structure Settled (s : StateRoot π) : Prop extends Sound s where
  live : ∀ root, s.live root = some (s.generation root)

theorem held_of_kept {tree : Tree π} (hk : s.kept root = some tree) : s.held root = some tree := by
  simp [StateRoot.held, hk]

theorem held_of_none (gone : s.kept root = none) : s.held root = s.live root := by
  simp [StateRoot.held, gone]

theorem Sound.settled (hs : Sound s) (gone : ∀ root, s.kept root = none) : Settled s where
  toSound := hs
  live root := (held_of_none (gone root)).symm.trans (hs.held root)

theorem kept_of_none (gone : s.transaction = none) (root : Root) : s.kept root = none := by
  simp [StateRoot.kept, gone]

theorem kept_isSome (root : Root) :
    s.transaction.any (fun j => (j.kept root).isSome) = (s.kept root).isSome := by
  unfold StateRoot.kept
  cases s.transaction <;> rfl

theorem Sound.congr (hs : Sound s) (live : s'.live = s.live)
    (transaction : s'.transaction = s.transaction) (generation : s'.generation = s.generation)
    (ha : s'.cleanup.isSome = true → s.transaction = none) : Sound s' where
  held root := by
    have hh := hs.held root
    unfold StateRoot.held StateRoot.kept at hh ⊢
    rw [live, transaction, generation]
    exact hh
  phase j here := hs.phase j (transaction ▸ here)
  apart here := transaction.trans (ha here)

/-- What the environment may do so that a restore is all or nothing. -/
def Permitted (label : Step) (s : StateRoot π) (fault : Fault Error) : Prop :=
  match label with
  | .commit | .commitSync | .removeStage => ∀ error, fault ≠ .fail error
  | .removeCommitted => ∀ error, fault = .fail error → error = .os
  | .recoverMove => (∃ root, (s.kept root).isSome = true) → ∀ error, fault ≠ .fail error
  | .removeJournal => s.transaction.any (·.phase.isNone) = true → fault.isGo = true
  | _ => True

section Recovery
variable {allowed : Step → StateRoot π → Fault Error → Prop} {inv : StateRoot π → Prop}
  {failed : Error → StateRoot π → Prop} {g : Root → Tree π}
variable {done : List Root} {root : Root}

structure Between (g : Root → Tree π) (s : StateRoot π) : Prop extends Sound s where
  generation : s.generation = g
  cleanup : s.cleanup = none

theorem kept_onTransaction (s : StateRoot π) (edit : Journal π → Journal π) (root : Root) :
    (onTransaction edit s).kept root = s.transaction.bind fun j => (edit j).kept root := by
  unfold StateRoot.kept onTransaction
  cases s.transaction <;> rfl

theorem Between.edits {edit : Journal π → Journal π} (between : Between g s)
    (hk : ∀ j, (edit j).kept = j.kept)
    (phase : ∀ j, j.phase.isSome = true → (edit j).phase.isSome = true) :
    Between g (onTransaction edit s) where
  held root := by
    have hh := between.held root
    unfold StateRoot.held at hh ⊢
    rw [kept_onTransaction]
    simp only [hk]
    exact hh
  phase j here := by
    obtain ⟨j, ht, rfl⟩ := map_eq_some_iff.mp here
    exact phase j (between.phase j ht)
  apart here := by simp [Restoring.onTransaction, between.cleanup] at here
  generation := between.generation
  cleanup := between.cleanup

/-- The roots of `done` are not, or not any longer, in the journal. -/
structure Recovered (g : Root → Tree π) (done : List Root) (s : StateRoot π) : Prop extends Between g s where
  gone : ∀ root ∈ done, s.kept root = none

theorem Recovered.edits {edit : Journal π → Journal π} (hr : Recovered g done s)
    (hk : ∀ j, (edit j).kept = j.kept)
    (phase : ∀ j, j.phase.isSome = true → (edit j).phase.isSome = true) :
    Recovered g done (onTransaction edit s) where
  toBetween := hr.toBetween.edits hk phase
  gone root listed := by
    rw [kept_onTransaction]
    simp only [hk]
    exact hr.gone root listed

theorem Recovered.putAside (hr : Recovered g done s) (here : (s.kept root).isSome = true) :
    Recovered g done (putAside root s) ∧ ((putAside root s).kept root).isSome = true := by
  have edited : Recovered g done
        (onTransaction (fun j => { j with failed := update j.failed root (s.live root) }) s) :=
    hr.edits (fun _ => rfl) fun _ => id
  have hk : ∀ other, (Restoring.putAside root s).kept other = s.kept other := kept_onTransaction s _
  refine ⟨⟨⟨⟨fun other => ?_, edited.phase, edited.apart⟩, edited.generation, edited.cleanup⟩,
      edited.gone⟩, ?_⟩
  · have hh := hr.held other
    unfold StateRoot.held at hh ⊢
    rw [hk]
    by_cases hs : other = root
    · obtain ⟨_, ht⟩ := isSome_iff_exists.mp here
      rw [hs, ht] at hh ⊢
      exact hh
    · have live : (Restoring.putAside root s).live other = s.live other := update_of_ne hs ..
      rw [live]
      exact hh
  · rwa [hk]

theorem Recovered.putBack (hr : Recovered g done s)
    (here : (s.kept root).isSome = true) : Recovered g (root :: done) (putBack root s) := by
  have hk : ∀ other, (Restoring.putBack root s).kept other = if other = root then none else s.kept other := by
    intro other
    refine (kept_onTransaction s _ other).trans ?_
    unfold StateRoot.kept
    cases s.transaction with
    | none => simp
    | some j => by_cases hs : other = root <;> simp [hs, update_of_ne]
  refine ⟨⟨⟨fun other => ?_, fun j ht => ?_, fun ht => ?_⟩, hr.generation, hr.cleanup⟩, fun other hl => ?_⟩
  · have hh := hr.held other
    by_cases hs : other = root
    · obtain ⟨_, ht⟩ := isSome_iff_exists.mp here
      rw [hs, held_of_kept ht] at hh
      rw [hs, held_of_none (by rw [hk, if_pos rfl])]
      have live : (Restoring.putBack root s).live root = s.kept root := update_self ..
      rw [live, ht]
      exact hh
    · have live : (Restoring.putBack root s).live other = s.live other := update_of_ne hs ..
      unfold StateRoot.held at hh ⊢
      rw [hk, if_neg hs, live]
      exact hh
  · obtain ⟨j, before, rfl⟩ := map_eq_some_iff.mp ht
    exact hr.phase j before
  · exact absurd (show s.cleanup.isSome = true from ht) (by simp [hr.cleanup])
  · rw [hk]
    split
    · rfl
    next hd => exact hr.gone other ((mem_cons.mp hl).resolve_left hd)

theorem failed_removals
    (hm : s' ∈
        (s.transaction.map
            fun j =>
              (treeRemovals (j.failed root)).map
                fun left =>
                  onTransaction (fun j => { j with failed := update j.failed root left }) s).getD
          []) :
    ∃ j left, s.transaction = some j ∧ left ∈ treeRemovals (j.failed root) ∧
      s' = onTransaction (fun j => { j with failed := update j.failed root left }) s := by
  cases hh : s.transaction with
  | none => simp [hh] at hm
  | some j =>
    simp only [hh, map_some, getD_some, List.mem_map] at hm
    obtain ⟨left, hl, rfl⟩ := hm
    exact ⟨j, left, rfl, hl, rfl⟩

theorem recoverRoot_spec (root : Root) (hs : ∀ s, Between g s → inv s)
    (hf : ∀ s error, Between g s → allowed .recoverMove s (.fail error) → failed error s)
    (hr : Recovered g done s) :
    Wp allowed inv failed (fun _ => Recovered g (root :: done)) (recoverRoot root) s := by
  refine .bind (.look (.onlyIf (fun here => ?_) fun ha => ?_))
  · rw [kept_isSome] at here
    refine .bind (.look (.seq (fun _ s => Recovered g done s ∧ (s.kept root).isSome = true) ?_
          fun _ s' aside => ?_))
    · refine .onlyIf (fun _ => ?_) fun _ => ⟨hr, here⟩
      refine .bind (.look (.seq (fun _ s => Recovered g done s ∧ (s.kept root).isSome = true) ?_
            fun _ s' drained => ?_))
      · refine (Wp.drain (fun s => Recovered g done s ∧ (s.kept root).isSome = true)
            (fun s => (s.transaction.map fun j => treeSize (j.failed root)).getD 0) _
            (fun s hh _ => hs s hh.1.toBetween) (fun s error hh => hf s error hh.1.toBetween)
            (fun s s' hh hm => ?_) (fun s s' hm => ?_) ⟨hr, here⟩ (Nat.le_refl _)).mono
          (fun _ _ => id)
          fun _ _ => And.left
        · obtain ⟨j, left, _, _, rfl⟩ := failed_removals hm
          exact ⟨hh.1.edits (fun _ => rfl) fun _ => id, by rw [kept_onTransaction]; exact hh.2⟩
        · obtain ⟨_, _, ht, hl, rfl⟩ := failed_removals hm
          simpa [Restoring.onTransaction, ht] using treeSize_removals hl
      · exact .change (hs s' drained.1.toBetween) (fun error => hf s' error drained.1.toBetween)
          (drained.1.putAside drained.2)
    · have back := aside.1.putBack aside.2
      refine .bind (.change (hs s' aside.1.toBetween) (fun error => hf s' error aside.1.toBetween) ?_)
      exact .touch (hs _ back.toBetween) (fun error => hf _ error back.toBetween) back
  · rw [kept_isSome] at ha
    refine ⟨hr.toBetween, fun other hl => ?_⟩
    rcases mem_cons.mp hl with rfl | before
    · simpa using ha
    · exact hr.gone other before

structure Removing (g : Root → Tree π) (s : StateRoot π) : Prop where
  live : ∀ root, s.live root = some (g root)
  gone : ∀ root, s.kept root = none
  generation : s.generation = g
  cleanup : s.cleanup = none

theorem Removing.settled (removing : Removing g s)
    (phase : ∀ j, s.transaction = some j → j.phase.isSome = true) : Settled s where
  held root := by rw [held_of_none (removing.gone root), removing.live, removing.generation]
  phase := phase
  apart here := by simp [removing.cleanup] at here
  live root := by rw [removing.live, removing.generation]

theorem Recovered.removing (hr : Recovered g [.files, .sqlite] s) : Removing g s where
  live root := by
    have hh := hr.held root
    rwa [held_of_none (hr.gone root (by cases root <;> simp)), hr.generation] at hh
  gone root := hr.gone root (by cases root <;> simp)
  generation := hr.generation
  cleanup := hr.cleanup

def Disturbed (allowed : Step → StateRoot π → Fault Error → Prop) : Prop :=
  ∃ label s error, allowed label s (.fail error)

theorem recover_spec (permits : ∀ label s fault, allowed label s fault → Permitted label s fault)
    (stops : ∀ s, Sound s → s.generation = g → inv s)
    (hf : ∀ s error, Settled s → s.generation = g → Disturbed allowed → failed error s)
    (between : Between g s) :
    Wp allowed inv failed (fun _ s' => Between g s' ∧ s'.transaction = none)
      recoverRestoreTransaction s := by
  have moving : ∀ s error, Between g s → allowed .recoverMove s (.fail error) → failed error s := by
    intro s error between fault
    refine hf s error (between.settled fun root => ?_) between.generation ⟨_, _, _, fault⟩
    by_contra kept
    exact permits _ _ _ fault ⟨root, isSome_iff_ne_none.mpr kept⟩ error rfl
  have hs : ∀ s, Between g s → inv s := fun s between => stops s between.toSound between.generation
  refine .bind (.look (.onlyIf (fun here => ?_) fun ha => ⟨between, by simpa using ha⟩))
  refine .bind (.look (.seq (fun _ s' => s' = s) (.onlyIf (fun lost => ?_) fun _ => rfl) ?_))
  · obtain ⟨j, ht⟩ := isSome_iff_exists.mp here
    have phase := between.phase j ht
    simp only [ht, any_some, isNone_iff_eq_none] at lost
    simp [lost] at phase
  rintro - s rfl
  refine .seq (fun _ => Recovered g [.files, .sqlite]) ?_ fun _ s' hr => ?_
  · have start : Recovered g [] s := ⟨between, fun _ hl => absurd hl not_mem_nil⟩
    refine .seq _ (recoverRoot_spec .sqlite hs moving start) fun _ s₁ first => ?_
    exact .seq _ (recoverRoot_spec .files hs moving first) fun _ s₂ second => .pure second
  have removing := hr.removing
  refine .bind (.look (.seq (fun _ s'' => s'' = s') (.onlyIf (fun missing => ?_) fun _ => rfl) ?_))
  · simp [roots, removing.live] at missing
  rintro - s' rfl
  -- A stop or an error comes before the state file is gone.
  have hse : ∀ s fault, Removing g s → allowed .removeJournal s fault → fault.isGo = false → Settled s := by
    intro s _ removing met disturbed
    refine removing.settled fun j ht => ?_
    by_contra lost
    have go := permits _ _ _ met (by simpa [ht] using lost)
    rw [disturbed] at go
    exact nomatch go
  have stopped : ∀ s, Removing g s → allowed .removeJournal s .stop → inv s := fun s removing met =>
    stops s (hse s _ removing met rfl).toSound removing.generation
  have failing : ∀ s error, Removing g s → allowed .removeJournal s (.fail error) → failed error s :=
    fun s error removing met => hf s error (hse s _ removing met rfl) removing.generation ⟨_, _, _, met⟩
  refine .seq (fun _ s' => Between g s' ∧ s'.transaction = none)
    (removeTree_spec (Removing g) (fun _ _ => rfl) stopped failing (fun s j j' hh ht hm => ?_)
      (fun s hh => ?_) removing)
    fun _ s'' he => ?_
  · refine ⟨hh.live, fun root => kept_removals hm ?_, hh.generation, hh.cleanup⟩
    have gone := hh.gone root
    unfold StateRoot.kept at gone
    rwa [ht] at gone
  · have gone : Removing g { s with transaction := none } := ⟨hh.live, fun _ => rfl, hh.generation, hh.cleanup⟩
    exact ⟨⟨(gone.settled fun _ here => nomatch here).toSound, hh.generation, hh.cleanup⟩, rfl⟩
  · refine .touch (hs s'' he.1) (fun error met => hf s'' error ?_ he.1.generation ⟨_, _, _, met⟩) he
    exact he.1.settled (kept_of_none he.2)

end Recovery

end Yinshi.Guest
