import Yinshi.Guest.Recovery

/-! A restore is all or nothing in every run whose faults are permitted. -/

namespace Yinshi.Guest
open Faulty Prog Function Restoring Option

variable {π : Type} {s s' : StateRoot π} {g trees : Root → Tree π}

section Call
variable {allowed : Step → StateRoot π → Fault Error → Prop} {inv : StateRoot π → Prop}
  {failed : Error → StateRoot π → Prop}

structure Still (g : Root → Tree π) (s : StateRoot π) : Prop extends Between g s where
  gone : ∀ root, s.kept root = none

theorem Still.settled (hs : Still g s) : Settled s := hs.toSound.settled hs.gone

theorem Still.congr (hs : Still g s) (live : s'.live = s.live)
    (transaction : s'.transaction = s.transaction) (generation : s'.generation = s.generation)
    (cleanup : s'.cleanup = s.cleanup) : Still g s' where
  toSound := hs.toSound.congr live transaction generation fun hh => absurd hh (by simp [cleanup, hs.cleanup])
  generation := generation.trans hs.generation
  cleanup := cleanup.trans hs.cleanup
  gone root := by
    have gone := hs.gone root
    unfold StateRoot.kept at gone ⊢
    rwa [transaction]

def preparedJournal : Journal π := { phase := some .prepared, rollback := true }

theorem Still.published (hs : Still g s) (hf : s.transaction = none)
    {preparation : Option (Journal π)} :
    Still g { s with transaction := some preparedJournal, preparation := preparation } where
  held root := by
    have hh := hs.held root
    rw [held_of_none (kept_of_none hf root)] at hh
    exact hh
  phase j here := by rw [← some.inj here]; rfl
  apart here := by simp [hs.cleanup] at here
  generation := hs.generation
  cleanup := hs.cleanup
  gone _ := rfl

theorem writeRestoreState_spec {edit : (Journal π → Journal π) → StateRoot π → StateRoot π}
    {phase : Phase} {after : StateRoot π → Prop} (holds : StateRoot π → Prop)
    (hs : ∀ s, holds s → inv s) (hf : ∀ s error, holds s → Disturbed allowed → failed error s)
    (start : holds s) (temporary : holds (edit (fun j => { j with temporary := true }) s))
    (written : holds (edit (fun j => { j with phase := some phase, temporary := false })
          (edit (fun j => { j with temporary := true }) s)))
    (ends : after (edit (fun j => { j with phase := some phase, temporary := false })
          (edit (fun j => { j with temporary := true }) s))) :
    Wp allowed inv failed (fun _ => after) (writeRestoreState edit phase) s := by
  refine .bind (.change (hs _ start) (fun error met => hf _ error start ⟨_, _, _, met⟩) ?_)
  refine .bind (.touch (hs _ temporary) (fun error met => hf _ error temporary ⟨_, _, _, met⟩) ?_)
  refine .bind (.touch (hs _ temporary) (fun error met => hf _ error temporary ⟨_, _, _, met⟩) ?_)
  refine .bind (.change (hs _ temporary) (fun error met => hf _ error temporary ⟨_, _, _, met⟩) ?_)
  exact .touch (hs _ written) (fun error met => hf _ error written ⟨_, _, _, met⟩) ends

theorem publish_spec (stops : ∀ s, Sound s → s.generation = g → inv s)
    (hf : ∀ s error, Settled s → s.generation = g → Disturbed allowed → failed error s)
    (still : Still g s) (free : s.transaction = none) :
    Wp allowed inv failed
      (fun _ s' => s' = { s with transaction := some preparedJournal, preparation := none })
      publishRestoreTransaction s := by
  have hs : ∀ s, Still g s → inv s := fun s still => stops s still.toSound still.generation
  have prep : ∀ preparation,
      Still g { s with preparation := preparation } := fun _ => still.congr rfl rfl rfl rfl
  have hp : Still g { s with transaction := some preparedJournal, preparation := none } := still.published free
  refine .bind (.look (.seq (fun _ s' => s' = s)
        (.onlyIf (fun taken => absurd taken (by simp [free])) fun _ => rfl) ?_))
  rintro - s rfl
  refine .bind (.change (hs _ still)
      (fun error met => hf _ error still.settled still.generation ⟨_, _, _, met⟩) ?_)
  refine .seq (fun _ s' => s' = { s with transaction := some preparedJournal, preparation := none })
    (.rescue (fun _ s' => Still g s' ∧ Disturbed allowed) ?_ ?_) ?_
  · refine .bind (.change (hs _ (prep _)) (fun _ met => ⟨prep _, _, _, _, met⟩) ?_)
    refine .seq (fun _ s' => s' = { s with preparation := some preparedJournal }) ?_ ?_
    · refine writeRestoreState_spec (fun s' => ∃ preparation, s' = { s with preparation := preparation }) ?_ ?_
        ⟨_, rfl⟩ ⟨_, rfl⟩ ⟨_, rfl⟩ rfl
      · rintro _ ⟨preparation, rfl⟩
        exact hs _ (prep preparation)
      · rintro _ error ⟨preparation, rfl⟩ disturbed
        exact ⟨prep preparation, disturbed⟩
    rintro - _ rfl
    refine .bind (.touch (hs _ (prep _)) (fun _ met => ⟨prep _, _, _, _, met⟩) ?_)
    refine .bind (.change (hs _ (prep _)) (fun _ met => ⟨prep _, _, _, _, met⟩) ?_)
    exact .touch (hs _ hp) (fun _ met => ⟨hp, _, _, _, met⟩) rfl
  · intro error _ hb
    have failing : ∀ s,
        Still g s → failed error s := fun s still => hf s error still.settled still.generation hb.2
    refine .bind (.look (.seq (fun _ => Still g) (.onlyIf (fun _ => ?_) fun _ => hb.1)
          fun _ s still => .raise (failing s still)))
    refine removeTree_spec (Still g) (fun _ _ => rfl) (fun s still _ => hs s still) (fun s error still met => ?_)
      (fun s _ _ still _ _ => still.congr rfl rfl rfl rfl) (fun s still => still.congr rfl rfl rfl rfl) hb.1
    exact hf s error still.settled still.generation ⟨_, _, _, met⟩
  · rintro - _ rfl
    exact .bind (.look (.onlyIf (fun lost => nomatch lost) fun _ => rfl))

structure At (g : Root → Tree π) (kept live staged : Root → Option (Tree π)) (s : StateRoot π) : Prop where
  journal : ∃ j, s.transaction = some j ∧ j.kept = kept ∧ j.phase.isSome = true
  live : s.live = live
  staged : s.staged = staged
  generation : s.generation = g
  cleanup : s.cleanup = none

variable {kept live staged : Root → Option (Tree π)}

theorem At.between (at' : At g kept live staged s)
    (hc : ∀ root, kept root = some (g root) ∨ (kept root = none ∧ live root = some (g root))) :
    Between g s := by
  obtain ⟨_, hh, hs, _⟩ := at'.journal
  have ht : ∀ root, s.kept root = kept root := fun root => by
    unfold StateRoot.kept
    rw [hh, ← hs]
    rfl
  refine ⟨⟨fun root => ?_, fun j' hh' => ?_, fun hh => by simp [at'.cleanup] at hh⟩, at'.generation, at'.cleanup⟩
  · rw [at'.generation]
    rcases hc root with old | ⟨none, unmoved⟩
    · exact held_of_kept ((ht root).trans old)
    · rw [held_of_none ((ht root).trans none), at'.live, unmoved]
  · rw [hh] at hh'
    rwa [← some.inj hh']

theorem At.keepRoot (at' : At g kept live staged s) (root : Root) :
    At g (update kept root (live root)) (update live root none) staged (keepRoot root s) where
  journal := by
    obtain ⟨_, hh, rfl, phase⟩ := at'.journal
    exact ⟨_, congrArg (Option.map _) hh, by rw [← at'.live], phase⟩
  live := by rw [← at'.live]; rfl
  staged := at'.staged
  generation := at'.generation
  cleanup := at'.cleanup

theorem At.installRoot (at' : At g kept live staged s) (root : Root) :
    At g kept (update live root (staged root)) (update staged root none) (installRoot root s) where
  journal := at'.journal
  live := by rw [← at'.live, ← at'.staged]; rfl
  staged := by rw [← at'.staged]; rfl
  generation := at'.generation
  cleanup := at'.cleanup

theorem At.edits {edit : Journal π → Journal π} (at' : At g kept live staged s)
    (hs : ∀ j, (edit j).kept = j.kept)
    (phase : ∀ j, j.phase.isSome = true → (edit j).phase.isSome = true) :
    At g kept live staged (onTransaction edit s) where
  journal := by
    obtain ⟨j, hh, rfl, some⟩ := at'.journal
    exact ⟨_, congrArg (Option.map _) hh, hs j, phase j some⟩
  live := at'.live
  staged := at'.staged
  generation := at'.generation
  cleanup := at'.cleanup

section Moves
variable (stops : ∀ s, Sound s → s.generation = g → inv s)
include stops

theorem move_spec {kept' live' staged' : Root → Option (Tree π)}
    {effect : StateRoot π → StateRoot π} (phase : Phase)
    (hc : ∀ root, kept root = some (g root) ∨ (kept root = none ∧ live root = some (g root)))
    (hc' : ∀ root, kept' root = some (g root) ∨ (kept' root = none ∧ live' root = some (g root)))
    (moves : At g kept' live' staged' (effect s)) (at' : At g kept live staged s)
    {next : Restoring π Unit} {post : StateRoot π → Prop}
    (hf : ∀ s, At g kept' live' staged' s →
      Wp allowed inv (fun _ s' => Between g s' ∧ Disturbed allowed) (fun _ => post) next s) :
    Wp allowed inv (fun _ s' => Between g s' ∧ Disturbed allowed) (fun _ => post) (do
      change .moveRoot effect
      touch .sync
      writeRestoreState onTransaction phase
      next) s := by
  have hs : ∀ s, Between g s → inv s := fun s between => stops s between.toSound between.generation
  have before := at'.between hc
  have after := moves.between hc'
  refine .bind (.change (hs _ before) (fun _ met => ⟨before, _, _, _, met⟩) ?_)
  refine .bind (.touch (hs _ after) (fun _ met => ⟨after, _, _, _, met⟩) ?_)
  refine .seq (fun _ => At g kept' live' staged') ?_ fun _ => hf
  refine writeRestoreState_spec (At g kept' live' staged') (fun s at' => hs s (at'.between hc'))
    (fun s _ at' disturbed => ⟨at'.between hc', disturbed⟩) moves (moves.edits (fun _ => rfl) fun _ => id) ?_ ?_
  · refine At.edits ?_ (fun _ => rfl) fun _ _ => rfl
    exact moves.edits (fun _ => rfl) fun _ => id
  · refine At.edits ?_ (fun _ => rfl) fun _ _ => rfl
    exact moves.edits (fun _ => rfl) fun _ => id

theorem moveRoots_spec
    (at' : At g (fun _ => none) (fun root => some (g root)) (fun root => some (trees root)) s) :
    Wp allowed inv (fun _ s' => Between g s' ∧ Disturbed allowed)
      (fun _ => At g (fun root => some (g root)) (fun root => some (trees root)) fun _ => none)
      moveRoots s := by
  have hs : ∀ s, Between g s → inv s := fun s between => stops s between.toSound between.generation
  refine move_spec stops _ ?_ ?_ (at'.keepRoot .sqlite) at' fun s at' => ?_
  · exact fun _ => .inr ⟨rfl, rfl⟩
  · exact fun root => by cases root <;> simp [update]
  refine move_spec stops _ ?_ ?_ (at'.keepRoot .files) at' fun s at' => ?_
  · exact fun root => by cases root <;> simp [update]
  · exact fun root => by cases root <;> simp [update]
  refine move_spec stops _ ?_ ?_ (at'.installRoot .sqlite) at' fun s at' => ?_
  · exact fun root => by cases root <;> simp [update]
  · exact fun root => by cases root <;> simp [update]
  have before := at'.between fun root => .inl (by cases root <;> simp [update])
  have moved := at'.installRoot .files
  have after := moved.between fun root => .inl (by cases root <;> simp [update])
  refine .bind (.change (hs _ before) (fun _ met => ⟨before, _, _, _, met⟩) ?_)
  refine .touch (hs _ after) (fun _ met => ⟨after, _, _, _, met⟩) ?_
  convert moved using 1
  · funext root
    cases root <;> simp [update]
  · funext root
    cases root <;> simp [update]
  · funext root
    cases root <;> simp [update]

end Moves

structure Done (trees : Root → Tree π) (s : StateRoot π) : Prop extends Sound s where
  transaction : s.transaction = none
  generation : s.generation = trees

theorem Done.settled (hd : Done trees s) : Settled s := hd.toSound.settled (kept_of_none hd.transaction)

theorem Done.congr (hd : Done trees s) (live : s'.live = s.live)
    (transaction : s'.transaction = s.transaction) (generation : s'.generation = s.generation) :
    Done trees s' where
  toSound := hd.toSound.congr live transaction generation fun _ => hd.transaction
  transaction := transaction.trans hd.transaction
  generation := generation.trans hd.generation

theorem commit_spec (permits : ∀ label s fault, allowed label s fault → Permitted label s fault)
    (hs : ∀ s, Sound s → s.generation = g → inv s) (stopped : ∀ s, Done trees s → inv s)
    (at' : At g (fun root => some (g root)) (fun root => some (trees root)) (fun _ => none) s) :
    Wp allowed inv failed (fun _ => Done trees) commitRestore s := by
  have between : Between g s := at'.between fun _ => .inl rfl
  refine .bind (.look (.seq (fun _ s' => s' = s) (.onlyIf (fun hh => ?_) fun _ => rfl) ?_))
  · exact absurd hh (by simp [at'.cleanup])
  rintro - s rfl
  have hd : Done trees { s with
      cleanup := s.transaction, transaction := none, generation := fun root => (s.live root).getD [] } := by
    refine ⟨⟨fun root => ?_, fun _ hh => (nomatch hh), fun _ => rfl⟩, rfl, ?_⟩
    · simp [StateRoot.held, StateRoot.kept, at'.live]
    · simp [at'.live]
  refine .bind (.change (hs s between.toSound between.generation) (fun error met => ?_) ?_)
  · exact absurd rfl (permits _ _ _ met error)
  refine .bind (.touch (stopped _ hd) (fun error met => absurd rfl (permits _ _ _ met error)) ?_)
  refine .rescue (fun error s' => error = .os ∧ Done trees s') ?_ fun error s' pending => ?_
  · have hf : ∀ s error, Done trees s → allowed .removeCommitted s (.fail error) → error = .os ∧ Done trees s :=
      fun s error hd met => ⟨permits _ _ _ met error rfl, hd⟩
    refine .seq (fun _ => Done trees) (.bind (.look (.onlyIf (fun _ => ?_) fun _ => hd))) fun _ _ hd => .pure hd
    refine .seq (fun _ => Done trees) ?_ fun _ s' hd => .touch (stopped _ hd) (fun error => hf s' error hd) hd
    exact removeTree_spec (Done trees) (fun _ _ => rfl) (fun s hd _ => stopped s hd) hf
      (fun s _ _ hd _ _ => hd.congr rfl rfl rfl) (fun s hd => hd.congr rfl rfl rfl) hd
  · rw [if_pos pending.1]
    exact .pure pending.2

theorem removeStage_spec {label : Step} {holds : StateRoot π → Prop} (hs : ∀ s, holds s → inv s)
    (hf : ∀ s error, holds s → allowed label s (.fail error) → failed error s)
    (hk : ∀ s staged, holds s → holds { s with staged := staged }) (start : holds s) :
    Wp allowed inv failed (fun _ => holds) (removeStage label) s := by
  refine .bind (.look (.seq (fun _ => holds) ?_ fun _ s' hh => ?_))
  · refine (Wp.drain holds (slotSize ·.staged) _ (fun s hh _ => hs s hh) hf (fun s s' hh hm => ?_)
      (fun s s' hm => ?_) start (Nat.le_refl _)).mono (fun _ _ => id) fun _ _ => And.left
    · obtain ⟨staged, _, rfl⟩ := List.mem_map.mp hm
      exact hk s staged hh
    · obtain ⟨_, hl, rfl⟩ := List.mem_map.mp hm
      exact slotSize_removals hl
  · exact .touch (hs s' hh) (fun error => hf s' error hh) hh

theorem Settled.withStaged (hs : Settled s) (staged : Root → Option (Tree π)) :
    Settled { s with staged := staged } where
  toSound := hs.toSound.congr rfl rfl rfl hs.apart
  live := hs.live

theorem replaceRoots_spec (archive : Option (Root → Tree π))
    (permits : ∀ label s fault, allowed label s fault → Permitted label s fault)
    (stops : ∀ s, Sound s → s.generation = g → inv s)
    (stopped : ∀ trees s, archive = some trees → Done trees s → inv s)
    (hf : ∀ s error, Settled s → s.generation = g → Disturbed allowed → failed error s)
    (rejects : ∀ s error, archive = none → Settled s → s.generation = g → failed error s)
    (hs : Still g s) (free : s.transaction = none) :
    Wp allowed inv failed (fun _ s' => ∃ trees, archive = some trees ∧ Done trees s')
      (replaceRoots archive) s := by
  have failing : ∀ {label : Step} {s : StateRoot π} (error : Error),
        Still g s → allowed label s (.fail error) → failed error s :=
    fun error hs met => hf _ error hs.settled hs.generation ⟨_, _, _, met⟩
  refine .bind (.touch (stops s hs.toSound hs.generation) (fun error met => failing error hs met) ?_)
  cases archive with
  | none => exact .raise (rejects s _ rfl hs.settled hs.generation)
  | some trees =>
    have staged : Still g { s with staged := fun root => some (trees root) } := hs.congr rfl rfl rfl rfl
    refine .bind (.change (stops s hs.toSound hs.generation) (fun error met => failing error hs met) ?_)
    refine .bind (.touch (stops _ staged.toSound staged.generation)
        (fun error met => failing error staged met) ?_)
    refine .seq _ (publish_spec stops hf staged free) ?_
    rintro - _ rfl
    have at' : At g (fun _ => none) (fun root => some (g root)) (fun root => some (trees root)) { s with
        staged := fun root => some (trees root), transaction := some preparedJournal, preparation := none } := by
      refine ⟨⟨preparedJournal, rfl, rfl, rfl⟩, ?_, rfl, hs.generation, hs.cleanup⟩
      funext root
      rw [← hs.generation]
      exact hs.settled.live root
    refine .seq _
      (.rescue (fun _ s' => Between g s' ∧ Disturbed allowed) (moveRoots_spec stops at') ?_)
      fun _ s at' => ?_
    · intro error s hb
      refine .seq _ (recover_spec permits stops hf hb.1) fun _ s hr => .raise ?_
      exact hf s error (hr.1.settled (kept_of_none hr.2)) hr.1.generation hb.2
    · exact (commit_spec permits stops (fun s hd => stopped trees s rfl hd) at').mono (fun _ _ => id)
        fun _ s hd => ⟨trees, rfl, hd⟩

theorem cleanup_spec (stops : ∀ s, Sound s → s.generation = g → inv s)
    (hf : ∀ s error, Settled s → s.generation = g → Disturbed allowed → failed error s)
    (sound : Sound s) (same : s.generation = g) :
    Wp allowed inv failed (fun _ => Between g) (removeRestoreCleanup .removeCleanup) s := by
  refine .bind (.look (.onlyIf (fun here => ?_) fun ha => ⟨sound, same, by simpa using ha⟩))
  refine .seq (fun _ s => Between g s ∧ s.transaction = none) ?_ fun _ s he => ?_
  · refine removeTree_spec (fun s => Sound s ∧ s.transaction = none ∧ s.generation = g) (fun _ _ => rfl)
      (fun s hh _ => stops s hh.1 hh.2.2) (fun s error hh met => ?_) (fun s _ _ hh _ _ => ?_)
      (fun s hh => ?_) ⟨sound, sound.apart here, same⟩
    · exact hf s error (hh.1.settled (kept_of_none hh.2.1)) hh.2.2 ⟨_, _, _, met⟩
    · exact ⟨hh.1.congr rfl rfl rfl fun _ => hh.2.1, hh.2⟩
    · exact ⟨⟨hh.1.congr rfl rfl rfl fun cleaned => (nomatch cleaned), hh.2.2, rfl⟩, hh.2.1⟩
  · have hs := he.1.settled (kept_of_none he.2)
    refine .touch (stops s he.1.toSound he.1.generation) (fun error met => ?_) he.1
    exact hf s error hs he.1.generation ⟨_, _, _, met⟩

theorem restore_spec (archive : Option (Root → Tree π))
    (permits : ∀ label s fault, allowed label s fault → Permitted label s fault) (sound : Sound s) :
    Wp allowed (fun s' => Sound s' ∧ (s'.generation = s.generation ∨ archive = some s'.generation))
      (fun _ s' => Settled s' ∧ s'.generation = s.generation ∧ (Disturbed allowed ∨ archive = none))
      (fun _ s' => Settled s' ∧ archive = some s'.generation) (restoreManagedBackupArchive archive)
      s := by
  obtain ⟨g, hs⟩ : ∃ g, s.generation = g := ⟨_, rfl⟩
  rw [hs]
  have stops : ∀ s : StateRoot π, Sound s → s.generation = g →
      Sound s ∧ (s.generation = g ∨ archive = some s.generation) := fun s sound hs => ⟨sound, .inl hs⟩
  have hf : ∀ (s : StateRoot π) (error : Error), Settled s → s.generation = g → Disturbed allowed →
      Settled s ∧ s.generation = g ∧ (Disturbed allowed ∨ archive = none) :=
    fun s _ hse hs disturbed => ⟨hse, hs, .inl disturbed⟩
  refine .seq _ (cleanup_spec stops hf sound hs) fun _ s between => ?_
  refine .seq _ (recover_spec permits stops hf between) fun _ s hr => ?_
  have still : Still g s := ⟨hr.1, kept_of_none hr.2⟩
  refine .bind (.look (.seq (fun _ s' => s' = s) (.onlyIf (fun hm => ?_) fun _ => rfl) ?_))
  · simp [roots, still.settled.live] at hm
  rintro - s rfl
  refine .bind (.change (stops s still.toSound still.generation) (fun error met => ?_) ?_)
  · exact hf s error still.settled still.generation ⟨_, _, _, met⟩
  have clear : Still g { s with staged := fun _ => none } := still.congr rfl rfl rfl rfl
  refine .seq (fun _ s' => ∃ trees, archive = some trees ∧ Done trees s') (.rescue
    (fun _ s' => Settled s' ∧ s'.generation = g ∧ (Disturbed allowed ∨ archive = none)) ?_ fun error s hb => ?_)
    fun _ s he => ?_
  · exact replaceRoots_spec archive permits stops
      (fun trees s hs hd => ⟨hd.toSound, .inr (by rw [hd.generation, hs])⟩)
      hf (fun s _ none hse generation => ⟨hse, generation, .inr none⟩) clear hr.2
  · refine .seq (fun _ s' => Settled s' ∧ s'.generation = g) ?_ fun _ s hse => .raise ⟨hse.1, hse.2, hb.2.2⟩
    refine removeStage_spec (fun s hh => stops s hh.1.toSound hh.2) (fun s error hh met => ?_)
      (fun s staged hh => ⟨hh.1.withStaged staged, hh.2⟩) ⟨hb.1, hb.2.1⟩
    exact hf s error hh.1 hh.2 ⟨_, _, _, met⟩
  · obtain ⟨trees, rfl, hd⟩ := he
    refine .seq (fun _ => Done trees) ?_ fun _ s hd => .pure ⟨hd.settled, by rw [hd.generation]⟩
    refine removeStage_spec (fun s hd => ⟨hd.toSound, .inr (by rw [hd.generation])⟩) (fun s error hd met => ?_)
      (fun s _ hd => hd.congr rfl rfl rfl) hd
    exact absurd rfl (permits _ _ _ met error)

def recoverFirst : Restoring π Unit := do
  removeRestoreCleanup .removeCleanup
  recoverRestoreTransaction

theorem recoverFirst_spec
    (permits : ∀ label s fault, allowed label s fault → Permitted label s fault) (hs : Sound s) :
    Wp allowed (fun _ => True) (fun _ _ => True)
      (fun _ s' => s'.transaction = none ∧ ∀ root, s'.live root = some (s.generation root))
      recoverFirst s := by
  refine .seq _ (cleanup_spec (fun _ _ _ => trivial) (fun _ _ _ _ _ => trivial) hs rfl) fun _ s' between => ?_
  refine (recover_spec permits (fun _ _ _ => trivial) (fun _ _ _ _ _ => trivial) between).mono (fun _ _ => id) ?_
  intro _ _ hr
  refine ⟨hr.2, fun root => ?_⟩
  rw [← hr.1.generation]
  exact (hr.1.settled (kept_of_none hr.2)).live root

end Call

def StateRoot.initial (trees : Root → Tree π) : StateRoot π where
  live root := some (trees root)
  generation := trees

/-- The states that calls leave, whether they return, raise or are stopped. -/
inductive Reached (allowed : Step → StateRoot π → Fault Error → Prop) : StateRoot π → Prop
  | initial (trees : Root → Tree π) : Reached allowed (.initial trees)
  | call {s : StateRoot π} (archive : Option (Root → Tree π)) (faults : List (Fault Error))
      (before : Reached allowed s)
      (fits : ∀ step ∈ (restoreManagedBackupArchive archive faults s).met,
          allowed step.label step.state step.fault) :
      Reached allowed (restoreManagedBackupArchive archive faults s).state

theorem sound_initial (trees : Root → Tree π) : Sound (.initial trees) where
  held _ := rfl
  phase _ here := nomatch here
  apart _ := rfl

theorem sound_reached (hr : Reached Permitted s) : Sound s := by
  induction hr with
  | initial trees => exact sound_initial trees
  | call archive faults _ hf hs =>
    have ends := restore_spec archive (fun _ _ _ => id) hs faults hf
    unfold Ran.Ends at ends
    split at ends
    next => exact ends.1.toSound
    next => exact ends.1.toSound
    next => exact ends.1.1

theorem permitted_of_isGo {label : Step} {fault : Fault Error} (go : fault.isGo = true) :
    Permitted label s fault := by
  cases fault with
  | go _ => unfold Permitted; split <;> simp [Fault.isGo]
  | fail error | stop => exact nomatch go

structure Atomic (s : StateRoot π) (archive : Option (Root → Tree π))
    (faults : List (Fault Error)) : Prop where
  whole : (∀ step ∈ (restoreManagedBackupArchive archive faults s).met,
      Permitted step.label step.state step.fault) →
    match (restoreManagedBackupArchive archive faults s).exit with
    | .value _ => ∃ trees, archive = some trees ∧
        ∀ root, (restoreManagedBackupArchive archive faults s).state.live root = some (trees root)
    | .raised _ =>
      ∀ root, (restoreManagedBackupArchive archive faults s).state.live root = some (s.generation root)
    | .stopped =>
      (restoreManagedBackupArchive archive faults s).state.generation = s.generation ∨
      archive = some (restoreManagedBackupArchive archive faults s).state.generation
  succeeds : (∀ step ∈ (restoreManagedBackupArchive archive faults s).met, step.fault.isGo = true) →
    archive.isSome = true →
    ∃ pending, (restoreManagedBackupArchive archive faults s).exit = .value pending
  recovers : (∀ step ∈ (recoverFirst faults s).met, Permitted step.label step.state step.fault) →
    ∀ result, (recoverFirst faults s).exit = .value result →
      ∀ root, (recoverFirst faults s).state.live root = some (s.generation root)
  settled : s.transaction = none → ∀ root, s.live root = some (s.generation root)

/-- Every restore of a permitted run is all or nothing, and an undisturbed one succeeds. -/
theorem restore_atomic (reached : Reached Permitted s) (archive : Option (Root → Tree π))
    (faults : List (Fault Error)) : Atomic s archive faults := by
  have hs := sound_reached reached
  refine ⟨fun hf => ?_, fun undisturbed ha => ?_, fun hf result exit => ?_,
    fun none => (hs.settled (kept_of_none none)).live⟩
  · have ends := restore_spec archive (fun _ _ _ => id) hs faults hf
    unfold Ran.Ends at ends
    split at ends
    next exit =>
      rw [exit]
      exact ⟨_, ends.2, ends.1.live⟩
    next exit =>
      rw [exit]
      intro root
      rw [← ends.2.1]
      exact ends.1.live root
    next exit =>
      rw [exit]
      exact ends.1.2
  · have permits : ∀ (label : Step) (s : StateRoot π) (fault : Fault Error),
          fault.isGo = true → Permitted label s fault :=
      fun _ _ _ go => permitted_of_isGo go
    have ends := restore_spec archive permits hs faults undisturbed
    have calm : ¬ Disturbed fun (_ : Step) (_ : StateRoot π) (fault : Fault Error) => fault.isGo = true :=
      fun ⟨_, _, _, go⟩ => nomatch go
    unfold Ran.Ends at ends
    split at ends
    next pending exit => exact ⟨pending, exit⟩
    next =>
      rcases ends.2.2 with disturbed | none
      · exact absurd disturbed calm
      · simp [none] at ha
    next exit =>
      obtain ⟨-, step, met, stopped⟩ := ends
      have go := undisturbed step met
      rw [stopped] at go
      exact nomatch go
  · have ends := recoverFirst_spec (fun _ _ _ => id) hs faults hf
    unfold Ran.Ends at ends
    rw [exit] at ends
    exact ends.2

def oldTrees : Root → Tree Nat := fun _ => [1]

def newTrees : Root → Tree Nat := fun _ => [2]

def stoppedFaults : List (Fault Error) := List.replicate 15 (.go 0) ++ [.stop]

def interrupted : StateRoot Nat :=
  (restoreManagedBackupArchive (some newTrees) stoppedFaults (.initial oldTrees)).state

/-- The next call finds a root in the journal; it returns with a good archive and raises with a
refused one. -/
theorem restore_atomic_interrupted :
    interrupted.live .sqlite = none ∧
    (∃ pending,
      (restoreManagedBackupArchive (some newTrees) [] interrupted).exit = .value pending) ∧
    (∃ error, (restoreManagedBackupArchive none [] interrupted).exit = .raised error) ∧
    ∀ root,
      (restoreManagedBackupArchive none [] interrupted).state.live root = some (oldTrees root) := by
  have reached : Reached Permitted interrupted := by
    have calm : (restoreManagedBackupArchive (some newTrees) stoppedFaults (.initial oldTrees)).met.all
        fun step => step.fault.isGo || decide (step.label = .sync) := by decide
    refine .call (some newTrees) stoppedFaults (.initial oldTrees) fun step met => ?_
    rcases Bool.or_eq_true_iff.mp (List.all_eq_true.mp calm step met) with go | sync
    · exact permitted_of_isGo go
    · rw [of_decide_eq_true sync]
      trivial
  have returning :
      (restoreManagedBackupArchive (some newTrees) [] interrupted).met.all (·.fault.isGo) := by
    decide
  have refusing : (restoreManagedBackupArchive none [] interrupted).met.all (·.fault.isGo) := by decide
  obtain ⟨-, returns, -⟩ := restore_atomic reached (some newTrees) []
  refine ⟨by decide, returns (List.all_eq_true.mp returning) rfl, ⟨_, rfl⟩, ?_⟩
  exact (restore_atomic reached none []).1
    fun step met => permitted_of_isGo (List.all_eq_true.mp refusing step met)

def recoveringFaults : List (Fault Error) := List.replicate 3 (.go 0) ++ [.stop]

/-- What an interrupted recovery left makes every later call refuse. -/
theorem interrupted_recovery_refused : ¬ ∀ s : StateRoot Nat, Reached (fun _ _ _ => True) s →
    ∃ pending, (restoreManagedBackupArchive (some newTrees) [] s).exit = .value pending := by
  intro proceeds
  have first : Reached (fun _ _ _ => True) _ :=
    Reached.call (some newTrees) stoppedFaults (.initial oldTrees) fun _ _ => trivial
  have second := first.call (some newTrees) recoveringFaults fun _ _ => trivial
  obtain ⟨_, exit⟩ := proceeds _ second
  exact nomatch exit

end Yinshi.Guest
