import Yinshi.Migration.Disk

/-! No open loses the rows of a database: what holds after a stop, an error and a result of
each part of the openers. -/

namespace Yinshi.Migration
open Faulty Prog Opening Option

variable {ρ : Type} {c : ρ} {d d' : Disk ρ}

def Whole (encrypted : Bool) (c : ρ) (file : Option (File ρ)) : Prop :=
  ∃ identity, file = some ⟨identity, .database encrypted c⟩

def Drained (d : Disk ρ) : Prop := ∀ newer, d.wal ≠ some (some newer)

structure Good (c : ρ) (d : Disk ρ) : Prop where
  visible : d.visible = some c
  installed : d.installed = true → d.primary.any File.encrypted = true

structure Bare (c : ρ) (d : Disk ρ) : Prop extends Good c d where
  rollback : d.rollback = none

structure Plain (c : ρ) (d : Disk ρ) : Prop extends Bare c d where
  plaintext : d.primary.any File.isPlaintext = true

structure Exported (c : ρ) (d : Disk ρ) : Prop extends Plain c d where
  drained : Drained d
  temporary : Whole true c d.temporary

def Covered (c : ρ) (d : Disk ρ) : Prop :=
  Good c d ∧ (d.rollback = none ∨ Drained d ∧ Whole false c d.rollback ∧ d.installed = false)

structure Committed (c : ρ) (d : Disk ρ) : Prop extends Good c d where
  encrypted : d.primary.any File.encrypted = true
  drained : Drained d

structure Copied (c : ρ) (d : Disk ρ) : Prop where
  primary : Whole false c d.primary
  drained : Drained d
  rollback : Whole false c d.rollback
  temporary : Whole true c d.temporary
  installed : d.installed = false

theorem visible_drained (drained : Drained d) {encrypted : Bool}
    (hw : Whole encrypted c d.primary) : d.visible = some c := by
  obtain ⟨_, hh⟩ := hw
  unfold Disk.visible
  rw [hh]
  dsimp only
  split
  next newer wal => exact absurd wal (drained newer)
  next => rfl

theorem whole_of_visible (visible : d.visible = some c) :
    ∃ identity encrypted rows, d.primary = some ⟨identity, .database encrypted rows⟩ := by
  unfold Disk.visible at visible
  split at visible
  next identity encrypted rows hh => exact ⟨identity, encrypted, rows, hh⟩
  next => cases visible

theorem Good.present (hg : Good c d) : d.primary.isSome = true := by
  obtain ⟨_, _, _, hh⟩ := whole_of_visible hg.visible
  simp [hh]

theorem Plain.whole (hp : Plain c d) (drained : Drained d) : Whole false c d.primary := by
  obtain ⟨identity, encrypted, _, hh⟩ := whole_of_visible hp.visible
  have kind : encrypted = false := by
    have text := hp.plaintext
    simpa [hh, File.isPlaintext] using text
  have hs := visible_drained drained ⟨identity, hh⟩
  rw [hp.visible] at hs
  exact ⟨identity, by rw [hh, kind, some.inj hs]⟩

theorem Plain.uninstalled (hp : Plain c d) : d.installed = false := by
  obtain ⟨_, _, _, hh⟩ := whole_of_visible hp.visible
  have text := hp.plaintext
  have cipher := hp.installed
  simp only [hh, any_some, File.isPlaintext, File.encrypted, Bool.not_eq_true'] at text cipher
  rw [text] at cipher
  exact Bool.eq_false_iff.mpr fun installed => nomatch cipher installed

theorem Good.congr (hg : Good c d) (primary : d'.primary = d.primary) (wal : d'.wal = d.wal)
    (installed : d'.installed = d.installed) : Good c d' where
  visible := by
    have visible := hg.visible
    unfold Disk.visible at visible ⊢
    rwa [primary, wal]
  installed := by
    rw [primary, installed]
    exact hg.installed

theorem Good.syncDirectory (hg : Good c d) : Good c d.syncDirectory where
  visible := hg.visible
  installed done := by
    rcases Bool.or_eq_true_iff.mp done with before | now
    · exact hg.installed before
    · exact now

theorem checkpoint_spec (hg : Good c d) :
    Good c d.checkpoint ∧ Drained d.checkpoint ∧ d.checkpoint.rollback = d.rollback ∧
    d.checkpoint.temporary = d.temporary ∧
    d.checkpoint.primary.any File.encrypted = d.primary.any File.encrypted ∧
    d.checkpoint.primary.any File.isPlaintext = d.primary.any File.isPlaintext := by
  obtain ⟨identity, encrypted, rows, hh⟩ := whole_of_visible hg.visible
  unfold Disk.checkpoint
  split
  next identity' encrypted' rows' newer hh' wal =>
    have visible := hg.visible
    simp only [Disk.visible, hh', wal, some.injEq] at visible
    refine ⟨⟨by simp [Disk.visible, visible], fun hd => ?_⟩, by simp [Drained], rfl, rfl, ?_, ?_⟩
    · have cipher := hg.installed hd
      simpa [hh', File.encrypted] using cipher
    · simp [hh', File.encrypted]
    · simp [hh', File.isPlaintext]
  next frameless =>
    refine ⟨hg, fun newer wal => ?_, rfl, rfl, rfl, rfl⟩
    exact frameless identity encrypted rows newer hh wal

theorem settle_spec (hg : Good c d) :
    Good c d.settle ∧ Drained d.settle ∧ d.settle.rollback = d.rollback ∧
    d.settle.temporary = d.temporary ∧
    d.settle.primary.any File.encrypted = d.primary.any File.encrypted ∧
    d.settle.primary.any File.isPlaintext = d.primary.any File.isPlaintext := by
  obtain ⟨hk, drained, rollback, temporary, kind, text⟩ := checkpoint_spec hg
  refine ⟨⟨?_, hk.installed⟩, by simp [Drained, Disk.settle], rollback, temporary, kind, text⟩
  have visible := hk.visible
  unfold Disk.visible at visible ⊢
  unfold Disk.settle
  split at visible
  next identity encrypted rows hh =>
    simp only [hh]
    split at visible
    next newer wal => exact absurd wal (drained newer)
    next => exact visible
  next => cases visible

theorem good_of_whole {encrypted : Bool} (hw : Whole encrypted c d.primary) (drained : Drained d)
    (installed : d.installed = true → encrypted = true) : Good c d where
  visible := visible_drained drained hw
  installed done := by
    obtain ⟨_, hh⟩ := hw
    simpa [hh, File.encrypted] using installed done

def Removes (allowed : Step → Disk ρ → Fault Error → Prop) : Prop :=
  ∀ d error, ¬ allowed .removePartial d (.fail error)

section Parts
variable {allowed : Step → Disk ρ → Fault Error → Prop}
variable {holds : Disk ρ → Prop}

theorem keeps_removeTemporaries {after : Opening ρ Unit}
    (hk : ∀ d temporary wal shm,
        holds d → holds { d with temporary := temporary, temporaryWal := wal, temporaryShm := shm })
    (hf : Keeps allowed holds after) : Keeps allowed holds (removeTemporaries after) := by
  refine .bind .look fun _ => .bind (.onlyIf (.bind (.change fun d => hk d none d.temporaryWal d.temporaryShm)
    fun _ => hf)) fun _ => ?_
  refine .bind .look fun _ => .bind (.onlyIf (.bind (.change fun d => hk d d.temporary false d.temporaryShm)
    fun _ => hf)) fun _ => ?_
  exact .bind .look fun _ => .onlyIf (.bind (.change fun d => hk d d.temporary d.temporaryWal false) fun _ => hf)

theorem keeps_tryRemoveTemporaries (hk : ∀ d temporary wal shm, holds d →
      holds { d with temporary := temporary, temporaryWal := wal, temporaryShm := shm }) :
    Keeps allowed holds (tryRemoveTemporaries : Opening ρ Unit) := by
  have logs : ∀ error : Error,
        Keeps allowed holds (if error = .os then pure () else raise error : Opening ρ Unit) :=
    fun _ => .ite .pure .raise
  refine .bind (.attempt
      (.bind .look fun _ => .onlyIf (.change fun d => hk d none d.temporaryWal d.temporaryShm))
      logs) fun _ => ?_
  refine .bind (.attempt (.bind .look fun _ => .onlyIf (.change fun d => hk d d.temporary false d.temporaryShm))
    logs) fun _ => ?_
  exact .attempt (.bind .look fun _ => .onlyIf (.change fun d => hk d d.temporary d.temporaryWal false)) logs

theorem keeps_removeSqliteSidecars
    (wal : ∀ d, holds d → holds { d with wal := none, unlinkedWals := d.unlinkedWals + 1 })
    (shm : ∀ d, holds d → holds { d with shm := false })
    (sync : ∀ d, holds d → holds d.syncDirectory) :
    Keeps allowed holds (removeSqliteSidecars : Opening ρ Unit) := by
  refine .bind .look fun _ => .bind (.onlyIf (.change wal)) fun _ => ?_
  exact .bind .look fun _ => .bind (.onlyIf (.change shm)) fun _ => .onlyIf (.change sync)

theorem removeRollback_spec (hg : Good c d) :
    Wp allowed (Good c) (fun _ => Good c) (fun _ d' => Bare c d' ∧ d'.primary = d.primary)
      removeValidatedMigrationRollback d := by
  refine .bind (.look (.onlyIf (fun _ => ?_) fun ha => ?_))
  · refine .bind (.touch hg (fun _ _ => hg) ?_)
    refine .bind (.change hg (fun _ _ => hg) ?_)
    have synced := hg.syncDirectory
    refine .bind (.change synced (fun _ _ => synced) ?_)
    have bare : Good c { d.syncDirectory with rollback := none } := synced.congr rfl rfl rfl
    exact .change bare (fun _ _ => bare) ⟨⟨bare.syncDirectory, rfl⟩, rfl⟩
  · exact ⟨⟨hg, by simpa using ha⟩, rfl⟩

theorem removeStale_spec (hg : Good c d) :
    Wp allowed (Good c) (fun _ => Good c) (fun _ d' => Bare c d' ∧ d'.primary = d.primary)
      removeStale d := by
  have hk : Keeps allowed (fun d' => Good c d' ∧ d'.primary = d.primary)
        (removeTemporaries (pure ()) : Opening ρ Unit) :=
    keeps_removeTemporaries (fun d' _ _ _ hh => ⟨hh.1.congr rfl rfl rfl, hh.2⟩) .pure
  refine .bind ((hk d ⟨hg, rfl⟩).weaken (fun _ => And.left) (fun _ _ => And.left) fun _ d' hh => ?_)
  refine (removeRollback_spec hh.1).mono (fun _ _ => id) fun _ d'' bare => ?_
  exact ⟨bare.1, bare.2.trans hh.2⟩

theorem sqlcipherExport_spec (refusal : Error) (hp : Plain c d) (drained : Drained d) :
    Wp allowed (Good c) (fun _ => Plain c) (fun _ => Exported c) (sqlcipherExport refusal) d := by
  have refuses : Wp allowed (Good c) (fun _ => Plain c) (fun _ : Unit => Plain c) (touch .detach) d :=
    .touch hp.toGood (fun _ _ => hp) hp
  refine .ensure (.act hp.toGood (fun _ _ => refuses) (fun _ _ d' hd => ?_) fun _ _ _ => refuses)
  split at hd
  next file rows ha visible =>
    cases hd
    obtain rfl : rows = c := some.inj (visible.symm.trans hp.visible)
    have exported : Exported rows { d with temporary := some { file with content := .database true rows } } :=
      ⟨⟨⟨hp.congr rfl rfl rfl, hp.rollback⟩, hp.plaintext⟩, drained, file.identity, rfl⟩
    exact .touch exported.toGood (fun _ _ => exported.toPlain) exported
  next => nomatch hd

theorem settled (hp : Plain c d) : Plain c d.settle where
  toGood := (settle_spec hp.toGood).1
  rollback := (settle_spec hp.toGood).2.2.1.trans hp.rollback
  plaintext := (settle_spec hp.toGood).2.2.2.2.2.trans hp.plaintext

theorem closeConnection_spec {failed : Error → Disk ρ → Prop} {post : Disk ρ → Prop} (hg : Good c d)
    (hf : ∀ error, failed error d) (hs : post d) (settles : post d.settle) :
    Wp allowed (Good c) failed (fun _ => post) closeConnection d := by
  refine .act hg (fun error _ => hf error) (fun choice _ d' hd => ?_) fun _ _ hd => nomatch hd
  cases hd
  split
  · exact hs
  · exact settles

theorem exportDatabase_spec (refusal : Error) (hp : Plain c d) :
    Wp allowed (Good c) (fun _ => Plain c) (fun _ => Exported c) (exportDatabase refusal) d := by
  refine .bind (.touch hp.toGood (fun _ _ => hp) (.cleaned (fun _ => Plain c) (fun _ => Exported c) ?_ ?_ ?_))
  · -- The body, up to the closing of the source.
    obtain ⟨hg, drained, rollback, _, _, text⟩ := checkpoint_spec hp.toGood
    have flushed : Plain c d.checkpoint := ⟨⟨hg, rollback.trans hp.rollback⟩, text.trans hp.plaintext⟩
    refine .bind (.change hp.toGood (fun _ _ => hp) ?_)
    refine .bind (.touch hg (fun _ _ => flushed) ?_)
    refine .bind (.act hg (fun _ _ => flushed) (fun choice _ ha hd => ?_) fun _ _ hd => nomatch hd)
    cases hd
    exact sqlcipherExport_spec refusal ⟨⟨hg.congr rfl rfl rfl, flushed.rollback⟩, flushed.plaintext⟩ drained
  · exact fun _ d' hp => closeConnection_spec hp.toGood (fun _ => hp) hp (settled hp)
  · intro _ _ hd
    obtain ⟨_, drained, _, temporary, _, _⟩ := settle_spec hd.toGood
    refine closeConnection_spec hd.toGood (fun _ => hd.toPlain) hd ⟨settled hd.toPlain, drained, ?_⟩
    rw [temporary]
    exact hd.temporary

theorem removePartial_spec {broken : Disk ρ → Prop} (hg : Good c d)
    (removes : Removes allowed)
    (ends : broken { d with rollback := none }) :
    Wp allowed (Good c) (fun _ => broken) (fun _ => broken) (look (·.rollback.isSome) >>=
        fun hh => onlyIf hh (change .removePartial fun d => { d with rollback := none })) d := by
  refine .bind (.look (.onlyIf (fun _ => ?_) fun ha => ?_))
  · exact .change hg (fun error hf => absurd hf (removes _ error)) ends
  · have none : d.rollback = none := by simpa using ha
    rwa [← none] at ends

theorem createPrivateRollbackCopy_spec
    (removes : Removes allowed) (exported : Exported c d) :
    Wp allowed (Good c) (fun _ => Covered c) (fun _ => Copied c) createPrivateRollbackCopy d := by
  have hw := exported.whole exported.drained
  have hc : ∀ identities, Covered c { d with rollback := none, identities := identities } := fun _ =>
    ⟨exported.congr rfl rfl rfl, .inl rfl⟩
  have hg : ∀ rollback identities, Good c { d with rollback := rollback, identities := identities } := fun _ _ =>
    exported.congr rfl rfl rfl
  refine .bind (.act exported.toGood (fun _ _ => ⟨exported.toGood, .inl exported.rollback⟩)
      (fun chunks _ d' hd => ?_) fun _ _ hd => nomatch hd)
  cases hd
  -- Every state on the way differs from the start in the copy only.
  refine .seq (fun _ d' => ∃ file, d' = { d with rollback := some file, identities := d.identities + 1 }) ?_ ?_
  · refine .rescue
      (fun _ d' => ∃ file, d' = { d with rollback := some file, identities := d.identities + 1 }) ?_
      ?_
    · exact .touch (hg _ _) (fun _ _ => ⟨_, rfl⟩) ⟨_, rfl⟩
    · rintro error _ ⟨file, rfl⟩
      refine .bind (.touch (hg _ _) (fun error hf => absurd hf (removes _ error)) ?_)
      exact .seq (fun _ => Covered c) (removePartial_spec (hg _ _) removes (hc _)) fun _ _ gone => .raise gone
  rintro - _ ⟨file, rfl⟩
  refine .rescue
    (fun _ d' => ∃ file, d' = { d with rollback := some file, identities := d.identities + 1 }) ?_
    ?_
  · refine .seq (fun _ d' => ∃ file, d' = { d with rollback := some file, identities := d.identities + 1 }) ?_ ?_
    · refine (Keeps.each (fun length => .change ?_) _ _ ⟨file, rfl⟩).weaken ?_ (fun _ _ => id) fun _ _ => id
      · rintro _ ⟨file, rfl⟩
        exact ⟨_, rfl⟩
      · rintro _ ⟨file, rfl⟩
        exact hg _ _
    · rintro - _ ⟨file, rfl⟩
      obtain ⟨identity, hh⟩ := hw
      refine .bind (.change (hg _ _) (fun _ _ => ⟨_, rfl⟩) ?_)
      refine .touch (hg _ _) (fun _ _ => ⟨_, rfl⟩) ?_
      exact ⟨⟨identity, hh⟩, exported.drained, ⟨file.identity, by simp [hh]⟩, exported.temporary,
        exported.uninstalled⟩
  · rintro _ _ ⟨_, rfl⟩
    exact .seq (fun _ => Covered c) (removePartial_spec (hg _ _) removes (hc _)) fun _ _ gone => .raise gone

theorem Copied.good (copied : Copied c d) : Good c d :=
  good_of_whole copied.primary copied.drained fun hd => absurd hd (by simp [copied.installed])

theorem Copied.covered (copied : Copied c d) : Covered c d :=
  ⟨copied.good, .inr ⟨copied.drained, copied.rollback, copied.installed⟩⟩

theorem Copied.syncDirectory (copied : Copied c d) : Copied c d.syncDirectory where
  primary := copied.primary
  drained := copied.drained
  rollback := copied.rollback
  temporary := copied.temporary
  installed := by
    obtain ⟨_, hh⟩ := copied.primary
    simp [Disk.syncDirectory, copied.installed, hh, File.encrypted]

theorem replacePrimary_spec (removes : Removes allowed)
    (exported : Exported c d) :
    Wp allowed (Good c) (fun _ => Covered c) (fun _ => Committed c) replacePrimary d := by
  have bare : Covered c d := ⟨exported.toGood, .inl exported.rollback⟩
  refine .bind (.touch exported.toGood (fun _ _ => bare) (.bind (.touch exported.toGood (fun _ _ => bare) ?_)))
  refine .seq (fun _ => Copied c) (createPrivateRollbackCopy_spec removes exported) fun _ d' copied => ?_
  refine .bind (.touch copied.good (fun _ _ => copied.covered)
      (.bind (.change copied.good (fun _ _ => copied.covered) ?_)))
  have synced := copied.syncDirectory
  refine .bind (.change synced.good (fun _ _ => synced.covered) ?_)
  have hg : Good c { d'.syncDirectory with primary := d'.syncDirectory.temporary, temporary := none } :=
    good_of_whole synced.temporary synced.drained fun _ => rfl
  refine .change hg (fun _ _ => ⟨hg, .inr ⟨synced.drained, synced.rollback, synced.installed⟩⟩) ?_
  obtain ⟨_, hh⟩ := synced.temporary
  have encrypted : d'.syncDirectory.temporary.any File.encrypted = true := by rw [hh]; rfl
  exact ⟨hg.syncDirectory, encrypted, synced.drained⟩

theorem reinstallRollback_spec (hc : Covered c d) :
    Wp allowed (Good c) (fun _ => Good c) (fun _ => Good c) reinstallRollback d := by
  obtain ⟨hg, cover⟩ := hc
  refine .bind (.look (.onlyIf (fun hh => ?_) fun _ => hg))
  rcases cover with none | ⟨drained, hw, installed⟩
  · exact absurd hh (by simp [none])
  have hg' : Good c { d with primary := d.rollback, rollback := none } :=
    good_of_whole hw drained fun hd => absurd hd (by simp [installed])
  refine .bind (.change hg (fun _ _ => hg) (.bind (.touch hg' (fun _ _ => hg') ?_)))
  refine .bind (.touch hg' (fun _ _ => hg') (.change hg' (fun _ _ => hg') hg'.syncDirectory))

theorem validateEncrypted_spec {failed : Error → Disk ρ → Prop} {post : Unit → Disk ρ → Prop}
    (refusal : Error) (file : Disk ρ → Option (File ρ)) (hg : Good c d)
    (hf : ∀ error, failed error d) (goes : post () d) :
    Wp allowed (Good c) failed post (validateEncrypted refusal file) d := by
  refine .act hg (fun error _ => hf error) (fun _ _ d' hd => ?_) fun _ error _ => hf error
  split at hd
  next =>
    cases hd
    exact goes
  next => nomatch hd

theorem finishMigration_spec (refusal : Error) (hc : Committed c d) :
    Wp allowed (Good c) (fun _ => Good c) (fun _ d' => Committed c d' ∧ d'.rollback = none)
      (finishMigration refusal) d := by
  have hg := hc.toGood
  have synced : Committed c d.syncDirectory := ⟨hg.syncDirectory, hc.encrypted, hc.drained⟩
  refine .bind (validateEncrypted_spec refusal _ hg (fun _ => hg) ?_)
  refine .bind (.touch hg (fun _ _ => hg) (.bind (.touch hg (fun _ _ => hg) ?_)))
  refine .bind (.change hg (fun _ _ => hg) (.bind (.change synced.toGood (fun _ _ => synced.toGood) ?_)))
  have removed : Committed c { d.syncDirectory with rollback := none } :=
    ⟨synced.congr rfl rfl rfl, synced.encrypted, synced.drained⟩
  exact .change removed.toGood (fun _ _ => removed.toGood)
    ⟨⟨removed.syncDirectory, removed.encrypted, removed.drained⟩, rfl⟩

theorem reinstalls_spec {α : Type} {post : α → Disk ρ → Prop} {after : Opening ρ Unit}
    (error : Error) (hf : Keeps allowed (Good c) after) (hc : Covered c d) :
    Wp allowed (Good c) (fun _ => Good c) post (do
      reinstallRollback
      removeTemporaries after
      raise error) d := by
  refine .seq (fun _ => Good c) (reinstallRollback_spec hc) fun _ d' hg => ?_
  refine .seq (fun _ => Good c) ?_ fun _ _ hg => .raise hg
  exact keeps_removeTemporaries (fun _ _ _ _ hg => hg.congr rfl rfl rfl) hf d' hg

theorem cleansUp_spec {α : Type} {post : α → Disk ρ → Prop} (error : Error) (hg : Good c d) :
    Wp allowed (Good c) (fun _ => Good c) post (do
      tryRemoveTemporaries
      raise error) d := by
  refine .seq (fun _ => Good c) ?_ fun _ _ hg => .raise hg
  exact keeps_tryRemoveTemporaries (fun _ _ _ _ hg => hg.congr rfl rfl rfl) d hg

theorem Good.sidecars (hg : Good c d) (drained : Drained d) (shm : Bool) (unlinked : Nat) :
    Good c { d with wal := none, shm := shm, unlinkedWals := unlinked } where
  visible := by
    have visible := hg.visible
    unfold Disk.visible at visible ⊢
    split at visible
    next identity encrypted rows hh =>
      simp only [hh]
      split at visible
      next newer wal => exact absurd wal (drained newer)
      next => exact visible
    next => cases visible
  installed := hg.installed

theorem removeSidecars_exported (exported : Exported c d) :
    Wp allowed (Good c) (fun _ => Exported c) (fun _ => Exported c) removeSqliteSidecars d := by
  have hk : Keeps allowed (Exported c) (removeSqliteSidecars : Opening ρ Unit) := by
    refine keeps_removeSqliteSidecars (fun d hh => ?_) (fun d hh => ?_) fun d hh => ?_
    · exact ⟨⟨⟨hh.sidecars hh.drained d.shm _, hh.rollback⟩, hh.plaintext⟩, by simp [Drained], hh.temporary⟩
    · exact ⟨⟨⟨hh.congr rfl rfl rfl, hh.rollback⟩, hh.plaintext⟩, hh.drained, hh.temporary⟩
    · exact ⟨⟨⟨hh.toGood.syncDirectory, hh.rollback⟩, hh.plaintext⟩, hh.drained, hh.temporary⟩
  exact (hk d exported).weaken (fun _ hh => hh.toGood) (fun _ _ => id) fun _ _ => id

theorem removeSidecars_committed (hc : Committed c d) (bare : d.rollback = none) :
    Wp allowed (Good c) (fun _ => Good c) (fun _ => Bare c) removeSqliteSidecars d := by
  have hk : Keeps allowed (fun d : Disk ρ => Bare c d ∧ Drained d) (removeSqliteSidecars : Opening ρ Unit) := by
    refine keeps_removeSqliteSidecars (fun d hh => ?_) (fun d hh => ?_) fun d hh => ?_
    · exact ⟨⟨hh.1.sidecars hh.2 d.shm _, hh.1.rollback⟩, by simp [Drained]⟩
    · exact ⟨⟨hh.1.congr rfl rfl rfl, hh.1.rollback⟩, hh.2⟩
    · exact ⟨⟨hh.1.toGood.syncDirectory, hh.1.rollback⟩, hh.2⟩
  exact (hk d ⟨⟨hc.toGood, bare⟩, hc.drained⟩).weaken (fun _ hh => hh.1.toGood)
    (fun _ _ hh => hh.1.toGood) fun _ _ hh => hh.1

theorem readsPlaintext_spec (hg : Good c d) :
    Wp allowed (Good c) (fun _ d' => d' = d)
      (fun readable d' => d' = d ∧ (readable = true → d.primary.any File.isPlaintext = true))
      readsPlaintext d := by
  refine .attempt (.act hg (fun error _ => ?_) (fun _ _ d' hd => ?_) fun _ _ hd => nomatch hd)
  · split
    · exact .pure ⟨rfl, fun hd => nomatch hd⟩
    · exact .raise rfl
  · cases hd
    exact ⟨rfl, id⟩

theorem migrateUser_spec [DecidableEq ρ]
    (removes : Removes allowed) (hg : Good c d) :
    Wp allowed (Good c) (fun _ => Good c) (fun _ => Good c) migratePlaintextUserDatabase d := by
  refine .seq (fun readable d' => d' = d ∧ (readable = true → d.primary.any File.isPlaintext = true)) ?_ ?_
  · refine .bind (.touch hg (fun _ _ => hg) (.bind (.look ?_)))
    split
    · exact (readsPlaintext_spec hg).mono (fun _ _ hs => hs ▸ hg) fun _ _ => id
    · exact .pure ⟨rfl, fun hd => nomatch hd⟩
  rintro _ _ ⟨rfl, text⟩
  refine .onlyIf (fun yes => ?_) fun _ => hg
  refine .seq _ (removeStale_spec hg) fun _ d' stale => ?_
  have hp : Plain c d' := ⟨stale.1, by rw [stale.2]; exact text yes⟩
  refine .seq (fun _ => Committed c) (.rescue (fun _ => Covered c) ?_ fun error _ hc => ?_)
    fun _ d' committed => ?_
  · refine .seq (fun _ => Exported c) ((exportDatabase_spec _ hp).mono (fun _ _ hp => ?_) fun _ _ => id) ?_
    · exact ⟨hp.toGood, .inl hp.rollback⟩
    have hc : ∀ {d' : Disk ρ},
        Exported c d' → Covered c d' := fun exported => ⟨exported.toGood, .inl exported.rollback⟩
    refine fun _ d' exported => .seq (fun _ => Exported c) ?_ fun _ d' exported => ?_
    · exact (removeSidecars_exported exported).mono (fun _ _ => hc) fun _ _ => id
    refine .bind (validateEncrypted_spec _ _ exported.toGood (fun _ => hc exported) ?_)
    refine .bind (.act exported.toGood (fun _ _ => hc exported) (fun _ _ d'' hd => ?_) fun _ _ _ => hc exported)
    split at hd
    next =>
      cases hd
      exact replacePrimary_spec removes exported
    next => nomatch hd
  · exact reinstalls_spec error .pure hc
  refine .seq (fun _ d' => Committed c d' ∧ d'.rollback = none)
    (.rescue (fun _ => Good c) ?_ fun error _ hg => ?_) ?_
  · exact finishMigration_spec _ committed
  · exact cleansUp_spec error hg
  · exact fun _ d' hd => (removeSidecars_committed hd.1 hd.2).mono (fun _ _ => id) fun _ _ bare => bare.toGood

theorem migrateApplication_spec (removes : Removes allowed)
    (hg : Good c d) (text : d.primary.any File.isPlaintext = true) :
    Wp allowed (Good c) (fun _ => Good c) (fun _ => Bare c) migratePlaintextApplicationDatabase
      d := by
  refine .seq _ (removeStale_spec hg) fun _ d' stale => ?_
  have hp : Plain c d' := ⟨stale.1, by rw [stale.2]; exact text⟩
  refine .seq (fun _ => Exported c) (.rescue (fun _ => Plain c) (exportDatabase_spec _ hp) fun _ _ hp => ?_) ?_
  · exact .raise hp.toGood
  refine fun _ d' exported => .seq (fun _ => Exported c) ?_ fun _ d' exported => ?_
  · exact (removeSidecars_exported exported).mono (fun _ _ exported => exported.toGood) fun _ _ => id
  refine .seq (fun _ => Committed c) (.rescue (fun _ => Covered c) ?_ fun error _ hc => ?_)
    fun _ d' committed => ?_
  · have hc : Covered c d' := ⟨exported.toGood, .inl exported.rollback⟩
    exact .bind (validateEncrypted_spec _ _ exported.toGood (fun _ => hc) (replacePrimary_spec removes exported))
  · split
    · exact reinstalls_spec error (.change fun _ hg => hg.syncDirectory) hc
    · exact .raise hc.1
  refine .seq (fun _ d' => Committed c d' ∧ d'.rollback = none)
    (.rescue (fun _ => Good c) ?_ fun error _ hg => ?_) ?_
  · exact finishMigration_spec _ committed
  · split
    · exact cleansUp_spec error hg
    · exact .raise hg
  · exact fun _ d' hd => removeSidecars_committed hd.1 hd.2

section Openers
variable {connection : Connection}

theorem reads_congr (reads : d.reads connection = some c) (hg : Good c d')
    (hs : d'.primary = d.primary) : d'.reads connection = some c := by
  unfold Disk.reads at reads ⊢
  rw [hs]
  split at reads
  next hh => rw [if_pos hh, hg.visible]
  next => nomatch reads

theorem reads_of_isSome (hg : Good c d) (hh : (d.reads connection).isSome = true) :
    d.reads connection = some c := by
  unfold Disk.reads at hh ⊢
  split at hh
  next open' => rw [if_pos open', hg.visible]
  next => nomatch hh

theorem connect_good [Inhabited ρ] (hg : Good c d) (encrypted : Bool) :
    ∃ file, d.primary = some file ∧
      d.connect encrypted = (⟨file.identity, encrypted, d.unlinkedWals⟩, d) := by
  obtain ⟨_, _, _, hh⟩ := whole_of_visible hg.visible
  exact ⟨_, hh, by simp [Disk.connect, hh]⟩

theorem recover_spec (hg : Good c d) :
    Wp allowed (Good c) (fun _ => Good c) (fun _ d' => d' = d) recoverPlaintextMigrationRollback
      d :=
  .bind (.look (.onlyIf (fun ha => absurd hg.present (by simpa using ha)) fun _ => rfl))

theorem openConnection_spec [Inhabited ρ] (hg : Good c d) :
    Wp allowed (Good c) (fun _ d' => d' = d) (fun connection d' =>
        d' = d ∧
        ∃ file, d.primary = some file ∧ connection = ⟨file.identity, false, d.unlinkedWals⟩)
      openConnection d := by
  refine .act hg (fun _ _ => rfl) (fun _ connection d' hd => ?_) fun _ _ hd => nomatch hd
  obtain ⟨file, hh, opened⟩ := connect_good hg false
  rw [opened] at hd
  cases hd
  exact ⟨rfl, file, hh, rfl⟩

theorem openSqlcipher_spec [Inhabited ρ] (refusal : Error) (hg : Good c d) :
    Wp allowed (Good c) (fun _ d' => d' = d)
      (fun connection d' => d' = d ∧ connection.encrypted = true ∧ d.reads connection = some c)
      (openSqlcipherConnection refusal) d := by
  refine .act hg (fun _ _ => rfl) (fun _ connection d' hd => ?_) fun _ _ _ => rfl
  obtain ⟨_, _, opened⟩ := connect_good hg true
  rw [opened] at hd
  dsimp only at hd
  split at hd
  next reads =>
    cases hd
    exact ⟨rfl, rfl, reads_of_isSome hg reads⟩
  next => nomatch hd

theorem ensureSchema_spec (hg : Good c d) :
    Wp allowed (Good c) (fun _ => Good c) (fun _ d' =>
        Good c d' ∧ d'.primary = d.primary ∧ d'.rollback = d.rollback ∧
        d'.reads connection = some c) (ensureSchema connection) d := by
  refine .act hg (fun _ _ => hg) (fun choice _ d' hd => ?_) fun _ _ _ => hg
  split at hd
  next => nomatch hd
  next reads =>
    have reads : d.reads connection = some c := reads_of_isSome hg (by simpa [isSome_iff_ne_none] using reads)
    cases hd
    split
    · exact ⟨hg, rfl, rfl, reads⟩
    · have hk : Good c { d with wal := some (d.wal.getD none), shm := true } := by
        refine ⟨?_, hg.installed⟩
        have visible := hg.visible
        unfold Disk.visible at visible ⊢
        cases wal : d.wal <;> simpa [wal] using visible
      exact ⟨hk, rfl, rfl, reads_congr reads hk rfl⟩

theorem closes_spec {α : Type} {post : α → Disk ρ → Prop} (error : Error) (hg : Good c d) :
    Wp allowed (Good c) (fun _ => Good c) post (do
      closeConnection
      raise error) d :=
  .seq (fun _ => Good c) (closeConnection_spec hg (fun _ => hg) hg (settle_spec hg).1) fun _ _ hg => .raise hg

def Opened (c : ρ) (connection : Connection) (d : Disk ρ) : Prop :=
  Good c d ∧ d.reads connection = some c ∧ (connection.encrypted = true → d.rollback = none)

theorem openPlaintext_spec [Inhabited ρ] (hg : Good c d) :
    Wp allowed (Good c) (fun _ => Good c) (Opened c) openPlaintext d := by
  refine .seq _ ((openConnection_spec hg).mono (fun _ _ hs => hs ▸ hg) fun _ _ => id) ?_
  rintro _ _ ⟨rfl, _, _, rfl⟩
  refine .rescue (fun _ => Good c) (.seq _ (ensureSchema_spec hg) fun _ d' hd => .pure ?_) fun error _ hg => ?_
  · exact ⟨hd.1, hd.2.2.2, fun encrypted => nomatch encrypted⟩
  · exact closes_spec error hg

theorem keeps_removeBackups {holds : Disk ρ → Prop}
    (hk : ∀ d backups, holds d → holds { d with backups := backups }) :
    Keeps allowed holds (removePlaintextMigrationBackups : Opening ρ Unit) :=
  .bind .look fun names => .each (fun _ => .change fun d => hk d _) names

theorem finishOpen_spec (hg : Good c d) :
    Wp allowed (Good c) (fun _ => Good c) (Opened c) (attempt (do
        ensureSchema connection
        removeValidatedMigrationRollback
        removePlaintextMigrationBackups
        pure connection) fun error => do
        closeConnection
        raise error) d := by
  refine .rescue (fun _ => Good c) ?_ fun error _ hg => closes_spec error hg
  refine .seq _ (ensureSchema_spec hg) fun _ d₁ ready => ?_
  refine .seq _ (removeRollback_spec ready.1) fun _ d₂ removed => ?_
  have hk : Keeps allowed (fun d' => Bare c d' ∧ d'.primary = d₁.primary)
        (removePlaintextMigrationBackups : Opening ρ Unit) :=
    keeps_removeBackups fun _ _ hh => ⟨⟨hh.1.congr rfl rfl rfl, hh.1.rollback⟩, hh.2⟩
  refine .seq _ ((hk d₂ removed).weaken (fun _ hh => hh.1.toGood) (fun _ _ hh => hh.1.toGood) fun _ _ => id) ?_
  exact fun _ d₃ hh => .pure ⟨hh.1.toGood, reads_congr ready.2.2.2 hh.1.toGood hh.2, fun _ => hh.1.rollback⟩

theorem openUser_spec [Inhabited ρ] [DecidableEq ρ]
    (removes : Removes allowed) (settings : Settings)
    (hg : Good c d) :
    Wp allowed (Good c) (fun _ => Good c) (Opened c) (openUserConnection settings) d := by
  have touches : ∀ {label : Step}, Wp allowed (Good c) (fun _ => Good c) (fun _ d' => d' = d) (touch label) d :=
    .touch hg (fun _ _ => hg) rfl
  refine .seq _ (.onlyIf (fun _ => touches) fun _ => rfl) ?_
  rintro - d rfl
  refine .seq _ (recover_spec hg) ?_
  rintro - d rfl
  split
  · exact openPlaintext_spec hg
  split
  · exact .raise hg
  refine .seq (fun _ d' => d' = d)
    (.rescue (fun _ d' => d' = d) (.bind (.touch hg (fun _ _ => rfl) (.pure rfl))) ?_) ?_
  · rintro error d rfl
    split
    · exact .raise hg
    · exact .pure rfl
  rintro _ d rfl
  split
  · refine .bind (.touch hg (fun _ _ => hg) (.bind (.look ?_)))
    split
    · exact .raise hg
    · exact openPlaintext_spec hg
  · refine .bind (.touch hg (fun _ _ => hg) (.seq (fun _ => Good c) ?_ fun _ _ hg => finishOpen_spec hg))
    refine .rescue (fun _ d' => d' = d)
      ((openSqlcipher_spec _ hg).mono (fun _ _ => id) fun _ _ hd => hd.1 ▸ hg) ?_
    rintro _ _ rfl
    split
    · exact .raise hg
    refine .bind (.touch hg (fun _ _ => hg) (.bind (.look ?_)))
    split
    · refine .seq (fun _ => Good c) (migrateUser_spec removes hg) fun _ _ hg => ?_
      exact (openSqlcipher_spec _ hg).mono (fun _ _ hs => hs ▸ hg) fun _ _ hd => hd.1 ▸ hg
    · exact .raise hg

theorem openKeyed_spec [Inhabited ρ] (hg : Good c d) :
    Wp allowed (Good c) (fun _ => Good c)
      (fun connection d' => d' = d ∧ connection.encrypted = true ∧ d.reads connection = some c)
      openKeyedConnection d := by
  refine .seq _ ((openSqlcipher_spec _ hg).mono (fun _ _ hs => hs ▸ hg) fun _ _ => id) ?_
  rintro _ _ ⟨rfl, opened⟩
  exact .bind (.touch hg (fun _ _ => hg) (.pure ⟨rfl, opened⟩))

def Keyed (allowed : Step → Disk ρ → Fault Error → Prop) (settings : Settings) (d : Disk ρ) : Prop :=
  d.primary.any File.encrypted = true → settings.enabled = true ∧
    (settings.required = false → ∀ d error, ¬ allowed .load d (.fail error))

theorem openApplication_spec [Inhabited ρ]
    (removes : Removes allowed) (settings : Settings)
    (keyed : Keyed allowed settings d) (hg : Good c d) :
    Wp allowed (Good c) (fun _ => Good c) (Opened c) (openApplicationConnection settings) d := by
  have plainly : d.primary.any File.encrypted = false →
      Wp allowed (Good c) (fun _ => Good c) (Opened c) openConnection d := by
    intro text
    refine (openConnection_spec hg).mono (fun _ _ hs => hs ▸ hg) ?_
    rintro _ _ ⟨rfl, _, here, rfl⟩
    refine ⟨hg, ?_, fun encrypted => by cases encrypted⟩
    simp only [here, any_some] at text
    simp [Disk.reads, here, text, hg.visible]
  refine .seq _ (recover_spec hg) ?_
  rintro - d rfl
  split
  next disabled => exact plainly (Bool.eq_false_iff.mpr fun encrypted => disabled (keyed encrypted).1)
  refine .seq (fun loaded d' => d' = d ∧ (loaded = false → d.primary.any File.encrypted = false)) ?_ ?_
  · refine .attempt (.bind (.touch hg (fun error hf => ?_) (.pure ⟨rfl, fun hd => by cases hd⟩)))
    split
    · exact .raise hg
    next tolerated =>
      simp only [not_or, Bool.not_eq_true] at tolerated
      exact .pure ⟨rfl,
          fun _ =>
            Bool.eq_false_iff.mpr fun encrypted => (keyed encrypted).2 tolerated.2 _ error hf⟩
  rintro _ d ⟨rfl, text⟩
  split
  next unloaded => exact plainly (text (by simpa using unloaded))
  have keyed : ∀ {d : Disk ρ},
        Bare c d → Wp allowed (Good c) (fun _ => Good c) (Opened c) openKeyedConnection d := by
    refine fun bare => (openKeyed_spec bare.toGood).mono (fun _ _ => id) ?_
    rintro connection _ ⟨rfl, _, reads⟩
    exact ⟨bare.toGood, reads, fun _ => bare.rollback⟩
  refine .bind (.look ?_)
  split
  next =>
    refine .seq (fun opened d' => opened.elim (Bare c d') fun connection =>
      Good c d' ∧ d'.reads connection = some c) (.rescue (fun _ => Good c) ?_ ?_) ?_
    · refine .seq _ (openKeyed_spec hg) ?_
      rintro connection _ ⟨rfl, _, reads⟩
      exact .pure ⟨hg, reads⟩
    · intro _ d' hg
      split
      · exact .raise hg
      refine .seq _ ((readsPlaintext_spec hg).mono (fun _ _ hs => hs ▸ hg) fun _ _ => id) ?_
      rintro _ _ ⟨rfl, text⟩
      split
      · exact .raise hg
      next yes =>
        exact .seq (fun _ => Bare c)
          (migrateApplication_spec removes hg (text (by simpa using yes)))
          fun _ _ bare => .pure bare
    · intro _ _ hh
      split
      next connection =>
        refine .seq _ (removeRollback_spec hh.1) fun _ d'' removed => .pure ?_
        exact ⟨removed.1.toGood, reads_congr hh.2 removed.1.toGood removed.2, fun _ => removed.1.rollback⟩
      next => exact keyed hh
  next ha => exact absurd hg.present ha

end Openers
end Parts

end Yinshi.Migration
