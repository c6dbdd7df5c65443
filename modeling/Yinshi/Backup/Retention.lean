import Yinshi.Backup.Catalog

/-! The retention schedule. A run selects the oldest due archives and starts their deletions one
after another; the first deletion that is refused ends the run. -/

namespace Yinshi.Backup
open ByteText Checked Keyed Rows List

/-- A time of `datetime`, in whole seconds since its first one and a fraction. -/
structure Moment where
  second : Nat
  microsecond : Nat

def Moment.isoSuffix (t : Moment) : Text :=
  let digits := (List.range 6).map fun i => 48 + t.microsecond / 10 ^ (5 - i) % 10
  (if t.microsecond = 0 then [] else text "." ++ digits) ++ text "+00:00"

/-- The text comparison `created_at < ?`. The nineteen characters of the whole second compare
like the seconds, and a stored time has the letter of UTC where the cutoff has its fraction or
its offset. -/
def storedBefore (createdAt : Nat) (cutoff : Moment) : Prop :=
  toLex (createdAt, text "Z") < toLex (cutoff.second, cutoff.isoSuffix)

instance (createdAt : Nat) (cutoff : Moment) : Decidable (storedBefore createdAt cutoff) :=
  inferInstanceAs (Decidable (toLex _ < toLex _))

theorem storedBefore_iff {createdAt : Nat} {cutoff : Moment} :
    storedBefore createdAt cutoff ↔ createdAt < cutoff.second := by
  have later : ¬ text "Z" < cutoff.isoSuffix := by
    by_cases hw : cutoff.microsecond = 0
    · rw [Moment.isoSuffix, if_pos hw]
      decide
    · rw [Moment.isoSuffix, if_neg hw]
      exact not_lt_of_gt (List.Lex.rel (by decide))
  rw [storedBefore, Prod.Lex.toLex_lt_toLex]
  simp [later]

def getManagedBackupArchive (userId archiveId : Text) (db : Database) : Except BackupError (Option Archive) := do
  let user ← requireUserId userId
  filledText "archive_id" archiveId
  pure (db.archive user archiveId)

def enqueueDelete (userId archiveId jobId : Text) (now : Nat) (db : Database) :
    Except BackupError (Database × Operation) := do
  let found ← getManagedBackupArchive userId archiveId db
  let archive ← orRaise (.lookup "managed backup archive was not found") found
  rejectIf (¬ (archive.status = .ready ∨ archive.status = .deleting) ∨ archive.objectVersion = none)
    (.value "managed backup archive is not deletable")
  let user ← requireUserId userId
  let generation := ((db.runtimeOf user).map (·.generation)).getD archive.runtimeGeneration
  startManagedBackupDeletion userId archiveId generation jobId now db

structure RetentionSettings where
  days : Nat
  batchSize : Nat
  bounds : (1 ≤ days ∧ days ≤ 3650) ∧ 1 ≤ batchSize ∧ batchSize ≤ 100

def Archive.age (a : Archive) : Nat ×ₗ Text := toLex (a.createdAt, a.id)

def Database.idle (db : Database) (a : Archive) : Prop :=
  ∀ op ∈ db.operations, op.archiveId = a.id → op.status ≠ .running

instance (db : Database) (a : Archive) : Decidable (db.idle a) := inferInstanceAs (Decidable (∀ _ ∈ _, _))

def listManagedBackupRetentionCandidates (cutoff : Moment) (limit : Nat) (db : Database) :
    Except BackupError (List Archive) := do
  rejectIf (¬ (1 ≤ limit ∧ limit ≤ 100)) (.value "limit must be between 1 and 100")
  let selected := db.archives.filter fun a =>
    a.status = .ready ∧ storedBefore a.createdAt cutoff ∧ a.objectVersion ≠ none ∧ db.idle a
  pure ((sortBy Archive.age selected).take limit)

def Moment.daysBefore (now : Moment) (days : Nat) : Except BackupError Moment := do
  rejectIf (now.second < days * 86400) (.overflow "date value out of range")
  pure ⟨now.second - days * 86400, now.microsecond⟩

/-- The deletions of one batch. `newId` stands for the fresh job of each. -/
def enqueueEach (newId : Text → Text) (now : Nat) :
    List Archive → Database → Database × Except BackupError Unit
  | [], db => (db, .ok ())
  | a :: rest, db =>
    match enqueueDelete a.userId a.id (newId a.id) now db with
    | .error error => (db, .error error)
    | .ok (db', _) => enqueueEach newId now rest db'

structure Scheduler where
  nextRetentionAt : Option Moment := none
  db : Database

def Scheduler.gated (s : Scheduler) (now : Moment) : Prop :=
  s.nextRetentionAt.any
    fun next => toLex (now.second, now.microsecond) < toLex (next.second, next.microsecond)

instance (s : Scheduler) (now : Moment) : Decidable (s.gated now) := inferInstanceAs (Decidable (_ = _))

def scheduleRetention (settings : RetentionSettings) (newId : Text → Text) (now : Moment)
    (s : Scheduler) : Scheduler × Except BackupError Nat :=
  if s.gated now then (s, .ok 0)
  else
    let waiting := { s with nextRetentionAt := some ⟨now.second + 60, now.microsecond⟩ }
    let listed := do
      let cutoff ← now.daysBefore settings.days
      listManagedBackupRetentionCandidates cutoff settings.batchSize s.db
    match listed with
    | .error error => (waiting, .error error)
    | .ok candidates =>
      let bounded := candidates.take settings.batchSize
      let ran := enqueueEach newId now.second bounded s.db
      ({ waiting with db := ran.1 }, ran.2.map fun _ => bounded.length)

/-- What the schema and the writers of the rows guarantee. -/
structure Catalogued (db : Database) : Prop where
  users : (db.operations.map (·.userId)).Nodup
  ids : (db.archives.map (·.id)).Nodup
  named : ∀ op ∈ db.operations, ∀ a ∈ db.archives, op.archiveId = a.id → op.userId = a.userId
  plain : ∀ a ∈ db.archives, a.id ≠ [] ∧ a.userId ≠ [] ∧ strip a.userId = a.userId
  generations : (∀ a ∈ db.archives, a.runtimeGeneration ≠ 0) ∧ ∀ row ∈ db.runtimes, row.generation ≠ 0
  versioned : ∀ a ∈ db.archives, a.status = .ready → a.objectVersion ≠ none

structure Fresh (newId : Text → Text) (db : Database) : Prop where
  distinct : Function.Injective newId
  filled : ∀ id, newId id ≠ []
  unused : ∀ id, ∀ op ∈ db.operations, op.jobId ≠ newId id

def Database.Free (db : Database) (userId : Text) : Prop :=
  ∀ op ∈ db.operations, op.userId = userId → op.status ≠ .running

instance (db : Database) (userId : Text) : Decidable (db.Free userId) :=
  inferInstanceAs (Decidable (∀ _ ∈ _, _))

section Schedule
variable (settings : RetentionSettings) (now : Moment)

def RetentionSettings.Due (a : Archive) : Prop :=
  a.status = .ready ∧
    toLex (a.createdAt + settings.days * 86400, 0) < toLex (now.second, now.microsecond)

instance (a : Archive) : Decidable (settings.Due now a) := inferInstanceAs (Decidable (_ ∧ toLex _ < toLex _))

def RetentionSettings.oldestDue (db : Database) : List Archive :=
  (sortBy Archive.age (db.archives.filter fun a => settings.Due now a)).take settings.batchSize

/-- The operations that `db'` adds delete due archives, one for every free account of the oldest
ones. -/
structure RemovesDue (db db' : Database) : Prop where
  only : ∀ op ∈ db'.operations, op ∉ db.operations → op.operation = .delete ∧
    ∃ a ∈ db.archives, settings.Due now a ∧ a.id = op.archiveId ∧ a.userId = op.userId
  one : (db'.operations.map (·.userId)).Nodup
  each : ∀ a ∈ settings.oldestDue now db, db.Free a.userId →
    ∃ op ∈ db'.operations, op ∉ db.operations ∧ op.userId = a.userId ∧ op.status = .running ∧
      ∃ b ∈ settings.oldestDue now db, b.id = op.archiveId

def RetentionSettings.Listed (db : Database) (a : Archive) : Prop :=
  a.status = .ready ∧ a.createdAt + settings.days * 86400 < now.second ∧ db.idle a

/-- Every free account of the oldest due archives has one that is due by a whole second and that
the batch comes to: the older ones in it belong to free accounts, each to another. -/
def Unblocked (db : Database) : Prop :=
  ∀ a ∈ settings.oldestDue now db, db.Free a.userId → ∃ b ∈ settings.oldestDue now db, b.userId = a.userId ∧
    settings.Listed now db b ∧
      ∀ c ∈ db.archives, settings.Listed now db c → c.age < b.age → db.Free c.userId ∧
      ∀ d ∈ db.archives, settings.Listed now db d → d.age ≤ b.age → d.userId = c.userId → d = c

end Schedule

theorem retire_of_free {db : Database} {userId : Text} (hf : db.Free userId) :
    ∃ db', retireFailedManagedOperation db userId = .ok db' ∧ db'.runtimes = db.runtimes ∧
      db'.operations = delete (fun row : Operation => row.userId = userId) db.operations ∧
      db'.archives.map (·.id) = db.archives.map (·.id) ∧
      ∀ a ∈ db.archives, a.status = .ready ∨ a.userId ≠ userId → a ∈ db'.archives := by
  rw [retireFailedManagedOperation]
  cases hfo : db.operations.find? (·.userId = userId) with
  | none =>
    have without : ∀ row ∈ db.operations, ¬ row.userId = userId := by simpa using find?_eq_none.mp hfo
    exact ⟨db, rfl, rfl, (delete_of_none without).symm, rfl, fun a hm _ => hm⟩
  | some row =>
    have stopped : row.status ≠ .running := by
      apply hf row (mem_of_find?_eq_some hfo)
      simpa using find?_some hfo
    refine ⟨_, steps_ok.1.mpr ⟨(), by simpa using stopped, rfl⟩, ?_⟩
    simp only [Option.map_some, Option.getD_some]
    split
    · refine ⟨rfl, rfl, map_update fun _ _ _ => rfl, ?_⟩
      intro a hm other
      apply mem_update_of_not hm
      rintro ⟨_, user, deleting⟩
      rcases other with ready | away
      · rw [ready] at deleting
        cases deleting
      · exact away user
    · exact ⟨rfl, rfl, rfl, fun a hm _ => hm⟩

theorem free_of_enqueued {db : Database} {userId archiveId jobId : Text} {now : Nat}
    {result : Database × Operation} (hp : strip userId = userId)
    (hu : (db.operations.map (·.userId)).Nodup)
    (hd : enqueueDelete userId archiveId jobId now db = .ok result) : db.Free userId := by
  simp only [enqueueDelete, startManagedBackupDeletion, requireUserId, steps_ok, hp] at hd
  obtain ⟨_, _, _, _, _, _, _, user, ⟨_, rfl⟩, _, _, _, _, retires, _⟩ := hd
  simp only [retireFailedManagedOperation, steps_ok] at retires
  obtain ⟨stopped, -⟩ := retires
  intro op hm user hr
  apply stopped
  rw [(find?_eq_some_iff (·.userId) hu).mpr ⟨hm, user⟩]
  simpa using hr

def deletionRow (newId : Text → Text) (now : Nat) (db : Database) (a : Archive) : Operation :=
  { userId := a.userId, jobId := newId a.id, archiveId := a.id, operation := .delete
    runtimeGeneration := ((db.runtimeOf a.userId).map (·.generation)).getD a.runtimeGeneration
    startedAt := now, updatedAt := now }

section Batch
variable {newId : Text → Text} {now : Nat} {db db' : Database} {done : List Archive} {a : Archive}

/-- The tables once the deletions of `done` have started. -/
structure Progress (newId : Text → Text) (now : Nat) (db db' : Database) (done : List Archive) : Prop where
  users : (db'.operations.map (·.userId)).Nodup
  ids : db'.archives.map (·.id) = db.archives.map (·.id)
  runtimes : db'.runtimes = db.runtimes
  listed : ∀ a ∈ done, a ∈ db.archives
  others : ∀ a ∈ db.archives, a.userId ∉ done.map (·.userId) → a ∈ db'.archives
  operations : ∀ op, op ∈ db'.operations ↔
    (op ∈ db.operations ∧ op.userId ∉ done.map (·.userId)) ∨ op ∈ done.map (deletionRow newId now db)

theorem Progress.start (hc : Catalogued db) : Progress newId now db db [] where
  users := hc.users
  ids := rfl
  runtimes := rfl
  listed := by simp
  others := fun a hm _ => hm
  operations := by simp

theorem Progress.free (hp : Progress newId now db db' done) {userId : Text} :
    db'.Free userId ↔ db.Free userId ∧ userId ∉ done.map (·.userId) := by
  constructor
  · intro hf
    have away : userId ∉ done.map (·.userId) := by
      intro hm
      obtain ⟨b, hb, rfl⟩ := mem_map.mp hm
      exact hf _ ((hp.operations _).mpr (.inr (mem_map_of_mem hb))) rfl rfl
    refine ⟨fun op hm user => hf op ((hp.operations op).mpr (.inl ⟨hm, ?_⟩)) user, away⟩
    rwa [user]
  · rintro ⟨hf, away⟩ op hm user
    rcases (hp.operations op).mp hm with ⟨old, _⟩ | new
    · exact hf op old user
    · obtain ⟨b, hb, rfl⟩ := mem_map.mp new
      exact absurd (mem_map.mpr ⟨b, hb, user⟩) away

theorem Progress.next (hp : Progress newId now db db' done) (hc : Catalogued db)
    (hf : Fresh newId db) (hm : a ∈ db.archives) (ready : a.status = .ready)
    (hfr : db'.Free a.userId) :
    ∃ db'' op, enqueueDelete a.userId a.id (newId a.id) now db' = .ok (db'', op) ∧
      Progress newId now db db'' (done ++ [a]) := by
  obtain ⟨filled, user, stripped⟩ := hc.plain a hm
  have away := (hp.free.mp hfr).2
  have hh := hp.others a hm away
  have ids : (db'.archives.map (·.id)).Nodup := by
    rw [hp.ids]
    exact hc.ids
  have hfo : db'.archive a.userId a.id = some a := by
    cases look : db'.archive a.userId a.id with
    | none => simpa using find?_eq_none.mp look a hh
    | some b =>
      have hs : b.userId = a.userId ∧ b.id = a.id := by simpa using find?_some look
      rw [eq_of_key ids (mem_of_find?_eq_some look) hh hs.2]
  obtain ⟨retired, retires, runtimes, operations, retiredIds, hk⟩ := retire_of_free hfr
  have chosen : a.readyFor a.id a.userId := ⟨rfl, rfl, ready, hc.versioned a hm ready⟩
  have count : rowcount (fun row : Archive => row.readyFor a.id a.userId) retired.archives = 1 := by
    have ids' : (retired.archives.map (·.id)).Nodup := by
      rw [retiredIds]
      exact ids
    exact rowcount_eq_one ids' (fun row _ test => test.1) (hk a hh (.inl ready)) chosen
  have ha : ∀ op ∈ retired.operations, op.userId ≠ a.userId ∧ op.jobId ≠ newId a.id := by
    intro op hl
    rw [operations] at hl
    obtain ⟨old, other⟩ := mem_delete.mp hl
    refine ⟨other, ?_⟩
    rcases (hp.operations op).mp old with ⟨first, _⟩ | new
    · exact hf.unused a.id op first
    · obtain ⟨b, hb, rfl⟩ := mem_map.mp new
      intro hs
      apply away
      rw [← eq_of_key hc.ids (hp.listed b hb) hm (hf.distinct hs)]
      exact mem_map_of_mem hb
  have generation : ((db'.runtimeOf a.userId).map (·.generation)).getD a.runtimeGeneration ≠ 0 := by
    rw [Database.runtimeOf, hp.runtimes]
    cases look : db.runtimes.find? (·.userId = a.userId) with
    | none => exact hc.generations.1 a hm
    | some row => exact hc.generations.2 row (mem_of_find?_eq_some look)
  have inserts : ∀ archives, insertOperation { retired with archives := archives }
      (deletionRow newId now db' a) (.conflict "managed backup operation is active") =
        .ok { retired with
          archives := archives, operations := retired.operations ++ [deletionRow newId now db' a] } := by
    intro archives
    refine steps_ok.1.mpr ⟨(), ?_, rfl⟩
    rw [rejectIf_eq_ok, any_eq_true]
    rintro ⟨op, hl, hs⟩
    rcases of_decide_eq_true hs with user | job
    · exact (ha op hl).1 user
    · exact (ha op hl).2 job
  have row : deletionRow newId now db' a = deletionRow newId now db a := by
    rw [deletionRow, Database.runtimeOf, hp.runtimes]
    rfl
  have hac : requireUserId a.userId = .ok a.userId := by
    simp only [requireUserId, steps_ok, stripped]
    exact ⟨user, trivial⟩
  let deleting := update (fun row : Archive => row.readyFor a.id a.userId)
    (fun row => { row with status := .deleting }) retired.archives
  refine ⟨{ retired with
      archives := deleting,
      operations := retired.operations ++ [deletionRow newId now db' a] }, deletionRow newId now db' a, ?_, ?_⟩
  · simp only [enqueueDelete, getManagedBackupArchive, startManagedBackupDeletion, filledText,
      positiveInteger, steps_ok, hac]
    refine ⟨_, ⟨_, rfl, filled, rfl⟩, a, hfo, by simp [ready, chosen.2.2.2], _, rfl, _, rfl, filled,
      hf.filled _, generation, _, retires, by simpa using count, _, inserts _, rfl⟩
  · rw [row]
    exact {
      users := by
        apply nodup_append_row _ fun op hl => (ha op hl).1
        rw [operations]
        exact nodup_delete hp.users
      ids := by
        have ids' : deleting.map (·.id) = retired.archives.map (·.id) := map_update fun _ _ _ => rfl
        exact ids'.trans (retiredIds.trans hp.ids)
      runtimes := runtimes.trans hp.runtimes
      listed := by
        intro b hb
        rcases mem_append.mp hb with old | new
        · exact hp.listed b old
        · rwa [mem_singleton.mp new]
      others := by
        intro b hb other
        simp only [map_append, mem_append, map_cons, map_nil, mem_singleton, not_or] at other
        exact mem_update_of_not (hk b (hp.others b hb other.1) (.inr other.2)) fun test => other.2 test.2.1
      operations := by
        intro op
        simp only [mem_append, mem_singleton, map_append, map_cons, map_nil, operations,
          mem_delete, hp.operations, not_or]
        constructor
        · rintro (⟨⟨old, earlier⟩ | new, other⟩ | last)
          · exact .inl ⟨old, earlier, other⟩
          · exact .inr (.inl new)
          · exact .inr (.inr last)
        · rintro (⟨old, earlier, other⟩ | new | last)
          · exact .inl ⟨.inl ⟨old, earlier⟩, other⟩
          · refine .inl ⟨.inr new, fun hs => away ?_⟩
            obtain ⟨b, hb, rfl⟩ := mem_map.mp new
            exact mem_map.mpr ⟨b, hb, hs⟩
          · exact .inr last }

theorem Progress.run (hc : Catalogued db) (hf : Fresh newId db) {rest : List Archive}
    (hr : ∀ a ∈ rest, a ∈ db.archives ∧ a.status = .ready) (hp : Progress newId now db db' done)
    (hn : (done.map (·.userId)).Nodup) (hfr : ∀ a ∈ done, db.Free a.userId) :
    ∃ ran left, rest = ran ++ left ∧
      Progress newId now db (enqueueEach newId now rest db').1 (done ++ ran) ∧
      ((done ++ ran).map (·.userId)).Nodup ∧ (∀ a ∈ done ++ ran, db.Free a.userId) ∧
      ∀ a ∈ left.head?, db.Free a.userId → a.userId ∈ (done ++ ran).map (·.userId) := by
  induction rest generalizing db' done with
  | nil => exact ⟨[], [], rfl, by simpa [enqueueEach] using hp, by simpa using hn, by simpa using hfr, by simp⟩
  | cons a rest ih =>
    obtain ⟨hm, ready⟩ := hr a mem_cons_self
    by_cases open_ : db'.Free a.userId
    · obtain ⟨db'', op, ran, next⟩ := hp.next hc hf hm ready open_
      obtain ⟨first, away⟩ := hp.free.mp open_
      obtain ⟨ran', left, rfl, progress, hn', hf', hs⟩ :=
        ih (fun b hb => hr b (mem_cons_of_mem _ hb)) next (by
          rw [map_append, nodup_append]
          refine ⟨hn, by simp, ?_⟩
          rintro _ hu _ hl rfl
          rw [mem_singleton.mp hl] at hu
          exact away hu) (by
          intro b hb
          rcases mem_append.mp hb with old | new
          · exact hfr b old
          · rwa [mem_singleton.mp new])
      rw [enqueueEach, ran]
      exact ⟨a :: ran', left,
        rfl, by simpa using progress, by simpa using hn', by simpa using hf', by simpa using hs⟩
    · have hre : ∃ error, enqueueDelete a.userId a.id (newId a.id) now db' = .error error := by
        cases result : enqueueDelete a.userId a.id (newId a.id) now db' with
        | error error => exact ⟨error, rfl⟩
        | ok hst => exact absurd (free_of_enqueued (hc.plain a hm).2.2 hp.users result) open_
      obtain ⟨error, hre⟩ := hre
      rw [enqueueEach, hre]
      refine ⟨[], a :: rest, rfl, by simpa using hp, by simpa using hn, by simpa using hfr, ?_⟩
      intro b hb first
      obtain rfl : a = b := by simpa using hb
      by_contra away
      exact open_ (hp.free.mpr ⟨first, by simpa using away⟩)

end Batch

section Order
variable {settings : RetentionSettings} {now : Moment} {db : Database}

instance (a : Archive) : Decidable (settings.Listed now db a) := inferInstanceAs (Decidable (_ ∧ _))

def RetentionSettings.batch (settings : RetentionSettings) (now : Moment) (db : Database) : List Archive :=
  (sortBy Archive.age (db.archives.filter fun a => settings.Listed now db a)).take settings.batchSize

theorem due_of_listed {a : Archive} (hl : settings.Listed now db a) : settings.Due now a :=
  ⟨hl.1, Prod.Lex.toLex_lt_toLex.mpr (.inl hl.2.1)⟩

theorem scheduleRetention_db {newId : Text → Text} {s : Scheduler} (hc : Catalogued s.db)
    (hp : ¬ s.gated now) :
    (scheduleRetention settings newId now s).1.db =
      (enqueueEach newId now.second (settings.batch now s.db) s.db).1 := by
  rw [scheduleRetention, if_neg hp]
  by_cases early : now.second < settings.days * 86400
  · have unselected : s.db.archives.filter (fun a => settings.Listed now s.db a) = [] := by
      apply filter_eq_nil_iff.mpr
      intro a _ hl
      have due := (of_decide_eq_true hl).2.1
      omega
    have empty : settings.batch now s.db = [] := by
      rw [RetentionSettings.batch, unselected]
      exact take_nil
    have listed : (do
        let cutoff ← now.daysBefore settings.days
        listManagedBackupRetentionCandidates cutoff settings.batchSize s.db) =
        .error (.overflow "date value out of range") :=
      bind_eq_error.mpr (.inl (bind_eq_error.mpr (.inl (rejectIf_eq_error.mpr ⟨early, rfl⟩))))
    simp only [empty, listed, enqueueEach]
  · have hs : ∀ a ∈ s.db.archives, (a.status = .ready ∧
        storedBefore a.createdAt ⟨now.second - settings.days * 86400, now.microsecond⟩ ∧
          a.objectVersion ≠ none ∧ s.db.idle a) ↔ settings.Listed now s.db a := by
      intro a hm
      rw [storedBefore_iff, RetentionSettings.Listed]
      constructor
      · rintro ⟨ready, due, _, hi⟩
        exact ⟨ready, by simp only at due; omega, hi⟩
      · rintro ⟨ready, due, hi⟩
        exact ⟨ready, by simp only; omega, hc.versioned a hm ready, hi⟩
    have hl : listManagedBackupRetentionCandidates ⟨now.second - settings.days * 86400, now.microsecond⟩
        settings.batchSize s.db = .ok (settings.batch now s.db) := by
      simp only [listManagedBackupRetentionCandidates, steps_ok]
      refine ⟨by simpa using settings.bounds.2, ?_⟩
      refine congrArg (fun rows => (sortBy Archive.age rows).take settings.batchSize)
        (filter_congr fun a hm => ?_)
      rw [decide_eq_decide]
      exact hs a hm
    have cutoff : now.daysBefore settings.days = .ok ⟨now.second - settings.days * 86400, now.microsecond⟩ := by
      simpa only [Moment.daysBefore, steps_ok] using ⟨early, trivial⟩
    have listed : (do
        let cutoff ← now.daysBefore settings.days
        listManagedBackupRetentionCandidates cutoff settings.batchSize s.db) =
          .ok (settings.batch now s.db) :=
      steps_ok.1.mpr ⟨_, cutoff, hl⟩
    simp only [listed]
    rw [RetentionSettings.batch, take_take, Nat.min_self]

theorem mem_take_filter {p q : Archive → Bool} (weaker : ∀ a, p a → q a) {a : Archive} (hp : p a)
    {xs : List Archive} {n : Nat} (hm : a ∈ (xs.filter q).take n) : a ∈ (xs.filter p).take n := by
  induction xs generalizing n with
  | nil => simp at hm
  | cons x xs ih =>
    cases n with
    | zero => simp at hm
    | succ n =>
      by_cases first : p x
      · rw [filter_cons_of_pos (weaker x first), take_succ_cons, mem_cons] at hm
        rw [filter_cons_of_pos first, take_succ_cons, mem_cons]
        exact hm.imp_right ih
      · rw [filter_cons_of_neg first]
        by_cases second : q x
        · rw [filter_cons_of_pos second, take_succ_cons, mem_cons] at hm
          rcases hm with rfl | later
          · exact absurd hp first
          · exact take_subset_take_left _ (Nat.le_succ n) (ih later)
        · rw [filter_cons_of_neg second] at hm
          exact ih hm

theorem ages_nodup (hc : Catalogued db) : (db.archives.map Archive.age).Nodup := by
  apply Nodup.of_map fun key => (ofLex key).2
  rw [map_map]
  exact hc.ids

theorem mem_batch (hc : Catalogued db) {a : Archive} (hm : a ∈ settings.oldestDue now db)
    (hl : settings.Listed now db a) : a ∈ settings.batch now db := by
  rw [RetentionSettings.oldestDue, sortBy_filter (ages_nodup hc)] at hm
  rw [RetentionSettings.batch, sortBy_filter (ages_nodup hc)]
  refine mem_take_filter ?_ (decide_eq_true hl) hm
  simpa using fun a hli => due_of_listed hli

theorem retention_removes_due_iff {newId : Text → Text} {s : Scheduler} (hc : Catalogued s.db)
    (hf : Fresh newId s.db) (hp : ¬ s.gated now) :
    RemovesDue settings now s.db (scheduleRetention settings newId now s).1.db ↔
    Unblocked settings now s.db := by
  rw [scheduleRetention_db hc hp]
  have hs : (sortBy Archive.age (s.db.archives.filter fun a => settings.Listed now s.db a)).Pairwise
      fun a b => a.age < b.age := by
    apply pairwise_lt_of_nodup _ pairwise_sortBy
    rw [nodup_keys_sortBy]
    exact (ages_nodup hc).sublist (filter_sublist.map _)
  have hli : ∀ a ∈ settings.batch now s.db, a ∈ s.db.archives ∧ settings.Listed now s.db a := by
    intro a hm
    simpa using mem_of_mem_take hm
  obtain ⟨ran, left, hw, progress, hn, hfr, hst⟩ := Progress.run hc hf
    (fun a hm => ⟨(hli a hm).1, (hli a hm).2.1⟩) (@Progress.start newId now.second _ hc) (by simp) (by simp)
  rw [nil_append] at progress hn hfr hst
  have added : ∀ op ∈ (enqueueEach newId now.second (settings.batch now s.db) s.db).1.operations,
      op ∉ s.db.operations →
      ∃ b ∈ ran, op = deletionRow newId now.second s.db b := by
    intro op hm new
    rcases (progress.operations op).mp hm with ⟨old, _⟩ | row
    · exact absurd old new
    · obtain ⟨b, hb, rfl⟩ := mem_map.mp row
      exact ⟨b, hb, rfl⟩
  have inBatch : ∀ {a}, a ∈ ran ∨ a ∈ left → a ∈ settings.batch now s.db := by
    intro a hm
    rw [hw]
    exact mem_append.mpr hm
  -- The batch is sorted by age, so what is older than a started archive has started before it.
  have older : ∀ b ∈ ran, ∀ c ∈ s.db.archives, settings.Listed now s.db c → c.age < b.age → c ∈ ran := by
    intro b hb c hm hl before
    have hh : c ∈ sortBy Archive.age (s.db.archives.filter fun a => settings.Listed now s.db a) := by
      simpa using ⟨hm, hl⟩
    rw [← take_append_drop settings.batchSize (sortBy _ _), ← RetentionSettings.batch, hw,
        append_assoc] at hh hs
    rcases mem_append.mp hh with hd | later
    · exact hd
    · exact absurd ((pairwise_append.mp hs).2.2 b hb c later) before.not_gt
  constructor
  · intro removes a hm open_
    obtain ⟨op, hl, new, user, _, b, hb, names⟩ := removes.each a hm open_
    obtain ⟨b', hb', rfl⟩ := added op hl new
    have hh := (hli b' (inBatch (.inl hb'))).1
    obtain rfl : b = b' := by
      apply eq_of_key hc.ids _ hh names
      exact mem_of_mem_filter (mem_sortBy.mp (mem_of_mem_take hb))
    refine ⟨b, hb, user, (hli b (inBatch (.inl hb'))).2, fun c hm hl before => ?_⟩
    have first := older b hb' c hm hl before
    refine ⟨hfr c first, fun d hm' hl' upTo hsa => ?_⟩
    have second : d ∈ ran := by
      rcases upTo.lt_or_eq with before | equal
      · exact older b hb' d hm' hl' before
      · rwa [eq_of_key (ages_nodup hc) hm' hh equal]
    exact eq_of_key hn second first hsa
  · intro unblocked
    refine ⟨?_, progress.users, ?_⟩
    · intro op hm new
      obtain ⟨b, hb, rfl⟩ := added op hm new
      obtain ⟨hh, hl⟩ := hli b (inBatch (.inl hb))
      exact ⟨rfl, b, hh, due_of_listed hl, rfl, rfl⟩
    · intro a hm open_
      obtain ⟨b, hb, user, hl, before⟩ := unblocked a hm open_
      have hsd : b ∈ ran := by
        have hh := mem_batch hc hb hl
        rw [hw] at hh
        rcases mem_append.mp hh with hd | later
        · exact hd
        · -- The archive that stops the batch is not younger. Its account is free, so it had an archive before.
          obtain ⟨x, rest, rfl⟩ := exists_cons_of_ne_nil (ne_nil_of_mem later)
          obtain ⟨hh, selected⟩ := hli x (inBatch (.inr mem_cons_self))
          have ages : (ran ++ x :: rest).Pairwise fun a b => a.age < b.age := by
            rw [← hw]
            exact hs.sublist (take_sublist _ _)
          have upTo : x.age ≤ b.age := by
            rcases mem_cons.mp later with rfl | last
            · exact le_rfl
            · exact (rel_of_pairwise_cons (pairwise_append.mp ages).2.1 last).le
          have open' : s.db.Free x.userId := by
            rcases upTo.lt_or_eq with older | equal
            · exact (before x hh selected older).1
            · rwa [eq_of_key (ages_nodup hc) hh (hli b (inBatch (.inr later))).1 equal, user]
          obtain ⟨c, hl', hsa⟩ := mem_map.mp (hst x rfl open')
          have earlier : c.age < x.age := (pairwise_append.mp ages).2.2 c hl' x mem_cons_self
          obtain ⟨hh', selected'⟩ := hli c (inBatch (.inl hl'))
          have only := (before c hh' selected' (earlier.trans_le upTo)).2 x hh selected upTo hsa.symm
          rw [only] at earlier
          exact absurd earlier (lt_irrefl _)
      refine ⟨deletionRow newId now.second s.db b,
        (progress.operations _).mpr (.inr (mem_map_of_mem hsd)), ?_, user, rfl, b, hb, rfl⟩
      intro old
      exact hf.unused b.id _ old rfl

end Order

def sampleRetention : RetentionSettings := ⟨30, 20, by decide⟩

def busyCatalog : Database where
  archives := [sampleArchive "a1" "u1" 0, sampleArchive "a2" "u1" 3456000, sampleArchive "a3" "u2" 60]
  operations := [{ userId := text "u1", jobId := text "j1", archiveId := text "a2", operation := .restore
                   runtimeGeneration := 1, startedAt := 3456000, updatedAt := 3456000 }]
where
  sampleArchive (id userId : String) (createdAt : Nat) : Archive :=
    { id := text id, userId := text userId, runtimeGeneration := 1, status := .ready, objectKey := text id
      objectVersion := some (text "v1"), wrappedKey := [1], keyId := text "k1", ownerDigest := []
      createdAt := createdAt }

theorem busyCatalog_catalogued : Catalogued busyCatalog where
  users := by decide
  ids := by decide
  named := by decide
  plain := by decide
  generations := by decide
  versioned := by decide

theorem sampleJobs_fresh : Fresh (List.cons 0) busyCatalog where
  distinct := cons_injective
  filled := by simp
  unused := by
    intro id op hm
    obtain rfl := mem_singleton.mp hm
    simp [text]

theorem retention_blocked :
    ¬ ∀ settings newId now s,
    Catalogued s.db → Fresh newId s.db → ¬ s.gated now →
    RemovesDue settings now s.db (scheduleRetention settings newId now s).1.db := by
  intro claimed
  have removes := claimed sampleRetention (cons 0) ⟨3456000, 0⟩ ⟨none, busyCatalog⟩ busyCatalog_catalogued
    sampleJobs_fresh (by decide)
  have hs : (scheduleRetention sampleRetention (cons 0) ⟨3456000, 0⟩ ⟨none, busyCatalog⟩).1.db =
      busyCatalog := by decide +kernel
  rw [hs] at removes
  have due :
      ∃ a ∈ sampleRetention.oldestDue ⟨3456000, 0⟩ busyCatalog, busyCatalog.Free a.userId := by
    decide +kernel
  obtain ⟨a, hm, hf⟩ := due
  obtain ⟨op, hl, new, _⟩ := removes.each a hm hf
  exact new hl

def freeCatalog : Database := { busyCatalog with operations := [] }

theorem freeCatalog_catalogued : Catalogued freeCatalog where
  users := by decide
  ids := by decide
  named := by decide
  plain := by decide
  generations := by decide
  versioned := by decide

set_option synthInstance.maxSize 512 in
theorem retention_removes_due_free : RemovesDue sampleRetention ⟨3456000, 0⟩ freeCatalog
    (scheduleRetention sampleRetention (List.cons 0) ⟨3456000, 0⟩ ⟨none, freeCatalog⟩).1.db := by
  have fresh : Fresh (List.cons 0) freeCatalog :=
    { sampleJobs_fresh with unused := fun _ _ hm => absurd hm not_mem_nil }
  have free : Unblocked sampleRetention ⟨3456000, 0⟩ freeCatalog := by
    unfold Unblocked
    decide +kernel
  exact (retention_removes_due_iff (s := ⟨none, freeCatalog⟩) freeCatalog_catalogued fresh (by decide)).2 free

end Yinshi.Backup
