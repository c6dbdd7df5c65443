import Yinshi.Backup.System

/-! What a transaction of the catalog may change. The tables are consistent, and every
transaction either leaves them, replaces one operation and its archive, or inserts. -/

namespace Yinshi.Backup
open ByteText Checked Rows List Option

/-- The store has the version that the archive names, with the recorded size and digest. -/
def Archive.Present (objects : List Object) (a : Archive) : Prop :=
  ∃ version sizeBytes sha256,
    a.objectVersion = some version ∧ a.sizeBytes = some sizeBytes ∧ a.sha256 = some sha256 ∧
    ⟨a.objectKey, version, sizeBytes, sha256, a.id⟩ ∈ objects

def Operation.Fits (op : Operation) (a : Archive) : Prop :=
  match op.operation, op.status with
  | .create, .running => a.runtimeGeneration = op.runtimeGeneration ∧
      (a.status = .creating ∧ a.objectVersion = none ∧ op.phase = .claimed ∧ a.sizeBytes = none ∧
        a.sha256 = none ∨
        a.status = .creating ∧ a.objectVersion = none ∧ op.phase ≠ .claimed ∧ a.sizeBytes ≠ none ∧
        a.sha256 ≠ none ∨ a.status = .uploaded ∧ op.phase ≠ .claimed)
  | .create, .failed => a.status = .failed
  | .delete, _ => a.status = .deleting
  | .restore, .running => a.status = .ready
  | .restore, .failed => True

structure Sound (objects : List Object) (db : Database) : Prop where
  users : (db.operations.map (·.userId)).Nodup
  jobs : (db.operations.map (·.jobId)).Nodup
  ids : (db.archives.map (·.id)).Nodup
  keys : (db.archives.map (·.objectKey)).Nodup
  named : ∀ op ∈ db.operations, ∃ a ∈ db.archives, a.id = op.archiveId ∧ a.userId = op.userId ∧ op.Fits a
  working : ∀ a ∈ db.archives, a.status = .creating ∨ a.status = .uploaded →
    ∃ op ∈ db.operations, op.archiveId = a.id ∧ op.operation = .create ∧ op.status = .running
  deleting : ∀ a ∈ db.archives,
      a.status = .deleting → ∃ op ∈ db.operations, op.archiveId = a.id ∧ op.operation = .delete
  present : ∀ a ∈ db.archives, a.status = .ready ∨ a.status = .uploaded → a.Present objects
  kept : ∀ a ∈ db.archives, a.status = .deleting →
    (∀ op ∈ db.operations, op.archiveId = a.id → op.status = .failed) → a.Present objects

section Sound
variable {objects : List Object} {db : Database}

theorem Sound.user_inj (hs : Sound objects db) {op op' : Operation} (hm : op ∈ db.operations)
    (hm' : op' ∈ db.operations) (same : op.userId = op'.userId) : op = op' :=
  eq_of_key hs.users hm hm' same

theorem Sound.id_inj (sound : Sound objects db) {a a' : Archive} (hm : a ∈ db.archives)
    (hm' : a' ∈ db.archives) (hs : a.id = a'.id) : a = a' :=
  eq_of_key sound.ids hm hm' hs

theorem Sound.archive_inj (hs : Sound objects db) {op op' : Operation} (hm : op ∈ db.operations)
    (hm' : op' ∈ db.operations) (same : op.archiveId = op'.archiveId) : op = op' := by
  obtain ⟨a, hh, id, user, _⟩ := hs.named op hm
  obtain ⟨a', hh', id', user', _⟩ := hs.named op' hm'
  have one : a = a' := hs.id_inj hh hh' (id.trans (same.trans id'.symm))
  exact hs.user_inj hm hm' (by rw [← user, ← user', one])

end Sound

structure OperationSwap (rows rows' : List Operation) (op : Operation) (op' : Option Operation) : Prop where
  operation : op ∈ rows
  same : ∀ new ∈ op', new.userId = op.userId ∧ new.jobId = op.jobId ∧ new.archiveId = op.archiveId ∧
    new.operation = op.operation ∧ new.runtimeGeneration = op.runtimeGeneration
  operations : ∀ row, row ∈ rows' ↔ (row ∈ rows ∧ row.jobId ≠ op.jobId) ∨ row ∈ op'
  users : (rows'.map (·.userId)).Nodup
  jobs : (rows'.map (·.jobId)).Nodup

structure ArchiveSwap (rows rows' : List Archive) (a a' : Archive) : Prop where
  archive : a ∈ rows
  id : a'.id = a.id
  user : a'.userId = a.userId
  key : a'.objectKey = a.objectKey
  archives : ∀ row, row ∈ rows' ↔ (row ∈ rows ∧ row.id ≠ a.id) ∨ row = a'
  ids : rows'.map (·.id) = rows.map (·.id)
  keys : rows'.map (·.objectKey) = rows.map (·.objectKey)

structure Swap (db db' : Database) (op : Operation) (op' : Option Operation) (a a' : Archive) :
    Prop extends OperationSwap db.operations db'.operations op op',
    ArchiveSwap db.archives db'.archives a a' where
  names : a.id = op.archiveId

/-- What `Sound` asks of one archive, of the only operation that may name it. -/
structure Backed (objects : List Object) (op : Option Operation) (a : Archive) : Prop where
  working : a.status = .creating ∨ a.status = .uploaded →
    ∃ new ∈ op, new.operation = .create ∧ new.status = .running
  deleting : a.status = .deleting → ∃ new ∈ op, new.operation = .delete
  present : a.status = .ready ∨ a.status = .uploaded → a.Present objects
  kept : a.status = .deleting → (∀ new ∈ op, new.status = .failed) → a.Present objects

theorem Sound.change {objects objects' : List Object} {db db' : Database} {op' : Option Operation}
    {a' : Archive} (hs : Sound objects db)
    (operations :
      ∀ row, row ∈ db'.operations ↔ (row ∈ db.operations ∧ row.archiveId ≠ a'.id) ∨ row ∈ op')
    (archives : ∀ row, row ∈ db'.archives ↔ (row ∈ db.archives ∧ row.id ≠ a'.id) ∨ row = a')
    (users : (db'.operations.map (·.userId)).Nodup) (jobs : (db'.operations.map (·.jobId)).Nodup)
    (ids : (db'.archives.map (·.id)).Nodup) (keys : (db'.archives.map (·.objectKey)).Nodup)
    (names : ∀ new ∈ op', a'.id = new.archiveId ∧ a'.userId = new.userId ∧ new.Fits a')
    (hb : Backed objects' op' a')
    (others : ∀ row ∈ db.archives, row.id ≠ a'.id → row.Present objects → row.Present objects') :
    Sound objects' db' := by
  have old : ∀ row : Archive,
        row.id ≠ a'.id → ∀ one ∈ db.operations, one.archiveId = row.id → one ∈ db'.operations :=
    fun row other one hl naming => (operations one).mpr (.inl ⟨hl, naming ▸ other⟩)
  refine ⟨users, jobs, ids, keys, fun one hl => ?_, fun row hl status => ?_, fun row hl status => ?_,
    fun row hl status => ?_, fun row hl status failed => ?_⟩
  · rcases (operations one).mp hl with ⟨hm, other⟩ | new
    · obtain ⟨row, hh, id, rest⟩ := hs.named one hm
      exact ⟨row, (archives row).mpr (.inl ⟨hh, id ▸ other⟩), id, rest⟩
    · exact ⟨a', (archives a').mpr (.inr rfl), names one new⟩
  · rcases (archives row).mp hl with ⟨hm, other⟩ | rfl
    · obtain ⟨one, hh, naming, rest⟩ := hs.working row hm status
      exact ⟨one, old row other one hh naming, naming, rest⟩
    · obtain ⟨new, hh, rest⟩ := hb.working status
      exact ⟨new, (operations new).mpr (.inr hh), (names new hh).1.symm, rest⟩
  · rcases (archives row).mp hl with ⟨hm, other⟩ | rfl
    · obtain ⟨one, hh, naming, kind⟩ := hs.deleting row hm status
      exact ⟨one, old row other one hh naming, naming, kind⟩
    · obtain ⟨new, hh, kind⟩ := hb.deleting status
      exact ⟨new, (operations new).mpr (.inr hh), (names new hh).1.symm, kind⟩
  · rcases (archives row).mp hl with ⟨hm, other⟩ | rfl
    · exact others row hm other (hs.present row hm status)
    · exact hb.present status
  · rcases (archives row).mp hl with ⟨hm, other⟩ | rfl
    · refine others row hm other (hs.kept row hm status fun one hh naming => ?_)
      exact failed one (old row other one hh naming) naming
    · exact hb.kept status fun new hh => failed new ((operations new).mpr (.inr hh)) (names new hh).1.symm

theorem Sound.swap {objects objects' : List Object} {db db' : Database} {op : Operation}
    {op' : Option Operation} {a a' : Archive} (sound : Sound objects db)
    (swap : Swap db db' op op' a a') (hf : ∀ new ∈ op', new.Fits a')
    (hb : Backed objects' op' a')
    (others : ∀ row ∈ db.archives, row.id ≠ a.id → row.Present objects → row.Present objects') :
    Sound objects' db' := by
  have ha : ∀ row ∈ db.operations, row.jobId ≠ op.jobId ↔ row.archiveId ≠ a'.id := by
    intro row hl
    rw [swap.id, swap.names]
    exact not_congr ⟨fun hs => congrArg _ (eq_of_key sound.jobs hl swap.operation hs),
      fun hs => congrArg _ (sound.archive_inj hl swap.operation hs)⟩
  refine sound.change (fun row => ?_) (by simpa only [swap.id] using swap.archives) swap.users swap.jobs
    (swap.ids ▸ sound.ids) (swap.keys ▸ sound.keys) (fun new hh => ?_) hb
      (by simpa only [swap.id] using others)
  · rw [swap.operations, and_congr_right (ha row)]
  · obtain ⟨user, _, archiveId, _, _⟩ := swap.same new hh
    obtain ⟨row, hl, id, owner, _⟩ := sound.named op swap.operation
    obtain rfl : row = a := sound.id_inj hl swap.archive (id.trans swap.names.symm)
    exact ⟨by rw [swap.id, swap.names, archiveId], by rw [swap.user, owner, user], hf new hh⟩

section Build
variable {objects : List Object} {db : Database} {op : Operation} {a : Archive}

end Build

def Untouched (db db' : Database) : Prop := db'.archives = db.archives ∧ db'.operations = db.operations

theorem Untouched.refl (db : Database) : Untouched db db := ⟨rfl, rfl⟩

section Transactions
variable {objects : List Object} {db db' : Database}
  {userId jobId leaseToken workerId sha256 version : Text}
  {generation now leaseExpiresAt sizeBytes : Nat} {changed : Bool}
variable {runnerId spriteName : Text}

section
variable (hs : Sound objects db)
include hs

end

end Transactions

section Requests
variable {objects : List Object} {db db' : Database} {op : Operation} {a a' : Archive}

theorem Sound.insert (sound : Sound objects db) (swap : ArchiveSwap db.archives db'.archives a a')
    (operations : db'.operations = db.operations ++ [op])
    (users : ∀ row ∈ db.operations, row.userId ≠ op.userId)
    (jobs : ∀ row ∈ db.operations, row.jobId ≠ op.jobId) (names : a.id = op.archiveId)
    (owner : a.userId = op.userId) (runs : op.status = .running) (hf : op.Fits a')
    (hi : a'.status ≠ .creating ∧ a'.status ≠ .uploaded)
    (deleting : a'.status = .deleting → op.operation = .delete)
    (hp : a'.status = .ready ∨ a'.status = .uploaded → a'.Present objects) : Sound objects db' := by
  have ha : ∀ row ∈ db.operations, row.archiveId ≠ a'.id := by
    intro row hl hs
    obtain ⟨b, hh, id, user, _⟩ := sound.named row hl
    have one : b = a := sound.id_inj hh swap.archive (id.trans (hs.trans swap.id))
    exact users row hl (by rw [← user, one, owner])
  refine @Sound.change objects objects db db' (some op) a' sound (fun row => ?_)
    (by simpa only [swap.id] using swap.archives) ?_ ?_ (swap.ids ▸ sound.ids) (swap.keys ▸ sound.keys)
    ?_ ⟨fun status => ?_, fun status => ⟨op, rfl, deleting status⟩, hp, fun _ failed => ?_⟩ fun _ _ _ hh => hh
  · rw [operations, mem_append, mem_singleton, mem_some_iff, eq_comm, and_iff_left_of_imp (ha row)]
  · rw [operations]
    exact nodup_append_row sound.users users
  · rw [operations]
    exact nodup_append_row sound.jobs jobs
  · rintro _ ⟨⟩
    exact ⟨swap.id.trans names, swap.user.trans owner, hf⟩
  · exact absurd status (not_or.mpr hi)
  · cases runs.symm.trans (failed op rfl)

theorem Sound.create (hs : Sound objects db) (archives : db'.archives = db.archives ++ [a])
    (operations : db'.operations = db.operations ++ [op])
    (users : ∀ row ∈ db.operations, row.userId ≠ op.userId)
    (jobs : ∀ row ∈ db.operations, row.jobId ≠ op.jobId)
    (hf : ∀ row ∈ db.archives, row.id ≠ a.id ∧ row.objectKey ≠ a.objectKey)
    (names : a.id = op.archiveId) (owner : a.userId = op.userId) (kind : op.operation = .create)
    (runs : op.status = .running) (fits : op.Fits a) (creating : a.status = .creating) :
    Sound objects db' := by
  have ha : ∀ row ∈ db.operations, row.archiveId ≠ a.id := by
    intro row hl same
    obtain ⟨b, hh, id, _⟩ := hs.named row hl
    exact (hf b hh).1 (id.trans same)
  have idle : a.status ≠ .deleting ∧ ¬ (a.status = .ready ∨ a.status = .uploaded) := by simp [creating]
  refine @Sound.change objects objects db db' (some op) a hs (fun row => ?_) (fun row => ?_) ?_ ?_ ?_ ?_ ?_
    ⟨fun _ => ⟨op, rfl, kind, runs⟩, fun status => absurd status idle.1, fun status => absurd status idle.2,
      fun status => absurd status idle.1⟩ fun _ _ _ hh => hh
  · rw [operations, mem_append, mem_singleton, mem_some_iff, eq_comm, and_iff_left_of_imp (ha row)]
  · rw [archives, mem_append, mem_singleton, and_iff_left_of_imp fun hl => (hf row hl).1]
  · rw [operations]
    exact nodup_append_row hs.users users
  · rw [operations]
    exact nodup_append_row hs.jobs jobs
  · rw [archives]
    exact nodup_append_row hs.ids fun row hl => (hf row hl).1
  · rw [archives]
    exact nodup_append_row hs.keys fun row hl => (hf row hl).2
  · rintro _ ⟨⟩
    exact ⟨names, owner, fits⟩

theorem Sound.restore_idle (hs : Sound objects db) (hm : op ∈ db.operations) (hh : a ∈ db.archives)
    (names : a.id = op.archiveId) (kind : op.operation = .restore) :
    a.status ≠ .creating ∧ a.status ≠ .uploaded ∧ a.status ≠ .deleting := by
  have works : ¬ (a.status = .creating ∨ a.status = .uploaded) := by
    intro status
    obtain ⟨one, hl, id, create, _⟩ := hs.working a hh status
    rw [hs.archive_inj hl hm (id.trans names), kind] at create
    cases create
  refine ⟨fun status => works (.inl status), fun status => works (.inr status), fun status => ?_⟩
  obtain ⟨_, hl, id, delete⟩ := hs.deleting a hh status
  rw [hs.archive_inj hl hm (id.trans names), kind] at delete
  cases delete

def retiredArchive (op : Operation) (a : Archive) : Archive :=
  if op.operation = .delete then { a with status := .ready } else a

theorem Sound.retired (hs : Sound objects db) (failed : op.status = .failed) (hf : op.Fits a)
    (swap : Swap db db' op none a (retiredArchive op a)) : Sound objects db' := by
  have others : ∀ row ∈ db.archives,
      row.id ≠ a.id → row.Present objects → row.Present objects := fun _ _ _ hh => hh
  cases kind : op.operation with
  | create =>
    rw [Operation.Fits, kind, failed] at hf
    rw [retiredArchive, kind, if_neg (by simp)] at swap
    refine hs.swap swap (by simp) ⟨?_, ?_, ?_, ?_⟩ others <;> simp [hf]
  | restore =>
    rw [retiredArchive, kind, if_neg (by simp)] at swap
    obtain ⟨creating, uploaded, deleting⟩ := hs.restore_idle swap.operation swap.archive swap.names kind
    refine hs.swap swap (by simp) ⟨?_, ?_, hs.present a swap.archive, ?_⟩ others <;>
      simp [creating, uploaded, deleting]
  | delete =>
    rw [Operation.Fits, kind] at hf
    rw [retiredArchive, kind, if_pos rfl] at swap
    have hp : a.Present objects := by
      refine hs.kept a swap.archive hf fun one hh names => ?_
      rw [hs.archive_inj hh swap.operation (names.trans swap.names)]
      exact failed
    exact hs.swap swap (by simp) ⟨by simp, by simp, fun _ => hp, by simp⟩ others

end Requests

end Yinshi.Backup
