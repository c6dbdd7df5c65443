import Yinshi.Backup.Changes

/-! What the steps of other parties leave of the facts a worker has read. Archives only move
forward, and job identifiers and object versions are never given out again. -/

namespace Yinshi.Backup
open ByteText Function Rows

structure Archive.Becomes (a a' : Archive) : Prop where
  id : a'.id = a.id
  key : a'.objectKey = a.objectKey
  final : a.status = .deleted ∨ a.status = .failed → a' = a
  sized : a'.status = .deleted ∨ ∀ sizeBytes sha256, a.sizeBytes = some sizeBytes ∧
    a.sha256 = some sha256 → a'.sizeBytes = some sizeBytes ∧ a'.sha256 = some sha256
  early : a'.status = .creating ∨ a'.status = .uploaded → a.status = .creating ∨ a.status = .uploaded

theorem Archive.Becomes.refl (a : Archive) : a.Becomes a where
  id := rfl
  key := rfl
  final _ := rfl
  sized := .inr fun _ _ hs => hs
  early status := status

theorem Archive.Becomes.trans {a b c : Archive} (first : a.Becomes b) (second : b.Becomes c) :
    a.Becomes c where
  id := second.id.trans first.id
  key := second.key.trans first.key
  final done := by
    have hs := first.final done
    rw [← hs] at done
    exact (second.final done).trans hs
  sized := by
    rcases second.sized with gone | hk
    · exact .inl gone
    · rcases first.sized with gone | hk'
      · left
        rw [second.final (.inl gone)]
        exact gone
      · exact .inr fun size sha had => hk size sha (hk' size sha had)
  early status := first.early (second.early status)

def Operation.SameWork (op op' : Operation) : Prop :=
  op'.jobId = op.jobId ∧ op'.userId = op.userId ∧ op'.archiveId = op.archiveId ∧
    op'.operation = op.operation ∧ op'.runtimeGeneration = op.runtimeGeneration

theorem Operation.SameWork.refl (op : Operation) : op.SameWork op := ⟨rfl, rfl, rfl, rfl, rfl⟩

theorem Operation.SameWork.trans {op op' op'' : Operation} (first : op.SameWork op')
    (second : op'.SameWork op'') : op.SameWork op'' :=
  ⟨second.1.trans first.1, second.2.1.trans first.2.1, second.2.2.1.trans first.2.2.1,
    second.2.2.2.1.trans first.2.2.2.1, second.2.2.2.2.trans first.2.2.2.2⟩

structure Evolves (jobs : List Text) (db db' : Database) : Prop where
  archives : ∀ a ∈ db.archives, ∃ a' ∈ db'.archives, a.Becomes a'
  operations : ∀ op' ∈ db'.operations, op'.jobId ∈ jobs → ∃ op ∈ db.operations, op.SameWork op'

section Evolves
variable {jobs : List Text} {db db' db'' : Database} {op : Operation} {op' : Option Operation}
  {a a' : Archive}

theorem Evolves.untouched (hs : Untouched db db') : Evolves jobs db db' where
  archives a listed := ⟨a, by rw [hs.1]; exact listed, .refl a⟩
  operations op listed _ := ⟨op, by rw [← hs.2]; exact listed, .refl op⟩

theorem ArchiveSwap.becomes {rows rows' : List Archive} (swap : ArchiveSwap rows rows' a a')
    (becomes : a.Becomes a') :
    ∀ row ∈ rows,
      (∀ other ∈ rows, other.id = a.id → other = a) → ∃ row' ∈ rows', row.Becomes row' := by
  intro row hl only
  by_cases hs : row.id = a.id
  · rw [only row hl hs]
    exact ⟨a', (swap.archives a').mpr (.inr rfl), becomes⟩
  · exact ⟨row, (swap.archives row).mpr (.inl ⟨hl, hs⟩), .refl row⟩

theorem OperationSwap.sameWork {rows rows' : List Operation}
    (swap : OperationSwap rows rows' op op') : ∀ row' ∈ rows', ∃ row ∈ rows, row.SameWork row' := by
  intro row' hl
  rcases (swap.operations row').mp hl with ⟨hh, _⟩ | new
  · exact ⟨row', hh, .refl row'⟩
  · obtain ⟨user, job, archive, kind, generation⟩ := swap.same row' new
    exact ⟨op, swap.operation, job, user, archive, kind, generation⟩

theorem Evolves.swap {objects : List Object} (sound : Sound objects db)
    (swap : Swap db db' op op' a a') (becomes : a.Becomes a') : Evolves jobs db db' where
  archives row listed :=
    swap.toArchiveSwap.becomes becomes row listed fun _ hh hs => sound.id_inj hh swap.archive hs
  operations row listed _ := swap.toOperationSwap.sameWork row listed

end Evolves

structure Later (s s' : System) : Prop extends Evolves s.jobs s.db s'.db where
  jobs : ∀ job ∈ s.jobs, job ∈ s'.jobs
  versions : ∀ version ∈ s.versions, version ∈ s'.versions
  objects : ∀ o ∈ s'.objects, o ∈ s.objects ∨ (o.key, o.version) ∉ s.versions
  stored : ∀ a ∈ s'.db.archives,
      a.status = .creating ∨ a.status = .uploaded → ∀ o ∈ s.objects, o.key = a.objectKey →
    a.sizeBytes = some o.sizeBytes ∧ a.sha256 = some o.sha256 → o ∈ s'.objects

structure Truth (s : System) : Prop where
  sound : Sound s.objects s.db
  jobs : ∀ op ∈ s.db.operations, op.jobId ∈ s.jobs
  plain : ∀ job ∈ s.jobs, strip job = job
  keys : ∀ o ∈ s.objects, ∀ o' ∈ s.objects, o.key = o'.key → o = o'
  versions : ∀ o ∈ s.objects, (o.key, o.version) ∈ s.versions

structure Onward (s s' : System) : Prop where
  later : Later s s'
  truth : Truth s'

section Onward
variable {s s' : System} {db' : Database} {op : Operation} {op' : Option Operation} {a a' : Archive}

theorem Truth.commit (ht : Truth s) (evolves : Evolves s.jobs s.db s'.db)
    (hs : Sound s'.objects s'.db) (objects : s'.objects = s.objects) (jobs : s'.jobs = s.jobs)
    (versions : s'.versions = s.versions) (hk : ∀ op ∈ s'.db.operations, op.jobId ∈ s.jobs) :
    Onward s s' where
  later := {
    evolves with
    jobs := fun job hl => by rw [jobs]; exact hl
    versions := fun version hl => by rw [versions]; exact hl
    objects := fun o hl => .inl (by rw [← objects]; exact hl)
    stored := fun _ _ _ o hl _ _ => by rw [objects]; exact hl }
  truth := {
    sound := hs
    jobs := by
      rw [jobs]
      exact hk
    plain := by
      rw [jobs]
      exact ht.plain
    keys := by
      rw [objects]
      exact ht.keys
    versions := by
      rw [objects, versions]
      exact ht.versions }

theorem Sound.untouched {objects : List Object} {db : Database} (hs : Sound objects db)
    (same : Untouched db db') : Sound objects db' := by
  obtain ⟨archives, operations⟩ := same
  constructor <;> simp only [archives, operations]
  · exact hs.users
  · exact hs.jobs
  · exact hs.ids
  · exact hs.keys
  · exact hs.named
  · exact hs.working
  · exact hs.deleting
  · exact hs.present
  · exact hs.kept

theorem Sound.objects {objects objects' : List Object} {db : Database} (hs : Sound objects db)
    (hk : ∀ a ∈ db.archives, a.status ≠ .deleted → a.Present objects → a.Present objects') :
    Sound objects' db :=
  { hs with
    present := fun a hl status => by
      refine hk a hl ?_ (hs.present a hl status)
      rcases status with status | status <;> simp [status]
    kept := fun a hl status failed => hk a hl (by simp [status]) (hs.kept a hl status failed) }

theorem Truth.untouched (ht : Truth s) (hs : Untouched s.db s'.db)
    (objects : s'.objects = s.objects) (jobs : s'.jobs = s.jobs)
    (versions : s'.versions = s.versions) : Onward s s' :=
  ht.commit (.untouched hs) (by rw [objects]; exact ht.sound.untouched hs) objects jobs versions
    (by rw [hs.2]; exact ht.jobs)

theorem Truth.swap (ht : Truth s) (swap : Swap s.db db' op op' a a') (becomes : a.Becomes a')
    (hso : Sound s.objects db') : Onward s { s with db := db' } := by
  refine ht.commit (.swap ht.sound swap becomes) hso rfl rfl rfl fun row hl => ?_
  obtain ⟨old, hh, hs⟩ := swap.toOperationSwap.sameWork row hl
  rw [hs.1]
  exact ht.jobs old hh

end Onward

namespace Worker
variable (s : System) (w : Worker)

/-- The archive of the worker's job, under the key that the worker uses, is as `fact` says. -/
def Reads (fact : Archive → Prop) : Prop :=
  ∃ a ∈ s.db.archives, a.id = w.operation.archiveId ∧ a.objectKey = System.objectKey w ∧ fact a

def Knows : Prop := w.Reads s fun _ => True

def Expects (sizeBytes : Nat) (sha256 : Text) : Prop :=
  w.Reads s fun a => a.status = .deleted ∨ a.sizeBytes = some sizeBytes ∧ a.sha256 = some sha256

def Stored (version : Text) (sizeBytes : Nat) (sha256 : Text) : Prop :=
  w.Reads s fun a => (a.status = .deleted ∨ a.sizeBytes = some sizeBytes ∧ a.sha256 = some sha256) ∧
    (a.status = .creating ∨ a.status = .uploaded →
      ⟨a.objectKey, version, sizeBytes, sha256, a.id⟩ ∈ s.objects)

def Rejects (version : Text) (sizeBytes : Nat) (sha256 : Text) : Prop :=
  (System.objectKey w, version) ∈ s.versions ∧
    ∀ o ∈ s.objects, o.key = System.objectKey w → o.version = version →
    ¬ (o.sizeBytes = sizeBytes ∧ o.sha256 = sha256)

def Holds : Stage → Prop
  | .dispatching | .ended | .mending => True
  | .calling _ after stopped => Holds after ∧ Holds stopped
  | .failing _ => w.operation.operation ≠ .create
  | .retiring => w.operation.operation = .delete
  | .removing => w.operation.operation = .delete ∧ w.Knows s
  | .quiescing | .building | .downloading _ _ | .intending _ _ => w.Knows s
  | .uploading _ sizeBytes sha256 | .confirming _ _ sizeBytes sha256 | .reconciling _ sizeBytes sha256
  | .renewing sizeBytes sha256 | .aborting sizeBytes sha256 | .preserving sizeBytes sha256 =>
    w.Expects s sizeBytes sha256
  | .discarding _ version sizeBytes sha256 =>
    w.Expects s sizeBytes sha256 ∧ w.Rejects s version sizeBytes sha256
  | .stored _ version sizeBytes sha256 | .publishing _ version sizeBytes sha256 =>
    w.Stored s version sizeBytes sha256
  | .provisioning | .enrolling | .installing _ | .recording _ | .preparing _ | .activating
    _ | .finishing | .completing
  | .revoking _ | .dropping _ | .clearing _ => w.operation.operation = .restore

structure Follows : Prop where
  job : w.operation.jobId ∈ s.jobs
  plain : strip w.token = w.token
  work : ∀ op ∈ s.db.operations, op.jobId = w.operation.jobId → w.operation.SameWork op
  stage : w.Holds s w.stage

variable {s} {w} {s' : System} {version sha256 : Text} {sizeBytes : Nat} {fact fact' : Archive → Prop}

theorem Reads.later (reads : w.Reads s fact) (later : Later s s')
    (hk : ∀ a, ∀ a' ∈ s'.db.archives, a.Becomes a' → fact a → fact' a') : w.Reads s' fact' := by
  obtain ⟨a, hl, id, key, holds⟩ := reads
  obtain ⟨a', hh, becomes⟩ := later.archives a hl
  exact ⟨a', hh, becomes.id.trans id, becomes.key.trans key, hk a a' hh becomes holds⟩

theorem described_later {a a' : Archive} (becomes : a.Becomes a')
    (described : a.status = .deleted ∨ a.sizeBytes = some sizeBytes ∧ a.sha256 = some sha256) :
    a'.status = .deleted ∨ a'.sizeBytes = some sizeBytes ∧ a'.sha256 = some sha256 := by
  rcases described with gone | hs
  · rw [becomes.final (.inl gone)]
    exact .inl gone
  · exact becomes.sized.imp id fun hk => hk sizeBytes sha256 hs

theorem Knows.later (knows : w.Knows s) (later : Later s s') : w.Knows s' :=
  Reads.later knows later fun _ _ _ _ => id

theorem Expects.later (expects : w.Expects s sizeBytes sha256) (later : Later s s') :
    w.Expects s' sizeBytes sha256 :=
  Reads.later expects later fun _ _ _ becomes => described_later becomes

theorem Stored.later (hs : w.Stored s version sizeBytes sha256) (later : Later s s') :
    w.Stored s' version sizeBytes sha256 := by
  refine Reads.later hs later fun a a' here becomes hh => ?_
  have described := described_later becomes hh.1
  refine ⟨described, fun early => ?_⟩
  have object := hh.2 (becomes.early early)
  rw [becomes.id, becomes.key]
  refine later.stored a' here early _ object becomes.key.symm (described.resolve_left ?_)
  rcases early with status | status <;> simp [status]

theorem Rejects.later (rejects : w.Rejects s version sizeBytes sha256) (later : Later s s') :
    w.Rejects s' version sizeBytes sha256 := by
  refine ⟨later.versions _ rejects.1, fun o hl key hs => ?_⟩
  rcases later.objects o hl with old | hf
  · exact rejects.2 o old key hs
  · rw [key, hs] at hf
    exact absurd rejects.1 hf

theorem Holds.later {stage : Stage} (hh : w.Holds s stage) (later : Later s s') : w.Holds s' stage := by
  induction stage with
  | calling _ _ _ first second => exact ⟨first hh.1, second hh.2⟩
  | removing => exact ⟨hh.1, Knows.later hh.2 later⟩
  | quiescing | building | downloading | intending => exact Knows.later hh later
  | uploading | confirming | reconciling | renewing | aborting | preserving => exact Expects.later hh later
  | discarding => exact ⟨Expects.later hh.1 later, Rejects.later hh.2 later⟩
  | stored | publishing => exact Stored.later hh later
  | _ => exact hh

theorem Follows.later (hf : w.Follows s) (later : Later s s') : w.Follows s' where
  job := later.jobs _ hf.job
  plain := hf.plain
  work op' listed job := by
    obtain ⟨op, hh, hs⟩ := later.operations op' listed (by rw [job]; exact hf.job)
    exact (hf.work op hh (hs.1.symm.trans job)).trans hs
  stage := Holds.later hf.stage later

end Worker

end Yinshi.Backup
