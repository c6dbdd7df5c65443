import Yinshi.Backup.Progress

/-! Every transaction keeps the tables consistent with the store, given what the worker that
runs it has read. -/

namespace Yinshi.Backup
open ByteText Checked Function Rows List Option

namespace System

def leased (s : System) (w : Worker) (now : Nat) : Prop :=
  ∃ op ∈ s.db.operations, op.held w.operation.jobId w.token w.operation.runtimeGeneration now

instance (s : System) (w : Worker) (now : Nat) : Decidable (s.leased w now) :=
  inferInstanceAs (Decidable (∃ _ ∈ _, _))

end System

section Transactions
variable {s s' : System} {w : Worker} {db' : Database} {op : Operation} {op' : Option Operation}
  {a a' : Archive} {now : Nat} {reply : Reply} {result : Except BackupError (Database × Bool)}

theorem Truth.refl (ht : Truth s) : Onward s s := ht.untouched (.refl s.db) rfl rfl rfl

theorem Truth.settle (ht : Truth s) (hd : s.settle result = (s', reply))
    (onward : ∀ db' changed, result = .ok (db', changed) → Onward s { s with db := db' }) :
    Onward s s' := by
  match result with
  | .error error =>
    cases hd
    exact ht.refl
  | .ok (db', changed) =>
    cases hd
    exact onward db' changed rfl

theorem Sound.rewrite {objects : List Object} {db : Database} {new : Operation}
    (hs : Sound objects db) (swap : Swap db db' op (some new) a a) (hf : new.Fits a)
    (status : new.status = op.status) : Sound objects db' := by
  have kind : new.operation = op.operation := (swap.same new rfl).2.2.2.1
  have only : ∀ one ∈ db.operations, one.archiveId = a.id → one = op := fun one hl names =>
    hs.archive_inj hl swap.operation (names.trans swap.names)
  refine hs.swap swap ?_ ⟨?_, ?_, hs.present a swap.archive, ?_⟩ fun _ _ _ hh => hh
  · intro one hh
    rw [← mem_some_iff.mp hh]
    exact hf
  · intro early
    obtain ⟨one, hl, names, create, runs⟩ := hs.working a swap.archive early
    obtain rfl := only one hl names
    exact ⟨new, rfl, kind.trans create, status.trans runs⟩
  · intro deleting
    obtain ⟨one, hl, names, deletes⟩ := hs.deleting a swap.archive deleting
    obtain rfl := only one hl names
    exact ⟨new, rfl, kind.trans deletes⟩
  · intro deleting failed
    refine hs.kept a swap.archive deleting fun one hl names => ?_
    rw [only one hl names, ← status]
    exact failed new rfl

theorem Worker.Reads.archive {fact : Archive → Prop} (sound : Sound s.objects s.db)
    (reads : w.Reads s fact) (hf : w.Follows s) (hm : op ∈ s.db.operations)
    (job : op.jobId = w.operation.jobId) (here : a ∈ s.db.archives) (names : a.id = op.archiveId) :
    a.objectKey = System.objectKey w ∧ fact a := by
  obtain ⟨b, ht, id, key, hh⟩ := reads
  have hs : b = a := by
    refine sound.id_inj ht here ?_
    rw [id, names, (hf.work op hm job).2.2.1]
  rw [← hs]
  exact ⟨key, hh⟩

theorem Operation.Fits.create (hf : op.Fits a) (kind : op.operation = .create)
    (runs : op.status = .running) :
    a.runtimeGeneration = op.runtimeGeneration ∧
    (a.status = .creating ∧ a.objectVersion = none ∧ op.phase = .claimed ∧ a.sizeBytes = none ∧
      a.sha256 = none ∨
      a.status = .creating ∧ a.objectVersion = none ∧ op.phase ≠ .claimed ∧ a.sizeBytes ≠ none ∧
      a.sha256 ≠ none ∨ a.status = .uploaded ∧ op.phase ≠ .claimed) := by
  rw [Operation.Fits, kind, runs] at hf
  exact hf

end Transactions

section Creation
variable {s : System} {w : Worker} {db' : Database} {now sizeBytes : Nat} {sha256 version : Text}
  {changed : Bool}

end Creation

section Deletion
variable {s : System} {w : Worker} {db' : Database} {now generation : Nat}
  {userId jobId leaseToken : Text} {changed : Bool}

end Deletion

section Store
variable {s s' : System} {w : Worker} {now sizeBytes : Nat} {sha256 version key : Text} {reply : Reply}
variable {effect : Bool}

end Store

section Others
variable {db db' : Database} {userId jobId spriteName freshId tokenHash runnerId : Text} {changed : Bool}
variable {now : Nat}

end Others

end Yinshi.Backup
