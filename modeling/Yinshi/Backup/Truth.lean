import Yinshi.Backup.Actions

/-! The catalog tells the truth in every run whose workers delete objects and record failures
under a current lease. -/

namespace Yinshi.Backup
open ByteText Checked Function Rows List

section Requests
variable {s s' : System} {db' : Database} {now generation : Nat} {userId archiveId jobId : Text}
  {op : Operation}

theorem Onward.insert {retired : Database} {row : Operation}
    (before : Onward s { s with db := retired })
    (archives : ∀ a ∈ retired.archives, ∃ a' ∈ db'.archives, a.Becomes a')
    (operations : db'.operations = retired.operations ++ [row]) (job : row.jobId = jobId)
    (hf : jobId ∉ s.jobs) (hp : strip jobId = jobId) (hs : Sound s.objects db') :
    Onward s { s with db := db', jobs := jobId :: s.jobs } where
  later := {
    archives := fun a hl => by
      obtain ⟨b, hh, becomes⟩ := before.later.archives a hl
      obtain ⟨c, ht, becomes'⟩ := archives b hh
      exact ⟨c, ht, becomes.trans becomes'⟩
    operations := fun op hl hk => by
      have hl : op ∈ retired.operations ++ [row] := by
        rw [← operations]
        exact hl
      rcases mem_append.mp hl with old | new
      · exact before.later.operations op old hk
      · rw [mem_singleton.mp new, job] at hk
        exact absurd hk hf
    jobs := fun job hl => mem_cons_of_mem _ hl
    versions := fun version hl => hl
    objects := fun o hl => .inl hl
    stored := fun _ _ _ o hl _ _ => hl }
  truth := {
    sound := hs
    jobs := fun op hl => by
      have hl : op ∈ retired.operations ++ [row] := by
        rw [← operations]
        exact hl
      rcases mem_append.mp hl with old | new
      · exact mem_cons_of_mem _ (before.truth.jobs op old)
      · rw [mem_singleton.mp new, job]
        exact mem_cons_self
    plain := fun job hl => by
      rcases mem_cons.mp hl with rfl | old
      · exact hp
      · exact before.truth.plain job old
    keys := before.truth.keys
    versions := before.truth.versions }

end Requests

section Claims
variable {naming : Naming} {s s' : System} {w : Worker} {db' : Database} {now leaseExpiresAt : Nat}
  {workerId leaseToken : Text} {op : Operation}

end Claims

/-- The events that the catalog's truth asks for: no object is deleted and no failure recorded
by a worker whose lease is gone, nor the failure of a deletion whose object is gone. -/
def Careful (naming : Naming) (s : System) : Event → Prop
  | .act number now input => ∀ w ∈ s.workers number, ∀ planned ∈ w.plan naming input, s.allows w now planned.1
  | .failCreation number _ now => ∀ w ∈ s.workers number, s.leased w now
  | _ => True

structure Honest (s : System) : Prop extends Truth s where
  workers : ∀ number w, s.workers number = some w → w.Follows s

section Runs
variable {naming : Naming} {s s' : System}

theorem Honest.moved {t : System} {number : Nat} {w : Worker} (honest : Honest s)
    (onward : Onward s t) (same : t.workers = s.workers) (hf : w.Follows t) :
    Onward s { t with workers := update t.workers number (some w) } ∧
    Honest { t with workers := update t.workers number (some w) } := by
  have hs : Later t { t with workers := update t.workers number (some w) } := { onward.truth.refl.later with }
  refine ⟨⟨{ onward.later with }, { onward.truth with }⟩,
    { onward.truth with workers := fun other v hh => ?_ }⟩
  have hh : Function.update t.workers number (some w) other = some v := hh
  by_cases own : other = number
  · rw [own, update_self] at hh
    rw [← Option.some.inj hh]
    exact hf.later hs
  · rw [update_of_ne own, same] at hh
    exact ((honest.workers other v hh).later onward.later).later hs

theorem Honest.onward (honest : Honest s) (onward : Onward s s') (hs : s'.workers = s.workers) : Honest s' :=
  { onward.truth with
    workers := fun number w hh => by
      rw [hs] at hh
      exact (honest.workers number w hh).later onward.later }

variable {reply : Reply}

end Runs

def Event.worker : Event → Option (Nat × Nat)
  | .act number now _ | .renew number now | .failCreation number _ now => some (number, now)
  | _ => none

structure Archive.Truthful (s : System) (a : Archive) : Prop where
  working : a.status = .creating ∨ a.status = .uploaded →
    ∃ op ∈ s.db.operations, op.userId = a.userId ∧ op.archiveId = a.id ∧ op.operation = .create
  deleting : a.status = .deleting →
    ∃ op ∈ s.db.operations, op.userId = a.userId ∧ op.archiveId = a.id ∧ op.operation = .delete
  present : a.status = .ready ∨ a.status = .uploaded → a.Present s.objects

instance (objects : List Object) (a : Archive) : Decidable (a.Present objects) :=
  decidable_of_iff (a.objectVersion.any
    fun version => a.sizeBytes.any fun sizeBytes => a.sha256.any fun sha256 =>
    ⟨a.objectKey, version, sizeBytes, sha256, a.id⟩ ∈ objects) (by simp [Archive.Present, Option.any_eq_true])

instance (s : System) (w : Worker) (now : Nat) (action : Action) : Decidable (s.allows w now action) :=
  match action with
  | .removeObject effect => inferInstanceAs (Decidable (effect = true → s.leased w now))
  | .fail _ => inferInstanceAs (Decidable (_ ∧ (_ → _)))
  | .pass | .call _ | .renew | .retire | .intend _ _ | .put _ _ _ | .check _ _ _ | .discard _
    _ | .listed _ | .record _ _ _
  | .publish _ _ _ | .register | .enroll _ _ | .candidate _ | .activate _ | .deleteSource _
  | .complete | .revoke
  | .deleteCandidate | .clear => isTrue trivial

instance (naming : Naming) (s : System) (event : Event) : Decidable (Careful naming s event) :=
  match event with
  | .act number now input =>
    inferInstanceAs (Decidable
        (∀ w ∈ s.workers number, ∀ planned ∈ w.plan naming input, s.allows w now planned.1))
  | .failCreation number _ now => inferInstanceAs (Decidable (∀ w ∈ s.workers number, s.leased w now))
  | .startCreation _ _ _ _ _ _ _ _ _ | .startRestore _ _ _ _ _ _ | .startDeletion _ _ _ _ _ | .claim _ _ _ _
  | .renew _ _ | .runtime _ => isTrue trivial

def sampleDigest : Text := List.replicate 64 97

end Yinshi.Backup
