import Mathlib.Logic.Function.Basic
import Yinshi.Base.Faulty

/-! The state root of a managed guest: the live roots, the journal of a restore under its two
names, and the steps of a restore. -/

namespace Yinshi.Guest
open Faulty Function

inductive Root
  | sqlite
  | files
  deriving DecidableEq

def roots : List Root := [.sqlite, .files]

/-- The entries below a directory; a removal takes them in any order. -/
abbrev Tree (π : Type) : Type := List π

inductive Phase
  | prepared
  | oldSqliteMoved
  | oldRootsMoved
  | newSqliteInstalled

structure Journal (π : Type) where
  /-- `state.json`, and the file that replaces it. -/
  phase : Option Phase := none
  temporary : Bool := false
  rollback : Bool := false
  /-- `rollback/<root>` and `failed-<root>`. -/
  kept : Root → Option (Tree π) := fun _ => none
  failed : Root → Option (Tree π) := fun _ => none

structure StateRoot (π : Type) where
  live : Root → Option (Tree π)
  preparation : Option (Journal π) := none
  transaction : Option (Journal π) := none
  cleanup : Option (Journal π) := none
  /-- The staging directory of the running call; a stopped call leaves it under a name of its
  own. -/
  staged : Root → Option (Tree π) := fun _ => none
  /-- The trees of the last commit. -/
  generation : Root → Tree π

inductive Error
  | value
  | exists
  | runtime
  | os
  | other
  deriving DecidableEq

inductive Step
  | removeCleanup
  | recoverMove
  | removeJournal
  | mkdtemp
  | decrypt
  | extract
  | sync
  | mkdir
  | writeState
  | publish
  | removePreparation
  | moveRoot
  | commit
  | commitSync
  | removeCommitted
  | discardStage
  | removeStage
  deriving DecidableEq

section Removals
variable {π : Type}

def treeRemovals : Option (Tree π) → List (Option (Tree π))
  | none => []
  | some [] => [none]
  | some (x :: xs) => (List.range (xs.length + 1)).map fun position => some ((x :: xs).eraseIdx position)

def treeSize : Option (Tree π) → Nat
  | none => 0
  | some tree => tree.length + 1

def slotRemovals (trees : Root → Option (Tree π)) : List (Root → Option (Tree π)) :=
  roots.flatMap fun root => (treeRemovals (trees root)).map fun left => update trees root left

def slotSize (trees : Root → Option (Tree π)) : Nat := treeSize (trees .sqlite) + treeSize (trees .files)

namespace Journal

def removals (j : Journal π) : List (Journal π) :=
  (if j.phase.isSome then [{ j with phase := none }] else []) ++
    (if j.temporary then [{ j with temporary := false }] else []) ++
    (slotRemovals j.kept).map (fun kept => { j with kept := kept }) ++
    (slotRemovals j.failed).map (fun failed => { j with failed := failed }) ++
    (if j.rollback ∧ slotSize j.kept = 0 then [{ j with rollback := false }] else [])

def size (j : Journal π) : Nat :=
  (if j.phase.isSome then 1 else 0) + (if j.temporary then 1 else 0) + slotSize j.kept + slotSize j.failed +
    if j.rollback then 1 else 0

end Journal
end Removals

abbrev Restoring (π α : Type) : Type := Prog Step Error (StateRoot π) α

namespace Restoring
open Prog
variable {π : Type}

def removeTree (label : Step) (journal : StateRoot π → Option (Journal π))
    (put : StateRoot π → Option (Journal π) → StateRoot π) : Restoring π Unit := do
  let removals := fun s => ((journal s).map fun j => j.removals.map fun left => put s (some left)).getD []
  drain label removals (← look fun s => ((journal s).map Journal.size).getD 0)
  act label fun _ s => if (removals s).isEmpty then .ok ((), put s none) else .error .os

def removeRestoreCleanup (label : Step) : Restoring π Unit := do
  onlyIf (← look (·.cleanup.isSome)) do
    removeTree label (·.cleanup) fun s cleanup => { s with cleanup := cleanup }
    touch label

/-- `_write_restore_state` of the journal that `edit` changes. -/
def writeRestoreState (edit : (Journal π → Journal π) → StateRoot π → StateRoot π) (phase : Phase) :
    Restoring π Unit := do
  change .writeState (edit fun j => { j with temporary := true })
  touch .sync
  touch .sync
  change .writeState (edit fun j => { j with phase := some phase, temporary := false })
  touch .sync

def onPreparation (edit : Journal π → Journal π) (s : StateRoot π) : StateRoot π :=
  { s with preparation := s.preparation.map edit }

def onTransaction (edit : Journal π → Journal π) (s : StateRoot π) : StateRoot π :=
  { s with transaction := s.transaction.map edit }

def publishRestoreTransaction : Restoring π Unit := do
  onlyIf (← look (·.transaction.isSome)) (raise .exists)
  change .mkdtemp fun s => { s with preparation := some {} }
  attempt (do
    change .mkdir (onPreparation fun j => { j with rollback := true })
    writeRestoreState onPreparation .prepared
    touch .sync
    change .publish fun s => { s with transaction := s.preparation, preparation := none }
    touch .sync) fun error => do
      onlyIf (← look (·.preparation.isSome))
        (removeTree .removePreparation (·.preparation)
          fun s preparation => { s with preparation := preparation })
      raise error
  onlyIf (← look (·.transaction.isNone)) (raise .runtime)

def putAside (root : Root) (s : StateRoot π) : StateRoot π :=
  { onTransaction (fun j => { j with failed := update j.failed root (s.live root) }) s with
    live := update s.live root none }

def putBack (root : Root) (s : StateRoot π) : StateRoot π :=
  { onTransaction (fun j => { j with kept := update j.kept root none }) s with
    live := update s.live root (s.transaction.bind (·.kept root)) }

def keepRoot (root : Root) (s : StateRoot π) : StateRoot π :=
  { onTransaction (fun j => { j with kept := update j.kept root (s.live root) }) s with
    live := update s.live root none }

def installRoot (root : Root) (s : StateRoot π) : StateRoot π :=
  { s with live := update s.live root (s.staged root), staged := update s.staged root none }

def recoverRoot (root : Root) : Restoring π Unit := do
  onlyIf (← look fun s => s.transaction.any fun j => (j.kept root).isSome) do
    onlyIf (← look fun s => (s.live root).isSome) do
      drain .recoverMove (fun s => (s.transaction.map fun j => (treeRemovals (j.failed root)).map fun left =>
          onTransaction (fun j => { j with failed := update j.failed root left }) s).getD [])
        (← look fun s => (s.transaction.map fun j => treeSize (j.failed root)).getD 0)
      change .recoverMove (putAside root)
    change .recoverMove (putBack root)
    touch .recoverMove

def recoverRestoreTransaction : Restoring π Unit := do
  onlyIf (← look (·.transaction.isSome)) do
    onlyIf (← look fun s => s.transaction.any (·.phase.isNone)) (raise .value)
    each recoverRoot roots
    onlyIf (← look fun s => roots.any fun root => (s.live root).isNone) (raise .value)
    removeTree .removeJournal (·.transaction) fun s transaction => { s with transaction := transaction }
    touch .sync

def removeStage (label : Step) : Restoring π Unit := do
  drain label (fun s => (slotRemovals s.staged).map fun staged => { s with staged := staged })
    (← look (slotSize ·.staged))
  touch label

def moveRoots : Restoring π Unit := do
  change .moveRoot (keepRoot .sqlite)
  touch .sync
  writeRestoreState onTransaction .oldSqliteMoved
  change .moveRoot (keepRoot .files)
  touch .sync
  writeRestoreState onTransaction .oldRootsMoved
  change .moveRoot (installRoot .sqlite)
  touch .sync
  writeRestoreState onTransaction .newSqliteInstalled
  change .moveRoot (installRoot .files)
  touch .sync

def commitRestore : Restoring π Bool := do
  onlyIf (← look (·.cleanup.isSome)) (raise .exists)
  change .commit fun s =>
    { s with cleanup := s.transaction, transaction := none, generation := fun root => (s.live root).getD [] }
  touch .commitSync
  attempt (do
    removeRestoreCleanup .removeCommitted
    pure false) fun error => if error = .os then pure true else raise error

def replaceRoots (archive : Option (Root → Tree π)) : Restoring π Bool := do
  touch .decrypt
  match archive with
  | none => raise .value
  | some trees =>
    change .extract fun s => { s with staged := fun root => some (trees root) }
    touch .sync
    publishRestoreTransaction
    attempt moveRoots fun error => do
      recoverRestoreTransaction
      raise error
    commitRestore

/-- `restore_managed_backup_archive`: `archive` holds what decryption and inspection accept, and
the result says whether the cleanup is pending. -/
def restoreManagedBackupArchive (archive : Option (Root → Tree π)) : Restoring π Bool := do
  removeRestoreCleanup .removeCleanup
  recoverRestoreTransaction
  onlyIf (← look fun s => roots.any fun root => (s.live root).isNone) (raise .value)
  change .mkdtemp fun s => { s with staged := fun _ => none }
  let pending ← attempt (replaceRoots archive) fun error => do
    removeStage .discardStage
    raise error
  removeStage .removeStage
  pure pending

end Restoring
end Yinshi.Guest
