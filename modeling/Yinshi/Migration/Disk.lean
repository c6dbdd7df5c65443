import Yinshi.Base.Faulty

/-! The files of one database under their names, and the steps that the two openers share. -/

namespace Yinshi.Migration
open Faulty

inductive Error
  | unavailable
  | keyOrFormat
  | encryption
  | runtime
  | value
  | os
  | database
  deriving DecidableEq

def Error.isRuntime : Error → Bool
  | .unavailable | .keyOrFormat | .encryption | .runtime => true
  | .value | .os | .database => false

def Error.isEncryptionOrOs : Error → Bool
  | .encryption | .os => true
  | _ => false

inductive Step
  | probe
  | load
  | connect
  | schema
  | checkpoint
  | integrity
  | attach
  | copyOut
  | detach
  | close
  | validate
  | compare
  | chmod
  | fsync
  | syncDirectory
  | unlink
  | replace
  | createRollback
  | openSource
  | writeRollback
  | closeRollback
  | removePartial

inductive Content (ρ : Type)
  | fragment (length : Nat)
  | database (encrypted : Bool) (rows : ρ)

structure File (ρ : Type) where
  identity : Nat
  content : Content ρ

def File.encrypted {ρ : Type} (file : File ρ) : Bool :=
  match file.content with
  | .database encrypted _ => encrypted
  | .fragment _ => false

def File.isPlaintext {ρ : Type} (file : File ρ) : Bool :=
  match file.content with
  | .database encrypted _ => !encrypted
  | .fragment _ => false

def File.hasPlaintextHeader {ρ : Type} (file : File ρ) : Bool :=
  match file.content with
  | .database encrypted _ => !encrypted
  | .fragment length => 0 < length

structure Disk (ρ : Type) where
  primary : Option (File ρ)
  /-- The WAL of the primary, with the rows of its last commit when it holds frames. -/
  wal : Option (Option ρ) := none
  shm : Bool := false
  rollback : Option (File ρ) := none
  temporary : Option (File ρ) := none
  temporaryWal : Bool := false
  temporaryShm : Bool := false
  backups : List Nat := []
  identities : Nat := 0
  /-- How many WAL files have lost their name; SQLite creates the next one under it. -/
  unlinkedWals : Nat := 0
  /-- An encrypted primary was made durable under its name. -/
  installed : Bool := false

/-- A returned connection: the file and the WAL that it has open, and how it reads the file. -/
structure Connection where
  identity : Nat
  encrypted : Bool
  wal : Nat

namespace Disk
variable {ρ : Type} (d : Disk ρ)

def visible : Option ρ :=
  match d.primary with
  | some ⟨_, .database _ rows⟩ => some (match d.wal with | some (some newer) => newer | _ => rows)
  | _ => none

/-- The rows that a connection reads under the name of the primary. -/
def reads (connection : Connection) : Option ρ :=
  if d.primary.any
    fun file =>
      file.identity = connection.identity ∧ file.encrypted = connection.encrypted then d.visible
  else none

def syncDirectory : Disk ρ := { d with installed := d.installed || d.primary.any File.encrypted }

/-- SQLite moves the frames of the WAL into the primary. -/
def checkpoint : Disk ρ :=
  match d.primary, d.wal with
  | some ⟨identity, .database encrypted _⟩, some (some newer) =>
    { d with primary := some ⟨identity, .database encrypted newer⟩, wal := some none }
  | _, _ => d

def settle : Disk ρ := { d.checkpoint with wal := none, shm := false }

/-- `sqlite3.connect`: a missing or empty file becomes an empty database. -/
def connect [Inhabited ρ] (encrypted : Bool) : Connection × Disk ρ :=
  match d.primary with
  | some ⟨identity, .fragment 0⟩ =>
    (⟨identity, encrypted, d.unlinkedWals⟩,
      { d with primary := some ⟨identity, .database encrypted default⟩ })
  | some file => (⟨file.identity, encrypted, d.unlinkedWals⟩, d)
  | none =>
    (⟨d.identities, encrypted, d.unlinkedWals⟩,
      { d with primary := some ⟨d.identities, .database encrypted default⟩, identities := d.identities + 1 })

end Disk

abbrev Opening (ρ α : Type) : Type := Prog Step Error (Disk ρ) α

namespace Opening
open Prog
variable {ρ : Type} [Inhabited ρ] [DecidableEq ρ]

def openConnection : Opening ρ Connection := act .connect fun _ d => .ok (d.connect false)

/-- `_open_sqlcipher_connection` and `_open_keyed_connection`, which read the schema. -/
def openSqlcipherConnection (refusal : Error) : Opening ρ Connection := act .connect fun _ d =>
  let opened := d.connect true
  if (opened.2.reads opened.1).isSome then .ok opened else .error refusal

def syncDirectory : Opening ρ Unit := change .syncDirectory Disk.syncDirectory

def recoverPlaintextMigrationRollback : Opening ρ Unit := do
  onlyIf (← look (·.primary.isNone)) do
    touch .probe
    onlyIf (← look (·.rollback.isSome)) do
      ensure (do
        touch .fsync
        onlyIf (← look (·.primary.isNone)) do
          touch .probe
          change .replace fun d => { d with primary := d.rollback, rollback := none }
          touch .chmod
          touch .fsync
          syncDirectory) (touch .close)

def removeValidatedMigrationRollback : Opening ρ Unit := do
  onlyIf (← look (·.rollback.isSome)) do
    touch .fsync
    syncDirectory
    change .unlink fun d => { d with rollback := none }
    syncDirectory

def removeSqliteSidecars : Opening ρ Unit := do
  let wal ← look (·.wal.isSome)
  onlyIf wal (change .unlink fun d => { d with wal := none, unlinkedWals := d.unlinkedWals + 1 })
  let shm ← look (·.shm)
  onlyIf shm (change .unlink fun d => { d with shm := false })
  onlyIf (wal || shm) syncDirectory

def removeTemporaries (after : Opening ρ Unit) : Opening ρ Unit := do
  onlyIf (← look (·.temporary.isSome)) do
    change .unlink fun d => { d with temporary := none }
    after
  onlyIf (← look (·.temporaryWal)) do
    change .unlink fun d => { d with temporaryWal := false }
    after
  onlyIf (← look (·.temporaryShm)) do
    change .unlink fun d => { d with temporaryShm := false }
    after

def tryRemoveTemporaries : Opening ρ Unit := do
  let logged : Error → Opening ρ Unit := fun error => if error = .os then pure () else raise error
  attempt (do onlyIf (← look (·.temporary.isSome)) (change .unlink fun d => { d with temporary := none })) logged
  attempt (do onlyIf (← look (·.temporaryWal)) (change .unlink fun d => { d with temporaryWal := false })) logged
  attempt (do onlyIf (← look (·.temporaryShm)) (change .unlink fun d => { d with temporaryShm := false })) logged

/-- A connection closes; SQLite settles the primary unless another connection has it open. -/
def closeConnection : Opening ρ Unit := act .close fun choice d => .ok ((), if choice = 0 then d else d.settle)

def sqlcipherExport (refusal : Error) : Opening ρ Unit :=
  ensure (act .copyOut fun _ d =>
    match d.temporary, d.visible with
    | some file, some rows =>
      .ok ((), { d with temporary := some { file with content := .database true rows } })
    | _, _ => .error refusal) (touch .detach)

def exportDatabase (refusal : Error) : Opening ρ Unit := do
  touch .connect
  ensure (do
    change .checkpoint Disk.checkpoint
    touch .integrity
    act .attach fun choice d => .ok ((), { d with
      temporary := some ⟨d.identities, .fragment 0⟩, identities := d.identities + 1
      temporaryWal := choice % 2 = 1, temporaryShm := choice / 2 % 2 = 1 })
    sqlcipherExport refusal)
    closeConnection

/-- `_create_private_rollback_copy`; the environment chooses the number of its chunks. -/
def createPrivateRollbackCopy : Opening ρ Unit := do
  let chunks ← act .createRollback fun choice d => .ok (choice, { d with
    rollback := some ⟨d.identities, .fragment 0⟩, identities := d.identities + 1 })
  let removePartial : Opening ρ Unit := do
    onlyIf (← look (·.rollback.isSome)) (change .removePartial fun d => { d with rollback := none })
  attempt (touch .openSource) fun error => do
    touch .removePartial
    removePartial
    raise error
  attempt (do
    each (fun length => change .writeRollback fun d =>
      { d with rollback := d.rollback.map fun file => { file with content := .fragment length } })
        (List.range chunks)
    change .closeRollback fun d =>
      { d with
        rollback := d.rollback.map
            fun file => { file with content := (d.primary.map (·.content)).getD (.fragment 0) } }
    touch .chmod) fun error => do
    removePartial
    raise error

def reinstallRollback : Opening ρ Unit := do
  onlyIf (← look (·.rollback.isSome)) do
    change .replace fun d => { d with primary := d.rollback, rollback := none }
    touch .chmod
    touch .fsync
    syncDirectory

def validateEncrypted (refusal : Error) (file : Disk ρ → Option (File ρ)) : Opening ρ Unit :=
  act .validate fun _ d => if (file d).any File.encrypted then .ok ((), d) else .error refusal

def replacePrimary : Opening ρ Unit := do
  touch .chmod
  touch .fsync
  createPrivateRollbackCopy
  touch .fsync
  syncDirectory
  change .replace fun d => { d with primary := d.temporary, temporary := none }
  syncDirectory

def finishMigration (refusal : Error) : Opening ρ Unit := do
  validateEncrypted refusal (·.primary)
  touch .chmod
  touch .fsync
  syncDirectory
  change .unlink fun d => { d with rollback := none }
  syncDirectory

def removeStale : Opening ρ Unit := do
  removeTemporaries (pure ())
  removeValidatedMigrationRollback

/-- `_plaintext_database_readable` of the application database: `SELECT count(*)` of a plaintext
connection. -/
def readsPlaintext : Opening ρ Bool :=
  attempt (act .connect fun _ d => .ok (d.primary.any File.isPlaintext, d)) fun error =>
    if error = .database then pure false else raise error

/-- `_plaintext_database_readable` of the tenant database, which looks at its header first. -/
def plaintextDatabaseReadable : Opening ρ Bool := do
  touch .probe
  if ← look (·.primary.any File.hasPlaintextHeader) then readsPlaintext else pure false

def migratePlaintextUserDatabase : Opening ρ Unit := do
  onlyIf (← plaintextDatabaseReadable) do
    removeStale
    attempt (do
      exportDatabase .database
      removeSqliteSidecars
      validateEncrypted .keyOrFormat (·.temporary)
      act .compare fun _ d =>
        if d.temporary.any fun file => match file.content with
          | .database _ rows => d.visible = some rows
          | .fragment _ => false
        then .ok ((), d) else .error .runtime
      replacePrimary) fun error => do
        reinstallRollback
        removeTemporaries (pure ())
        raise error
    attempt (finishMigration .keyOrFormat) fun error => do
      tryRemoveTemporaries
      raise error
    removeSqliteSidecars

/-- `_ensure_current_user_db_schema`, which changes no rows. -/
def ensureSchema (connection : Connection) : Opening ρ Unit := act .schema fun choice d =>
  if (d.reads connection).isNone then .error .database
  else .ok ((), if choice = 0 then d else { d with wal := some (d.wal.getD none), shm := true })

def openPlaintext : Opening ρ Connection := do
  let connection ← openConnection
  attempt (do
    ensureSchema connection
    pure connection) fun error => do
    closeConnection
    raise error

def removePlaintextMigrationBackups : Opening ρ Unit := do
  let names ← look (·.backups)
  each (fun name => change .unlink fun d => { d with backups := d.backups.erase name }) names

structure Settings where
  enabled : Bool
  required : Bool
  tenant : Bool

def openUserConnection (settings : Settings) : Opening ρ Connection := do
  onlyIf settings.tenant (touch .probe)
  recoverPlaintextMigrationRollback
  if ¬ settings.enabled then openPlaintext
  else if ¬ settings.tenant then raise .value
  else
    let loaded ← attempt (do
      touch .load
      pure true) fun error => if ¬ error.isRuntime ∨ settings.required then raise error else pure false
    if ¬ loaded then
      touch .probe
      if ← look (·.primary.any fun file => ¬ file.hasPlaintextHeader) then raise .runtime
      else openPlaintext
    else
      touch .probe
      let connection ← attempt (openSqlcipherConnection .keyOrFormat) fun error =>
        if error ≠ .keyOrFormat then raise error
        else do
          touch .probe
          if ← look (·.primary.any File.hasPlaintextHeader) then
            migratePlaintextUserDatabase
            openSqlcipherConnection .keyOrFormat
          else raise error
      attempt (do
        ensureSchema connection
        removeValidatedMigrationRollback
        removePlaintextMigrationBackups
        pure connection) fun error => do
        closeConnection
        raise error

/-- `_migrate_plaintext_application_database`; an error of another class passes its handlers. -/
def migratePlaintextApplicationDatabase : Opening ρ Unit := do
  removeStale
  attempt (exportDatabase .database) fun error => raise (if error = .database then .encryption else error)
  removeSqliteSidecars
  attempt (do
    validateEncrypted .encryption (·.temporary)
    replacePrimary) fun error =>
      if error.isEncryptionOrOs then do
        reinstallRollback
        removeTemporaries syncDirectory
        raise error
      else raise error
  attempt (finishMigration .encryption) fun error =>
    if error.isEncryptionOrOs then do
      tryRemoveTemporaries
      raise error
    else raise error
  removeSqliteSidecars

def openKeyedConnection : Opening ρ Connection := do
  let connection ← openSqlcipherConnection .encryption
  touch .chmod
  pure connection

def openApplicationConnection (settings : Settings) : Opening ρ Connection := do
  recoverPlaintextMigrationRollback
  if ¬ settings.enabled then openConnection
  else
    let loaded ← attempt (do
      touch .load
      pure true) fun error => if error ≠ .encryption ∨ settings.required then raise error else pure false
    if ¬ loaded then openConnection
    else if ← look (·.primary.isSome) then
      let opened ← attempt (do
        let connection ← openKeyedConnection
        pure (some connection)) fun error =>
          if error ≠ .encryption then raise error
          else do
            let readable ← readsPlaintext
            if ¬ readable then raise error
            else
              migratePlaintextApplicationDatabase
              pure none
      match opened with
      | some connection =>
        removeValidatedMigrationRollback
        pure connection
      | none => openKeyedConnection
    else openKeyedConnection

end Opening
end Yinshi.Migration
