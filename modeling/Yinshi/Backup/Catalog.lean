import Yinshi.Base.ByteText
import Yinshi.Base.Checked
import Yinshi.Base.Keyed
import Yinshi.Base.Rows

/-! The control tables of managed backups and the transactions of the catalog. A transaction
that raises or is rolled back leaves the tables as they were, and its result says so. -/

namespace Yinshi.Backup
open ByteText Checked Rows

inductive ArchiveStatus
  | creating
  | uploaded
  | ready
  | failed
  | deleting
  | deleted
  deriving DecidableEq

inductive OperationStatus
  | running
  | failed
  deriving DecidableEq

inductive OperationKind
  | create
  | restore
  | delete
  deriving DecidableEq

inductive FailureClass
  | restoreFailed
  | deletionFailed
  deriving DecidableEq

inductive Phase
  | claimed
  | candidateProvisioning
  | objectUploading
  | activated
  deriving DecidableEq

structure Archive where
  id : Text
  userId : Text
  runtimeGeneration : Nat
  status : ArchiveStatus := .creating
  objectKey : Text
  objectVersion : Option Text := none
  sizeBytes : Option Nat := none
  sha256 : Option Text := none
  wrappedKey : Bytes
  keyId : Text
  ownerDigest : Text
  createdAt : Nat
  completedAt : Option Nat := none
  lastError : Option Text := none
  deriving DecidableEq

structure Operation where
  userId : Text
  jobId : Text
  archiveId : Text
  operation : OperationKind
  status : OperationStatus := .running
  runtimeGeneration : Nat
  phase : Phase := .claimed
  leaseOwner : Option Text := none
  leaseToken : Option Text := none
  leaseExpiresAt : Option Nat := none
  attemptCount : Nat := 0
  nextAttemptAt : Option Nat := none
  sourceRunnerId : Option Text := none
  sourceSpriteId : Option Text := none
  sourceLost : Bool := false
  candidateRunnerId : Option Text := none
  candidateSpriteId : Option Text := none
  activationGeneration : Option Nat := none
  startedAt : Nat
  updatedAt : Nat
  lastError : Option Text := none
  failureClass : Option FailureClass := none
  deriving DecidableEq

inductive RuntimeStatus
  | provisioning
  | ready
  | failed
  | deleting
  deriving DecidableEq

structure Runtime where
  userId : Text
  runnerId : Text
  providerName : Text
  spriteName : Text
  status : RuntimeStatus := .provisioning
  generation : Nat := 1
  artifactVersion : Text
  updatedAt : Nat
  lastError : Option Text := none
  deriving DecidableEq

inductive RunnerKind
  | byoc
  | managed
  | managedRestore
  | managedRetired
  deriving DecidableEq

inductive RunnerStatus
  | pending
  | online
  | revoked
  deriving DecidableEq

structure Runner where
  id : Text
  userId : Text
  kind : RunnerKind
  status : RunnerStatus := .pending
  registrationTokenHash : Option Text := none
  runnerTokenHash : Option Text := none
  registeredAt : Option Nat := none
  lastHeartbeatAt : Option Nat := none
  cloudProvider : Text
  storageProfile : Option Text := none
  noisePublicKey : Option Text := none
  noisePublicKeyConfirmedAt : Option Nat := none
  revokedAt : Option Nat := none
  restoreJobId : Option Text := none
  deriving DecidableEq

inductive IdentityKind
  | runtime
  | restoreCandidate
  deriving DecidableEq

inductive IdentityStatus
  | creating
  | active
  | retired
  | deleting
  deriving DecidableEq

structure Identity where
  spriteName : Text
  kind : IdentityKind
  userId : Text
  jobId : Option Text
  status : IdentityStatus
  deriving DecidableEq

structure Database where
  archives : List Archive := []
  operations : List Operation := []
  runtimes : List Runtime := []
  runners : List Runner := []
  identities : List Identity := []
  deriving DecidableEq

inductive BackupError
  | value (message : String)
  | conflict (message : String)
  | runtime (message : String)
  | lookup (message : String)
  | overflow (message : String)
  | integrity

def requireUserId (userId : Text) : Except BackupError Text := do
  rejectIf (strip userId = []) (.value "user_id must not be empty")
  pure (strip userId)

def boundedText (limit : Nat) (name : String) (value : Text) : Except BackupError Unit :=
  rejectIf (value = [] ∨ limit < value.length) (.value (name ++ " must be bounded non-empty text"))

def filledText (name : String) (value : Text) : Except BackupError Unit :=
  rejectIf (value = []) (.value (name ++ " must not be empty"))

def positiveInteger (name : String) (value : Nat) : Except BackupError Unit :=
  rejectIf (value = 0) (.value (name ++ " must be a positive integer"))

def isHex (c : Nat) : Bool := (48 ≤ c ∧ c ≤ 57) ∨ (97 ≤ c ∧ c ≤ 102)

def hexDigest (name : String) (value : Text) : Except BackupError Unit :=
  rejectIf (value.length ≠ 64 ∨ ¬ value.all isHex)
    (.value (name ++ " must be 64 lowercase hexadecimal characters"))

def laterThan (now leaseExpiresAt : Nat) : Except BackupError Unit :=
  rejectIf (leaseExpiresAt ≤ now) (.value "lease_expires_at must be after now")

/-- The guard of every statement of a worker: its job runs under its token, which has not
expired. -/
def Operation.held (row : Operation) (jobId leaseToken : Text) (runtimeGeneration now : Nat) : Prop :=
  row.jobId = jobId ∧ row.leaseToken = some leaseToken ∧ row.status = .running ∧
    row.runtimeGeneration = runtimeGeneration ∧ row.leaseExpiresAt.any (now < ·)

instance (row : Operation) (jobId leaseToken : Text) (runtimeGeneration now : Nat) :
    Decidable (row.held jobId leaseToken runtimeGeneration now) :=
  inferInstanceAs (Decidable (_ ∧ _))

def Operation.unleased (row : Operation) (now : Nat) : Prop := row.leaseExpiresAt.all (· ≤ now)

instance (row : Operation) (now : Nat) : Decidable (row.unleased now) := inferInstanceAs (Decidable (_ = _))

def Operation.due (row : Operation) (now : Nat) : Prop :=
  row.status = .running ∧ row.nextAttemptAt.all (· ≤ now) ∧ row.unleased now

instance (row : Operation) (now : Nat) : Decidable (row.due now) := inferInstanceAs (Decidable (_ ∧ _))

def Database.dueOperation (db : Database) (now : Nat) : Option Operation :=
  (Keyed.sortBy (fun row => toLex (row.startedAt, row.jobId))
    (db.operations.filter fun row => row.due now)).head?

def Operation.claim (workerId leaseToken : Text) (now leaseExpiresAt : Nat) (row : Operation) : Operation :=
  { row with
    leaseOwner := some workerId, leaseToken := some leaseToken, leaseExpiresAt := some leaseExpiresAt
    attemptCount := row.attemptCount + 1, updatedAt := now }

def claimRow (workerId leaseToken : Text) (now leaseExpiresAt : Nat) (db : Database)
    (jobId : Text) : Database × Option Operation :=
  let selected := fun row : Operation => row.jobId = jobId ∧ row.status = .running ∧ row.unleased now
  if rowcount selected db.operations ≠ 1 then (db, none)
  else
    let claimed := update selected (Operation.claim workerId leaseToken now leaseExpiresAt) db.operations
    ({ db with operations := claimed }, claimed.find? (·.jobId = jobId))

def claimDueManagedBackupOperation (workerId leaseToken : Text) (now leaseExpiresAt : Nat)
    (db : Database) : Except BackupError (Database × Option Operation) := do
  boundedText 128 "worker_id" workerId
  boundedText 128 "lease_token" leaseToken
  laterThan now leaseExpiresAt
  pure (((db.dueOperation now).map
        fun row => claimRow workerId leaseToken now leaseExpiresAt db row.jobId).getD (db, none))

def renewManagedBackupOperationLease (jobId workerId leaseToken : Text)
    (runtimeGeneration now leaseExpiresAt : Nat) (db : Database) :
    Except BackupError (Database × Bool) := do
  boundedText 128 "job_id" jobId
  boundedText 128 "worker_id" workerId
  boundedText 128 "lease_token" leaseToken
  positiveInteger "runtime_generation" runtimeGeneration
  laterThan now leaseExpiresAt
  let selected := fun row : Operation =>
      row.held jobId leaseToken runtimeGeneration now ∧ row.leaseOwner = some workerId
  let renewed := fun row : Operation => { row with leaseExpiresAt := some leaseExpiresAt, updatedAt := now }
  pure ({ db with operations := update selected renewed db.operations }, rowcount selected db.operations = 1)

def recordManagedBackupCandidate (jobId leaseToken : Text) (runtimeGeneration : Nat)
    (candidateRunnerId candidateSpriteId : Text) (now : Nat) (db : Database) :
    Except BackupError (Database × Bool) := do
  boundedText 128 "job_id" jobId
  boundedText 128 "lease_token" leaseToken
  boundedText 128 "candidate_runner_id" candidateRunnerId
  boundedText 128 "candidate_sprite_id" candidateSpriteId
  positiveInteger "runtime_generation" runtimeGeneration
  let selected := fun row : Operation =>
        row.held jobId leaseToken runtimeGeneration now ∧ row.operation = .restore ∧
    (row.phase = .claimed ∨
      row.phase = .candidateProvisioning ∧ row.candidateRunnerId = some candidateRunnerId ∧
      row.candidateSpriteId = some candidateSpriteId)
  let recorded := fun row : Operation => { row with
    candidateRunnerId := some candidateRunnerId, candidateSpriteId := some candidateSpriteId
    phase := .candidateProvisioning, updatedAt := now }
  pure ({ db with operations := update selected recorded db.operations }, rowcount selected db.operations = 1)

def clearManagedBackupCandidate (jobId leaseToken : Text) (runtimeGeneration : Nat)
    (candidateRunnerId candidateSpriteId : Text) (now : Nat) (db : Database) :
    Except BackupError (Database × Bool) := do
  boundedText 128 "job_id" jobId
  boundedText 128 "lease_token" leaseToken
  boundedText 128 "candidate_runner_id" candidateRunnerId
  boundedText 128 "candidate_sprite_id" candidateSpriteId
  positiveInteger "runtime_generation" runtimeGeneration
  let selected := fun row : Operation =>
        row.held jobId leaseToken runtimeGeneration now ∧ row.operation = .restore ∧
    row.phase = .candidateProvisioning ∧ row.candidateRunnerId = some candidateRunnerId ∧
    row.candidateSpriteId = some candidateSpriteId
  let cleared := fun row : Operation => { row with
    candidateRunnerId := none, candidateSpriteId := none, phase := .claimed, updatedAt := now }
  pure ({ db with operations := update selected cleared db.operations }, rowcount selected db.operations = 1)

def completeManagedBackupRestore (jobId leaseToken : Text) (runtimeGeneration now : Nat)
    (db : Database) : Except BackupError (Database × Bool) := do
  filledText "job_id" jobId
  filledText "lease_token" leaseToken
  positiveInteger "runtime_generation" runtimeGeneration
  let selected := fun row : Operation =>
        row.held jobId leaseToken runtimeGeneration now ∧ row.operation = .restore ∧
    row.phase = .activated
  pure ({ db with operations := delete selected db.operations }, rowcount selected db.operations = 1)

def Database.heldCreate (db : Database) (jobId leaseToken : Text) (runtimeGeneration now : Nat) :
    Option Operation :=
  db.operations.find? fun row => row.held jobId leaseToken runtimeGeneration now ∧ row.operation = .create

def recordManagedBackupUploadIntent (jobId leaseToken : Text) (runtimeGeneration sizeBytes : Nat)
    (sha256 : Text) (now : Nat) (db : Database) : Except BackupError (Database × Bool) := do
  boundedText 128 "job_id" jobId
  boundedText 128 "lease_token" leaseToken
  positiveInteger "runtime_generation" runtimeGeneration
  positiveInteger "size_bytes" sizeBytes
  hexDigest "sha256" sha256
  let selected := fun row : Operation =>
        row.held jobId leaseToken runtimeGeneration now ∧ row.operation = .create ∧
    row.phase = .claimed
  let intends := fun operation : Operation =>
    let named := fun row : Archive => row.id = operation.archiveId ∧ row.status = .creating ∧
      row.runtimeGeneration = runtimeGeneration ∧ row.objectVersion = none
    let described := fun row : Archive =>
        { row with sizeBytes := some sizeBytes, sha256 := some sha256, lastError := none }
    let uploading := fun row : Operation => { row with phase := .objectUploading, updatedAt := now }
    if rowcount named db.archives ≠ 1 ∨ rowcount selected db.operations ≠ 1 then (db, false)
    else
      ({ db with
          archives := update named described db.archives
          operations := update selected uploading db.operations }, true)
  pure (((db.operations.find? fun row => selected row).map intends).getD (db, false))

def recordManagedBackupUpload (userId jobId leaseToken : Text) (runtimeGeneration sizeBytes : Nat)
    (sha256 objectVersion : Text) (now : Nat) (db : Database) :
    Except BackupError (Database × Bool) := do
  let user ← requireUserId userId
  filledText "job_id" jobId
  filledText "lease_token" leaseToken
  positiveInteger "runtime_generation" runtimeGeneration
  positiveInteger "size_bytes" sizeBytes
  hexDigest "sha256" sha256
  boundedText 1024 "object_version" objectVersion
  let records := fun operation : Operation =>
    let named := fun row : Archive => row.id = operation.archiveId ∧ row.userId = user ∧
      row.status = .creating ∧ row.runtimeGeneration = runtimeGeneration
    let recorded := fun row : Archive => { row with
      status := .uploaded, objectVersion := some objectVersion, sizeBytes := some sizeBytes
      sha256 := some sha256, completedAt := some now, lastError := none }
    ({ db with archives := update named recorded db.archives }, decide (rowcount named db.archives = 1))
  pure ((((db.heldCreate jobId leaseToken runtimeGeneration now).filter (·.userId = user)).map
        records).getD (db, false))

def Database.runtimeOf (db : Database) (userId : Text) : Option Runtime :=
  db.runtimes.find? (·.userId = userId)

def Database.readyAt (db : Database) (userId : Text) (generation : Nat) : Option Runtime :=
  (db.runtimeOf userId).filter fun row => row.generation = generation ∧ row.status = .ready

def completeManagedBackupCreation (userId jobId : Text) (leaseToken : Option Text)
    (runtimeGeneration sizeBytes : Nat) (sha256 : Text) (objectVersion : Option Text) (now : Nat)
    (db : Database) : Except BackupError (Database × Bool) := do
  let user ← requireUserId userId
  filledText "job_id" jobId
  filledText "lease_token" (leaseToken.getD [])
  positiveInteger "runtime_generation" runtimeGeneration
  positiveInteger "size_bytes" sizeBytes
  hexDigest "sha256" sha256
  let version := objectVersion.getD []
  let completes := fun operation : Operation =>
    let named := fun row : Archive => row.id = operation.archiveId ∧ row.userId = user ∧
      (row.status = .creating ∨ row.status = .uploaded) ∧ row.runtimeGeneration = runtimeGeneration
    let published := fun row : Archive => { row with
      status := .ready, objectVersion := some version, sizeBytes := some sizeBytes
      sha256 := some sha256, completedAt := some now, lastError := none }
    let rest := delete (fun row : Operation => row.userId = user ∧ row.jobId = jobId) db.operations
    if rowcount named db.archives ≠ 1 then (db, false)
    else ({ db with archives := update named published db.archives, operations := rest }, true)
  pure (if version = [] ∨ 1024 < version.length ∨ (db.readyAt user runtimeGeneration).isNone then (db, false)
    else
      (((db.heldCreate jobId (leaseToken.getD []) runtimeGeneration now).filter
          (·.userId = user)).map completes).getD
      (db, false))

def isLowerIdentifier (c : Nat) : Bool := (97 ≤ c ∧ c ≤ 122) ∨ c = 95

def failManagedBackupCreation (userId jobId : Text) (runtimeGeneration : Nat) (errorCode : Text)
    (now : Nat) (db : Database) : Except BackupError (Database × Bool) := do
  let user ← requireUserId userId
  filledText "job_id" jobId
  positiveInteger "runtime_generation" runtimeGeneration
  rejectIf (errorCode = [] ∨ 100 < errorCode.length ∨ ¬ errorCode.all isLowerIdentifier)
    (.value "error_code must be bounded lowercase identifier text")
  let fails := fun operation : Operation =>
    let named := fun row : Archive => row.id = operation.archiveId ∧ row.userId = user ∧
      row.status = .creating ∧ row.runtimeGeneration = runtimeGeneration
    let failed := fun row : Archive => { row with
      status := .failed, completedAt := some now, lastError := some errorCode }
    let stopped := update (fun row : Operation => row.userId = user ∧ row.jobId = jobId ∧ row.status = .running)
      (fun row => { row with status := .failed, updatedAt := now, lastError := some errorCode }) db.operations
    if rowcount named db.archives ≠ 1 then (db, false)
    else ({ db with archives := update named failed db.archives, operations := stopped }, true)
  pure (((db.operations.find? fun row => row.userId = user ∧ row.jobId = jobId ∧ row.operation = .create ∧
    row.status = .running ∧ row.runtimeGeneration = runtimeGeneration).map fails).getD (db, false))

def completeManagedBackupDeletion (userId jobId leaseToken : Text) (runtimeGeneration now : Nat)
    (db : Database) : Except BackupError (Database × Bool) := do
  let user ← requireUserId userId
  filledText "job_id" jobId
  filledText "lease_token" leaseToken
  positiveInteger "runtime_generation" runtimeGeneration
  let completes := fun operation : Operation =>
    let named :=
      fun row : Archive => row.id = operation.archiveId ∧ row.userId = user ∧ row.status = .deleting
    let erased := fun row : Archive => { row with
      status := .deleted, objectVersion := none, sizeBytes := none, sha256 := none, wrappedKey := []
      completedAt := some now, lastError := none }
    let rest := delete (fun row : Operation => row.userId = user ∧ row.jobId = jobId) db.operations
    if rowcount named db.archives ≠ 1 then (db, false)
    else ({ db with archives := update named erased db.archives, operations := rest }, true)
  pure (((db.operations.find?
          fun row => row.held jobId leaseToken runtimeGeneration now ∧ row.operation = .delete ∧
            row.userId = user).map completes).getD (db, false))

/-- `fail_managed_backup_operation`. It compares the lease and does not ask whether it has
expired. -/
def failManagedBackupOperation (jobId : Text) (runtimeGeneration : Nat)
    (leaseOwner leaseToken : Option Text) (failureClass : FailureClass) (errorCode : Text)
    (now : Nat) (db : Database) : Database × Bool :=
  let selected := fun row : Operation => row.jobId = jobId ∧ row.runtimeGeneration = runtimeGeneration ∧
    row.status = .running ∧ row.leaseOwner = leaseOwner ∧ row.leaseToken = leaseToken
  let failed := fun row : Operation => { row with
    status := .failed, failureClass := some failureClass, lastError := some errorCode, updatedAt := now }
  ({ db with operations := update selected failed db.operations }, rowcount selected db.operations = 1)

def retireFailedManagedOperation (db : Database) (userId : Text) : Except BackupError Database := do
  let retires := fun row : Operation =>
    let rest := delete (fun row : Operation => row.userId = userId) db.operations
    let named := fun archive : Archive =>
        archive.id = row.archiveId ∧ archive.userId = userId ∧ archive.status = .deleting
    let returned := update named (fun archive => { archive with status := .ready }) db.archives
    if row.operation = .delete then { db with operations := rest, archives := returned } else
      { db with operations := rest }
  let row := db.operations.find? (·.userId = userId)
  rejectIf (row.any (·.status = .running)) (.conflict "Managed backup operation is already active")
  pure ((row.map retires).getD db)

def insertOperation (db : Database) (row : Operation) (error : BackupError) : Except BackupError Database := do
  rejectIf (db.operations.any fun other => other.userId = row.userId ∨ other.jobId = row.jobId) error
  pure { db with operations := db.operations ++ [row] }

def startManagedBackupCreation (userId : Text) (runtimeGeneration : Nat)
    (archiveId jobId objectKey : Text) (wrappedKey : Bytes) (keyId ownerDigest : Text) (now : Nat)
    (db : Database) : Except BackupError (Database × Operation) := do
  let user ← requireUserId userId
  positiveInteger "runtime_generation" runtimeGeneration
  boundedText 128 "archive_id" archiveId
  boundedText 128 "job_id" jobId
  boundedText 1024 "object_key" objectKey
  boundedText 128 "key_id" keyId
  rejectIf (wrappedKey = []) (.value "wrapped_key must be non-empty bytes")
  hexDigest "owner_digest" ownerDigest
  let retired ← retireFailedManagedOperation db user
  let runtime ←
    orRaise (.conflict "Managed runtime is not ready for backup")
      (retired.readyAt user runtimeGeneration)
  rejectIf (retired.archives.any fun other => other.id = archiveId ∨ other.objectKey = objectKey) .integrity
  let archive : Archive := {
    id := archiveId, userId := user, runtimeGeneration := runtimeGeneration, objectKey := objectKey
    wrappedKey := wrappedKey, keyId := keyId, ownerDigest := ownerDigest, createdAt := now }
  let operation : Operation := {
    userId := user, jobId := jobId, archiveId := archiveId,
    operation := .create, runtimeGeneration := runtimeGeneration
    sourceRunnerId := some runtime.runnerId, sourceSpriteId := some runtime.spriteName,
    startedAt := now, updatedAt := now }
  let started ←
    insertOperation { retired with archives := retired.archives ++ [archive] } operation .integrity
  pure (started, operation)

def Archive.readyFor (row : Archive) (archiveId userId : Text) : Prop :=
  row.id = archiveId ∧ row.userId = userId ∧ row.status = .ready ∧ row.objectVersion ≠ none

instance (row : Archive) (archiveId userId : Text) : Decidable (row.readyFor archiveId userId) :=
  inferInstanceAs (Decidable (_ ∧ _))

def startRestore (userId archiveId : Text) (runtimeGeneration : Nat) (jobId : Text) (now : Nat)
    (sourceLost : Bool) (db : Database) : Except BackupError (Database × Operation) := do
  let user ← requireUserId userId
  filledText "archive_id" archiveId
  filledText "job_id" jobId
  positiveInteger "runtime_generation" runtimeGeneration
  let retired ← retireFailedManagedOperation db user
  let runtime ← orRaise (.conflict "managed runtime generation changed") (retired.readyAt user runtimeGeneration)
  rejectIf (¬ retired.archives.any fun row => row.readyFor archiveId user)
    (.conflict "managed backup archive is not ready")
  let operation : Operation := {
    userId := user, jobId := jobId, archiveId := archiveId,
    operation := .restore, runtimeGeneration := runtimeGeneration
    sourceRunnerId := some runtime.runnerId,
    sourceSpriteId := some runtime.spriteName, sourceLost := sourceLost
    startedAt := now, updatedAt := now }
  let started ← insertOperation retired operation (.conflict "managed backup operation is active")
  pure (started, operation)

def startManagedBackupRestore (userId archiveId : Text) (runtimeGeneration : Nat) (jobId : Text)
    (now : Nat) (db : Database) : Except BackupError (Database × Operation) :=
  startRestore userId archiveId runtimeGeneration jobId now false db

def startManagedSourceLossRestore (userId archiveId : Text) (runtimeGeneration : Nat) (jobId : Text)
    (now : Nat) (db : Database) : Except BackupError (Database × Operation) :=
  startRestore userId archiveId runtimeGeneration jobId now true db

def startManagedBackupDeletion (userId archiveId : Text) (runtimeGeneration : Nat) (jobId : Text)
    (now : Nat) (db : Database) : Except BackupError (Database × Operation) := do
  let user ← requireUserId userId
  filledText "archive_id" archiveId
  filledText "job_id" jobId
  positiveInteger "runtime_generation" runtimeGeneration
  let retired ← retireFailedManagedOperation db user
  let selected := fun row : Archive => row.readyFor archiveId user
  rejectIf (rowcount selected retired.archives ≠ 1) (.conflict "managed backup archive is not ready")
  let operation : Operation := {
    userId := user, jobId := jobId, archiveId := archiveId,
    operation := .delete, runtimeGeneration := runtimeGeneration
    startedAt := now, updatedAt := now }
  let started ← insertOperation
    { retired with archives := update selected (fun row => { row with status := .deleting }) retired.archives }
    operation (.conflict "managed backup operation is active")
  pure (started, operation)

def Database.archive (db : Database) (userId archiveId : Text) : Option Archive :=
  db.archives.find? fun row => row.userId = userId ∧ row.id = archiveId

end Yinshi.Backup
