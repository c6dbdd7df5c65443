import Yinshi.Backup.Catalog

/-! The transactions on runtimes, runners and Sprite identities. A unique index that refuses
a row makes its transaction raise, except in the activation, which then changes nothing. -/

namespace Yinshi.Backup
open ByteText Checked Rows

def flySprites : Text := text "fly_sprites"

def requiredText (name : String) (value : Text) : Except BackupError Text := do
  rejectIf (strip value = []) (.value (name ++ " must not be empty"))
  pure (strip value)

def Runner.revoke (now : Nat) (row : Runner) : Runner :=
  { row with status := .revoked, revokedAt := some now, registrationTokenHash := none, runnerTokenHash := none }

/-- The upsert of `_create_runner_registration_in_connection`: a managed runner keeps its Noise
key. -/
def Runner.register (tokenHash : Text) (row : Runner) : Runner :=
  { row with
    status := .pending, registrationTokenHash := some tokenHash, runnerTokenHash := none, registeredAt := none
    lastHeartbeatAt := none, cloudProvider := flySprites, storageProfile := none, revokedAt := none
    noisePublicKey := if row.kind = .managed then row.noisePublicKey else none
    noisePublicKeyConfirmedAt := if row.kind = .managed then row.noisePublicKeyConfirmedAt else none }

def Database.runnerOf (db : Database) (userId : Text) (kind : RunnerKind) : Option Runner :=
  db.runners.find? fun row => row.userId = userId ∧ row.kind = kind

/-- `_create_runner_registration_in_connection` for a kind of managed runner: `freshId` is
the primary key of a new row. -/
def createRunnerRegistration (db : Database) (userId : Text) (kind : RunnerKind)
    (freshId tokenHash : Text) : Except BackupError (Database × Text) := do
  let rotated := fun runner : Runner =>
    ({ db with
       runners := update (fun row => row.userId = userId ∧ row.kind = kind)
           (Runner.register tokenHash) db.runners }, runner.id)
  let inserted : Runner := {
    id := freshId, userId := userId, kind := kind,
    registrationTokenHash := some tokenHash, cloudProvider := flySprites }
  rejectIf ((db.runnerOf userId kind).isNone ∧ db.runners.any (·.id = freshId)) .integrity
  pure (((db.runnerOf userId kind).map rotated).getD
      ({ db with runners := db.runners ++ [inserted] }, freshId))

def createManagedRestoreRegistration (userId jobId freshId tokenHash : Text) (db : Database) :
    Except BackupError (Database × Text) := do
  let user ← requireUserId userId
  let job ← requiredText "job_id" jobId
  let registered ← createRunnerRegistration db user .managedRestore freshId tokenHash
  pure ({ registered.1 with
      runners := update (·.id = registered.2) (fun row => { row with restoreJobId := some job })
          registered.1.runners },
    registered.2)

def Runner.restoreOf (userId jobId : Text) (row : Runner) : Prop :=
  row.userId = userId ∧ row.kind = .managedRestore ∧ row.restoreJobId = some jobId ∧ row.revokedAt = none

instance (userId jobId : Text) (row : Runner) : Decidable (row.restoreOf userId jobId) :=
  inferInstanceAs (Decidable (_ ∧ _))

def revokeManagedRestoreRunnerForJob (userId jobId : Text) (now : Nat) (db : Database) :
    Except BackupError (Database × Bool) := do
  let user ← requireUserId userId
  let job ← requiredText "job_id" jobId
  pure ({ db with runners := update (fun row => row.restoreOf user job) (Runner.revoke now) db.runners },
    rowcount (fun row : Runner => row.restoreOf user job) db.runners = 1)

structure RunnerReport where
  status : RunnerStatus
  registrationTokenHash : Option Text
  runnerTokenHash : Option Text
  registeredAt : Option Nat
  lastHeartbeatAt : Option Nat
  storageProfile : Option Text
  noisePublicKey : Option Text
  noisePublicKeyConfirmedAt : Option Nat

def Runner.report (report : RunnerReport) (row : Runner) : Runner :=
  { row with
    status := report.status, registrationTokenHash := report.registrationTokenHash
    runnerTokenHash := report.runnerTokenHash, registeredAt := report.registeredAt
    lastHeartbeatAt := report.lastHeartbeatAt, storageProfile := report.storageProfile
    noisePublicKey := report.noisePublicKey, noisePublicKeyConfirmedAt := report.noisePublicKeyConfirmedAt }

/-- `register_runner`, `record_runner_heartbeat` and `confirm_runner_noise_key`. -/
def reportRunner (id : Text) (report : RunnerReport) (db : Database) : Database :=
  { db with runners := update (fun row => row.id = id ∧ row.revokedAt = none) (Runner.report report) db.runners }

def registerManagedSpriteIdentity (spriteName : Text) (kind : IdentityKind) (userId : Text)
    (jobId : Option Text) (status : IdentityStatus) (db : Database) : Except BackupError Database :=
  do
  rejectIf (spriteName = [] ∨ userId = []) (.value "Sprite identity and owner must not be empty")
  rejectIf (kind = .runtime ∧ jobId ≠ none) (.value "Runtime Sprite identity must not have a job")
  rejectIf (kind = .restoreCandidate ∧ jobId.getD [] = []) (.value "Restore Sprite identity must have a job")
  let selected := fun row : Identity => row.spriteName = spriteName ∧ row.kind = kind ∧
    row.userId = userId ∧ row.jobId = jobId
  let known := db.identities.any (·.spriteName = spriteName)
  rejectIf (known ∧ rowcount selected db.identities ≠ 1)
    (.value "Sprite identity conflicts with another owner")
  pure (if known then
      { db with
        identities := update selected (fun row => { row with status := status }) db.identities } else
      { db with identities := db.identities ++ [⟨spriteName, kind, userId, jobId, status⟩] })

def removeManagedSpriteIdentity (spriteName : Text) (db : Database) : Except BackupError (Database × Bool) := do
  rejectIf (spriteName = []) (.value "sprite_name must not be empty")
  pure ({ db with identities := delete (·.spriteName = spriteName) db.identities },
    rowcount (fun row : Identity => row.spriteName = spriteName) db.identities = 1)

def Database.identityOf (db : Database) (spriteName : Text) : Option Identity :=
  db.identities.find? (·.spriteName = spriteName)

def updateRuntime (userId : Text) (generation : Nat) (status : RuntimeStatus)
    (write : Runtime → Runtime) (db : Database) : Database × Nat :=
  let selected := fun row : Runtime => row.userId = userId ∧ row.generation = generation ∧ row.status = status
  ({ db with runtimes := update selected write db.runtimes }, rowcount selected db.runtimes)

def revokeManaged (userId runnerId : Text) (now : Nat) (db : Database) : Database × Nat :=
  let selected := fun row : Runner => row.id = runnerId ∧ row.userId = userId ∧ row.kind = .managed
  ({ db with runners := update selected (Runner.revoke now) db.runners }, rowcount selected db.runners)

def Runtime.claimable (allowUpgrade : Bool) (artifactVersion : Text) (now staleAfter : Nat)
    (row : Runtime) : Prop :=
  row.status = .failed ∨ row.status = .provisioning ∧ staleAfter ≤ now - row.updatedAt ∨
    allowUpgrade ∧ row.status = .ready ∧ row.artifactVersion ≠ artifactVersion

instance (allowUpgrade : Bool) (artifactVersion : Text) (now staleAfter : Nat) (row : Runtime) :
    Decidable (row.claimable allowUpgrade artifactVersion now staleAfter) :=
  inferInstanceAs (Decidable (_ ∨ _))

def insertRuntime (db : Database) (row : Runtime) : Except BackupError Database := do
  rejectIf (db.runtimes.any fun other => other.userId = row.userId ∨ other.runnerId = row.runnerId ∨
    other.spriteName = row.spriteName) .integrity
  pure { db with runtimes := db.runtimes ++ [row] }

/-- `claim_managed_runtime_provisioning`: `generatedName` is the account's own Sprite name. -/
def claimManagedRuntimeProvisioning (userId generatedName artifactVersion : Text)
    (allowUpgrade : Bool) (now staleAfter : Nat) (freshId tokenHash : Text) (db : Database) :
    Except BackupError (Database × Bool) := do
  let user ← requireUserId userId
  let artifact ← requiredText "artifact_version" artifactVersion
  rejectIf (staleAfter = 0) (.value "stale_after must be a positive timedelta")
  let registers := createRunnerRegistration db user .managed freshId tokenHash
  let reclaims := fun row : Runtime => do
    let registered ← registers
    let claimed := fun _ : Runtime => { row with
      runnerId := registered.2, status := .provisioning, generation := row.generation + 1
      artifactVersion := artifact, updatedAt := now, lastError := none }
    pure ({ registered.1 with runtimes := update (·.userId = user) claimed registered.1.runtimes }, true)
  let inserts := do
    let registered ← registers
    let inserted ← insertRuntime registered.1 {
      userId := user, runnerId := registered.2, providerName := flySprites, spriteName := generatedName
      artifactVersion := artifact, updatedAt := now }
    pure (inserted, true)
  let known := fun row : Runtime =>
    if row.claimable allowUpgrade artifact now staleAfter then reclaims row else .ok (db, false)
  ((db.runtimeOf user).map known).getD inserts

def Runner.provesReady (now : Nat) (row : Runner) : Prop :=
  row.kind = .managed ∧ row.cloudProvider = flySprites ∧ row.status = .online ∧
    row.lastHeartbeatAt.any (fun heartbeat => heartbeat ≤ now ∧ now - heartbeat ≤ 120) ∧
    row.storageProfile = some (text "fly_sprites_posix") ∧ row.noisePublicKey.getD [] ≠ [] ∧
    row.noisePublicKeyConfirmedAt ≠ none

instance (now : Nat) (row : Runner) : Decidable (row.provesReady now) := inferInstanceAs (Decidable (_ ∧ _))

def Database.joined (db : Database) (userId : Text) : Option (Runtime × Runner) :=
  (db.runtimeOf userId).bind
    fun runtime => (db.runners.find? (·.id = runtime.runnerId)).map fun runner => (runtime, runner)

def markManagedRuntimeReady (userId : Text) (generation now : Nat) (db : Database) :
    Except BackupError (Database × Bool) := do
  let user ← requireUserId userId
  positiveInteger "generation" generation
  let ready := (db.joined user).any fun row => row.1.status = .provisioning ∧
    row.1.generation = generation ∧ row.1.providerName = flySprites ∧ row.2.provesReady now
  let stored := updateRuntime user generation .provisioning
    (fun row => { row with status := .ready, updatedAt := now, lastError := none }) db
  pure (if ready then (stored.1, stored.2 = 1) else (db, false))

def refreshManagedRuntimeProvisioning (userId : Text) (generation now : Nat) (db : Database) :
    Except BackupError (Database × Bool) := do
  let user ← requireUserId userId
  positiveInteger "generation" generation
  let stored := updateRuntime user generation .provisioning (fun row => { row with updatedAt := now }) db
  pure (stored.1, stored.2 = 1)

def markManagedRuntimeFailed (userId : Text) (generation : Nat) (errorCode : Text) (now : Nat)
    (db : Database) : Except BackupError (Database × Bool) := do
  let user ← requireUserId userId
  positiveInteger "generation" generation
  let current := (db.joined user).filter
        fun row => row.1.status = .provisioning ∧ row.1.generation = generation ∧
    row.2.kind = .managed
  let stored := updateRuntime user generation .provisioning
    (fun row => { row with status := .failed, updatedAt := now, lastError := some errorCode }) db
  let fails := fun row : Runtime × Runner => do
    let revoked := revokeManaged user row.1.runnerId now stored.1
    rejectIf (stored.2 ≠ 1 ∨ revoked.2 ≠ 1) (.runtime "managed runtime failure transition was not stored")
    pure (revoked.1, true)
  (current.map fails).getD (.ok (db, false))

def abandonRuntime (now : Nat) (state : Database × Nat) (row : Runtime) :
    Except BackupError (Database × Nat) := do
  let stored := updateRuntime row.userId row.generation .provisioning
    (fun row =>
        { row with
          status := .failed, updatedAt := now, lastError := some (text "provider_unavailable") })
      state.1
  let revoked := revokeManaged row.userId row.runnerId now stored.1
  rejectIf (stored.2 = 1 ∧ revoked.2 ≠ 1) (.runtime "managed runtime reconciliation was not stored")
  pure (if stored.2 = 1 then (revoked.1, state.2 + 1) else state)

def reconcileManagedRuntimeProvisioning (activeOwners : List (Text × Nat)) (now : Nat)
    (db : Database) : Except BackupError (Database × Nat) :=
  (db.runtimes.filter
    fun row => row.status = .provisioning ∧ (row.userId, row.generation) ∉ activeOwners).foldlM
    (abandonRuntime now) (db, 0)

def claimManagedRuntimeDeletion (userId : Text) (now : Nat) (db : Database) :
    Except BackupError (Database × Bool) := do
  let user ← requireUserId userId
  rejectIf (db.operations.any fun row => row.userId = user ∧ row.status = .running)
    (.runtime "managed runtime maintenance is active")
  let claims := fun row : Runtime × Runner => do
    let stored := updateRuntime user row.1.generation row.1.status
      (fun row =>
          { row with
            status := .deleting, generation := row.generation + 1, updatedAt := now,
            lastError := none }) db
    let revoked := revokeManaged user row.1.runnerId now stored.1
    rejectIf (stored.2 ≠ 1 ∨ revoked.2 ≠ 1) (.runtime "managed runtime deletion claim was not stored")
    pure (revoked.1, true)
  (((db.joined user).filter fun row => row.1.status ≠ .deleting).map claims).getD (.ok (db, false))

def finalizeManagedRuntimeDeletion (userId : Text) (generation : Nat) (db : Database) :
    Except BackupError (Database × Bool) := do
  let user ← requireUserId userId
  positiveInteger "generation" generation
  let finalizes := fun row : Runtime => do
    let selected := fun runner : Runner =>
        runner.id = row.runnerId ∧ runner.userId = user ∧ runner.kind = .managed
    let gone := fun runtime : Runtime =>
        runtime.userId = user ∧ runtime.generation = generation ∧ runtime.status = .deleting
    rejectIf (rowcount gone db.runtimes ≠ 1 ∨ rowcount selected db.runners ≠ 1)
      (.runtime "managed runtime deletion was not finalized")
    pure ({ db with runtimes := delete gone db.runtimes, runners := delete selected db.runners }, true)
  (((db.runtimeOf user).filter fun row => row.generation = generation ∧ row.status = .deleting).map
    finalizes).getD
    (.ok (db, false))

def Runner.provesRestored (candidateRunnerId userId : Text) (row : Runner) : Prop :=
  row.id = candidateRunnerId ∧ row.userId = userId ∧ row.kind = .managedRestore ∧ row.status = .online ∧
    row.runnerTokenHash ≠ none ∧ row.registeredAt ≠ none ∧ row.lastHeartbeatAt ≠ none ∧
      row.noisePublicKey ≠ none ∧
    row.noisePublicKeyConfirmedAt ≠ none ∧ row.revokedAt = none

instance (candidateRunnerId userId : Text) (row : Runner) :
    Decidable (row.provesRestored candidateRunnerId userId) :=
  inferInstanceAs (Decidable (_ ∧ _))

def identitiesAllow (source candidate : Option Identity)
    (userId jobId sourceSprite candidateSprite : Text) : Prop :=
  (source = none ∧ candidate = none) ∨
    (source = some ⟨sourceSprite, .runtime, userId, none, .active⟩ ∧
      candidate = some ⟨candidateSprite, .restoreCandidate, userId, some jobId, .creating⟩ ∧
        candidateSprite ≠ sourceSprite)

instance (source candidate : Option Identity) (userId jobId sourceSprite candidateSprite : Text) :
    Decidable (identitiesAllow source candidate userId jobId sourceSprite candidateSprite) :=
  inferInstanceAs (Decidable (_ ∨ _))

def activateRunners (userId oldRunnerId candidateRunnerId : Text) (now : Nat)
    (runners : List Runner) : List Runner :=
  let revoked := update (fun row : Runner => row.id = oldRunnerId ∧ row.userId = userId ∧ row.kind = .managed)
    (Runner.revoke now) runners
  let cleared := delete (fun row : Runner => row.userId = userId ∧ row.kind = .managedRetired) revoked
  let retired := update (fun row : Runner => row.id = oldRunnerId)
      (fun row => { row with kind := .managedRetired }) cleared
  update (fun row : Runner => row.id = candidateRunnerId) (fun row => { row with kind := .managed }) retired

def activateIdentities (sourceSprite candidateSprite : Text) (identities : List Identity) : List Identity :=
  let retired := update (fun row : Identity => row.spriteName = sourceSprite)
    (fun row => { row with status := .retired }) identities
  update (fun row : Identity => row.spriteName = candidateSprite)
    (fun row => { row with kind := .runtime, jobId := none, status := .active }) retired

/-- `activate_managed_restore_candidate`. The activation guard, which is inserted and deleted
inside of the transaction, lets the two runners change their kinds. -/
def activateManagedRestoreCandidate (userId : Text) (sourceGeneration : Nat)
    (candidateRunnerId candidateSpriteId artifactVersion : Text) (now : Nat)
    (jobId leaseToken : Text) (db : Database) : Except BackupError (Database × Bool) := do
  let user ← requireUserId userId
  positiveInteger "source_generation" sourceGeneration
  let candidateRunner ← requiredText "candidate_runner_id" candidateRunnerId
  let candidateSprite ← requiredText "candidate_sprite_id" candidateSpriteId
  let artifact ← requiredText "artifact_version" artifactVersion
  let job ← requiredText "job_id" jobId
  let token ← requiredText "lease_token" leaseToken
  let selected := fun row : Operation => row.held job token sourceGeneration now ∧
    row.userId = user ∧ row.operation = .restore
  let activates := fun runtime : Runtime =>
    let runners := activateRunners user runtime.runnerId candidateRunner now db.runners
    let tracked := (db.identityOf runtime.spriteName).isSome ∨ (db.identityOf candidateSprite).isSome
    let refused := ¬ db.runners.any (fun row => row.provesRestored candidateRunner user) ∨
      ¬ identitiesAllow (db.identityOf runtime.spriteName) (db.identityOf candidateSprite) user job
        runtime.spriteName
        candidateSprite ∨
      rowcount selected db.operations ≠ 1 ∨
      ¬ (runners.map fun row => (row.userId, row.kind)).Nodup ∨
      db.runtimes.any
        fun row =>
          row.userId ≠ user ∧ (row.runnerId = candidateRunner ∨ row.spriteName = candidateSprite)
    if refused then (db, false)
    else
      ({ archives := db.archives
         operations := update selected
          (fun row => { row with
            phase := .activated, activationGeneration := some (sourceGeneration + 1),
            updatedAt := now }) db.operations
         runtimes := update (fun row =>
               row.userId = user ∧ row.generation = sourceGeneration ∧ row.status = .ready)
          (fun row => { row with
            runnerId := candidateRunner, spriteName := candidateSprite, generation := sourceGeneration + 1
            artifactVersion := artifact, updatedAt := now, lastError := none }) db.runtimes
         runners := runners
         identities := if tracked then activateIdentities runtime.spriteName candidateSprite db.identities
          else db.identities }, true)
  pure (((db.readyAt user sourceGeneration).map activates).getD (db, false))

end Yinshi.Backup
