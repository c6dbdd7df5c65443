import Yinshi.Backup.Workers

/-! The whole system: the tables, the versions of the object store, the workers, and the
events of all parties. Job identifiers, lease tokens and object versions are never given
out twice, and the first two are UUID texts, which have no blanks to strip. -/

namespace Yinshi.Backup
open ByteText Function Rows

structure Object where
  key : Text
  version : Text
  sizeBytes : Nat
  sha256 : Text
  archiveId : Text
  deriving DecidableEq

structure System where
  db : Database := {}
  objects : List Object := []
  workers : Nat → Option Worker := fun _ => none
  /-- The job identifiers, lease tokens and versions given out so far. -/
  jobs : List Text := []
  tokens : List Text := []
  versions : List (Text × Text) := []
  /-- One entry for each activation and for each deletion of an old Sprite that succeeded. -/
  activated : List Text := []
  cleaned : List Text := []

namespace System

def initial : System := {}

def object (s : System) (key version : Text) : Option Object :=
  s.objects.find? fun object => object.key = key ∧ object.version = version

def settle (s : System) (result : Except BackupError (Database × Bool)) : System × Reply :=
  match result with
  | .ok (db, changed) => ({ s with db := db }, if changed then .yes else .no)
  | .error _ => (s, .raised)

section Perform
variable (naming : Naming) (s : System) (w : Worker) (now : Nat)

def renew : System × Reply :=
  s.settle (renewManagedBackupOperationLease w.operation.jobId (w.operation.leaseOwner.getD []) w.token
    w.operation.runtimeGeneration now (now + 900) s.db)

def objectKey : Text := (w.archive.map (·.objectKey)).getD []

/-- The end of a conditional upload: the store gives a version out once and refuses a key that
has one. -/
def put (version : Text) (sizeBytes : Nat) (sha256 : Text) : Option (System × Reply) :=
  let key := objectKey w
  if s.objects.any (·.key = key) ∨ (key, version) ∈ s.versions ∨ version = [] ∨ 1024 < version.length then none
  else some ({ s with
    objects := s.objects ++ [⟨key, version, sizeBytes, sha256, w.operation.archiveId⟩]
    versions := (key, version) :: s.versions }, .yes)

def check (version : Text) (sizeBytes : Nat) (sha256 : Text) : Reply :=
  match s.object (objectKey w) version with
  | none => .raised
  | some object =>
    if object.archiveId ≠ w.operation.archiveId then .raised
    else if object.sizeBytes = sizeBytes ∧ object.sha256 = sha256 then .yes
    else .no

def drop (key version : Text) (effect : Bool) : System :=
  if effect then
    { s with
      objects := delete (fun object => object.key = key ∧ object.version = version) s.objects } else s

def activate (runnerId : Text) : System × Reply :=
  let settled := s.settle (activateManagedRestoreCandidate w.operation.userId
        w.operation.runtimeGeneration runnerId
    (w.candidateName naming) naming.artifactVersion now w.operation.jobId w.token s.db)
  if settled.2 = .yes then ({ settled.1 with activated := w.operation.jobId :: s.activated }, .yes) else settled

def register : System × Reply :=
  match registerManagedSpriteIdentity (w.candidateName naming) .restoreCandidate w.operation.userId
    (some w.operation.jobId)
      .creating s.db with
  | .ok db => ({ s with db := db }, .yes)
  | .error _ => (s, .raised)

def enroll (freshId tokenHash : Text) : System × Reply :=
  match createManagedRestoreRegistration w.operation.userId w.operation.jobId freshId tokenHash s.db with
  | .ok (db, runnerId) => ({ s with db := db }, .named runnerId)
  | .error _ => (s, .raised)

def errorCode : OperationKind → Text
  | .create => text "create_coordination_failed"
  | .restore => text "restore_coordination_failed"
  | .delete => text "delete_coordination_failed"

def perform : Action → Option (System × Reply)
  | .pass | .call _ | .deleteCandidate => some (s, .yes)
  | .renew => some (s.renew w now)
  | .fail failure =>
    some (s.settle (.ok (failManagedBackupOperation w.operation.jobId w.operation.runtimeGeneration
            w.operation.leaseOwner w.operation.leaseToken failure (errorCode w.operation.operation)
            now s.db)))
  | .removeObject effect =>
    some (s.drop (objectKey w) ((w.archive.bind (·.objectVersion)).getD []) effect, .yes)
  | .retire =>
    some (s.settle (completeManagedBackupDeletion w.operation.userId w.operation.jobId w.token
      w.operation.runtimeGeneration now s.db))
  | .intend sizeBytes sha256 =>
    some (s.settle (recordManagedBackupUploadIntent w.operation.jobId w.token
          w.operation.runtimeGeneration sizeBytes sha256 now s.db))
  | .put version sizeBytes sha256 => s.put w version sizeBytes sha256
  | .check version sizeBytes sha256 => some (s, s.check w version sizeBytes sha256)
  | .discard version effect => some (s.drop (objectKey w) version effect, .yes)
  | .listed free => if free = s.objects.all (·.key ≠ objectKey w) then some (s, .yes) else none
  | .record version sizeBytes sha256 =>
    some (s.settle (recordManagedBackupUpload w.operation.userId w.operation.jobId w.token
      w.operation.runtimeGeneration sizeBytes sha256 version now s.db))
  | .publish version sizeBytes sha256 =>
    some (s.settle (completeManagedBackupCreation w.operation.userId w.operation.jobId (some w.token)
      w.operation.runtimeGeneration sizeBytes sha256 (some version) now s.db))
  | .register => some (s.register naming w)
  | .enroll freshId tokenHash => some (s.enroll w freshId tokenHash)
  | .candidate runnerId =>
    some (s.settle (recordManagedBackupCandidate w.operation.jobId w.token
          w.operation.runtimeGeneration runnerId (w.candidateName naming) now s.db))
  | .activate runnerId => some (s.activate naming w now runnerId)
  | .deleteSource done =>
    some (if done then { s with cleaned := w.operation.jobId :: s.cleaned } else s, .yes)
  | .complete =>
    some (s.settle (completeManagedBackupRestore w.operation.jobId w.token
          w.operation.runtimeGeneration now s.db))
  | .revoke =>
    some (s.settle (revokeManagedRestoreRunnerForJob w.operation.userId w.operation.jobId now s.db))
  | .clear =>
    some (s.settle (clearManagedBackupCandidate w.operation.jobId w.token w.operation.runtimeGeneration
      (w.operation.candidateRunnerId.getD []) (w.operation.candidateSpriteId.getD []) now s.db))

end Perform

end System

inductive RuntimeCall
  | claim (userId artifactVersion : Text) (allowUpgrade : Bool) (now staleAfter : Nat)
    (freshId tokenHash : Text)
  | refresh (userId : Text) (generation now : Nat)
  | ready (userId : Text) (generation now : Nat)
  | failed (userId : Text) (generation : Nat) (errorCode : Text) (now : Nat)
  | reconcile (activeOwners : List (Text × Nat)) (now : Nat)
  | delete (userId : Text) (now : Nat)
  | finalize (userId : Text) (generation : Nat)
  | report (runnerId : Text) (report : RunnerReport)
  | identify (spriteName userId : Text) (status : IdentityStatus)
  | forget (spriteName : Text)

inductive Event
  | startCreation (userId : Text) (runtimeGeneration : Nat) (archiveId jobId objectKey : Text)
      (wrappedKey : Bytes)
      (keyId ownerDigest : Text) (now : Nat)
  | startRestore (userId archiveId : Text) (runtimeGeneration : Nat) (jobId : Text) (now : Nat)
    (sourceLost : Bool)
  | startDeletion (userId archiveId : Text) (runtimeGeneration : Nat) (jobId : Text) (now : Nat)
  | claim (number : Nat) (workerId leaseToken : Text) (now : Nat)
  | renew (number now : Nat)
  | act (number now : Nat) (input : Input)
  | failCreation (number : Nat) (errorCode : Text) (now : Nat)
  | runtime (call : RuntimeCall)

namespace System
variable (naming : Naming) (s : System)

def unreferenced (spriteName : Text) : Prop :=
  (∀ row ∈ s.db.runtimes, row.spriteName ≠ spriteName) ∧
    ∀ row ∈ s.db.operations, row.status = .running → row.sourceSpriteId ≠ some spriteName ∧
      row.candidateSpriteId ≠ some spriteName ∧
      (row.operation = .restore → naming.candidate row.userId row.jobId ≠ spriteName)

instance (spriteName : Text) : Decidable (s.unreferenced naming spriteName) :=
  inferInstanceAs (Decidable (_ ∧ _))

def runtimeCall : RuntimeCall → Except BackupError Database
  | .claim userId artifactVersion allowUpgrade now staleAfter freshId tokenHash =>
    (·.1) <$>
      claimManagedRuntimeProvisioning userId (naming.runtime (strip userId)) artifactVersion
        allowUpgrade now
      staleAfter freshId tokenHash s.db
  | .refresh userId generation now => (·.1) <$> refreshManagedRuntimeProvisioning userId generation now s.db
  | .ready userId generation now => (·.1) <$> markManagedRuntimeReady userId generation now s.db
  | .failed userId generation errorCode now =>
    (·.1) <$> markManagedRuntimeFailed userId generation errorCode now s.db
  | .reconcile activeOwners now => (·.1) <$> reconcileManagedRuntimeProvisioning activeOwners now s.db
  | .delete userId now => (·.1) <$> claimManagedRuntimeDeletion userId now s.db
  | .finalize userId generation => (·.1) <$> finalizeManagedRuntimeDeletion userId generation s.db
  | .report runnerId report => .ok (reportRunner runnerId report s.db)
  | .identify spriteName userId status =>
    registerManagedSpriteIdentity spriteName .runtime userId none status s.db
  | .forget spriteName =>
    if s.unreferenced naming spriteName then (·.1) <$> removeManagedSpriteIdentity spriteName s.db else .ok s.db

def start (jobId : Text) (result : Except BackupError (Database × Operation)) : Option System :=
  if jobId ∈ s.jobs ∨ strip jobId ≠ jobId then none
  else (result.toOption).map fun started => { s with db := started.1, jobs := jobId :: s.jobs }

def claim (number : Nat) (workerId leaseToken : Text) (now : Nat) : Option System :=
  if leaseToken ∈ s.tokens ∨ strip leaseToken ≠ leaseToken ∨ (s.workers number).isSome then none
  else
    match claimDueManagedBackupOperation workerId leaseToken now (now + 900) s.db with
    | .ok (db, some operation) =>
      some { s with
        db := db, tokens := leaseToken :: s.tokens,
        workers := update s.workers number (some { operation := operation }) }
    | .ok (_, none) | .error _ => none

def act (number now : Nat) (input : Input) : Option System :=
  (s.workers number).bind fun w =>
    if w.stage = .dispatching then
      if input = .ok then
        some { s with workers := update s.workers number (some (w.dispatch naming s.db)) } else none
    else
      (w.plan naming input).bind fun planned =>
        (s.perform naming w now planned.1).map fun done =>
          { done.1 with workers := update s.workers number (some { w with stage := planned.2 done.2 }) }

/-- The next state; an event that cannot happen here gives none, and so does a request that is
refused. -/
def step : Event → Option System
  | .startCreation userId runtimeGeneration archiveId jobId objectKey wrappedKey keyId ownerDigest now =>
    s.start jobId (startManagedBackupCreation userId runtimeGeneration archiveId jobId objectKey
        wrappedKey keyId ownerDigest now s.db)
  | .startRestore userId archiveId runtimeGeneration jobId now sourceLost =>
    s.start jobId (Backup.startRestore userId archiveId runtimeGeneration jobId now sourceLost s.db)
  | .startDeletion userId archiveId runtimeGeneration jobId now =>
    s.start jobId (startManagedBackupDeletion userId archiveId runtimeGeneration jobId now s.db)
  | .claim number workerId leaseToken now => s.claim number workerId leaseToken now
  | .renew number now => (s.workers number).map fun w => (s.renew w now).1
  | .act number now input => s.act naming number now input
  | .failCreation number errorCode now => (s.workers number).map fun w =>
    (s.settle (failManagedBackupCreation w.operation.userId w.operation.jobId
        w.operation.runtimeGeneration errorCode now s.db)).1
  | .runtime call => (s.runtimeCall naming call).toOption.map fun db => { s with db := db }

def run : List Event → System → Option System
  | [], s => some s
  | event :: events, s => (s.step naming event).bind (run events)

end System

/-- The states that runs reach whose steps are all allowed. -/
inductive Reached (naming : Naming) (allowed : System → Event → Prop) : System → Prop
  | initial : Reached naming allowed .initial
  | step {s s' : System} {event : Event} (before : Reached naming allowed s)
      (fits : allowed s event) (next : s.step naming event = some s') : Reached naming allowed s'

section Allowed
variable {naming : Naming} {allowed : System → Event → Prop} [∀ s event, Decidable (allowed s event)]

def runAllowed (naming : Naming) (allowed : System → Event → Prop)
    [∀ s event, Decidable (allowed s event)] : List Event → System → Option System
  | [], s => some s
  | event :: events, s =>
    if allowed s event then (s.step naming event).bind (runAllowed naming allowed events) else none

theorem Reached.ran {s s' : System} {events : List Event} (before : Reached naming allowed s)
    (ran : runAllowed naming allowed events s = some s') : Reached naming allowed s' := by
  induction events generalizing s with
  | nil =>
    rw [← Option.some.inj ran]
    exact before
  | cons _ _ later =>
    unfold runAllowed at ran
    split at ran
    next hf =>
      obtain ⟨_, next, rest⟩ := Option.bind_eq_some_iff.mp ran
      exact later (before.step hf next) rest
    next => cases ran

end Allowed

end Yinshi.Backup
