import Mathlib.Logic.Function.Basic
import Yinshi.Backup.Runtimes

/-! The workers of the backup manager. A worker takes the operation it has claimed through
the stages of its coordination: each step performs one action and the reply chooses the next
stage. Every call of the provider, the store or the relay may also raise or be cancelled. -/

namespace Yinshi.Backup
open ByteText Function Rows

/-- The Sprite names, an account's own one and one for each restore job of an account, and the
version of the artifact. -/
structure Naming where
  runtime : Text → Text
  candidate : Text → Text → Text
  artifactVersion : Text

inductive Service
  | sidecar
  | runner
  deriving DecidableEq

inductive GuestFile
  | job
  | result
  | archive
  | release
  deriving DecidableEq

/-- The calls that act on a Sprite or on its runner from outside. -/
inductive Call
  | quiesceRunner (runnerId : Text)
  | releaseMaintenance (runnerId : Text)
  | startService (spriteName : Text) (service : Service)
  | stopMaintenance (spriteName : Text)
  | deleteMaintenance (spriteName : Text)
  | writeRelease (spriteName : Text)
  | deleteFile (spriteName : Text) (file : GuestFile)
  | deleteSprite (spriteName : Text)
  deriving DecidableEq

inductive Stage
  | dispatching
  /-- Calls in turn, each with whether its exceptions are suppressed; an exception that is
  not, or a cancellation, leads to `stopped`. -/
  | calling (rest : List (Call × Bool)) (after stopped : Stage)
  | failing (failure : FailureClass)
  | ended
  | removing
  | retiring
  -- creation: `resumed` when the upload metadata was recorded by an earlier claim
  | quiescing
  | building
  | downloading (sizeBytes : Nat) (sha256 : Text)
  | intending (sizeBytes : Nat) (sha256 : Text)
  | uploading (resumed : Bool) (sizeBytes : Nat) (sha256 : Text)
  | confirming (resumed : Bool) (version : Text) (sizeBytes : Nat) (sha256 : Text)
  | discarding (resumed : Bool) (version : Text) (sizeBytes : Nat) (sha256 : Text)
  | stored (resumed : Bool) (version : Text) (sizeBytes : Nat) (sha256 : Text)
  | publishing (resumed : Bool) (version : Text) (sizeBytes : Nat) (sha256 : Text)
  | reconciling (again : Bool) (sizeBytes : Nat) (sha256 : Text)
  | renewing (sizeBytes : Nat) (sha256 : Text)
  | aborting (sizeBytes : Nat) (sha256 : Text)
  | preserving (sizeBytes : Nat) (sha256 : Text)
  | mending
  -- restore: `raised` when the coordination goes on to raise
  | provisioning
  | enrolling
  | installing (runnerId : Text)
  | recording (runnerId : Text)
  | preparing (runnerId : Text)
  | activating (runnerId : Text)
  | finishing
  | completing
  | revoking (raised : Bool)
  | dropping (raised : Bool)
  | clearing (raised : Bool)
  deriving DecidableEq

inductive Input
  | ok
  | raises
  | lost
  | cancelled
  | result (sizeBytes : Nat) (sha256 : Text)
  /-- The store holds a new version, with the metadata the provider gave it. -/
  | put (version : Text) (sizeBytes : Nat) (sha256 : Text)
  /-- A reconciliation found one version, unfinished uploads, or nothing. -/
  | found (version : Text)
  | pending
  | absent
  | enrolled (freshId tokenHash : Text)
  deriving DecidableEq

inductive Reply
  | yes
  | no
  | raised
  | named (runnerId : Text)
  deriving DecidableEq

inductive Action
  | pass
  | call (call : Call)
  | renew
  | fail (failure : FailureClass)
  | removeObject (effect : Bool)
  | retire
  | intend (sizeBytes : Nat) (sha256 : Text)
  | put (version : Text) (sizeBytes : Nat) (sha256 : Text)
  | check (version : Text) (sizeBytes : Nat) (sha256 : Text)
  | discard (version : Text) (effect : Bool)
  | listed (free : Bool)
  | record (version : Text) (sizeBytes : Nat) (sha256 : Text)
  | publish (version : Text) (sizeBytes : Nat) (sha256 : Text)
  | register
  | enroll (freshId tokenHash : Text)
  | candidate (runnerId : Text)
  | activate (runnerId : Text)
  | deleteSource (done : Bool)
  | complete
  | revoke
  | deleteCandidate
  | clear

/-- A claimed operation, what its dispatch has read, and where the worker is. -/
structure Worker where
  operation : Operation
  archive : Option Archive := none
  runtime : Option Runtime := none
  stage : Stage := .dispatching

namespace Worker
variable (naming : Naming) (w : Worker)

def token : Text := w.operation.leaseToken.getD []

def candidateName : Text :=
  w.operation.candidateSpriteId.getD (naming.candidate w.operation.userId w.operation.jobId)

def spriteName : Text := (w.runtime.map (·.spriteName)).getD []

def runnerId : Text := (w.runtime.map (·.runnerId)).getD []

def deleteFiles (spriteName : Text) (suppressed : Bool) : List (Call × Bool) :=
  [.job, .result, .archive, .release].map fun file => (.deleteFile spriteName file, suppressed)

def startServices (spriteName : Text) (suppressed : Bool) : List (Call × Bool) :=
  [(.startService spriteName .sidecar, suppressed), (.startService spriteName .runner, suppressed)]

def restoreCreateRuntime : List (Call × Bool) :=
  [(.stopMaintenance w.spriteName, true), (.deleteMaintenance w.spriteName, true)] ++
    startServices w.spriteName true ++
    [(.releaseMaintenance w.runnerId, true)]

def recoverFailedCreate : List (Call × Bool) := w.restoreCreateRuntime ++ deleteFiles w.spriteName true

def resumeSource : List (Call × Bool) :=
  [(.writeRelease w.spriteName, false), (.deleteMaintenance w.spriteName, false)] ++
    startServices w.spriteName false ++
    [(.releaseMaintenance w.runnerId, false)]

def resumeRestoreSource : List (Call × Bool) :=
  if w.operation.sourceLost then []
  else
    ((w.operation.sourceSpriteId.map fun spriteName => startServices spriteName true).getD []) ++
      ((w.operation.sourceRunnerId.map fun runnerId => [(Call.releaseMaintenance runnerId, true)]).getD [])

def ending (raised : Bool) : Stage := if raised then .failing .restoreFailed else .ended

/-- The handlers of `_coordinate_create` after the upload metadata was recorded. -/
def handle (resumed cancelled : Bool) : Stage :=
  if resumed ∧ cancelled then .mending else .calling w.restoreCreateRuntime .ended .ended

def finish : Stage :=
  if w.operation.sourceLost then
    .calling (deleteFiles (w.candidateName naming) true) .completing .ended else .finishing

def isCancelled (input : Input) : Bool := input = .cancelled

def planDelete (stage : Stage) (input : Input) : Option (Action × (Reply → Stage)) :=
  match stage, input with
  | .removing, .ok => some (.removeObject true, fun _ => .retiring)
  | .removing, .raises => some (.removeObject false, fun _ => .failing .deletionFailed)
  | .removing, .lost => some (.removeObject true, fun _ => .failing .deletionFailed)
  | .removing, .cancelled => some (.removeObject true, fun _ => .ended)
  | .retiring, .ok => some (.retire, fun reply => if reply = .raised then .failing .deletionFailed else .ended)
  | .retiring, .raises => some (.pass, fun _ => .failing .deletionFailed)
  | _, _ => none

def planBuild (stage : Stage) (input : Input) : Option (Action × (Reply → Stage)) :=
  match stage, input with
  | .quiescing, .ok => some (.call (.quiesceRunner w.runnerId), fun _ => .building)
  | .quiescing, .raises | .quiescing, .cancelled => some (.call (.quiesceRunner w.runnerId), fun _ => .ended)
  | .building, .result sizeBytes sha256 => some (.pass, fun _ => .downloading sizeBytes sha256)
  | .building, .raises | .building, .cancelled =>
    some (.pass, fun _ => .calling w.recoverFailedCreate .ended .ended)
  | .downloading sizeBytes sha256, .ok => some (.pass, fun _ => .intending sizeBytes sha256)
  | .downloading _ _, .raises | .downloading _ _, .cancelled => some (.pass, fun _ => w.handle false false)
  | .intending sizeBytes sha256, .ok => some (.intend sizeBytes sha256, fun reply =>
    match reply with
    | .yes => .uploading false sizeBytes sha256
    | .no => .calling w.recoverFailedCreate .ended (w.handle false false)
    | .raised | .named _ => w.handle false false)
  | .intending _ _, .raises => some (.pass, fun _ => w.handle false false)
  | _, _ => none

def planUpload (stage : Stage) (input : Input) : Option (Action × (Reply → Stage)) :=
  match stage, input with
  | .uploading resumed sizeBytes sha256, .put version putSize putDigest =>
    some (.put version putSize putDigest, fun _ => .confirming resumed version sizeBytes sha256)
  | .uploading resumed _ _, .raises | .uploading resumed _ _, .cancelled =>
    some (.pass, fun _ => w.handle resumed (isCancelled input))
  | .confirming resumed version sizeBytes sha256, .ok => some (.check version sizeBytes sha256, fun reply =>
    match reply with
    | .yes => .stored resumed version sizeBytes sha256
    | .no => .discarding resumed version sizeBytes sha256
    | .raised | .named _ => w.handle resumed false)
  | .confirming resumed _ _ _, .raises | .confirming resumed _ _ _, .cancelled =>
    some (.pass, fun _ => w.handle resumed (isCancelled input))
  | .discarding resumed version _ _, .ok | .discarding resumed version _ _, .lost =>
    some (.discard version true, fun _ => w.handle resumed false)
  | .discarding resumed version _ _, .raises => some (.discard version false, fun _ => w.handle resumed false)
  | .discarding resumed version _ _, .cancelled =>
    some (.discard version true, fun _ => w.handle resumed true)
  | .stored resumed version sizeBytes sha256, .ok => some (.record version sizeBytes sha256, fun reply =>
    match reply with
    | .yes => .calling w.resumeSource (.publishing resumed version sizeBytes sha256) .ended
    | .no => if resumed then .ended else .calling w.recoverFailedCreate .ended .ended
    | .raised | .named _ => .ended)
  | .publishing resumed version sizeBytes sha256, .ok => some (.publish version sizeBytes sha256, fun reply =>
    match reply with
    | .yes => .calling (deleteFiles w.spriteName false) .ended .ended
    -- A creation that was not resumed does not look at what the publication answered.
    | .no => if resumed then .ended else .calling (deleteFiles w.spriteName false) .ended .ended
    | .raised | .named _ => .ended)
  | .stored _ _ _ _, .raises | .publishing _ _ _ _, .raises => some (.pass, fun _ => .ended)
  | _, _ => none

def planReconcile (stage : Stage) (input : Input) : Option (Action × (Reply → Stage)) :=
  match stage, input with
  | .reconciling _ sizeBytes sha256, .found version => some (.check version sizeBytes sha256, fun reply =>
    match reply with
    | .yes => .stored true version sizeBytes sha256
    | .no => .discarding true version sizeBytes sha256
    | .raised | .named _ => w.handle true false)
  | .reconciling again sizeBytes sha256, .pending => some (.pass, fun _ =>
    if again then w.handle true false else .renewing sizeBytes sha256)
  | .reconciling _ sizeBytes sha256, .absent => some (.listed true, fun _ => .preserving sizeBytes sha256)
  | .reconciling _ _ _, .raises | .reconciling _ _ _, .cancelled =>
    some (.pass, fun _ => w.handle true (isCancelled input))
  | .renewing sizeBytes sha256, .ok => some (.renew, fun reply =>
    if reply = .yes then .aborting sizeBytes sha256 else .ended)
  | .renewing _ _, .raises => some (.pass, fun _ => .ended)
  | .renewing _ _, .cancelled => some (.renew, fun _ => .ended)
  | .aborting sizeBytes sha256, .ok => some (.pass, fun _ => .reconciling true sizeBytes sha256)
  | .aborting _ _, .raises | .aborting _ _, .cancelled =>
    some (.pass, fun _ => w.handle true (isCancelled input))
  | .preserving sizeBytes sha256, .ok => some (.pass, fun _ => .uploading true sizeBytes sha256)
  | .preserving _ _, .raises | .preserving _ _, .cancelled =>
    some (.pass, fun _ => w.handle true (isCancelled input))
  | .mending, .ok => some (.renew, fun reply => if reply = .yes then w.handle false false else .ended)
  | .mending, .raises | .mending, .cancelled => some (.renew, fun _ => .ended)
  | _, _ => none

def planRestore (stage : Stage) (input : Input) : Option (Action × (Reply → Stage)) :=
  match stage, input with
  | .provisioning, .ok => some (.register, fun reply => if reply = .raised then .revoking true else .enrolling)
  | .enrolling, .ok => w.operation.candidateRunnerId.map fun runnerId => (.pass, fun _ => .recording runnerId)
  | .enrolling, .enrolled freshId tokenHash =>
    if w.operation.candidateRunnerId = none then
      some (.enroll freshId tokenHash, fun reply =>
        match reply with
        | .named runnerId => .installing runnerId
        | .yes | .no | .raised => .revoking true)
    else none
  | .enrolling, .raises => some (.pass, fun _ => .revoking true)
  | .enrolling, .cancelled => some (.pass, fun _ => .revoking false)
  | .installing runnerId, .ok => some (.pass, fun _ => .recording runnerId)
  | .installing _, .raises => some (.pass, fun _ => .revoking true)
  | .installing _, .cancelled => some (.pass, fun _ => .revoking false)
  | .recording runnerId, .ok =>
    if w.operation.candidateSpriteId = none then
      some (.candidate runnerId, fun reply =>
        match reply with
        | .yes => .preparing runnerId
        | .no => .revoking false
        | .raised | .named _ => .failing .restoreFailed)
    else some (.pass, fun _ => .preparing runnerId)
  | .recording _, .raises => some (.pass, fun _ => .failing .restoreFailed)
  | .preparing runnerId, .ok => some (.pass, fun _ => .activating runnerId)
  | .preparing _, .raises => some (.pass, fun _ => .revoking true)
  | .preparing _, .cancelled => some (.pass, fun _ => .revoking false)
  | .activating runnerId, .ok => some (.activate runnerId, fun reply =>
    match reply with
    | .yes => w.finish naming
    | .no => .revoking false
    | .raised | .named _ => .revoking true)
  | .provisioning, .raises | .activating _, .raises => some (.pass, fun _ => .revoking true)
  | _, _ => none

def planCleanup (stage : Stage) (input : Input) : Option (Action × (Reply → Stage)) :=
  match stage, input with
  | .finishing, .ok => some (.deleteSource true, fun _ =>
    .calling (deleteFiles (w.candidateName naming) true) .completing .ended)
  | .finishing, .raises => some (.deleteSource false, fun _ => .failing .restoreFailed)
  | .finishing, .cancelled => some (.deleteSource false, fun _ => .ended)
  | .completing, .ok =>
    some (.complete, fun reply => if reply = .raised then .failing .restoreFailed else .ended)
  | .completing, .raises => some (.pass, fun _ => .failing .restoreFailed)
  | .revoking raised, .ok => some (.revoke, fun _ => .dropping raised)
  | .revoking raised, .raises => some (.pass, fun _ => .dropping raised)
  | .dropping raised, .ok => some (.deleteCandidate, fun _ => .clearing raised)
  | .dropping raised, .raises =>
    some (.deleteCandidate, fun _ => .calling w.resumeRestoreSource (ending raised) .ended)
  | .dropping _, .cancelled => some (.deleteCandidate, fun _ => .ended)
  | .clearing raised, .ok =>
    some (if w.operation.candidateRunnerId = none ∨ w.operation.candidateSpriteId = none then .pass else .clear,
      fun _ => .calling w.resumeRestoreSource (ending raised) .ended)
  | .clearing raised, .raises => some (.pass, fun _ => .calling w.resumeRestoreSource (ending raised) .ended)
  | _, _ => none

def planCalls (stage : Stage) (input : Input) : Option (Action × (Reply → Stage)) :=
  match stage, input with
  | .calling [] after _, .ok => some (.pass, fun _ => after)
  | .calling (call :: rest) after stopped, .ok => some (.call call.1, fun _ => .calling rest after stopped)
  | .calling (call :: rest) after stopped, .raises =>
    some (.call call.1, fun _ => if call.2 then .calling rest after stopped else stopped)
  | .calling (call :: _) _ stopped, .cancelled => some (.call call.1, fun _ => stopped)
  | .failing failure, .ok => some (.fail failure, fun _ => .ended)
  | .failing _, .raises => some (.pass, fun _ => .ended)
  | _, _ => none

def plan (input : Input) : Option (Action × (Reply → Stage)) :=
  match w.stage with
  | .dispatching | .ended => none
  | .calling _ _ _ | .failing _ => planCalls w.stage input
  | .removing | .retiring => planDelete w.stage input
  | .quiescing | .building | .downloading _ _ | .intending _ _ => w.planBuild w.stage input
  | .uploading _ _ _ | .confirming _ _ _ _ | .discarding _ _ _ _ | .stored _ _ _ _ | .publishing _ _ _ _ =>
    w.planUpload w.stage input
  | .reconciling _ _ _ | .renewing _ _ | .aborting _ _ | .preserving _ _ | .mending =>
    w.planReconcile w.stage input
  | .provisioning | .enrolling | .installing _ | .recording _ | .preparing _ | .activating _ =>
    w.planRestore naming w.stage input
  | .finishing | .completing | .revoking _ | .dropping _ | .clearing _ => w.planCleanup naming w.stage input

def dispatchDelete (archive : Archive) : Stage :=
  if archive.status ≠ .deleting ∨ archive.objectVersion = none then .ended else .removing

def dispatchRestore (archive : Archive) : Stage :=
  if w.operation.leaseToken = none ∨ w.operation.sourceRunnerId = none ∨ w.operation.sourceSpriteId = none ∨
      archive.objectVersion = none ∨ archive.sizeBytes = none ∨ archive.sha256 = none then .ended
  else if w.operation.phase ≠ .activated then .provisioning
  else if w.operation.candidateSpriteId = none then .failing .restoreFailed
  else w.finish naming

def dispatchCreate (archive : Archive) (runtime : Runtime) : Stage :=
  let w := { w with runtime := some runtime }
  if runtime.generation ≠ w.operation.runtimeGeneration then .ended
  else if archive.status = .uploaded then
    if archive.objectVersion = none ∨ archive.sizeBytes = none ∨ archive.sha256 = none then .ended
    else .calling w.resumeSource
      (.publishing true (archive.objectVersion.getD []) (archive.sizeBytes.getD 0)
          (archive.sha256.getD [])) .ended
  else if w.operation.phase = .objectUploading then
    if archive.sizeBytes = none ∨ archive.sha256 = none then .ended
    else .reconciling false (archive.sizeBytes.getD 0) (archive.sha256.getD [])
  else .quiescing

/-- `_coordinate_operation`, which reads the archive, the runtime and its runner. -/
def dispatch (db : Database) : Worker :=
  let archive := db.archive w.operation.userId w.operation.archiveId
  let runtime := (db.runtimeOf w.operation.userId).filter fun runtime =>
    (db.runnerOf w.operation.userId .managed).any (·.id = runtime.runnerId)
  let stage := match w.operation.operation with
    | .delete => (archive.map dispatchDelete).getD .ended
    | .restore => (archive.map (w.dispatchRestore naming)).getD .ended
    | .create => (archive.bind fun archive => runtime.map (w.dispatchCreate archive)).getD .ended
  { w with archive := archive, runtime := runtime, stage := stage }

end Worker

end Yinshi.Backup
