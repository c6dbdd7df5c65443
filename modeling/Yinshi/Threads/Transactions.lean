import Yinshi.Threads.Bodies
import Yinshi.Threads.Tree

/-! The write transactions of the thread orchestration service. Each begins immediately and
commits or rolls back as a whole: it is a function of the committed tables that raises, or
returns the new tables with its result. -/

namespace Yinshi.Threads
open ByteText Keyed Checked

/-- `initial_run_idempotency_key`; `digest` is the UUID of the name in the URL namespace. -/
def initialRunIdempotencyKey (digest : Text → Text) (delegationId : Text) : Except ThreadError Text :=
  let normalized := lower (strip delegationId)
  if normalized.length = 32 ∧ ∀ c ∈ normalized, (48 ≤ c ∧ c ≤ 57) ∨ (97 ≤ c ∧ c ≤ 102) then
    .ok (digest normalized)
  else .error (.value "delegation_id must be 32 lowercase hexadecimal characters")

section Transactions
variable (digest : Text → Text) (settings : Settings) (request : Request) (guard : Guard) (db : Database)

/-- `ThreadParentGitContext`, as far as the database decides it. -/
structure ParentContext where
  delegationId : Text
  repoId : Text
  repoPath : Text
  parentWorkspaceId : Text
  parentWorkspacePath : Text
  deriving DecidableEq

def loadParentContext (workspaceId delegationId : Text) : Except ThreadError ParentContext := do
  let workspace ← orRaise .workspace (db.workspaceById workspaceId)
  rejectIf (workspace.ready = false) .workspace
  let repo ← orRaise .workspace (db.repoById workspace.repoId)
  pure ⟨delegationId, workspace.repoId, repo.rootPath, workspace.id, workspace.path⟩

structure SpawnCall where
  parentSessionId : Text
  idempotencyKey : Text
  body : Body
  retryOf : Option Text := none
  reservationId : Text
  createdAt : Nat := 0
  caller : Option Caller := none
  expectedContext : Option ParentContext := none

def authorizeSpawnParent (parentSessionId : Text) (caller : Option Caller) : Except ThreadError Unit := do
  authorizeParent request db parentSessionId
  match caller with
  | none => pure ()
  | some caller => do
      rejectIf (caller.sessionId ≠ parentSessionId) (.notFound parentSessionId)
      authorizeCaller settings request db caller

/-- `INSERT INTO thread_delegations`, unless a key, an index or a reference is violated. -/
def insertDelegation (row : Delegation) : Except ThreadError Database :=
  if (db.delegationById row.id).isSome ∨ (db.delegationByKey row.parentSessionId row.idempotencyKey).isSome ∨
      (db.sessionById row.parentSessionId).isNone ∨
      (∃ original ∈ row.retryOfDelegationId, (db.delegationById original).isNone ∧ original ≠ row.id) then
    .error .integrity
  else .ok { db with delegations := db.delegations ++ [row] }

def spawnsOf (db : Database) (parentSessionId runId : Text) : Nat :=
  db.delegations.countP fun row => row.parentSessionId = parentSessionId ∧
    row.delegatedByRunId = some runId ∧ row.initiator = .agent

def expectParentContext (workspaceId : Text) : Option ParentContext → Except ThreadError Unit
  | none => .ok ()
  | some expected => do
      let current ← loadParentContext db workspaceId expected.delegationId
      rejectIf (current ≠ expected) .gitOwnership

def admitSpawn (call : SpawnCall) : Except ThreadError Unit := do
  let workspace ← orRaise (.notFound call.parentSessionId) (db.workspaceOf call.parentSessionId)
  rejectIf (workspace.ready = false) (.notFound call.parentSessionId)
  expectParentContext db workspace.id call.expectedContext
  assertNoCancellation db call.parentSessionId
  enforceSpawnLimits settings request db call.parentSessionId
  match call.caller with
  | none => pure ()
  | some caller =>
    rejectIf (settings.maxSpawnsPerTurn ≤ spawnsOf db call.parentSessionId caller.runId)
      (.orchestration "spawn_limit_exceeded" "The current turn has reached its child spawn limit.")

/-- `_reserve`: the stored delegation of the key, or a new one. -/
def reserve (call : SpawnCall) : Except ThreadError (Database × Delegation) := do
  authorizeSpawnParent settings request db call.parentSessionId call.caller
  match db.delegationByKey call.parentSessionId call.idempotencyKey with
  | some existing => do
      assertSpawnReplayMatches existing call.body call.retryOf call.caller
      pure (db, existing)
  | none => do
      admitSpawn settings request db call
      let model ← normalizeModelRef call.body.model
      let row := call.body.reservation call.reservationId call.createdAt call.parentSessionId
        call.idempotencyKey call.retryOf call.caller model
      let db ← insertDelegation db row
      pure (db, row)

def existingSpawn (call : SpawnCall) (caller : Caller) : Except ThreadError (Option Delegation) := do
  authorizeParent request db call.parentSessionId
  rejectIf (caller.sessionId ≠ call.parentSessionId) (.notFound call.parentSessionId)
  authorizeCallerIdentity request db caller
  match db.delegationByKey call.parentSessionId call.idempotencyKey with
  | none => pure none
  | some row => do
      assertSpawnReplayMatches row call.body call.retryOf (some caller)
      pure (some row)

def claimGitArtifacts (parentSessionId reservationId gitSpace : Text) (caller : Option Caller) :
    Except ThreadError Database := do
  rejectIf (settings.hierarchyEnabled = false) .hierarchyDisabled
  authorizeSpawnParent settings request db parentSessionId caller
  let unavailable : ThreadError := .attachConflict "The provisioning reservation is no longer available."
  let row ← orRaise unavailable (db.delegationById reservationId)
  rejectIf (row.status ≠ .provisioning ∨ row.childSessionId ≠ none ∨ row.cancelScope ≠ none ∨
    row.gitArtifactsClaimed = true ∨ row.parentSessionId ≠ parentSessionId) unavailable
  assertNoCancellation db parentSessionId
  rejectIf (∃ other ∈ db.delegations, other.gitArtifactsClaimed = true ∧
    other.gitArtifactNamespace = some gitSpace)
    (.attachConflict "The thread Git namespace is already claimed.")
  pure (db.updateDelegations (·.id = reservationId) fun row =>
    { row with gitArtifactsClaimed := true, gitArtifactNamespace := some gitSpace })

/-- `_record_snapshot_intent`, given that the ref and the object name are well formed. -/
def recordSnapshotIntent (context : ParentContext)
    (parentSessionId reservationId gitSpace ref oid : Text) (caller : Option Caller) :
    Except ThreadError Database := do
  rejectIf (settings.hierarchyEnabled = false) .hierarchyDisabled
  authorizeSpawnParent settings request db parentSessionId caller
  assertNoCancellation db parentSessionId
  let unavailable : ThreadError := .attachConflict "The provisioning reservation is no longer available."
  let row ← orRaise unavailable (db.delegationById reservationId)
  rejectIf (row.parentSessionId ≠ parentSessionId ∨ row.status ≠ .provisioning ∨
    row.childSessionId ≠ none ∨ row.childWorkspaceId ≠ none ∨ row.cancelScope ≠ none ∨
    row.gitArtifactsClaimed = false ∨ row.gitArtifactNamespace ≠ some gitSpace) unavailable
  let changed : ThreadError := .attachConflict "The provisioning parent has changed."
  let place ← orRaise changed (db.location parentSessionId)
  rejectIf ((place.1.id, place.1.repoId, place.1.path, place.2.rootPath) ≠
    (context.parentWorkspaceId, context.repoId, context.parentWorkspacePath, context.repoPath)) changed
  rejectIf ((db.resultOf reservationId).isSome)
    (.attachConflict "The provisioning reservation already has a result.")
  rejectIf ((row.snapshotRef, row.baseCommit, row.baseKind) ≠ (none, none, none) ∧
    (row.snapshotRef, row.baseCommit, row.baseKind) ≠ (some ref, some oid, some .snapshot))
    (.attachConflict "The snapshot intent has already been recorded.")
  pure (db.updateDelegations (·.id = reservationId) fun row =>
    { row with snapshotRef := some ref, baseCommit := some oid, baseKind := some .snapshot })

/-- The rows `attach` inserts and the staged Git base. -/
structure Attachment where
  delegationId : Text
  workspace : Workspace
  session : Session
  baseKind : BaseKind
  baseCommit : Text
  snapshotRef : Option Text := none

/-- `attach`: the child workspace, the child session and the queued status in one transaction. -/
def attach (attachment : Attachment) : Except ThreadError Database := do
  rejectIf ((db.workspaceById attachment.workspace.id).isSome ∨
    (db.sessionById attachment.session.id).isSome ∨
    attachment.session.workspaceId ≠ attachment.workspace.id) .integrity
  let selected := fun row : Delegation => row.id = attachment.delegationId ∧ row.status = .provisioning
  rejectIf (db.updateCount selected ≠ 1) (.attachConflict "child attach lost the reservation")
  let db := db.updateDelegations selected fun row => { row with
    childWorkspaceId := some attachment.workspace.id
    childSessionId := some attachment.session.id
    baseKind := some attachment.baseKind
    baseCommit := some attachment.baseCommit
    snapshotRef := attachment.snapshotRef
    status := .queued }
  pure { db with
    workspaces := db.workspaces ++ [attachment.workspace]
    sessions := db.sessions ++ [attachment.session] }

def failReservation (delegationId : Text) : Database :=
  db.updateDelegations (fun row => row.id = delegationId ∧ row.status = .provisioning ∧
      row.childSessionId = none ∧ row.childWorkspaceId = none) fun row => { row with
    status := .failed
    errorCode := some "provision_failed"
    errorDetailSafe := some "child workspace provisioning failed" }

/-- `_claim_provisioning_cancel`: whether the claim won and whether a child is attached. -/
def claimProvisioningCancel (delegationId : Text) : Database × Bool × Bool :=
  let selected := fun row : Delegation => row.id = delegationId ∧ row.status = .provisioning
  (db.updateDelegations selected fun row => { row with status := .cancelled },
    db.updateCount selected = 1, (db.delegationById delegationId).any (·.childSessionId.isSome))

/-- `_claim_stale_provisioning`; `stale` tells the rows last written before the threshold. -/
def claimStaleProvisioning (stale : Delegation → Bool) (parentSessionId : Option Text)
    (delegationIds : Option (List Text)) : Except ThreadError (Database × List Text) := do
  guard db
  let selected := fun row : Delegation => row.status = .provisioning ∧ row.childSessionId = none ∧
    stale row = true ∧ (∀ parent ∈ parentSessionId, row.parentSessionId = parent) ∧
    ∀ ids ∈ delegationIds, row.id ∈ ids
  pure (db.updateDelegations selected fun row => { row with
      status := .interrupted
      errorCode := some "provisioning_stale"
      errorDetailSafe := some "stale provisioning was interrupted before completion" },
    (db.delegations.filter (selected ·)).map (·.id))

/-- `_OWNED_CLEANUP_FROM`: the claimed artifacts of a terminal reservation without a child. -/
def ownedCleanup (row : Delegation) : Prop :=
  row.gitArtifactsClaimed = true ∧ row.childSessionId = none ∧ row.childWorkspaceId = none ∧
    row.status ∈ terminalStatuses ∧ db.resultOf row.id = none

instance (row : Delegation) : Decidable (ownedCleanup db row) := inferInstanceAs (Decidable (_ ∧ _))

def ownedCleanupRow (delegationId : Text) : Option Delegation :=
  (db.delegationById delegationId).filter (ownedCleanup db ·)

/-- `release` of a cleanup: the claim is given up after the artifacts are gone. -/
def releaseCleanup (original : Delegation) : Except ThreadError Database := do
  guard db
  let row ← orRaise .gitOwnership (ownedCleanupRow db original.id)
  rejectIf (row.gitArtifactNamespace ≠ original.gitArtifactNamespace ∨ row.status ≠ original.status ∨
    row.parentSessionId ≠ original.parentSessionId ∨ row.snapshotRef ≠ original.snapshotRef ∨
    row.baseCommit ≠ original.baseCommit ∨ row.baseKind ≠ original.baseKind) .gitOwnership
  pure (db.updateDelegations (fun row => row.id = original.id ∧
      row.gitArtifactNamespace = original.gitArtifactNamespace ∧ row.gitArtifactsClaimed = true)
    fun row => { row with gitArtifactsClaimed := false })

def cancelQueued (delegationId : Text) : Database :=
  db.updateDelegations (fun row => row.id = delegationId ∧ row.status = .queued)
    fun row => { row with status := .cancelled }

def markRunning (delegationId : Text) : Except ThreadError Database := do
  guard db
  pure (db.updateDelegations (fun row => row.id = delegationId ∧ row.status = .queued)
    fun row => { row with status := .running })

def failQueuedStart (delegationId : Text) : Except ThreadError Database := do
  guard db
  pure (db.updateDelegations (fun row => row.id = delegationId ∧ row.status = .queued)
    fun row => { row with
      status := .failed
      errorCode := some "start_failed"
      errorDetailSafe := some "initial prompt run failed to start" })

def claimCancelling (delegationId : Text) : Database × Nat :=
  let selected := fun row : Delegation => row.id = delegationId ∧ row.status = .running
  (db.updateDelegations selected fun row => { row with status := .cancelling }, db.updateCount selected)

def adoptTerminalCancellation (delegationId : Text) (target : Status) : Database :=
  db.updateDelegations (fun row => row.id = delegationId ∧ row.status = .cancelling)
    fun row => { row with status := target }

/-- `_admit_initial_run`, the guard of the acceptance transaction. -/
def admitInitialRun (delegationId : Text) (childSessionId : Text) : Except ThreadError Unit := do
  guard db
  let gone : ThreadError := .cancelPending "Child initial execution is no longer available."
  let row ← orRaise gone (db.delegationById delegationId)
  rejectIf (row.status ≠ .queued ∨ row.cancelScope ≠ none) gone
  assertNoCancellation db childSessionId
  rejectIf (settings.hierarchyEnabled = false ∨
    (row.initiator = .agent ∧ settings.agentDelegationEnabled = false)) .hierarchyDisabled
  rejectIf (row.initiator = .agent ∧ ∀ runId ∈ row.delegatedByRunId,
      ((db.prompts.runOf runId row.parentSessionId).map (·.status)) ≠ some .running)
    (.orchestration "thread_actor_inactive" "The originating agent run is no longer active.")

/-- The write transaction of `journal.start` for the initial run: an existing run is returned
without the guard. -/
def acceptInitialRun (delegationId childSessionId runId : Text) :
    Except ThreadError (Database × Prompt.PromptRun) := do
  let key ← initialRunIdempotencyKey digest delegationId
  match db.prompts.runByKey childSessionId key with
  | some run => pure (db, run)
  | none => do
      admitInitialRun settings guard db delegationId childSessionId
      let run : Prompt.PromptRun := ⟨runId, childSessionId, key, .starting⟩
      let prompts ← orRaise .integrity (db.prompts.insertRun run)
      pure (db.withPrompts prompts, run)

def initialRun (row : Delegation) : Except ThreadError (Option Prompt.PromptRun) := do
  let key ← initialRunIdempotencyKey digest row.id
  pure (row.childSessionId.bind fun child => db.prompts.runByKey child key)

structure Selection where
  frontier : List (Delegation × Nat)
  targets : List Delegation

/-- One child that the walk selects; `resolve` authorizes it. -/
def Selection.add (resolve : Text → Except ThreadError Delegation) (depth : Nat)
    (selection : Selection) (seen : List Text) (identifier : Text) :
    Except ThreadError (Selection × List Text) := do
  rejectIf (identifier ∈ seen ∨ 500 ≤ seen.length)
    (.treeLimit "cancellation tree exceeds its graph bound")
  let row ← resolve identifier
  pure (⟨selection.frontier ++ [(row, depth + 1)], selection.targets ++ [row]⟩, seen ++ [identifier])

def Selection.addAll (resolve : Text → Except ThreadError Delegation) (depth : Nat) :
    Selection → List Text → List Text → Except ThreadError (Selection × List Text)
  | selection, seen, [] => .ok (selection, seen)
  | selection, seen, identifier :: identifiers => do
      let next ← selection.add resolve depth seen identifier
      Selection.addAll resolve depth next.1 next.2 identifiers

/-- `SELECT id FROM thread_delegations WHERE parent_session_id = ? ORDER BY id LIMIT 501`. -/
def childIds (sessionId : Text) : List Text :=
  (sortBy id ((db.delegations.filter (·.parentSessionId = sessionId)).map (·.id))).take 501

/-- The loop of `_cancel_targets`; every turn takes one target off the frontier. -/
def selectTargets (resolve : Text → Except ThreadError Delegation) :
    Nat → Selection → List Text → Except ThreadError Selection
  | 0, selection, _ => .ok selection
  | turns + 1, selection, seen =>
    match selection.frontier with
    | [] => .ok selection
    | (parent, depth) :: frontier =>
      match parent.childSessionId with
      | none => selectTargets resolve turns { selection with frontier := frontier } seen
      | some child => do
          rejectIf (childIds db child ≠ [] ∧ 32 ≤ depth)
            (.treeLimit "cancellation tree exceeds the depth bound")
          let next ← Selection.addAll resolve depth { selection with frontier := frontier } seen
            (childIds db child)
          selectTargets resolve turns next.1 next.2

/-- `_cancel_targets`: the root and, for a cascade, its whole subtree. -/
def cancelTargets (threadId : Text) (caller : Option Caller) (cascade : Bool) :
    Except ThreadError (List Delegation) := do
  let resolve := match caller with
    | some caller => authorizeDescendant settings request db caller
    | none => resolveCancelTarget request db
  let root ← resolve threadId
  if cascade ∨ root.cancelScope = some .subtree then
    (·.targets) <$> selectTargets db resolve 501 ⟨[(root, 0)], [root]⟩ [root.id]
  else pure [root]

/-- The scope `_claim_cancel_targets` writes to the target at a position. -/
def claimedScope (cascade : Bool) (position : Nat) (row : Delegation) : CancelScope :=
  if position = 0 ∧ (cascade ∨ row.cancelScope = some .subtree) then .subtree else .self

/-- One update of `_claim_cancel_targets`: a stored subtree claim is kept. -/
def claimTarget (scope : CancelScope) (delegationId : Text) : Database :=
  db.updateDelegations (·.id = delegationId) fun row =>
    { row with cancelScope := if row.cancelScope = some .subtree then row.cancelScope else some scope }

def claimCancelTargets (threadId : Text) (caller : Option Caller) (cascade : Bool) :
    Except ThreadError (Database × List Delegation) := do
  let targets ← cancelTargets settings request db threadId caller cascade
  pure (targets.zipIdx.foldl (fun db entry =>
    claimTarget db (claimedScope cascade entry.2 entry.1) entry.1.id) db, targets)

def quiescent (row : Delegation) : Except ThreadError Bool :=
  if row.status ∈ terminalStatuses then do
    let run ← initialRun digest db row
    pure (run.all fun run => (runStatusToDelegationStatus run.status).isSome)
  else pure false

def completeRows : List Delegation → Except ThreadError (List Delegation)
  | [] => .ok []
  | target :: targets => do
      let rest ← completeRows targets
      match db.delegationById target.id with
      | none => pure rest
      | some row => do
          let done ← quiescent digest db row
          pure (if done then row :: rest else rest)

/-- `_clear_cancel_claims`: a subtree claim is kept until every target is complete. -/
def clearCancelClaims (targets : List Delegation) : Except ThreadError Database := do
  let complete ← completeRows digest db targets
  let allDone : Bool := complete.length = targets.length
  pure (complete.foldl (fun db row =>
    if row.cancelScope ≠ some .subtree ∨ allDone = true then
      db.updateDelegations (·.id = row.id) fun row => { row with cancelScope := none }
    else db) db)

end Transactions

end Yinshi.Threads
