import Yinshi.Threads.Transactions

/-! Result drafts: reports, the derived fallback and the seal, as write transactions. -/

namespace Yinshi.Threads
open ByteText Keyed Checked

structure FinalizationContext where
  repoId : Text
  workspacePath : Text
  repoPath : Text
  deriving DecidableEq

/-- A captured seal intent; `terminal` holds the run and the status that an observer recorded. -/
structure SealIntent where
  delegationId : Text
  childSessionId : Text
  childWorkspaceId : Text
  baseCommit : Text
  parentSessionId : Text
  gitArtifactsClaimed : Bool
  gitArtifactNamespace : Option Text
  resultVersion : Nat
  context : FinalizationContext
  terminal : Option (Text × Status) := none
  deriving DecidableEq

structure Finalized where
  baseCommit : Text
  resultCommit : Text
  resultRef : Text
  changedFiles : List Text

namespace Database

def insertResult (db : Database) (row : ResultRow) : Database := { db with results := db.results ++ [row] }

/-- `UPDATE thread_results SET ... WHERE delegation_id = ? AND sealed = 0 AND version = ?`. -/
def updateResult (db : Database) (delegationId : Text) (version : Nat)
    (write : ResultRow → ResultRow) : Database :=
  { db with results := db.results.map fun row =>
      if row.delegationId = delegationId ∧ row.sealed = false ∧ row.version = version then write row
      else row }

def updateResultCount (db : Database) (delegationId : Text) (version : Nat) : Nat :=
  db.results.countP fun row => row.delegationId = delegationId ∧ row.sealed = false ∧ row.version = version

end Database

section Results
variable (digest : Text → Text) (settings : Settings) (request : Request) (guard : Guard) (db : Database)

def loadFinalizationContext (workspaceId : Text) : Except ThreadError FinalizationContext := do
  let workspace ← orRaise .workspace (db.workspaceById workspaceId)
  rejectIf (workspace.delegated = false) .workspace
  let repo ← orRaise .workspace (db.repoById workspace.repoId)
  pure ⟨workspace.repoId, workspace.path, repo.rootPath⟩

def loadSealIntent (childSessionId : Text) (observedTerminal : Bool) : Except ThreadError SealIntent := do
  let row ← loadChildDelegation request db childSessionId
  rejectIf (observedTerminal = false ∧ row.status ∉ terminalStatuses) .notSealable
  let lacking : ThreadError := .sealConflict "delegation lacks its workspace or base identity"
  let childWorkspaceId ← orRaise lacking row.childWorkspaceId
  let baseCommit ← orRaise lacking row.baseCommit
  let result ← orRaise .draftMissing (db.resultOf row.id)
  let context ← loadFinalizationContext db childWorkspaceId
  pure {
    delegationId := row.id
    childSessionId := childSessionId
    childWorkspaceId := childWorkspaceId
    baseCommit := baseCommit
    parentSessionId := row.parentSessionId
    gitArtifactsClaimed := row.gitArtifactsClaimed
    gitArtifactNamespace := row.gitArtifactNamespace
    resultVersion := result.version
    context := context }

def validateSealIdentity (intent : SealIntent) (requireOwnership : Bool) : Except ThreadError Unit := do
  rejectIf (settings.hierarchyEnabled = false) .hierarchyDisabled
  guard db
  let row ← loadChildDelegation request db intent.childSessionId
  authorizeParent request db row.parentSessionId
  rejectIf (row.id ≠ intent.delegationId ∨ row.parentSessionId ≠ intent.parentSessionId ∨
    row.childWorkspaceId ≠ some intent.childWorkspaceId ∨ row.baseCommit ≠ some intent.baseCommit ∨
    row.gitArtifactNamespace ≠ intent.gitArtifactNamespace ∨
    row.gitArtifactsClaimed ≠ intent.gitArtifactsClaimed ∨ row.status ∉ terminalStatuses)
    (.sealConflict "Delegation identity changed during finalization.")
  rejectIf (requireOwnership = true ∧ (row.gitArtifactsClaimed = false ∨ row.gitArtifactNamespace = none))
    .gitOwnership
  let workspaceChanged : ThreadError := .sealConflict "Workspace identity changed during finalization."
  let workspace ← orRaise workspaceChanged (db.workspaceById intent.childWorkspaceId)
  let repo ← orRaise workspaceChanged (db.repoById workspace.repoId)
  rejectIf ((⟨workspace.repoId, workspace.path, repo.rootPath⟩ : FinalizationContext) ≠ intent.context)
    workspaceChanged
  let parentRepo ← sessionRepository db row.parentSessionId
  rejectIf (parentRepo ≠ intent.context.repoId)
    (.sealConflict "Parent repository changed during finalization.")
  rejectIf (((db.resultOf intent.delegationId).map (·.version)) ≠ some intent.resultVersion)
    (.sealConflict "Result version changed during finalization.")

def sealedGitFieldsMatch (row : ResultRow) (finalized : Finalized) : Prop :=
  row.baseCommit.getD [] = finalized.baseCommit ∧ row.resultCommit.getD
    [] = finalized.resultCommit ∧ row.resultRef.getD [] = finalized.resultRef

instance (row : ResultRow) (finalized : Finalized) : Decidable (sealedGitFieldsMatch row finalized) :=
  inferInstanceAs (Decidable (_ ∧ _))

def ResultRow.sealWith (row : ResultRow) (finalized : Finalized) : ResultRow :=
  { row with
    sealed := true
    baseCommit := some finalized.baseCommit
    resultCommit := some finalized.resultCommit
    resultRef := some finalized.resultRef
    changedFiles := finalized.changedFiles }

def checkTerminalRun (intent : SealIntent) : Except ThreadError Unit :=
  match intent.terminal with
  | none => .ok ()
  | some (runId, _) => do
      let key ← initialRunIdempotencyKey digest intent.delegationId
      rejectIf ((((db.prompts.runByKey intent.childSessionId key).filter (·.id = runId)).bind
          fun run => runStatusToDelegationStatus run.status) = none)
        (.sealConflict "initial run identity changed")

/-- `_commit_seal`. A draft that is sealed already is returned as it is. -/
def commitSeal (intent : SealIntent) (finalized : Finalized) : Except ThreadError (Database × ResultRow) := do
  validateSealIdentity settings request guard db intent true
  checkTerminalRun digest db intent
  let row ← orRaise .draftMissing (db.resultOf intent.delegationId)
  if row.sealed then do
    rejectIf (¬ sealedGitFieldsMatch row finalized)
      (.sealConflict "stored sealed Git metadata differs from this attempt")
    pure (db, row)
  else do
    rejectIf (db.updateResultCount intent.delegationId row.version ≠ 1)
      (.sealConflict "another writer sealed this draft first")
    let db := db.updateResult intent.delegationId row.version (·.sealWith finalized)
    let db := match intent.terminal with
      | none => db
      | some (_, status) => db.updateDelegations (·.id = intent.delegationId) fun row =>
        { row with
          status := if row.status ∈ terminalStatuses then row.status else status
          errorCode := none }
    pure (db, row.sealWith finalized)

def recordFinalizationFailure (intent : SealIntent) : Except ThreadError Database := do
  validateSealIdentity settings request guard db intent false
  pure (db.updateDelegations (fun row => row.id = intent.delegationId ∧
      ¬ ∃ result ∈ db.results, result.delegationId = intent.delegationId ∧ result.sealed = true)
    fun row => { row with errorCode := some "result_finalization_failed" })

def missingReportWarning : Text := text "Child did not submit a structured result report."

/-- The derived draft; `summary` is the last assistant message of the run. -/
def derivedResult (delegationId summary : Text) : ResultRow where
  delegationId := delegationId
  version := 1
  source := .derived
  summary := summary
  warnings := [missingReportWarning]

def adoptedStatus (current target : Status) : Status :=
  if current ∈ terminalStatuses then current else target

/-- What `_prepare_terminal_result` does once its delegation and its terminal run are known. -/
def adoptRun (row : Delegation) (childSessionId runId : Text) (target : Status) (summary : Text) :
    Except ThreadError (Database × Option SealIntent) :=
  if (db.resultOf row.id).any (·.sealed) then .ok (db, none)
  else do
    let db := if (db.resultOf row.id).isNone then db.insertResult (derivedResult row.id summary) else db
    let intent ← loadSealIntent request db childSessionId true
    let status := adoptedStatus row.status target
    pure (db.updateDelegations (·.id = row.id) fun row => { row with status := status },
      some { intent with terminal := some (runId, status) })

def prepareTerminalResult (childSessionId runId summary : Text) :
    Except ThreadError (Database × Option SealIntent) := do
  guard db
  match db.delegationByChild childSessionId with
  | none => pure (db, none)
  | some row => do
      let key ← initialRunIdempotencyKey digest row.id
      match ((db.prompts.runByKey childSessionId key).filter (·.id = runId)).bind
          fun run => runStatusToDelegationStatus run.status with
      | none => pure (db, none)
      | some target => adoptRun request db row childSessionId runId target summary

structure ReportBody where
  expectedVersion : Nat
  summary : Text
  tests : List TestEntry := []
  warnings : List Text := []
  deriving DecidableEq

def ReportBody.payload (body : ReportBody) : Payload := ⟨strip body.summary, body.tests, body.warnings⟩

def ResultRow.payload (row : ResultRow) : Payload := ⟨strip row.summary, row.tests, row.warnings⟩

def ReportBody.overwrite (body : ReportBody) (row : ResultRow) : ResultRow :=
  { row with
    version := row.version + 1
    summary := body.summary
    tests := body.tests
    warnings := body.warnings }

def ReportBody.draft (body : ReportBody) (delegationId : Text) : ResultRow where
  delegationId := delegationId
  version := 1
  source := .reported
  summary := body.summary
  tests := body.tests
  warnings := body.warnings

inductive Reported
  | receipt (version : Nat)
  | unchanged (version : Nat)
  | written (version : Nat)
  deriving DecidableEq

def writeReport (delegationId : Text) (body : ReportBody) : Except ThreadError (Database × Reported) :=
  match db.resultOf delegationId with
  | none => do
      rejectIf (body.expectedVersion ≠ 0) .versionConflict
      pure (db.insertResult (body.draft delegationId), .written 1)
  | some row => do
      rejectIf (row.sealed = true) .resultSealed
      if row.version ≠ body.expectedVersion then do
        rejectIf (row.payload ≠ body.payload) .versionConflict
        pure (db, .unchanged row.version)
      else pure (db.updateResult delegationId row.version body.overwrite, .written (row.version + 1))

def recordReportCall (db : Database) (call : ReportCall) : Except ThreadError Database := do
  rejectIf ((db.reportCall call.runId call.toolCallId).isSome ∨ call.toolCallId.length < 1 ∨
    256 < call.toolCallId.length) .integrity
  pure { db with reportCalls := db.reportCalls ++ [call] }

def reportResult (childSessionId : Text) (body : ReportBody) : Except ThreadError (Database × Reported) := do
  let row ← loadChildDelegation request db childSessionId
  writeReport db row.id body

/-- `_report_result_write` of an agent, whose run is the initial run of its session. -/
def reportAgentResult (caller : Caller) (body : ReportBody) : Except ThreadError (Database × Reported) := do
  authorizeCaller settings request db caller
  let row ← loadChildDelegation request db caller.sessionId
  let key ← initialRunIdempotencyKey digest row.id
  rejectIf ((db.prompts.runByKey caller.sessionId key).all (·.id ≠ caller.runId)) (.notFound caller.sessionId)
  match db.reportCall caller.runId caller.toolCallId with
  | some receipt => do
      rejectIf (receipt.delegationId ≠ row.id ∨ receipt.payload ≠ body.payload)
        (.conflict "report call payload changed")
      pure (db, .receipt receipt.version)
  | none => do
      let version := ((db.resultOf row.id).map (·.version)).getD 0
      let written ← writeReport db row.id { body with expectedVersion := version }
      let stored := version + 1
      let db ← recordReportCall written.1 ⟨caller.runId, caller.toolCallId, row.id, body.payload, stored⟩
      pure (db, .written stored)

end Results

end Yinshi.Threads
