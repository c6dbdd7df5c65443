import Yinshi.Base.Checked
import Yinshi.Prompt.Status

/-! The tables of the thread orchestration service and the statements on them. Times are
left out: whether a reservation is stale is an input of the statement that asks. -/

namespace Yinshi.Threads
open ByteText Keyed Checked

inductive Status
  | provisioning
  | queued
  | running
  | cancelling
  | completed
  | failed
  | cancelled
  | interrupted
  deriving DecidableEq

def activeStatuses : List Status := [.provisioning, .queued, .running, .cancelling]

def terminalStatuses : List Status := [.completed, .failed, .cancelled, .interrupted]

def allowedTransitions : Status → List Status
  | .provisioning => [.queued, .failed, .cancelled]
  | .queued => [.running, .failed, .cancelled]
  | .running => [.cancelling, .completed, .failed, .interrupted]
  | .cancelling => [.completed, .failed, .cancelled, .interrupted]
  | .completed | .failed | .cancelled | .interrupted => []

def canTransition (current target : Status) : Bool := target ∈ allowedTransitions current

def runStatusToDelegationStatus : Prompt.Status → Option Status
  | .completed => some .completed
  | .failed => some .failed
  | .cancelled => some .cancelled
  | .interrupted => some .interrupted
  | .starting | .running | .stopping => none

@[simp] theorem active_iff_not_terminal {status : Status} :
    status ∈ activeStatuses ↔ status ∉ terminalStatuses := by
  cases status <;> decide

theorem runStatus_terminal {status : Prompt.Status} {target : Status}
    (adopted : runStatusToDelegationStatus status = some target) :
    status ∈ Prompt.terminalStatuses ∧ target ∈ terminalStatuses := by
  cases status <;> simp only [runStatusToDelegationStatus, reduceCtorEq, Option.some.injEq] at adopted <;>
    subst adopted <;> decide

inductive CancelScope
  | self
  | subtree
  deriving DecidableEq

inductive Initiator
  | user
  | agent
  deriving DecidableEq

inductive Role
  | general
  | research
  | implementation
  | test
  | review
  | debug
  deriving DecidableEq

inductive BaseKind
  | head
  | snapshot
  deriving DecidableEq

structure Repo where
  id : Text
  rootPath : Text
  ownerEmail : Option Text := none
  deriving DecidableEq

structure Workspace where
  id : Text
  repoId : Text
  path : Text
  ready : Bool := true
  delegated : Bool := false
  parentWorkspaceId : Option Text := none
  deriving DecidableEq

structure Session where
  id : Text
  workspaceId : Text
  title : Option Text := none
  deriving DecidableEq

structure Delegation where
  id : Text
  createdAt : Nat := 0
  parentSessionId : Text
  childSessionId : Option Text := none
  childWorkspaceId : Option Text := none
  idempotencyKey : Text
  initiator : Initiator := .user
  delegatedByRunId : Option Text := none
  delegatedByToolCallId : Option Text := none
  title : Text
  task : Text
  context : Option Text := none
  role : Role := .general
  requestedModel : Text
  requestedThinking : Option Text := none
  status : Status := .provisioning
  baseKind : Option BaseKind := none
  baseCommit : Option Text := none
  snapshotRef : Option Text := none
  errorCode : Option String := none
  errorDetailSafe : Option String := none
  retryOfDelegationId : Option Text := none
  autoStart : Bool := true
  gitArtifactsClaimed : Bool := false
  gitArtifactNamespace : Option Text := none
  cancelScope : Option CancelScope := none
  deriving DecidableEq

inductive TestStatus
  | passed
  | failed
  | skipped
  deriving DecidableEq

structure TestEntry where
  command : Text
  status : TestStatus
  summary : Option Text
  deriving DecidableEq

inductive Source
  | reported
  | derived
  deriving DecidableEq

/-- A row of `thread_results`. The JSON columns hold what they parse to. -/
structure ResultRow where
  delegationId : Text
  version : Nat
  source : Source
  sealed : Bool := false
  summary : Text
  tests : List TestEntry := []
  warnings : List Text := []
  baseCommit : Option Text := none
  resultCommit : Option Text := none
  resultRef : Option Text := none
  changedFiles : List Text := []
  deriving DecidableEq

structure Payload where
  summary : Text
  tests : List TestEntry
  warnings : List Text
  deriving DecidableEq

structure ReportCall where
  runId : Text
  toolCallId : Text
  delegationId : Text
  payload : Payload
  version : Nat
  deriving DecidableEq

structure Database where
  repos : List Repo := []
  workspaces : List Workspace := []
  sessions : List Session := []
  runs : List Prompt.PromptRun := []
  events : List Prompt.EventRow := []
  delegations : List Delegation := []
  results : List ResultRow := []
  reportCalls : List ReportCall := []
  deriving DecidableEq

/-- What the service raises, with the code of the source. -/
inductive ThreadError
  | orchestration (code message : String)
  | notFound (id : Text)
  | cycle (message : String)
  | treeSize (message : String)
  | gitOwnership
  | workspace
  | value (message : String)
  | integrity
  deriving DecidableEq

namespace ThreadError

def hierarchyDisabled : ThreadError :=
  orchestration "thread_hierarchy_disabled" "thread hierarchy is disabled"
def notAuthorized (message : String) : ThreadError := orchestration "parent_not_authorized" message
def cancelPending (message : String) : ThreadError := orchestration "thread_cancel_pending" message
def treeLimit (message : String) : ThreadError := orchestration "tree_limit_exceeded" message
def conflict (message : String) : ThreadError := orchestration "idempotency_key_conflict" message
def attachConflict (message : String) : ThreadError := orchestration "attach_conflict" message
def versionConflict : ThreadError :=
  orchestration "result_version_conflict" "thread result draft version conflict"
def resultSealed : ThreadError := orchestration "result_sealed" "thread result is sealed"
def notSealable : ThreadError := orchestration "result_not_terminal" "thread result is not sealable yet"
def draftMissing : ThreadError :=
  orchestration "result_draft_missing" "no reported thread result draft exists"
def sealConflict (message : String) : ThreadError := orchestration "result_seal_conflict" message

end ThreadError

namespace Database

def delegationById (db : Database) (id : Text) : Option Delegation := db.delegations.find? (·.id = id)

/-- `SELECT * FROM thread_delegations WHERE child_session_id = ?`. -/
def delegationByChild (db : Database) (sessionId : Text) : Option Delegation :=
  db.delegations.find? (·.childSessionId = some sessionId)

/-- `SELECT * FROM thread_delegations WHERE parent_session_id = ? AND idempotency_key = ?`. -/
def delegationByKey (db : Database) (parentSessionId key : Text) : Option Delegation :=
  db.delegations.find? fun row => row.parentSessionId = parentSessionId ∧ row.idempotencyKey = key

def sessionById (db : Database) (id : Text) : Option Session := db.sessions.find? (·.id = id)

def workspaceById (db : Database) (id : Text) : Option Workspace := db.workspaces.find? (·.id = id)

def repoById (db : Database) (id : Text) : Option Repo := db.repos.find? (·.id = id)

def resultOf (db : Database) (delegationId : Text) : Option ResultRow :=
  db.results.find? (·.delegationId = delegationId)

/-- `SELECT * FROM thread_report_calls WHERE run_id = ? AND tool_call_id = ?`. -/
def reportCall (db : Database) (runId toolCallId : Text) : Option ReportCall :=
  db.reportCalls.find? fun call => call.runId = runId ∧ call.toolCallId = toolCallId

def workspaceOf (db : Database) (sessionId : Text) : Option Workspace :=
  (db.sessionById sessionId).bind fun session => db.workspaceById session.workspaceId

def location (db : Database) (sessionId : Text) : Option (Workspace × Repo) :=
  (db.workspaceOf sessionId).bind fun workspace =>
    (db.repoById workspace.repoId).map fun repo => (workspace, repo)

def prompts (db : Database) : Prompt.Database := ⟨db.sessions.map (·.id), db.runs, db.events⟩

def withPrompts (db : Database) (prompts : Prompt.Database) : Database :=
  { db with runs := prompts.runs, events := prompts.events }

def updateDelegations (db : Database) (selected : Delegation → Prop) [DecidablePred selected]
    (write : Delegation → Delegation) : Database :=
  { db with delegations := db.delegations.map fun row => if selected row then write row else row }

def updateCount (db : Database) (selected : Delegation → Prop) [DecidablePred selected] : Nat :=
  db.delegations.countP selected

end Database

structure Settings where
  hierarchyEnabled : Bool := true
  agentDelegationEnabled : Bool := true
  maxDepth : Nat := 1
  maxDirectChildren : Nat := 4
  maxActiveDescendants : Nat := 4
  maxTotal : Nat := 20
  maxSpawnsPerTurn : Nat := 4

/-- The authenticated request: in tenant mode the database is the tenant's own. -/
structure Request where
  tenant : Bool := true
  userEmail : Option Text := none

/-- A verified caller; `current` says that its tenant, its database and its expiry agree
with the request at the moment of the check. -/
structure Caller where
  sessionId : Text
  runId : Text
  toolCallId : Text
  current : Bool := true

abbrev Guard := Database → Except ThreadError Unit

def noGuard : Guard := fun _ => .ok ()

/-- `_authorize_session` and `_authorize_parent`, which differ in their message. -/
def authorize (message : String) (request : Request) (db : Database) (sessionId : Text) :
    Except ThreadError Unit :=
  if request.tenant then
    rejectIf ((db.sessionById sessionId).isNone) (.notFound sessionId)
  else do
    let place ← orRaise (.notFound sessionId) (db.location sessionId)
    rejectIf (∃ user ∈ request.userEmail, ∃ owner ∈ place.2.ownerEmail,
      user ≠ [] ∧ owner ≠ [] ∧ owner ≠ user) (.notAuthorized message)

def authorizeSession : Request → Database → Text → Except ThreadError Unit :=
  authorize "session is not owned by this user"

def authorizeParent : Request → Database → Text → Except ThreadError Unit :=
  authorize "parent session is not owned by this user"

/-- `_authorize_caller_identity`: the caller's run is its session's and is running. -/
def authorizeCallerIdentity (request : Request) (db : Database) (caller : Caller) :
    Except ThreadError Unit := do
  rejectIf (caller.current = false) (.notFound caller.sessionId)
  authorizeSession request db caller.sessionId
  rejectIf (((db.prompts.runOf caller.runId caller.sessionId).map (·.status)) ≠ some .running)
    (.notFound caller.sessionId)

def authorizeCaller (settings : Settings) (request : Request) (db : Database) (caller : Caller) :
    Except ThreadError Unit := do
  rejectIf (settings.hierarchyEnabled = false ∨ settings.agentDelegationEnabled = false)
    .hierarchyDisabled
  authorizeCallerIdentity request db caller

def loadChildDelegation (request : Request) (db : Database) (childSessionId : Text) :
    Except ThreadError Delegation := do
  authorizeSession request db childSessionId
  orRaise (.notFound childSessionId) (db.delegationByChild childSessionId)

/-- `_resolve_cancel_target`: a child session, or a delegation that has none. -/
def resolveCancelTarget (request : Request) (db : Database) (threadId : Text) :
    Except ThreadError Delegation :=
  match db.sessionById threadId with
  | some _ => loadChildDelegation request db threadId
  | none => do
      let row ← orRaise (.notFound threadId) (db.delegationById threadId)
      authorizeSession request db row.parentSessionId
      pure row

def sessionRepository (db : Database) (sessionId : Text) : Except ThreadError Text :=
  (·.repoId) <$> orRaise (.notFound sessionId) (db.workspaceOf sessionId)

end Yinshi.Threads
