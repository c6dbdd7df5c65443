import Yinshi.Replica.Protocol

/-! The events table of the replica lifecycle journal: what its schema refuses, and the
replay that gives a history its meaning. -/

namespace Yinshi.Replica
open ByteText Checked

inductive EventType
  | accepted | authorityClaimed | stageStarted | stageOutcome | stageRejected | stageUnresolved
  | lifecyclePaused | drainContinuationAccepted
  deriving DecidableEq

/-- The columns that `_event_values` fills, less the append receipt. -/
structure Values where
  databaseIncarnation : Text
  operationId : Text
  eventType : EventType
  stage : Option Stage := none
  requestFrame : Option Bytes := none
  requestFrameSha256 : Option Text := none
  requestBrokerIncarnation : Option Text := none
  requestType : Option RequestType := none
  requestNonce : Option Text := none
  requestConnectionSequence : Option Nat := none
  requestPayloadDigest : Option Text := none
  physicalTargetId : Option Text := none
  replicaGeneration : Option Int := none
  executionOwnerId : Option Text := none
  initialRequestSha256 : Option Text := none
  admissionReceiptId : Option Text := none
  applicationDrainIntentReceiptId : Option Text := none
  ownerToken : Option Text := none
  ownerBrokerIncarnation : Option Text := none
  stageStatus : Option Status := none
  receiptJson : Option Receipt := none
  unresolvedReason : Option Reason := none
  responseFrame : Option Bytes := none
  responseFrameSha256 : Option Text := none
  deriving DecidableEq

/-- A row. Its time is left out: the default of the schema always has the form that the
journal asks for. -/
structure Event extends Values where
  eventId : Nat
  appendReceiptId : Text
  deriving DecidableEq

def Values.identity (values : Values) : Text × Text := (values.databaseIncarnation, values.operationId)

/-- The rows in the order of their ids, and the counter of AUTOINCREMENT. -/
structure Table where
  rows : List Event := []
  sequence : Nat := 0
  deriving DecidableEq

def rowsFor (rows : List Event) (identity : Text × Text) : List Event :=
  rows.filter (·.identity = identity)

def sqlEq {α : Type} [DecidableEq α] (left right : Option α) : Bool := left.isSome && left == right

def EventType.isCompletion : EventType → Bool
  | .stageOutcome | .stageRejected | .stageUnresolved => true
  | _ => false

def Values.isTerminal (values : Values) : Bool :=
  values.eventType = .stageRejected || values.eventType = .stageUnresolved ||
    values.eventType = .stageOutcome && values.stage = some .reclaim

def EventType.isSingle : EventType → Bool
  | .accepted | .authorityClaimed | .lifecyclePaused | .drainContinuationAccepted => true
  | _ => false

def clashes (row new : Values) : Bool :=
  row.eventType.isSingle && row.eventType = new.eventType ||
    row.eventType = .stageStarted && new.eventType = .stageStarted && sqlEq row.stage new.stage ||
    row.eventType.isCompletion && new.eventType.isCompletion && sqlEq row.stage new.stage ||
    row.isTerminal && new.isTerminal

def Values.isForeignDrain (values : Values) : Bool :=
  values.eventType = .stageUnresolved && values.stage = some .drain &&
    values.unresolvedReason = some .brokerRestartUnknown

/-- `replica_journal_v2_require_transition`, on the rows of the same identity. -/
def requireTransition (rows : List Event) (new : Values) : Bool :=
  new.eventType = .accepted ||
    (rows.any (·.eventType = .accepted) &&
    (new.eventType = .authorityClaimed ||
      rows.any fun row => row.eventType = .authorityClaimed && sqlEq row.ownerToken new.ownerToken) &&
    (!new.eventType.isCompletion ||
      new.isForeignDrain && (rows.any fun row => row.eventType = .lifecyclePaused) ||
      rows.any fun row => row.eventType = .stageStarted && sqlEq row.stage new.stage &&
        sqlEq row.ownerToken new.ownerToken) &&
    (new.eventType ≠ .lifecyclePaused ||
      rows.any fun row => row.eventType = .stageOutcome && row.stage = some .admission &&
        row.stageStatus = some .completed && sqlEq row.ownerToken new.ownerToken) &&
    (new.eventType ≠ .drainContinuationAccepted ||
      rows.any fun row => row.eventType = .lifecyclePaused && sqlEq row.ownerToken new.ownerToken) &&
    (!((new.stage.any Stage.isContinuation) &&
        (new.eventType = .stageStarted || new.eventType.isCompletion) && !new.isForeignDrain) ||
      rows.any fun row => row.eventType = .drainContinuationAccepted) &&
    !rows.any fun row => row.isTerminal)

def Table.insert (table : Table) (appendReceiptId : Text) (new : Values) : Option Table :=
  let rows := rowsFor table.rows new.identity
  if requireTransition rows new && !(rows.any fun row => clashes row.toValues new) &&
      !(table.rows.any fun row => row.appendReceiptId = appendReceiptId) then
    some ⟨table.rows ++ [⟨new, table.sequence + 1, appendReceiptId⟩], table.sequence + 1⟩
  else none

/-- The transaction of `_append_many`. A refused insert rolls everything back, the counter
included. -/
def Table.append (table : Table) : List (Text × Values) → Option Table
  | [] => some table
  | (appendReceiptId, new) :: batch => do
      let inserted ← table.insert appendReceiptId new
      inserted.append batch

def Values.hasRequest (values : Values) : Bool :=
  values.requestFrame.isSome && values.requestFrameSha256.isSome && values.requestBrokerIncarnation.isSome &&
    values.requestType.isSome && values.requestNonce.isSome && values.requestConnectionSequence.isSome &&
    values.requestPayloadDigest.isSome && values.physicalTargetId.isSome && values.replicaGeneration.isSome &&
    values.executionOwnerId.isSome

def Values.noRequest (values : Values) : Bool :=
  values.requestFrame.isNone && values.requestFrameSha256.isNone && values.requestBrokerIncarnation.isNone &&
    values.requestType.isNone && values.requestNonce.isNone && values.requestConnectionSequence.isNone &&
    values.requestPayloadDigest.isNone && values.physicalTargetId.isNone && values.replicaGeneration.isNone &&
    values.executionOwnerId.isNone

def Values.hasContinuation (values : Values) : Bool :=
  values.initialRequestSha256.isSome && values.admissionReceiptId.isSome &&
    values.applicationDrainIntentReceiptId.isSome

def Values.noContinuation (values : Values) : Bool :=
  values.initialRequestSha256.isNone && values.admissionReceiptId.isNone &&
    values.applicationDrainIntentReceiptId.isNone

def Values.noStageResult (values : Values) : Bool :=
  values.stageStatus.isNone && values.receiptJson.isNone && values.unresolvedReason.isNone

def Values.noResponse (values : Values) : Bool :=
  values.responseFrame.isNone && values.responseFrameSha256.isNone

def Values.hasResponse (values : Values) : Bool :=
  values.responseFrame.isSome && values.responseFrameSha256.isSome

def validateFieldMatrix (values : Values) : Except JournalError Unit :=
  match values.eventType with
  | .accepted =>
    rejectIf (¬ (values.stage.isNone && values.hasRequest && values.noContinuation &&
        values.ownerToken.isNone && values.ownerBrokerIncarnation.isNone && values.noStageResult &&
        values.noResponse))
      (.sync "replica journal V2 acceptance fields are invalid")
  | .drainContinuationAccepted =>
    rejectIf (¬ (values.stage.isNone && values.hasRequest && values.hasContinuation &&
        values.ownerToken.isSome && values.ownerBrokerIncarnation.isNone && values.noStageResult &&
        values.noResponse))
      (.sync "replica journal V2 continuation fields are invalid")
  | other => do
      rejectIf (¬ (values.noRequest && values.noContinuation))
        (.sync "replica journal V2 nonrequest fields are invalid")
      let valid : Bool := match other with
        | .authorityClaimed =>
          values.stage.isNone && values.ownerToken.isSome && values.ownerBrokerIncarnation.isSome &&
            values.noStageResult && values.noResponse
        | .stageStarted =>
          values.stage.isSome && values.ownerToken.isSome && values.ownerBrokerIncarnation.isNone &&
            values.noStageResult && values.noResponse
        | .stageOutcome =>
          values.stage.isSome && values.ownerToken.isSome && values.ownerBrokerIncarnation.isNone &&
            values.stageStatus =
              some .completed && values.receiptJson.isSome && values.unresolvedReason.isNone &&
            (values.stage = some .reclaim) == values.responseFrame.isSome &&
            (values.stage = some .reclaim) == values.responseFrameSha256.isSome
        | .stageRejected =>
          values.ownerToken.isSome && values.ownerBrokerIncarnation.isNone &&
            (match values.stage, values.stageStatus with
              | some stage, some (.rejected status) => status ∈ rejectedStatuses stage
              | _, _ => false) &&
            values.receiptJson.isSome && values.unresolvedReason.isNone && values.hasResponse
        | .stageUnresolved =>
          values.stage.isSome && values.ownerToken.isSome && values.ownerBrokerIncarnation.isNone &&
            values.stageStatus.isNone && values.receiptJson.isNone && values.unresolvedReason.isSome &&
            values.hasResponse
        | .lifecyclePaused =>
          values.stage.isNone && values.ownerToken.isSome && values.ownerBrokerIncarnation.isNone &&
            values.noStageResult && values.hasResponse
        | _ => false
      rejectIf (¬ valid) (.sync "replica journal V2 event fields are invalid")

def Keys.validateRequestColumns (keys : Keys) (values : Values) (expectedType : RequestType) :
    Except JournalError BrokerRequest := do
  rejectIf (¬ values.hasRequest) (.sync "replica journal V2 request fields are incomplete")
  let frame ← orRaise (.sync "replica journal V2 request fields are incomplete") values.requestFrame
  let request ← keys.requestFromFrame frame
  rejectIf (values.requestFrameSha256 ≠ some (keys.sha256 frame) ∨
      some request.brokerIncarnation ≠ values.requestBrokerIncarnation ∨
      some request.requestType ≠ values.requestType ∨ some request.nonce ≠ values.requestNonce ∨
      some request.connectionSequence ≠ values.requestConnectionSequence ∨
      some request.payloadDigest ≠ values.requestPayloadDigest ∨
      request.databaseIncarnation ≠ values.databaseIncarnation ∨ request.operationId ≠ values.operationId ∨
      request.requestType ≠ expectedType)
    (.sync "replica journal V2 request binding is invalid")
  return request

/-- The state of the loop of `_replay`. Its last two fields are not part of a `_Replay`. -/
structure Replay where
  initialRequest : BrokerRequest
  initialRequestFrame : Bytes
  authority : ReplicaAuthority
  ownerToken : Option Text := none
  ownerBrokerIncarnation : Option Text := none
  nextStageIndex : Nat := 0
  stageStarted : Bool := false
  paused : Bool := false
  activeResponseFrame : Option Bytes := none
  drainRequest : Option BrokerRequest := none
  drainRequestFrame : Option Bytes := none
  continuation : Option ReplicaDrainContinuation := none
  terminalState : Option LifecycleState := none
  terminalStage : Option Stage := none
  terminalResponseFrame : Option Bytes := none
  receipts : Stage → Option Receipt := fun _ => none
  admissionPendingPause : Bool := false
  previousEventType : EventType := .accepted

namespace Replay
variable (keys : Keys) (replay : Replay) (values : Values)

def nextStage : Option Stage := stages[replay.nextStageIndex]?

def claim : Except JournalError Replay := do
  rejectIf (replay.ownerToken.isSome ∨ replay.previousEventType ≠ .accepted)
    (.sync "replica journal V2 authority order is invalid")
  rejectIf (values.ownerBrokerIncarnation ≠ some replay.initialRequest.brokerIncarnation)
    (.sync "replica journal V2 owner broker is invalid")
  rejectIf (¬ (values.ownerToken.any isToken && values.ownerBrokerIncarnation.any isToken))
    (.sync "replica journal V2 authority is malformed")
  return { replay with ownerToken := values.ownerToken, ownerBrokerIncarnation := values.ownerBrokerIncarnation }

def start : Except JournalError Replay := do
  rejectIf (replay.ownerToken.isNone ∨ values.ownerToken ≠ replay.ownerToken ∨ replay.stageStarted ∨
      (replay.paused ∧ replay.continuation.isNone) ∨ replay.nextStage.isNone ∨
        values.stage ≠ replay.nextStage)
    (.sync "replica journal V2 stage start order is invalid")
  return { replay with stageStarted := true }

def directForeignPause : Bool := values.isForeignDrain && replay.paused && !replay.stageStarted

def responseRequest (stage : Stage) : Option BrokerRequest :=
  if replay.directForeignPause values then some (replay.drainRequest.getD replay.initialRequest)
  else if stage.isContinuation then replay.drainRequest
  else some replay.initialRequest

def completing : Except JournalError (Stage × BrokerRequest) := do
  rejectIf (replay.ownerToken.isNone ∨ values.ownerToken ≠ replay.ownerToken ∨
      values.stage ≠ replay.nextStage ∨ ¬ (replay.stageStarted ∨ replay.directForeignPause values))
    (.sync "replica journal V2 completion order is invalid")
  let stage ← orRaise (.sync "replica journal V2 completion order is invalid") values.stage
  let request ←
    orRaise (.sync "replica journal V2 response request is missing")
      (replay.responseRequest values stage)
  return (stage, request)

def finish (state : LifecycleState) (stage : Stage) : Replay :=
  { replay with
    terminalState := some state
    terminalStage := some stage
    terminalResponseFrame := values.responseFrame }

def receive (stage : Stage) (receipt : Receipt) : Replay :=
  { replay with receipts := Function.update replay.receipts stage (some receipt) }

def proceed (stage : Stage) : Replay :=
  { replay with
    admissionPendingPause := replay.admissionPendingPause || stage = .admission
    nextStageIndex := replay.nextStageIndex + 1
    stageStarted := false }

def outcome : Except JournalError Replay := do
  let (stage, request) ← replay.completing values
  let receipt ← parseReceipt stage values.receiptJson
  validateReceiptBinding replay.initialRequest replay.authority receipt
  if stage = .reclaim then do
    keys.validateResponseFrame values.responseFrame request ⟨.reclaim, .completed, none, some receipt.id⟩
    return (replay.receive stage receipt).finish values .completed .reclaim
  else return (replay.receive stage receipt).proceed stage

def rejected : Except JournalError Replay := do
  let (stage, request) ← replay.completing values
  let receipt ← parseRejectedReceipt values.receiptJson
  match values.stageStatus with
  | some (.rejected status) => do
      rejectIf (status ∉ rejectedStatuses stage) (.sync "replica journal V2 rejection status is invalid")
      keys.validateResponseFrame values.responseFrame request
        ⟨stage, .rejected, some (.rejection status), some receipt.id⟩
      return replay.finish values .rejected stage
  | _ => .error (.sync "replica journal V2 rejection status is invalid")

def unresolved : Except JournalError Replay := do
  let (stage, request) ← replay.completing values
  match values.unresolvedReason with
  | some reason => do
      rejectIf (reason ∉ baseUnresolvedReasons ++ stageUnresolvedReasons stage)
        (.sync "replica journal V2 unresolved reason is invalid")
      keys.validateResponseFrame values.responseFrame request
        ⟨stage, .unresolved, some (.reason reason), none⟩
      return replay.finish values .unresolved stage
  | none => .error (.sync "replica journal V2 unresolved reason is invalid")

def pause : Except JournalError Replay := do
  let admission ← orRaise (.sync "replica journal V2 pause order is invalid") (replay.receipts .admission)
  rejectIf (¬ replay.admissionPendingPause ∨ values.ownerToken ≠ replay.ownerToken ∨ replay.paused)
    (.sync "replica journal V2 pause order is invalid")
  keys.validateResponseFrame values.responseFrame replay.initialRequest
    ⟨.admission, .active, none, some admission.id⟩
  return { replay with
    activeResponseFrame := values.responseFrame
    paused := true
    admissionPendingPause := false }

def «continue» : Except JournalError Replay := do
  rejectIf (¬ replay.paused ∨ replay.continuation.isSome ∨ values.ownerToken ≠ replay.ownerToken ∨
      replay.ownerBrokerIncarnation.isNone)
    (.sync "replica journal V2 continuation order is invalid")
  let request ← keys.validateRequestColumns values .drain
  let parsed ← replicaDrainContinuationFromRequest request
  rejectIf (parsed.authority ≠ replay.authority ∨
      values.physicalTargetId ≠ some parsed.authority.physicalTargetId ∨
      values.replicaGeneration ≠ some parsed.authority.replicaGeneration ∨
      values.executionOwnerId ≠ some parsed.authority.executionOwnerId ∨
      parsed.initialRequestSha256 ≠ keys.sha256 replay.initialRequestFrame ∨
      values.initialRequestSha256 ≠ some parsed.initialRequestSha256 ∨
      values.admissionReceiptId ≠ some parsed.admissionReceiptId ∨
      values.applicationDrainIntentReceiptId ≠ some parsed.applicationDrainIntentReceiptId ∨
      some request.brokerIncarnation ≠ replay.ownerBrokerIncarnation)
    (.sync "replica journal V2 continuation binding is invalid")
  rejectIf ((replay.receipts .admission).map Receipt.id ≠ some parsed.admissionReceiptId)
    (.sync "replica journal V2 continuation admission is invalid")
  return { replay with
    drainRequest := some request
    continuation := some parsed
    drainRequestFrame := values.requestFrame }

def dispatch : Except JournalError Replay :=
  match values.eventType with
  | .authorityClaimed => replay.claim values
  | .stageStarted => replay.start values
  | .stageOutcome => replay.outcome keys values
  | .stageRejected => replay.rejected keys values
  | .stageUnresolved => replay.unresolved keys values
  | .lifecyclePaused => replay.pause keys values
  | .drainContinuationAccepted => replay.continue keys values
  | .accepted => .error (.sync "replica journal V2 event type is invalid")

def note (eventType : EventType) : Replay := { replay with previousEventType := eventType }

def event : Except JournalError Replay := do
  rejectIf replay.terminalState.isSome (.sync "replica journal V2 contains an event after terminal state")
  rejectIf (replay.admissionPendingPause ∧ values.eventType ≠ .lifecyclePaused)
    (.sync "replica journal V2 admission pause is not atomic")
  let next ← replay.dispatch keys values
  rejectIf (values.responseFrame.isSome ∧ values.responseFrameSha256 ≠ values.responseFrame.map keys.sha256)
    (.sync "replica journal V2 response digest is invalid")
  return next.note values.eventType

def events : Replay → List Event → Except JournalError Replay
  | replay, [] => .ok replay
  | replay, row :: rows => do
      let next ← replay.event keys row.toValues
      events next rows

end Replay

def Keys.replayAccepted (keys : Keys) (accepted : Values) : Except JournalError Replay := do
  rejectIf (accepted.eventType ≠ .accepted) (.sync "replica journal V2 acceptance is not first")
  let request ← keys.validateRequestColumns accepted .lifecycle
  let payload ← validateInitialPayload request.payload
  let frame ← orRaise (.sync "replica journal V2 request fields are incomplete") accepted.requestFrame
  let physicalTargetId ←
    orRaise (.sync "replica journal V2 request fields are incomplete") accepted.physicalTargetId
  let replicaGeneration ←
    orRaise (.sync "replica journal V2 request fields are incomplete") accepted.replicaGeneration
  let executionOwnerId ←
    orRaise (.sync "replica journal V2 request fields are incomplete") accepted.executionOwnerId
  let authority : ReplicaAuthority := ⟨physicalTargetId, replicaGeneration, executionOwnerId⟩
  authority.check
  rejectIf (payload.authority ≠ authority ∨ payload.limitsSha256 ≠ keys.expectedLimitsSha256 ∨
      payload.artifactSetSha256 ≠ keys.artifactSetSha256 request.operationId authority payload)
    (.sync "replica journal V2 accepted payload is not configured")
  return { initialRequest := request, initialRequestFrame := frame, authority := authority }

def Keys.replay (keys : Keys) (rows : List Event) : Except JournalError Replay :=
  match rows with
  | [] => .error (.sync "replica journal V2 history is empty")
  | accepted :: rest => do
      each (fun row => validateFieldMatrix row.toValues) (accepted :: rest)
      let first ← keys.replayAccepted accepted.toValues
      let last ← first.events keys rest
      rejectIf last.admissionPendingPause (.sync "replica journal V2 admission pause is missing")
      return last

def validateRow (row : Event) : Except JournalError Unit := do
  rejectIf (row.eventId < 1 ∨ ¬ isHexId row.appendReceiptId ∨ ¬ isToken row.databaseIncarnation)
    (.sync "replica journal V2 row is malformed")
  rejectIf (¬ isHexId row.operationId) (.sync "replica journal V2 identity is malformed")

def identities (rows : List Event) : List (Text × Text) :=
  rows.foldl (fun seen row => if row.identity ∈ seen then seen else seen ++ [row.identity]) []

def Keys.validateEvents (keys : Keys) (rows : List Event) : Except JournalError Unit := do
  each validateRow rows
  rejectIf (rows.map (·.eventId) ≠ List.range' 1 rows.length)
    (.sync "replica journal V2 event sequence has gaps")
  rejectIf (¬ (rows.map (·.appendReceiptId)).Nodup) (.sync "replica journal V2 append receipt is duplicated")
  each (fun identity => (keys.replay (rowsFor rows identity)).map fun _ => ()) (identities rows)

end Yinshi.Replica
