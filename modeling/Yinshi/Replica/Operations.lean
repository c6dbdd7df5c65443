import Yinshi.Replica.Journal

/-! The operations of the journal. Each reads the rows on one connection and either fails,
finds its events there, or gives the batch that it appends in a transaction of its own. -/

namespace Yinshi.Replica
open ByteText Checked

structure Entry where
  eventType : EventType
  stage : Option Stage := none
  requestFrame : Option Bytes := none
  authority : Option ReplicaAuthority := none
  continuation : Option ReplicaDrainContinuation := none
  ownerToken : Option Text := none
  ownerBrokerIncarnation : Option Text := none
  stageStatus : Option Status := none
  receiptJson : Option Receipt := none
  unresolvedReason : Option Reason := none
  responseFrame : Option Bytes := none

/-- `_event_values` with the request that its frame was parsed to. -/
def Keys.columns (keys : Keys) (identity : Text × Text) (request : Option BrokerRequest)
    (entry : Entry) : Values where
  databaseIncarnation := identity.1
  operationId := identity.2
  eventType := entry.eventType
  stage := entry.stage
  requestFrame := entry.requestFrame
  requestFrameSha256 := entry.requestFrame.map keys.sha256
  requestBrokerIncarnation := request.map (·.brokerIncarnation)
  requestType := request.map (·.requestType)
  requestNonce := request.map (·.nonce)
  requestConnectionSequence := request.map (·.connectionSequence)
  requestPayloadDigest := request.map (·.payloadDigest)
  physicalTargetId := entry.authority.map (·.physicalTargetId)
  replicaGeneration := entry.authority.map (·.replicaGeneration)
  executionOwnerId := entry.authority.map (·.executionOwnerId)
  initialRequestSha256 := entry.continuation.map (·.initialRequestSha256)
  admissionReceiptId := entry.continuation.map (·.admissionReceiptId)
  applicationDrainIntentReceiptId := entry.continuation.map (·.applicationDrainIntentReceiptId)
  ownerToken := entry.ownerToken
  ownerBrokerIncarnation := entry.ownerBrokerIncarnation
  stageStatus := entry.stageStatus
  receiptJson := entry.receiptJson
  unresolvedReason := entry.unresolvedReason
  responseFrame := entry.responseFrame
  responseFrameSha256 := entry.responseFrame.map keys.sha256

def Keys.requestValues (keys : Keys) (identity : Text × Text) (entry : Entry) (frame : Bytes) :
    Except JournalError Values := do
  let request ← keys.requestFromFrame frame
  return keys.columns identity (some request) { entry with requestFrame := some frame }

def Replay.requireBound (replay : Replay) (request : BrokerRequest) : Except JournalError Unit :=
  match request.requestType with
  | .lifecycle =>
    rejectIf (replay.initialRequest ≠ request)
      (.conflict "replica journal V2 initial request conflicts with durable state")
  | .drain => do
      rejectIf replay.drainRequest.isNone (.conflict "replica journal V2 drain continuation is missing")
      rejectIf (replay.drainRequest ≠ some request)
        (.conflict "replica journal V2 drain request conflicts with durable state")
  | .other _ => .error (.value "replica journal V2 request type is invalid")

namespace Keys
variable (keys : Keys) (rows : List Event)

def loadReplay (request : BrokerRequest) : Except JournalError (Option Replay) :=
  if rowsFor rows request.identity = [] then .ok none
  else do
    let replay ← keys.replay (rowsFor rows request.identity)
    replay.requireBound request
    return some replay

def requireActiveStage (request : BrokerRequest) (ownerToken : Text) (stage : Stage) :
    Except JournalError Replay := do
  requireToken ownerToken "owner token"
  rejectIf (request.requestType ≠ if stage.isContinuation then .drain else .lifecycle)
    (.conflict "replica stage request boundary conflicts")
  keys.validateEvents rows
  let loaded ← keys.loadReplay rows request
  let replay ← orRaise (.conflict "replica acceptance is missing") loaded
  rejectIf replay.terminalState.isSome (.conflict "replica lifecycle is already terminal")
  rejectIf (replay.ownerToken ≠ some ownerToken) (.conflict "replica lifecycle owner conflicts")
  rejectIf (replay.nextStage ≠ some stage) (.conflict "replica stage order conflicts")
  rejectIf (stage.isContinuation ∧ replay.continuation.isNone)
    (.conflict "replica drain continuation is not durable")
  return replay

def existingStageStart (request : BrokerRequest) (ownerToken : Text) (stage : Stage) :
    Except JournalError (Option Event) := do
  keys.validateEvents rows
  let _ ← keys.loadReplay rows request
  match (rowsFor rows request.identity).find?
    fun row => row.eventType = .stageStarted && row.stage = some stage with
  | none => return none
  | some found => do
      rejectIf (found.ownerToken ≠ some ownerToken) (.conflict "replica stage start conflicts")
      return some found

/-- `_existing_stage_completion`; `expected` has the columns that must agree. -/
def existingStageCompletion (request : BrokerRequest) (stage : Stage) (expected : Entry) :
    Except JournalError (Option Event) := do
  keys.validateEvents rows
  let _ ← keys.loadReplay rows request
  match (rowsFor rows request.identity).find?
    fun row => row.stage = some stage && row.eventType.isCompletion with
  | none => return none
  | some found => do
      rejectIf (found.eventType ≠ expected.eventType ∨ found.ownerToken ≠ expected.ownerToken ∨
          found.stageStatus ≠ expected.stageStatus ∨ found.receiptJson ≠ expected.receiptJson ∨
          found.unresolvedReason ≠ expected.unresolvedReason ∨ found.responseFrame ≠ expected.responseFrame)
        (.conflict "replica stage completion conflicts with durable state")
      return some found

def existingPause (request : BrokerRequest) (ownerToken : Text) (receipt : Receipt)
    (responseFrame : Bytes) : Except JournalError (Option Event) := do
  keys.validateEvents rows
  let _ ← keys.loadReplay rows request
  let history := rowsFor rows request.identity
  let pauses := history.filter (·.eventType = .lifecyclePaused)
  let outcomes := history.filter fun row => row.eventType = .stageOutcome && row.stage = some .admission
  match pauses, outcomes with
  | [], [] => return none
  | [pause], [outcome] => do
      rejectIf (outcome.ownerToken ≠ some ownerToken ∨ outcome.stageStatus ≠ some .completed ∨
          outcome.receiptJson ≠ some receipt ∨ pause.ownerToken ≠ some ownerToken ∨
          pause.responseFrame ≠ some responseFrame)
        (.conflict "replica admission pause conflicts with durable state")
      return some pause
  | _, _ => .error (.conflict "replica admission pause conflicts with durable state")

end Keys

def orConflict {α : Type} (message : String) : Except JournalError α → Except JournalError α
  | .ok value => .ok value
  | .error _ => .error (.conflict message)

def unlessExisting (existing : Except JournalError (Option Event))
    (append : Except JournalError (List Values)) : Except JournalError (Option (List Values)) := do
  match ← existing with
  | some _ => return none
  | none => some <$> append

/-- `_receipt_json`: the type of a receipt must be the one of its stage. -/
def receiptJson (stage : Stage) (receipt : Receipt) : Except JournalError Unit := do
  receipt.check
  rejectIf (receipt.stage ≠ some stage) (.value "replica stage receipt type is invalid")

namespace Keys
variable (keys : Keys) (rows : List Event)

def acceptInitial (request : BrokerRequest) (requestFrame : Bytes) (authority : ReplicaAuthority) :
    Except JournalError (Option (List Values)) := do
  rejectIf (request.requestType ≠ .lifecycle) (.value "replica journal V2 initial request type is invalid")
  orConflict "replica initial request authentication failed" (keys.validateRequestFrame requestFrame request)
  let payload ← validateInitialPayload request.payload
  rejectIf (payload.authority ≠ authority)
    (.conflict "replica initial request authority differs from supplied authority")
  rejectIf (payload.limitsSha256 ≠ keys.expectedLimitsSha256)
    (.conflict "replica initial request limit profile is not configured")
  rejectIf (payload.artifactSetSha256 ≠ keys.artifactSetSha256 request.operationId authority payload)
    (.conflict "replica initial artifact set identity is invalid")
  keys.validateEvents rows
  if rowsFor rows request.identity = [] then do
    let values ← keys.requestValues request.identity
      { eventType := .accepted, authority := some authority } requestFrame
    return some [values]
  else do
    let replay ← keys.replay (rowsFor rows request.identity)
    rejectIf (replay.initialRequest ≠ request ∨ replay.initialRequestFrame ≠ requestFrame ∨
        replay.authority ≠ authority)
      (.conflict "replica initial acceptance conflicts with durable state")
    return none

def claimAuthority (request : BrokerRequest) (ownerToken brokerIncarnation : Text) :
    Except JournalError (Option (List Values)) := do
  rejectIf (request.requestType ≠ .lifecycle) (.value "replica journal V2 initial request type is invalid")
  requireToken ownerToken "owner token"
  requireToken brokerIncarnation "owner broker incarnation"
  rejectIf (brokerIncarnation ≠ request.brokerIncarnation)
    (.conflict "replica owner broker differs from authenticated initial request")
  keys.validateEvents rows
  let loaded ← keys.loadReplay rows request
  let replay ← orRaise (.conflict "replica initial acceptance is missing") loaded
  if replay.ownerToken.isSome then do
    rejectIf (replay.ownerToken ≠ some ownerToken ∨ replay.ownerBrokerIncarnation ≠ some brokerIncarnation)
      (.conflict "replica authority conflicts with durable owner")
    return none
  else
    return some [keys.columns request.identity none
      { eventType := .authorityClaimed, ownerToken := some ownerToken,
        ownerBrokerIncarnation := some brokerIncarnation }]

/-- The second reads of the existing events are left out: on the rows of the first one they
find the same. -/
def beginStage (request : BrokerRequest) (ownerToken : Text) (stage : Stage) :
    Except JournalError (Option (List Values)) := do
  requireToken ownerToken "owner token"
  unlessExisting (keys.existingStageStart rows request ownerToken stage) do
    let replay ← keys.requireActiveStage rows request ownerToken stage
    rejectIf replay.stageStarted (.conflict "replica stage is already started")
    return [keys.columns request.identity none
      { eventType := .stageStarted, stage := some stage, ownerToken := some ownerToken }]

/-- The response of `complete_stage`, which only the last stage has. -/
def completeResponse (request : BrokerRequest) (stage : Stage) (receipt : Receipt)
    (responseFrame : Option Bytes) : Except JournalError Unit :=
  if stage = .reclaim then do
    rejectIf responseFrame.isNone (.value "replica reclaim response is required")
    keys.validateResponseFrame responseFrame request ⟨.reclaim, .completed, none, some receipt.id⟩
  else rejectIf responseFrame.isSome (.value "replica nonterminal response is not permitted")

def completeStage (request : BrokerRequest) (ownerToken : Text) (stage : Stage) (receipt : Receipt)
    (responseFrame : Option Bytes) : Except JournalError (Option (List Values)) := do
  rejectIf (stage = .admission) (.conflict "replica admission must use atomic pause")
  receiptJson stage receipt
  keys.completeResponse request stage receipt responseFrame
  let entry : Entry :=
    { eventType := .stageOutcome, stage := some stage, ownerToken := some ownerToken,
      stageStatus := some .completed, receiptJson := some receipt, responseFrame := responseFrame }
  unlessExisting (keys.existingStageCompletion rows request stage entry) do
    let replay ← keys.requireActiveStage rows request ownerToken stage
    validateReceiptBinding replay.initialRequest replay.authority receipt
    rejectIf (¬ replay.stageStarted) (.conflict "replica stage start is missing")
    return [keys.columns request.identity none entry]

def pauseAfterAdmission (request : BrokerRequest) (ownerToken : Text) (receipt : Receipt)
    (responseFrame : Bytes) : Except JournalError (Option (List Values)) := do
  rejectIf (request.requestType ≠ .lifecycle) (.conflict "replica pause must bind the initial request")
  requireToken ownerToken "owner token"
  receiptJson .admission receipt
  keys.validateResponseFrame (some responseFrame) request ⟨.admission, .active, none, some receipt.id⟩
  unlessExisting (keys.existingPause rows request ownerToken receipt responseFrame) do
    let replay ← keys.requireActiveStage rows request ownerToken .admission
    rejectIf (¬ replay.stageStarted) (.conflict "replica admission stage start is missing")
    validateReceiptBinding replay.initialRequest replay.authority receipt
    return [keys.columns request.identity none
        { eventType := .stageOutcome, stage := some .admission, ownerToken := some ownerToken,
          stageStatus := some .completed, receiptJson := some receipt },
      keys.columns request.identity none
        { eventType := .lifecyclePaused, ownerToken := some ownerToken, responseFrame := some responseFrame }]

def acceptDrainContinuation (request : BrokerRequest) (requestFrame : Bytes)
    (continuation : ReplicaDrainContinuation) : Except JournalError (Option (List Values)) := do
  rejectIf (request.requestType ≠ .drain) (.value "replica drain request type is invalid")
  orConflict "replica drain request authentication failed" (keys.validateRequestFrame requestFrame request)
  let parsed ← replicaDrainContinuationFromRequest request
  rejectIf (parsed ≠ continuation) (.conflict "replica drain payload differs from supplied continuation")
  keys.validateEvents rows
  rejectIf (rowsFor rows request.identity = []) (.conflict "replica paused lifecycle is missing")
  let replay ← keys.replay (rowsFor rows request.identity)
  if replay.continuation.isSome then do
    rejectIf (replay.drainRequest ≠ some request ∨ replay.drainRequestFrame ≠ some requestFrame ∨
        replay.continuation ≠ some continuation)
      (.conflict "replica drain continuation conflicts with durable state")
    return none
  else do
    rejectIf replay.terminalState.isSome (.conflict "replica lifecycle is already terminal")
    rejectIf (¬ replay.paused ∨ replay.ownerToken.isNone ∨ replay.ownerBrokerIncarnation.isNone ∨
        some request.brokerIncarnation ≠ replay.ownerBrokerIncarnation ∨
        continuation.authority ≠ replay.authority ∨
        continuation.initialRequestSha256 ≠ keys.sha256 replay.initialRequestFrame ∨
        (replay.receipts .admission).map Receipt.id ≠ some continuation.admissionReceiptId)
      (.conflict "replica drain continuation does not match durable pause")
    let values ← keys.requestValues request.identity
      { eventType := .drainContinuationAccepted, authority := some continuation.authority,
        continuation := some continuation, ownerToken := replay.ownerToken } requestFrame
    return some [values]

def rejectStage (request : BrokerRequest) (ownerToken : Text) (stage : Stage) (status : Rejection)
    (receipt : Receipt) (responseFrame : Bytes) : Except JournalError (Option (List Values)) := do
  rejectIf (status ∉ rejectedStatuses stage) (.value "replica rejection status is invalid")
  receipt.check
  rejectIf (receipt.stage ≠ none) (.value "replica rejected receipt type is invalid")
  keys.validateResponseFrame (some responseFrame) request
    ⟨stage, .rejected, some (.rejection status), some receipt.id⟩
  let entry : Entry :=
    { eventType := .stageRejected, stage := some stage, ownerToken := some ownerToken,
      stageStatus := some (.rejected status), receiptJson := some receipt,
      responseFrame := some responseFrame }
  unlessExisting (keys.existingStageCompletion rows request stage entry) do
    let replay ← keys.requireActiveStage rows request ownerToken stage
    rejectIf (¬ replay.stageStarted) (.conflict "replica stage start is missing")
    return [keys.columns request.identity none entry]

def directForeignPause (replay : Replay) (request : BrokerRequest) (stage : Stage) (reason : Reason) : Bool :=
  stage = .drain && reason = .brokerRestartUnknown && replay.paused && !replay.stageStarted &&
    (replay.continuation.isNone && request.requestType = .lifecycle && replay.initialRequest = request ||
      replay.continuation.isSome && request.requestType = .drain && replay.drainRequest = some request)

/-- The reads of `mark_stage_unresolved` behind the first one. -/
def requireUnresolved (request : BrokerRequest) (ownerToken : Text) (stage : Stage)
    (reason : Reason) : Except JournalError Unit := do
  keys.validateEvents rows
  rejectIf (rowsFor rows request.identity = []) (.conflict "replica acceptance is missing")
  let replay ← keys.replay (rowsFor rows request.identity)
  if directForeignPause replay request stage reason then
    rejectIf (replay.ownerToken ≠ some ownerToken) (.conflict "replica lifecycle owner conflicts")
  else do
    let active ← keys.requireActiveStage rows request ownerToken stage
    rejectIf (¬ active.stageStarted) (.conflict "replica stage start is missing")

def markStageUnresolved (request : BrokerRequest) (ownerToken : Text) (stage : Stage)
    (reason : Reason) (responseFrame : Bytes) : Except JournalError (Option (List Values)) := do
  rejectIf (reason ∉ baseUnresolvedReasons ++ stageUnresolvedReasons stage)
    (.value "replica unresolved reason is invalid")
  keys.validateResponseFrame (some responseFrame) request ⟨stage, .unresolved, some (.reason reason), none⟩
  let entry : Entry :=
    { eventType := .stageUnresolved, stage := some stage, ownerToken := some ownerToken,
      unresolvedReason := some reason, responseFrame := some responseFrame }
  unlessExisting (keys.existingStageCompletion rows request stage entry) do
    keys.requireUnresolved rows request ownerToken stage reason
    return [keys.columns request.identity none entry]

end Keys

inductive Operation
  | acceptInitial (request : BrokerRequest) (requestFrame : Bytes) (authority : ReplicaAuthority)
  | claimAuthority (request : BrokerRequest) (ownerToken brokerIncarnation : Text)
  | beginStage (request : BrokerRequest) (ownerToken : Text) (stage : Stage)
  | completeStage (request : BrokerRequest) (ownerToken : Text) (stage : Stage) (receipt : Receipt)
      (responseFrame : Option Bytes)
  | pauseAfterAdmission (request : BrokerRequest) (ownerToken : Text) (receipt : Receipt)
    (responseFrame : Bytes)
  | acceptDrainContinuation (request : BrokerRequest) (requestFrame : Bytes)
      (continuation : ReplicaDrainContinuation)
  | rejectStage (request : BrokerRequest) (ownerToken : Text) (stage : Stage) (status : Rejection)
      (receipt : Receipt) (responseFrame : Bytes)
  | markStageUnresolved (request : BrokerRequest) (ownerToken : Text) (stage : Stage)
      (reason : Reason) (responseFrame : Bytes)

def Keys.check (keys : Keys) (rows : List Event) : Operation → Except JournalError (Option (List Values))
  | .acceptInitial request requestFrame authority => keys.acceptInitial rows request requestFrame authority
  | .claimAuthority request ownerToken brokerIncarnation =>
    keys.claimAuthority rows request ownerToken brokerIncarnation
  | .beginStage request ownerToken stage => keys.beginStage rows request ownerToken stage
  | .completeStage request ownerToken stage receipt responseFrame =>
    keys.completeStage rows request ownerToken stage receipt responseFrame
  | .pauseAfterAdmission request ownerToken receipt responseFrame =>
    keys.pauseAfterAdmission rows request ownerToken receipt responseFrame
  | .acceptDrainContinuation request requestFrame continuation =>
    keys.acceptDrainContinuation rows request requestFrame continuation
  | .rejectStage request ownerToken stage status receipt responseFrame =>
    keys.rejectStage rows request ownerToken stage status receipt responseFrame
  | .markStageUnresolved request ownerToken stage reason responseFrame =>
    keys.markStageUnresolved rows request ownerToken stage reason responseFrame

end Yinshi.Replica
