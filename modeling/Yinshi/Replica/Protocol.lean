import Yinshi.Base.ByteText
import Yinshi.Base.Checked

/-! Requests, responses and receipts of the replica lifecycle. Canonical JSON is kept as the
data it spells; signatures and digests are parameters. -/

namespace Yinshi.Replica
open ByteText Checked

def brokerFrameBytesMax : Nat := 65536
def artifactBytesMax : Int := 8 * 1024 * 1024 * 1024

inductive JournalError
  | value (message : String)
  | sync (message : String)
  | conflict (message : String)
  deriving DecidableEq

def isLetter (c : Nat) : Bool := 65 ≤ c && c ≤ 90 || 97 ≤ c && c ≤ 122
def isDigit (c : Nat) : Bool := 48 ≤ c && c ≤ 57
def isHex (c : Nat) : Bool := isDigit c || 97 ≤ c && c ≤ 102

def isToken (value : Text) : Bool :=
  16 ≤ value.length && value.length ≤ 128 && value.all fun c => isLetter c || isDigit c || c == 95 || c == 45

def isDigest (value : Text) : Bool := value.length == 64 && value.all isHex

def isHexId (value : Text) : Bool := value.length == 32 && value.all isHex

def isIdentifier (value : Text) : Bool :=
  16 ≤ value.length && value.length ≤ 128 && (value.take 1).all (fun c => isLetter c || isDigit c) &&
    value.all fun c => isLetter c || isDigit c || c == 46 || c == 95 || c == 58 || c == 45

def requireToken (value : Text) (description : String) : Except JournalError Unit :=
  rejectIf (¬ isToken value) (.value ("replica " ++ description ++ " is invalid"))

def requireDigest (value : Text) (description : String) : Except JournalError Unit :=
  rejectIf (¬ isDigest value) (.value ("replica " ++ description ++ " is invalid"))

def validateReplicaIdentifier (value : Text) (description : String) : Except JournalError Unit :=
  rejectIf (¬ isIdentifier value) (.value (description ++ " is invalid"))

inductive Stage
  | ingest | verify | publish | admission | drain | «export» | reclaim
  deriving DecidableEq

def stages : List Stage := [.ingest, .verify, .publish, .admission, .drain, .export, .reclaim]

def Stage.index : Stage → Nat
  | .ingest => 0
  | .verify => 1
  | .publish => 2
  | .admission => 3
  | .drain => 4
  | .export => 5
  | .reclaim => 6

/-- `_CONTINUATION_STAGES`; the other four are the initial stages. -/
def Stage.isContinuation (stage : Stage) : Bool := 4 ≤ stage.index

inductive Reason
  | brokerRestartUnknown | cancellationUnknown | sqliteCommitUnknown | timeoutUnknown | transportUnknown
  | transferUnknown | verificationUnknown | publicationUnknown | synchronizationUnknown | admissionUnknown
  | acknowledgmentUnknown | runtimeLive | unitStateUnknown | exportAcknowledgmentUnknown
  | absenceUnknown | effectUnknown | presenceUnknown
  deriving DecidableEq

def baseUnresolvedReasons : List Reason :=
  [.brokerRestartUnknown, .cancellationUnknown, .sqliteCommitUnknown, .timeoutUnknown, .transportUnknown]

def stageUnresolvedReasons : Stage → List Reason
  | .ingest => [.transferUnknown, .verificationUnknown]
  | .verify => [.verificationUnknown]
  | .publish => [.publicationUnknown, .synchronizationUnknown]
  | .admission => [.admissionUnknown, .verificationUnknown]
  | .drain => [.acknowledgmentUnknown, .runtimeLive, .unitStateUnknown]
  | .export => [.exportAcknowledgmentUnknown, .transferUnknown, .verificationUnknown]
  | .reclaim => [.absenceUnknown, .effectUnknown, .presenceUnknown, .unitStateUnknown]

inductive Rejection
  | artifactRejected | limitRejected | verificationRejected | publicationRejected | admissionRejected
  | drainRejected | exportRejected | reclaimRejected
  deriving DecidableEq

def rejectedStatuses : Stage → List Rejection
  | .ingest => [.artifactRejected, .limitRejected]
  | .verify => [.verificationRejected]
  | .publish => [.publicationRejected]
  | .admission => [.admissionRejected]
  | .drain => [.drainRejected]
  | .export => [.exportRejected, .limitRejected]
  | .reclaim => [.reclaimRejected]

inductive Status
  | completed
  | rejected (status : Rejection)
  deriving DecidableEq

structure ReplicaAuthority where
  physicalTargetId : Text
  replicaGeneration : Int
  executionOwnerId : Text
  deriving DecidableEq

def ReplicaAuthority.check (authority : ReplicaAuthority) : Except JournalError Unit := do
  validateReplicaIdentifier authority.physicalTargetId "physical target ID"
  validateReplicaIdentifier authority.executionOwnerId "execution owner ID"
  rejectIf (authority.replicaGeneration < 1) (.value "replica generation must be a positive integer")

structure ArtifactReference where
  artifactId : Text
  sha256 : Text
  byteLength : Int
  deriving DecidableEq

def ArtifactReference.check (reference : ArtifactReference) : Except JournalError Unit := do
  validateReplicaIdentifier reference.artifactId "artifact ID"
  requireDigest reference.sha256 "artifact SHA-256"
  rejectIf (reference.byteLength < 0 ∨ artifactBytesMax < reference.byteLength)
    (.value "replica artifact byte length is invalid")

def validateDistinctArtifactIds (ids : List Text) : Except JournalError Unit :=
  rejectIf (¬ ids.Nodup) (.value "replica artifact IDs must be distinct")

structure InitialPayload where
  artifactSetSha256 : Text
  authority : ReplicaAuthority
  bundle : ArtifactReference
  indexObjects : ArtifactReference
  limitsSha256 : Text
  objectFormat : Text
  reconciliationFingerprint : Text
  repositoryId : Text
  sourceStateSha256 : Text
  workspaceId : Text
  worktree : ArtifactReference
  deriving DecidableEq

structure ReplicaDrainContinuation where
  authority : ReplicaAuthority
  initialRequestSha256 : Text
  admissionReceiptId : Text
  applicationDrainIntentReceiptId : Text
  deriving DecidableEq

def ReplicaDrainContinuation.check (continuation : ReplicaDrainContinuation) : Except JournalError Unit := do
  continuation.authority.check
  requireDigest continuation.initialRequestSha256 "initial request SHA-256"
  requireToken continuation.admissionReceiptId "admission receipt ID"
  requireToken continuation.applicationDrainIntentReceiptId "application drain intent receipt ID"

inductive Payload
  | lifecycle (payload : InitialPayload)
  | drain (continuation : ReplicaDrainContinuation)
  | other (digest : Text)
  deriving DecidableEq

inductive RequestType
  | lifecycle
  | drain
  | other (name : Text)
  deriving DecidableEq

structure RequestIdentity where
  brokerIncarnation : Text
  databaseIncarnation : Text
  connectionSequence : Nat
  operationId : Text
  requestType : RequestType
  nonce : Text
  payloadDigest : Text
  deriving DecidableEq

structure BrokerRequest extends RequestIdentity where
  payload : Payload
  deriving DecidableEq

def BrokerRequest.identity (request : BrokerRequest) : Text × Text :=
  (request.databaseIncarnation, request.operationId)

inductive Code
  | rejection (status : Rejection)
  | reason (reason : Reason)
  deriving DecidableEq

inductive LifecycleState
  | active | completed | rejected | unresolved
  deriving DecidableEq

structure Result where
  stage : Stage
  state : LifecycleState
  code : Option Code
  receiptId : Option Text
  deriving DecidableEq

/-- A response whose signature is valid. A result of another form is `none`. -/
structure BrokerResponse where
  request : RequestIdentity
  ok : Bool
  error : Option Code
  result : Option Result

inductive Receipt
  | ingest (receiptId : Text) (bundle worktree indexObjects : ArtifactReference)
  | verify (receiptId bundleSha256 worktreeSha256 indexObjectsSha256 sourceStateSha256 : Text)
      (reconciliationFingerprint artifactSetSha256 : Text)
  | publish (receiptId : Text) (authority : ReplicaAuthority)
      (publicationMarkerSha256 synchronizationReceiptId artifactSetSha256 : Text)
  | admission (receiptId executionOwnerId runtimeUnitId sessionSocketSha256 : Text)
  | drain (drainAckReceiptId quiescenceReceiptId : Text)
  | «export» (exportReceiptId : Text) (bundle worktree indexObjects : ArtifactReference)
  | reclaim (reclaimReceiptId : Text)
  | rejected (receiptId : Text)
  deriving DecidableEq

def Receipt.stage : Receipt → Option Stage
  | .ingest .. => some .ingest
  | .verify .. => some .verify
  | .publish .. => some .publish
  | .admission .. => some .admission
  | .drain .. => some .drain
  | .export .. => some .export
  | .reclaim .. => some .reclaim
  | .rejected .. => none

def Receipt.id : Receipt → Text
  | .ingest receiptId .. => receiptId
  | .verify receiptId .. => receiptId
  | .publish receiptId .. => receiptId
  | .admission receiptId .. => receiptId
  | .drain drainAckReceiptId _ => drainAckReceiptId
  | .export exportReceiptId .. => exportReceiptId
  | .reclaim reclaimReceiptId => reclaimReceiptId
  | .rejected receiptId => receiptId

def checkArtifacts (bundle worktree indexObjects : ArtifactReference) : Except JournalError Unit := do
  bundle.check
  worktree.check
  indexObjects.check
  validateDistinctArtifactIds [bundle.artifactId, worktree.artifactId, indexObjects.artifactId]

def Receipt.check : Receipt → Except JournalError Unit
  | .ingest receiptId bundle worktree indexObjects => do
      requireToken receiptId "ingest receipt ID"
      checkArtifacts bundle worktree indexObjects
  | .verify receiptId bundleSha256 worktreeSha256 indexObjectsSha256 sourceStateSha256
    reconciliationFingerprint
      artifactSetSha256 => do
      requireToken receiptId "verification receipt ID"
      requireDigest bundleSha256 "verified bundle SHA-256"
      requireDigest worktreeSha256 "verified worktree SHA-256"
      requireDigest indexObjectsSha256 "verified index objects SHA-256"
      requireDigest sourceStateSha256 "verified source state SHA-256"
      requireDigest reconciliationFingerprint "verified reconciliation fingerprint"
      requireDigest artifactSetSha256 "verified artifact set SHA-256"
  | .publish receiptId authority publicationMarkerSha256 synchronizationReceiptId artifactSetSha256 => do
      requireToken receiptId "publication receipt ID"
      validateReplicaIdentifier authority.physicalTargetId "published physical target ID"
      rejectIf (authority.replicaGeneration < 1) (.value "published replica generation is invalid")
      validateReplicaIdentifier authority.executionOwnerId "published execution owner ID"
      requireDigest publicationMarkerSha256 "publication marker SHA-256"
      requireToken synchronizationReceiptId "synchronization receipt ID"
      requireDigest artifactSetSha256 "published artifact set SHA-256"
  | .admission receiptId executionOwnerId runtimeUnitId sessionSocketSha256 => do
      requireToken receiptId "admission receipt ID"
      validateReplicaIdentifier executionOwnerId "admitted execution owner ID"
      requireToken runtimeUnitId "runtime unit ID"
      requireDigest sessionSocketSha256 "session socket SHA-256"
  | .drain drainAckReceiptId quiescenceReceiptId => do
      requireToken drainAckReceiptId "drain acknowledgment receipt ID"
      requireToken quiescenceReceiptId "quiescence receipt ID"
  | .export exportReceiptId bundle worktree indexObjects => do
      requireToken exportReceiptId "export receipt ID"
      checkArtifacts bundle worktree indexObjects
  | .reclaim reclaimReceiptId => requireToken reclaimReceiptId "reclaim receipt ID"
  | .rejected receiptId => requireToken receiptId "rejection receipt ID"

/-- The configuration of a journal with the cryptography it calls: SHA-256 in hex, the
messages whose signature, form and payload digest are valid, and the digest of an artifact
set. -/
structure Keys where
  sha256 : Bytes → Text
  signedRequest : Bytes → Option BrokerRequest
  signedResponse : Bytes → Except JournalError BrokerResponse
  artifactSetSha256 : Text → ReplicaAuthority → InitialPayload → Text
  expectedLimitsSha256 : Text

def BrokerRequest.wellFormed (request : BrokerRequest) : Bool :=
  isToken request.brokerIncarnation && isToken request.databaseIncarnation &&
    1 ≤ request.connectionSequence && request.connectionSequence ≤ 2 ^ 63 - 1 &&
    isHexId request.operationId && isToken request.nonce && isDigest request.payloadDigest

def validateInitialPayload (payload : Payload) : Except JournalError InitialPayload :=
  match payload with
  | .lifecycle value => do
      validateReplicaIdentifier value.workspaceId "request workspace ID"
      validateReplicaIdentifier value.repositoryId "request repository ID"
      value.authority.check
      rejectIf (value.objectFormat ∉ [text "sha1", text "sha256"])
        (.value "replica request object format is invalid")
      requireDigest value.artifactSetSha256 "request artifact set SHA-256"
      requireDigest value.limitsSha256 "request limits SHA-256"
      requireDigest value.sourceStateSha256 "request source state SHA-256"
      requireDigest value.reconciliationFingerprint "request reconciliation fingerprint"
      checkArtifacts value.bundle value.worktree value.indexObjects
      return value
  | _ => .error (.value "replica request payload fields are invalid")

def replicaDrainContinuationFromRequest (request : BrokerRequest) :
    Except JournalError ReplicaDrainContinuation :=
  if request.requestType ≠ .drain then .error (.value "replica drain request is invalid")
  else
    match request.payload with
    | .drain continuation => do
        continuation.check
        return continuation
    | _ => .error (.value "replica drain continuation fields are invalid")

namespace Keys
variable (keys : Keys)

def requestFromFrame (frame : Bytes) : Except JournalError BrokerRequest := do
  rejectIf (frame = [] ∨ brokerFrameBytesMax < frame.length) (.value "replica request frame is malformed")
  let request ← orRaise (.value "replica request authentication failed") (keys.signedRequest frame)
  rejectIf (¬ request.wellFormed) (.value "replica request authentication failed")
  return request

def validateRequestFrame (frame : Bytes) (request : BrokerRequest) : Except JournalError Unit := do
  let parsed ← keys.requestFromFrame frame
  rejectIf (parsed ≠ request) (.value "replica request frame does not bind the request")

def validateResponseFrame (frame : Option Bytes) (request : BrokerRequest) (result : Result) :
    Except JournalError Unit := do
  let frame ← orRaise (.value "replica response frame is malformed") frame
  let verified ← keys.signedResponse frame
  rejectIf (verified.request ≠ request.toRequestIdentity) (.value "replica response authentication failed")
  let expectedOk := decide (result.state = .active ∨ result.state = .completed)
  rejectIf (verified.ok ≠ expectedOk) (.value "replica response status is invalid")
  rejectIf (verified.error.isNone ≠ expectedOk) (.value "replica response error is invalid")
  rejectIf (expectedOk = false ∧ verified.error ≠ result.code)
    (.value "replica response error does not match the result")
  rejectIf (verified.result ≠ some result) (.value "replica response result is invalid")

end Keys

def parseReceipt (stage : Stage) (raw : Option Receipt) : Except JournalError Receipt := do
  let receipt ← orRaise (.value "replica receipt is malformed") raw
  rejectIf (receipt.stage ≠ some stage) (.value "replica receipt fields are invalid")
  match receipt.check with
  | .ok () => return receipt
  | .error _ => .error (.value "replica receipt is invalid")

def parseRejectedReceipt (raw : Option Receipt) : Except JournalError Receipt := do
  let receipt ← orRaise (.value "replica receipt is malformed") raw
  rejectIf (receipt.stage ≠ none) (.value "replica rejected receipt fields are invalid")
  receipt.check
  return receipt

def validateReceiptBinding (request : BrokerRequest) (authority : ReplicaAuthority)
    (receipt : Receipt) : Except JournalError Unit := do
  let payload ← validateInitialPayload request.payload
  match receipt with
  | .ingest _ bundle worktree indexObjects =>
    rejectIf ((bundle, worktree, indexObjects) ≠ (payload.bundle, payload.worktree, payload.indexObjects))
      (.value "replica ingest receipt conflicts with authenticated artifacts")
  | .verify _ bundleSha256 worktreeSha256 indexObjectsSha256 sourceStateSha256 reconciliationFingerprint
      artifactSetSha256 =>
      rejectIf (bundleSha256 ≠ payload.bundle.sha256 ∨ worktreeSha256 ≠ payload.worktree.sha256 ∨
          indexObjectsSha256 ≠ payload.indexObjects.sha256 ∨ sourceStateSha256 ≠ payload.sourceStateSha256 ∨
          reconciliationFingerprint ≠ payload.reconciliationFingerprint ∨
          artifactSetSha256 ≠ payload.artifactSetSha256)
        (.value "replica verify receipt conflicts with authenticated artifacts")
  | .publish _ published _ _ artifactSetSha256 =>
    rejectIf (published ≠ authority ∨ artifactSetSha256 ≠ payload.artifactSetSha256)
      (.value "replica publish receipt conflicts with durable authority")
  | .admission _ executionOwnerId _ _ =>
    rejectIf (executionOwnerId ≠ authority.executionOwnerId)
      (.value "replica admission receipt conflicts with durable authority")
  | .drain .. => .ok ()
  | .export _ bundle worktree indexObjects =>
    validateDistinctArtifactIds [bundle.artifactId, worktree.artifactId, indexObjects.artifactId]
  | .reclaim _ => .ok ()
  | .rejected _ => .error (.value "replica stage receipt type is invalid")

end Yinshi.Replica
