import Yinshi.Base.ByteText
import Yinshi.Base.Checked

/-! Frames of the orchestration bridge and the capability of one query
(`orchestration_bridge.py`). A frame is any JSON object; only the kind of a value, or a string, an
integer or a truth value, matters to the checks. -/

namespace Yinshi.Orchestration
open ByteText Checked

inductive FieldValue
  | str (value : Text)
  | int (value : Int)
  | bool (value : Bool)
  | dict
  | other
  deriving DecidableEq

abbrev Frame := List (Text × FieldValue)

namespace Frame

def get (frame : Frame) (key : String) : Option FieldValue := frame.lookup (text key)

def has (frame : Frame) (key : String) : Prop := text key ∈ frame.map Prod.fst

instance (frame : Frame) (key : String) : Decidable (frame.has key) := inferInstanceAs (Decidable (_ ∈ _))

def string (frame : Frame) (key : String) : Option Text :=
  match frame.get key with
  | some (.str value) => some value
  | _ => none

end Frame

def requestType : Text := text "orchestration_request"
def cancelType : Text := text "orchestration_cancel"
def responseType : Text := text "orchestration_response"
def operationPing : Text := text "ping_thread_bridge"

def threadOperations : List Text :=
  ["spawn_thread", "list_children", "get_thread", "wait_for_threads", "cancel_thread",
    "report_thread_result"].map text

def orchestrationOperations : List Text := operationPing :: threadOperations

def requestMaxBytes : Nat := 64 * 1024
def responseMaxBytes : Nat := 256 * 1024

def requestFrameFields : List Text :=
  ["type", "id", "request_id", "capability", "operation", "arguments"].map text

/-- The code of an `OrchestrationProtocolError`; a handler may raise one with a code of its own. -/
inductive ErrorCode
  | invalidRequest
  | requestTooLarge
  | unknownOperation
  | capabilityInvalid
  | capabilityExpired
  | sessionMismatch
  | handlerTimeout
  | handlerFailed
  | responseTooLarge
  | raised (code : Text)
  deriving DecidableEq

structure OrchestrationRequest where
  sessionId : Text
  requestId : Text
  capability : Text
  operation : Text
  protocolVersion : Int
  toolCallId : Option Text
  deriving DecidableEq

def boundedString (value : Option FieldValue) (maxChars : Nat) : Option Text :=
  match value with
  | some (.str value) => if 0 < value.length ∧ value.length ≤ maxChars then some value else none
  | _ => none

def isAscii (value : Text) : Prop := ∀ point ∈ value, point < 128

instance (value : Text) : Decidable (isAscii value) := inferInstanceAs (Decidable (∀ _ ∈ _, _))

def sameFields (frame : Frame) (fields : List Text) : Prop :=
  (∀ key ∈ frame.map Prod.fst, key ∈ fields) ∧ ∀ key ∈ fields, key ∈ frame.map Prod.fst

instance (frame : Frame) (fields : List Text) : Decidable (sameFields frame fields) :=
  inferInstanceAs (Decidable (_ ∧ _))

def protocolVersionOf (frame : Frame) : Except ErrorCode Int :=
  match frame.get "protocol_version" with
  | none => .ok 1
  | some (.int version) => if version = 1 ∨ version = 2 then .ok version else .error .invalidRequest
  | some _ => .error .invalidRequest

def parseOrchestrationRequest (frame : Frame) (frameBytes : Nat) :
    Except ErrorCode OrchestrationRequest := do
  rejectIf (requestMaxBytes < frameBytes) .requestTooLarge
  let protocolVersion ← protocolVersionOf frame
  let toolCallId := boundedString (frame.get "tool_call_id") 256
  rejectIf (protocolVersion = 2 ∧ toolCallId = none) .invalidRequest
  rejectIf (¬ sameFields frame (if protocolVersion = 2 then
    requestFrameFields ++ [text "protocol_version", text "tool_call_id"] else requestFrameFields))
    .invalidRequest
  rejectIf (frame.get "type" ≠ some (.str requestType)) .invalidRequest
  let sessionId ← orRaise .invalidRequest (boundedString (frame.get "id") 128)
  let requestId ← orRaise .invalidRequest (boundedString (frame.get "request_id") 64)
  let token ← orRaise .invalidRequest (boundedString (frame.get "capability") 256)
  rejectIf (¬ isAscii token) .invalidRequest
  let operation ← orRaise .invalidRequest (boundedString (frame.get "operation") 64)
  rejectIf (operation ∉ if protocolVersion = 2 then orchestrationOperations else [operationPing])
    .unknownOperation
  rejectIf (frame.get "arguments" ≠ some .dict) .invalidRequest
  pure {
    sessionId := sessionId
    requestId := requestId
    capability := token
    operation := operation
    protocolVersion := protocolVersion
    toolCallId := frame.string "tool_call_id" }

structure OrchestrationCapability where
  token : Text
  sessionId : Text
  runId : Option Text
  tenantId : Option Text
  runtimeId : Option Text
  connectionId : Text
  expiresAt : Int
  allowedOperations : List Text
  databasePath : Option Text
  claimed : Bool := false
  revoked : Bool := false

structure VerifiedThreadCaller where
  sessionId : Text
  runId : Text
  tenantId : Option Text
  runtimeId : Option Text
  toolCallId : Text
  expiresAt : Int
  databasePath : Text

namespace OrchestrationCapability

def claim (capability : OrchestrationCapability) (sessionId connectionId : Text) (now : Int) :
    Option OrchestrationCapability :=
  if capability.claimed = true ∨ capability.revoked = true ∨ capability.expiresAt ≤ now then none else
  if capability.sessionId ≠ sessionId ∨ connectionId = [] then none else
  if capability.connectionId ≠ [] ∧ capability.connectionId ≠ connectionId then none else
    some { capability with connectionId := connectionId, claimed := true }

def revoke (capability : OrchestrationCapability) : OrchestrationCapability :=
  { capability with revoked := true }

end OrchestrationCapability

def verifyQueryIdentity (capability : OrchestrationCapability) (sessionId token connectionId : Text)
    (now : Int) : Except ErrorCode Unit := do
  rejectIf (capability.revoked = true ∨ connectionId = [] ∨ capability.connectionId ≠ connectionId)
    .capabilityInvalid
  rejectIf (¬ isAscii token ∨ capability.token ≠ token) .capabilityInvalid
  rejectIf (capability.expiresAt ≤ now) .capabilityExpired
  rejectIf (capability.sessionId ≠ sessionId) .sessionMismatch

def present (value : Option Text) : Option Text := value.filter (· ≠ [])

def verifyOrchestrationRequest (capability : OrchestrationCapability)
    (request : OrchestrationRequest) (connectionId : Text) (now : Int) :
    Except ErrorCode (Option VerifiedThreadCaller) := do
  verifyQueryIdentity capability request.sessionId request.capability connectionId now
  rejectIf (request.operation ∉ capability.allowedOperations) .unknownOperation
  if request.protocolVersion = 1 then pure none else
    let runId ← orRaise .capabilityInvalid (present capability.runId)
    let toolCallId ← orRaise .capabilityInvalid (present request.toolCallId)
    let databasePath ← orRaise .capabilityInvalid (present capability.databasePath)
    pure (some {
      sessionId := capability.sessionId
      runId := runId
      tenantId := capability.tenantId
      runtimeId := capability.runtimeId
      toolCallId := toolCallId
      expiresAt := capability.expiresAt
      databasePath := databasePath })

def verifyOrchestrationCancel (capability : OrchestrationCapability) (frame : Frame)
    (connectionId : Text) (frameBytes : Nat) (now : Int) : Except ErrorCode Text := do
  rejectIf (requestMaxBytes < frameBytes ∨
    ¬ sameFields frame (["type", "protocol_version", "id", "request_id", "capability"].map text))
    .invalidRequest
  rejectIf (frame.get "type" ≠ some (.str cancelType) ∨ frame.get "protocol_version" ≠ some (.int 2))
    .invalidRequest
  let sessionId ← orRaise .invalidRequest (boundedString (frame.get "id") 128)
  let requestId ← orRaise .invalidRequest (boundedString (frame.get "request_id") 256)
  let token ← orRaise .invalidRequest (boundedString (frame.get "capability") 256)
  verifyQueryIdentity capability sessionId token connectionId now
  pure requestId

structure OrchestrationResponse where
  sessionId : Text
  requestId : Text
  error : Option ErrorCode
  deriving DecidableEq

def buildOrchestrationSuccess (sessionId requestId : Text) : OrchestrationResponse :=
  ⟨sessionId, requestId, none⟩

def buildOrchestrationError (sessionId requestId : Text) (code : ErrorCode) : OrchestrationResponse where
  sessionId := (boundedString (some (.str sessionId)) 128).getD (text "unknown")
  requestId := (boundedString (some (.str requestId)) 64).getD []
  error := some code

def OrchestrationResponse.frame (response : OrchestrationResponse) : Frame :=
  [(text "type", .str responseType), (text "id", .str response.sessionId),
    (text "request_id", .str response.requestId), (text "ok", .bool response.error.isNone),
    (if response.error.isNone then text "result" else text "error", .dict)]

structure Authorized (capability : OrchestrationCapability) (request : OrchestrationRequest)
    (connectionId : Text) (now : Int) : Prop where
  token : request.capability = capability.token
  session : request.sessionId = capability.sessionId
  connection : capability.connectionId = connectionId
  operation : request.operation ∈ capability.allowedOperations
  unrevoked : capability.revoked = false
  unexpired : now < capability.expiresAt

theorem verifyOrchestrationRequest_authorized {capability : OrchestrationCapability}
    {request : OrchestrationRequest} {connectionId : Text} {now : Int}
    {caller : Option VerifiedThreadCaller}
    (hv : verifyOrchestrationRequest capability request connectionId now = .ok caller) :
    Authorized capability request connectionId now := by
  simp only [verifyOrchestrationRequest, steps_ok, verifyQueryIdentity, not_or, not_not, not_le,
    ne_eq, Bool.not_eq_true] at hv
  obtain ⟨⟨⟨unrevoked, -, connection⟩, ⟨-, token⟩, unexpired, session⟩, operation, -⟩ := hv
  exact ⟨token.symm, session.symm, connection, operation, unrevoked, unexpired⟩

end Yinshi.Orchestration
