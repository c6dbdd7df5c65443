import Mathlib.Logic.Function.Basic
import Yinshi.Orchestration.Bridge

/-! The sidecar's end of the bridge (`orchestration_rpc.js`): one channel for the query of a prompt.
Calls, their entries and their promises have numbers; a promise is the list of what it was settled
with. -/

namespace Yinshi.Orchestration
open ByteText Function

def orchestrationPendingMax : Nat := 16
def resultBytesMax : Nat := 256 * 1024

def responseAllowedKeys : List Text := ["type", "id", "request_id", "ok", "result", "error"].map text

/-- `failed` is any error that the backend reports. -/
inductive RpcError
  | channelClosed
  | cancelled
  | operationNotAllowed
  | invalidArguments
  | tooManyRequests
  | frameTooLarge
  | sendFailed
  | timeout
  | disconnected
  | resultTooLarge
  | badResponse
  | failed
  deriving DecidableEq

inductive Settlement
  | rejected (error : RpcError)
  | resolved
  deriving DecidableEq

/-- `listening` is an abort listener that is not removed. -/
structure Entry where
  requestId : Text
  listening : Bool
  timer : Bool := true
  settled : Bool := false

structure Channel where
  sessionId : Text
  capability : Text
  protocolVersion : Int
  permittedOperations : List Text
  pending : List (Text × Nat) := []
  closed : Bool := false
  entries : Nat → Option Entry := fun _ => none
  promises : Nat → List Settlement := fun _ => []
  calls : Nat := 0

/-- The arguments of `request`: a signal may be aborted already, the frame has a size if it can be
serialized, and `sends` tells whether `send` returns. -/
structure Call where
  operation : Text
  isObject : Bool
  signal : Option Bool
  toolCallId : Option Text
  requestId : Text
  frameBytes : Option Nat
  sends : Bool

namespace Call

def identified (call : Call) : Prop :=
  ∃ id ∈ call.toolCallId, 0 < id.length ∧ id.length ≤ 256 ∧ ∀ point ∈ id, 0x21 ≤ point ∧ point ≤ 0x7e

instance (call : Call) : Decidable call.identified := inferInstanceAs (Decidable (∃ _ ∈ _, _))

end Call

def createOrchestrationRpc (sessionId capability : Text) (protocolVersion : Int)
    (allowedOperations : List Text) : Option Channel :=
  if (protocolVersion ≠ 1 ∧ protocolVersion ≠ 2) ∨ allowedOperations = [] ∨ ¬ allowedOperations.Nodup ∨
      (∃ operation ∈ allowedOperations, operation ∉ orchestrationOperations) ∨
      protocolVersion = 1 ∧ ∃ operation ∈ allowedOperations, operation ≠ operationPing then none
  else some
    { sessionId := sessionId, capability := capability, protocolVersion := protocolVersion,
      permittedOperations := allowedOperations }

namespace Channel

def settle (channel : Channel) (number : Nat) (settlement : Settlement) : Channel :=
  match channel.entries number with
  | none => channel
  | some entry =>
    if entry.settled = true then channel else
    { channel with
      pending := channel.pending.filter (· ≠ (entry.requestId, number))
      entries := update channel.entries number
        (some { entry with settled := true, timer := false, listening := false })
      promises := update channel.promises number (channel.promises number ++ [settlement]) }

def refusal (channel : Channel) (call : Call) : Option RpcError :=
  if channel.closed = true then some .channelClosed else
  if call.signal = some true then some .cancelled else
  if call.operation ∉ channel.permittedOperations then some .operationNotAllowed else
  if call.isObject = false then some .invalidArguments else
  if orchestrationPendingMax ≤ channel.pending.length then some .tooManyRequests else
  if channel.protocolVersion = 2 ∧ ¬ call.identified then some .invalidArguments else
  match call.frameBytes with
  | none => some .invalidArguments
  | some bytes => if requestMaxBytes < bytes then some .frameTooLarge else none

def requestFrame (channel : Channel) (call : Call) : Frame :=
  [(text "type", .str requestType), (text "id", .str channel.sessionId),
    (text "request_id", .str call.requestId), (text "capability", .str channel.capability),
    (text "operation", .str call.operation), (text "arguments", .dict)] ++
  if channel.protocolVersion = 2 then
    [(text "protocol_version", .int 2), (text "tool_call_id", .str (call.toolCallId.getD []))]
  else []

def cancelFrame (channel : Channel) (requestId : Text) : Frame :=
  [(text "type", .str cancelType), (text "protocol_version", .int 2), (text "id", .str channel.sessionId),
    (text "request_id", .str requestId), (text "capability", .str channel.capability)]

def enter (channel : Channel) (call : Call) : Channel :=
  { channel with
    pending := channel.pending.filter (·.1 ≠ call.requestId) ++ [(call.requestId, channel.calls)]
    entries := update channel.entries channel.calls
      (some { requestId := call.requestId, listening := call.signal.isSome })
    calls := channel.calls + 1 }

def request (channel : Channel) (call : Call) : Channel × Option Frame :=
  match channel.refusal call with
  | some error =>
    ({ channel with
        promises := update channel.promises channel.calls [.rejected error]
        calls := channel.calls + 1 }, none)
  | none =>
    if call.sends = true then (channel.enter call, some (channel.requestFrame call))
    else ((channel.enter call).settle channel.calls (.rejected .sendFailed), none)

/-- The abort listener of an entry, with the frame that is sent if `send` returns. -/
def onAbort (channel : Channel) (number : Nat) (entry : Entry) (sends : Bool) : Channel × Option Frame :=
  (channel.settle number (.rejected .cancelled),
    if channel.protocolVersion = 2 ∧ entry.settled = false ∧ sends = true then
      some (channel.cancelFrame entry.requestId)
    else none)

def verdict (frame : Frame) (frameBytes : Option Nat) : Settlement :=
  match frameBytes with
  | none => .rejected .badResponse
  | some bytes =>
    if resultBytesMax < bytes then .rejected .resultTooLarge else
    if ∃ key ∈ frame.map Prod.fst, key ∉ responseAllowedKeys then .rejected .badResponse else
    if frame.get "ok" = some (.bool true) then
      if ¬ frame.has "result" ∨ frame.has "error" then .rejected .badResponse else
      if frame.get "result" = some .dict then .resolved else .rejected .badResponse
    else
      if ¬ frame.has "error" ∨ frame.has "result" then .rejected .badResponse else
      if frame.get "ok" = some (.bool false) then .rejected .failed else .rejected .badResponse

def handleFrame (channel : Channel) (frame : Frame) (frameBytes : Option Nat) : Channel :=
  if frame.get "type" ≠ some (.str responseType) ∨ frame.get "id" ≠ some (.str channel.sessionId)
    then channel else
  match (frame.string "request_id").bind fun id => channel.pending.lookup id with
  | none => channel
  | some number => channel.settle number (verdict frame frameBytes)

def dispose (channel : Channel) : Channel :=
  if channel.closed = true then channel else
  let closing := { channel with closed := true }
  { (channel.pending.map Prod.snd).foldl (fun rest number => rest.settle number (.rejected .disconnected))
      closing with pending := [] }

end Channel

end Yinshi.Orchestration
