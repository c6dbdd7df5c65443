import Mathlib.Logic.Function.Basic
import Yinshi.Orchestration.Bridge

/-! The orchestration part of `SidecarClient` (`sidecar.py`). What happens between two awaits is one
event. Tasks, queries and capabilities are objects with numbers; the fields of a task that follow
its phase and the invocations are read by no code. -/

namespace Yinshi.Orchestration
open ByteText Function

inductive TaskPhase
  | created
  | running (request : OrchestrationRequest)
  | sending (response : OrchestrationResponse)
  | draining
  | done
  deriving DecidableEq

structure HandlerTask where
  frame : Frame
  frameBytes : Nat
  cancelling : Bool := false
  phase : TaskPhase := .created
  query : Nat
  responses : Nat := 0

/-- `request_id if isinstance(request_id, str) else ""`; an empty one counts as none. -/
def boundedRequestId (frame : Frame) : Option Text := present (frame.string "request_id")

inductive QueryPhase
  | starting
  | reading
  | failing (waits : List Nat)
  | closing (waits : List Nat)
  | finished
  deriving DecidableEq

def QueryPhase.active : QueryPhase → Bool
  | .starting | .reading | .failing _ => true
  | .closing _ | .finished => false

structure Query (η : Type) where
  sessionId : Text
  capability : Option Nat
  previousHandlers : Text → Option η
  phase : QueryPhase

/-- A call of `disconnect` from outside of a query, with the number of queries before it. -/
structure Disconnect where
  queries : Nat
  waits : List Nat
  returned : Bool := false

structure Invocation (η : Type) where
  task : Nat
  query : Nat
  object : Nat
  capability : OrchestrationCapability
  request : OrchestrationRequest
  handler : η
  now : Int

structure Client (η : Type) where
  connectionId : Text
  maxPending : Nat
  connected : Bool
  broken : Bool
  capabilities : Nat → Option OrchestrationCapability
  capability : Option Nat
  registry : Text → Option η
  handlers : Text → Option Nat
  orchestrationTasks : List Nat
  tasks : Nat → Option HandlerTask
  taskCount : Nat
  queries : Nat → Option (Query η)
  queryCount : Nat
  disconnects : Nat → Option Disconnect
  disconnectCount : Nat
  invocations : List (Invocation η)

inductive HandlerOutcome
  | returned (isDict : Bool) (responseBytes : Option Nat)
  | protocolError (code : ErrorCode)
  | timeout
  | failed

def handlerResponse (request : OrchestrationRequest) (outcome : HandlerOutcome) : OrchestrationResponse :=
  let error := buildOrchestrationError request.sessionId request.requestId
  match outcome with
  | .returned true (some bytes) =>
    if responseMaxBytes < bytes then error .responseTooLarge
    else buildOrchestrationSuccess request.sessionId request.requestId
  | .returned _ _ | .failed => error .handlerFailed
  | .protocolError code => error code
  | .timeout => error .handlerTimeout

namespace HandlerTask

def refuse (task : HandlerTask) (code : ErrorCode) : OrchestrationResponse :=
  buildOrchestrationError ((task.frame.string "id").getD (text "unknown"))
    ((task.frame.string "request_id").getD []) code

def cancel (task : HandlerTask) : HandlerTask :=
  if task.phase = .done then task else { task with cancelling := true }

end HandlerTask

namespace Client
variable {η : Type} (client : Client η)

def initial (connectionId : Text) (maxPending : Nat) (registry : Text → Option η) : Client η where
  connectionId := connectionId
  maxPending := maxPending
  connected := true
  broken := false
  capabilities _ := none
  capability := none
  registry := registry
  handlers _ := none
  orchestrationTasks := []
  tasks _ := none
  taskCount := 0
  queries _ := none
  queryCount := 0
  disconnects _ := none
  disconnectCount := 0
  invocations := []

def setTask (number : Nat) (task : HandlerTask) : Client η :=
  { client with tasks := update client.tasks number (some task) }

def setQuery (number : Nat) (query : Query η) : Client η :=
  { client with queries := update client.queries number (some query) }

@[simp] theorem setQuery_self (number : Nat) (query : Query η) :
    (client.setQuery number query).queries number = some query := update_self ..

theorem setQuery_of_ne {number other : Nat} (query : Query η) (ha : other ≠ number) :
    (client.setQuery number query).queries other = client.queries other := update_of_ne ha ..

def isDone (number : Nat) : Bool := (client.tasks number).all (·.phase = .done)

def idle : Prop := ∀ number < client.queryCount, ∀ query ∈ client.queries number, query.phase.active = false

instance : Decidable client.idle := inferInstanceAs (Decidable (∀ _ < _, _))

def activeQuery : Option Nat :=
  (List.range client.queryCount).find? fun number => (client.queries number).any (·.phase.active)

/-- The part of `_teardown_orchestration` before its await, with the tasks that it waits for. -/
def teardown : Client η × List Nat :=
  let pending := client.orchestrationTasks.filter fun number => ¬ client.isDone number
  ({ client with
      capabilities := match client.capability with
        | some object => update client.capabilities object
            ((client.capabilities object).map OrchestrationCapability.revoke)
        | none => client.capabilities
      capability := none
      handlers := fun _ => none
      tasks := fun number => if number ∈ pending then (client.tasks number).map HandlerTask.cancel
        else client.tasks number }, pending)

def cancelOrchestrationHandler (frame : Frame) (frameBytes : Nat) (now : Int) : Client η :=
  match client.capability.bind client.capabilities with
  | none => client
  | some capability =>
    match verifyOrchestrationCancel capability frame client.connectionId frameBytes now with
    | .error _ => client
    | .ok requestId =>
      match client.handlers requestId with
      | none => client
      | some number =>
        match client.tasks number with
        | none => client
        | some task => client.setTask number task.cancel

/-- `_spawn_orchestration_handler`; a `SidecarError` is `none`. -/
def spawnOrchestrationHandler (query : Nat) (frame : Frame) (frameBytes : Nat) : Option (Client η) :=
  let requestId := boundedRequestId frame
  let isDuplicate := ∃ id ∈ requestId, client.handlers id ≠ none
  let atCapacity := client.maxPending ≤ client.orchestrationTasks.length
  if isDuplicate ∨ atCapacity then none else
    some { client with
      orchestrationTasks := client.orchestrationTasks ++ [client.taskCount]
      tasks := update client.tasks client.taskCount
        (some { frame := frame, frameBytes := frameBytes, query := query })
      taskCount := client.taskCount + 1
      handlers := match requestId with
        | some id => update client.handlers id (some client.taskCount)
        | none => client.handlers }

def completed (number : Nat) (task : HandlerTask) : Client η :=
  { client with
    orchestrationTasks := client.orchestrationTasks.filter (· ≠ number)
    handlers := match boundedRequestId task.frame with
      | some id => if client.handlers id = some number then update client.handlers id none else client.handlers
      | none => client.handlers }

def asks (frame : Frame) : Prop :=
  frame.get "type" = some (.str requestType) ∨ frame.has "capability" ∧ frame.has "request_id"

instance (frame : Frame) : Decidable (asks frame) := inferInstanceAs (Decidable (_ ∨ _ ∧ _))

def dispatch (number : Nat) (query : Query η) (frame : Frame) (frameBytes : Nat) (now : Int) : Client η :=
  if frame.get "type" = some (.str responseType) then client else
  if frame.get "type" = some (.str cancelType) then client.cancelOrchestrationHandler frame frameBytes now else
  if asks frame then
    match client.spawnOrchestrationHandler number frame frameBytes with
    | some next => next
    | none =>
      let torn := client.teardown
      { torn.1 with connected := false }.setQuery number { query with phase := .failing torn.2 }
  else client

def runOrchestrationHandler (number : Nat) (task : HandlerTask) (now : Int) : Client η :=
  let refused code := client.setTask number { task with phase := .sending (task.refuse code) }
  match parseOrchestrationRequest task.frame task.frameBytes with
  | .error code => refused code
  | .ok request =>
    match client.capability with
    | none => refused .capabilityInvalid
    | some object =>
      match client.capabilities object with
      | none => refused .capabilityInvalid
      | some capability =>
        match verifyOrchestrationRequest capability request client.connectionId now with
        | .error code => refused code
        | .ok _ =>
          match client.registry request.operation with
          | none => refused .handlerFailed
          | some handler =>
            { client with
              tasks := update client.tasks number (some { task with phase := .running request })
              invocations := client.invocations ++
                [⟨number, client.activeQuery.getD client.queryCount, object, capability, request,
                  handler, now⟩] }

def beginQuery (sessionId : Text) (object : Option Nat) (given : Option (Text → Option η))
    (now : Int) : Option (Client η) :=
  if ¬ client.idle then none else
  let query : Query η :=
    { sessionId := sessionId, capability := object, previousHandlers := client.registry, phase := .starting }
  let begun : Client η := { client with
    registry := given.getD client.registry
    queries := update client.queries client.queryCount (some query)
    queryCount := client.queryCount + 1 }
  match object with
  | none => if given.isSome then none else some begun
  | some object =>
    (client.capabilities object).bind fun capability =>
      if ∃ handlers ∈ given, ∃ operation ∈ capability.allowedOperations, (handlers operation).isNone then none
      else (capability.claim sessionId client.connectionId now).map fun claimed =>
        { begun with
          capabilities := update client.capabilities object (some claimed)
          capability := some object }

def endQuery (number : Nat) (query : Query η) : Client η :=
  let torn := client.teardown
  torn.1.setQuery number { query with phase := .closing torn.2 }

def disconnect : Client η :=
  let torn := client.teardown
  { torn.1 with
    connected := false
    disconnects := update client.disconnects client.disconnectCount (some ⟨client.queryCount, torn.2, false⟩)
    disconnectCount := client.disconnectCount + 1 }

def drained (waits : List Nat) : Prop := ∀ number ∈ waits, client.isDone number = true

instance (waits : List Nat) : Decidable (client.drained waits) := inferInstanceAs (Decidable (∀ _ ∈ _, _))

end Client

inductive Event (η : Type)
  | generates (object : Nat) (capability : OrchestrationCapability)
  | begins (sessionId : Text) (object : Option Nat) (given : Option (Text → Option η)) (now : Int)
  | issues (query : Nat)
  | reads (query : Nat) (frame : Frame) (frameBytes : Nat) (now : Int)
  | ends (query : Nat)
  | fails (query : Nat)
  | closes (query : Nat) (restored : Bool)
  | runs (task : Nat) (now : Int)
  | finishes (task : Nat) (outcome : HandlerOutcome)
  | writes (task : Nat)
  | drains (task : Nat)
  | interrupts (task : Nat)
  | completes (task : Nat)
  | disconnects
  | returns (number : Nat)
  | breaks

namespace Client
variable {η : Type} (client : Client η)

def stepTask (number : Nat) (task : HandlerTask) : Event η → Option (Client η)
  | .runs _ now =>
    if task.phase = .created ∧ task.cancelling = false then
      some (client.runOrchestrationHandler number task now) else none
  | .finishes _ outcome =>
    match task.phase with
    | .running request =>
      some (client.setTask number { task with phase := .sending (handlerResponse request outcome) })
    | _ => none
  | .writes _ =>
    match task.phase with
    | .sending _ =>
      if client.connected = true ∧ client.broken = false then
        some (client.setTask number { task with phase := .draining, responses := task.responses + 1 })
      else some (client.setTask number { task with phase := .done })
    | _ => none
  | .drains _ =>
    if task.phase = .draining then some (client.setTask number { task with phase := .done }) else
      none
  | .interrupts _ =>
    if task.phase ≠ .done ∧ task.cancelling = true then some (client.setTask number { task with phase := .done })
    else none
  | .completes _ =>
    if task.phase = .done ∧ number ∈ client.orchestrationTasks then some (client.completed number task) else none
  | _ => none

def stepQuery (number : Nat) (query : Query η) : Event η → Option (Client η)
  | .issues _ =>
    if query.phase = .starting ∧ client.connected = true then
      some (client.setQuery number { query with phase := .reading })
    else none
  | .reads _ frame frameBytes now =>
    if query.phase = .reading then some (client.dispatch number query frame frameBytes now) else none
  | .ends _ =>
    if query.phase = .starting ∨ query.phase = .reading then some (client.endQuery number query) else none
  | .fails _ =>
    match query.phase with
    | .failing waits => if client.drained waits then some (client.endQuery number query) else none
    | _ => none
  | .closes _ restored =>
    match query.phase with
    | .closing waits =>
      if client.drained waits then
        some ({ client with
          registry := if restored then query.previousHandlers else client.registry }.setQuery number
            { query with phase := .finished })
      else none
    | _ => none
  | _ => none

def step (event : Event η) : Option (Client η) :=
  match event with
  | .generates object capability =>
    if client.capabilities object = none ∧ capability.claimed = false ∧ capability.revoked = false then
      some { client with capabilities := update client.capabilities object (some capability) }
    else none
  | .begins sessionId object given now => client.beginQuery sessionId object given now
  | .issues number | .reads number _ _ _ | .ends number | .fails number | .closes number _ =>
    (client.queries number).bind fun query => client.stepQuery number query event
  | .runs number _ | .finishes number _ | .writes number | .drains number | .interrupts number
  | .completes number => (client.tasks number).bind fun task => client.stepTask number task event
  | .disconnects => some client.disconnect
  | .returns number =>
    (client.disconnects number).bind fun entry =>
      if client.drained entry.waits then
        some { client with
          disconnects := update client.disconnects number (some { entry with returned := true }) }
      else none
  | .breaks => some { client with broken := true }

end Client

end Yinshi.Orchestration
