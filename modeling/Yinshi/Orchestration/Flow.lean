import Yinshi.Orchestration.Guarantees
import Yinshi.Orchestration.Settling

/-! One channel and the client that serves its query, with the frames between them in order. -/

namespace Yinshi.Orchestration
open ByteText Function

/-- `outbound` holds the frames to the client with their sizes, `inbound` the responses with the
tasks that wrote them. -/
structure Flow (η : Type) where
  client : Client η
  query : Nat
  channel : Channel
  outbound : List (Frame × Nat)
  inbound : List (Nat × Frame)

def Event.serves {η : Type} : Event η → Bool
  | .runs .. | .finishes .. | .writes .. | .drains .. | .interrupts .. | .completes .. => true
  | .ends .. | .fails .. | .closes .. | .disconnects | .returns .. | .breaks => true
  | .generates .. | .begins .. | .issues .. | .reads .. => false

inductive FlowEvent (η : Type)
  | calls (call : Call)
  | aborts (number : Nat) (sends : Bool) (frameBytes : Nat)
  | expires (number : Nat)
  | delivers (frameBytes : Option Nat)
  | disposes
  | reads (now : Int)
  | acts (event : Event η)

namespace Client
variable {η : Type}

def sent (client : Client η) : Event η → Option (Nat × Frame)
  | .writes number =>
    (client.tasks number).bind fun task =>
      match task.phase with
      | .sending response =>
        if client.connected = true ∧ client.broken = false then some (number, response.frame) else none
      | _ => none
  | _ => none

end Client

namespace Flow
variable {η : Type} (flow : Flow η)

def fresh (call : Call) : Prop :=
  call.requestId.length = 36 ∧
    ∀ number < flow.channel.calls, ∀ entry ∈ flow.channel.entries number, entry.requestId ≠ call.requestId

instance (call : Call) : Decidable (flow.fresh call) := inferInstanceAs (Decidable (_ ∧ ∀ _ < _, _))

def step : FlowEvent η → Option (Flow η)
  | .calls call =>
    if flow.fresh call then
      let called := flow.channel.request call
      some { flow with
        channel := called.1
        outbound := flow.outbound ++ called.2.toList.map fun frame => (frame, call.frameBytes.getD 0) }
    else none
  | .aborts number sends frameBytes =>
    (flow.channel.entries number).bind fun entry =>
      if entry.listening = true then
        let aborted := flow.channel.onAbort number entry sends
        some { flow with
          channel := aborted.1
          outbound := flow.outbound ++ aborted.2.toList.map fun frame => (frame, frameBytes) }
      else none
  | .expires number =>
    (flow.channel.entries number).bind fun entry =>
      if entry.timer = true then
        some { flow with channel := flow.channel.settle number (.rejected .timeout) }
      else none
  | .delivers frameBytes =>
    match flow.inbound with
    | [] => none
    | (_, frame) :: rest =>
      some { flow with channel := flow.channel.handleFrame frame frameBytes, inbound := rest }
  | .disposes => some { flow with channel := flow.channel.dispose }
  | .reads now =>
    match flow.outbound with
    | [] => none
    | (frame, frameBytes) :: rest =>
      (flow.client.step (.reads flow.query frame frameBytes now)).map fun client =>
        { flow with client := client, outbound := rest }
  | .acts event =>
    if event.serves = true then
      (flow.client.step event).map fun client =>
        { flow with client := client, inbound := flow.inbound ++ (flow.client.sent event).toList }
    else none

def reading : Prop := ∃ query ∈ flow.client.queries flow.query, query.phase = .reading

instance : Decidable flow.reading := inferInstanceAs (Decidable (∃ _ ∈ _, _))

def waiting : List (Option Text) :=
  (flow.outbound.filter fun row => requests row.1).map fun row => boundedRequestId row.1

def outstanding : Nat := flow.waiting.length + flow.client.orchestrationTasks.length

/-- The next frame makes `_spawn_orchestration_handler` raise. -/
def Raises : Prop :=
  flow.reading ∧ ∃ frame frameBytes rest, flow.outbound = (frame, frameBytes) :: rest ∧
    requests frame ∧ flow.client.spawnOrchestrationHandler flow.query frame frameBytes = none

end Flow

end Yinshi.Orchestration
