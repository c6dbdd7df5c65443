import Yinshi.Orchestration.Client

/-! What one event can do to a client. -/

namespace Yinshi.Orchestration
open ByteText Function Option

variable {η : Type}

inductive TaskMove (client : Client η) : HandlerTask → HandlerTask → Prop
  | refused {task : HandlerTask} (code : ErrorCode) (fresh : task.phase = .created)
      (uncancelled : task.cancelling = false) :
      TaskMove client task { task with phase := .sending (task.refuse code) }
  | answered {task : HandlerTask} {request : OrchestrationRequest} (outcome : HandlerOutcome)
      (running : task.phase = .running request) :
      TaskMove client task { task with phase := .sending (handlerResponse request outcome) }
  | written {task : HandlerTask} {response : OrchestrationResponse} (sending : task.phase = .sending response)
      (intact : client.connected = true ∧ client.broken = false) :
      TaskMove client task { task with phase := .draining, responses := task.responses + 1 }
  | unsent {task : HandlerTask} {response : OrchestrationResponse} (sending : task.phase = .sending response)
      (cut : ¬ (client.connected = true ∧ client.broken = false)) :
      TaskMove client task { task with phase := .done }
  | drained {task : HandlerTask} (draining : task.phase = .draining) :
      TaskMove client task { task with phase := .done }
  | interrupted {task : HandlerTask} (undone : task.phase ≠ .done)
      (cancelling : task.cancelling = true) : TaskMove client task { task with phase := .done }
  | cancelled {task : HandlerTask} : TaskMove client task task.cancel

inductive QueryMove (client : Client η) : QueryPhase → QueryPhase → Prop
  | issued (connected : client.connected = true) : QueryMove client .starting .reading
  | closed {waits : List Nat} (drained : client.drained waits) : QueryMove client (.closing waits) .finished

inductive Ending (client : Client η) : QueryPhase → (List Nat → QueryPhase) → Prop
  | failed : Ending client .reading .failing
  | startless : Ending client .starting .closing
  | ended : Ending client .reading .closing
  | closed {waits : List Nat} (drained : client.drained waits) : Ending client (.failing waits) .closing

def requests (frame : Frame) : Prop :=
  frame.get "type" ≠ some (.str responseType) ∧ frame.get "type" ≠ some (.str cancelType) ∧ Client.asks frame

instance (frame : Frame) : Decidable (requests frame) := inferInstanceAs (Decidable (_ ∧ _))

inductive Change (client : Client η) (event : Event η) : Client η → Prop
  | ignored : Change client event client
  | task {number : Nat} {task next : HandlerTask} (found : client.tasks number = some task)
      (move : TaskMove client task next) : Change client event (client.setTask number next)
  | invoked {number object : Nat} {task : HandlerTask} {capability : OrchestrationCapability}
      {request : OrchestrationRequest} {caller : Option VerifiedThreadCaller} {handler : η} {now : Int}
      (found : client.tasks number = some task) (fresh : task.phase = .created)
      (uncancelled : task.cancelling = false)
      (parsed : parseOrchestrationRequest task.frame task.frameBytes = .ok request)
      (holds : client.capability = some object) (isCapability : client.capabilities object = some capability)
      (verified : verifyOrchestrationRequest capability request client.connectionId now = .ok caller) :
      Change client event { client with
        tasks := update client.tasks number (some { task with phase := .running request })
        invocations := client.invocations ++
          [⟨number, client.activeQuery.getD client.queryCount, object, capability, request, handler, now⟩] }
  | spawned {number : Nat} {query : Query η} {frame : Frame} {frameBytes : Nat} {now : Int}
      (isEvent : event = .reads number frame frameBytes now) (found : client.queries number = some query)
      (reading : query.phase = .reading) (asking : requests frame)
      (room : client.orchestrationTasks.length < client.maxPending)
      (unknown : ∀ id ∈ boundedRequestId frame, client.handlers id = none) :
      Change client event { client with
        orchestrationTasks := client.orchestrationTasks ++ [client.taskCount]
        tasks := update client.tasks client.taskCount
          (some { frame := frame, frameBytes := frameBytes, query := number })
        taskCount := client.taskCount + 1
        handlers := match boundedRequestId frame with
          | some id => update client.handlers id (some client.taskCount)
          | none => client.handlers }
  | completed {number : Nat} {task : HandlerTask} (found : client.tasks number = some task)
      (isDone : task.phase = .done) (listed : number ∈ client.orchestrationTasks) :
      Change client event (client.completed number task)
  | generated {object : Nat} {capability : OrchestrationCapability}
    (free : client.capabilities object = none) :
      Change client event { client with capabilities := update client.capabilities object (some capability) }
  | begun {sessionId : Text} {registry : Text → Option η} (idle : client.idle) :
      Change client event { client with
        registry := registry
        queries := update client.queries client.queryCount
          (some ⟨sessionId, none, client.registry, .starting⟩)
        queryCount := client.queryCount + 1 }
  | claimed {sessionId : Text} {registry : Text → Option η} {object : Nat}
      {capability : OrchestrationCapability} (idle : client.idle) :
      Change client event { client with
        registry := registry
        queries := update client.queries client.queryCount
          (some ⟨sessionId, some object, client.registry, .starting⟩)
        queryCount := client.queryCount + 1
        capabilities := update client.capabilities object (some capability)
        capability := some object }
  | moved {number : Nat} {query : Query η} {phase : QueryPhase} {registry : Text → Option η}
      (found : client.queries number = some query) (move : QueryMove client query.phase phase) :
      Change client event ({ client with registry := registry }.setQuery number { query with phase := phase })
  | torn {number : Nat} {query : Query η} {phase : List Nat → QueryPhase} {connected : Bool}
      (found : client.queries number = some query) (ending : Ending client query.phase phase)
      (cut : connected = true → client.connected = true) :
      Change client event
        ({ client.teardown.1 with connected := connected }.setQuery number
          { query with phase := phase client.teardown.2 })
  | disconnected : Change client event client.disconnect
  | returned {number : Nat} {entry : Disconnect} (found : client.disconnects number = some entry)
      (drained : client.drained entry.waits) :
      Change client event
        { client with disconnects := update client.disconnects number (some { entry with returned := true }) }
  | broke : Change client event { client with broken := true }

def Event.query : Event η → Option Nat
  | .issues number | .reads number _ _ _ | .ends number | .fails number | .closes number _ => some number
  | _ => none

namespace Client
variable {client next : Client η} {event : Event η}
variable {number frameBytes : Nat} {now : Int} {frame : Frame} {query : Query η}

theorem runOrchestrationHandler_change {task : HandlerTask} (hf : client.tasks number = some task)
    (fresh : task.phase = .created) (hu : task.cancelling = false) :
    Change client event (client.runOrchestrationHandler number task now) := by
  have hr : ∀ code, Change client event
      (client.setTask number { task with phase := .sending (task.refuse code) }) := fun code =>
    .task hf (.refused _ fresh hu)
  unfold runOrchestrationHandler
  split
  next code _ => exact hr code
  next request parsed =>
    split
    next => exact hr _
    next object hh =>
      split
      next => exact hr _
      next capability isCapability =>
        split
        next code _ => exact hr code
        next caller hv =>
          split
          next => exact hr _
          next handler _ => exact .invoked hf fresh hu parsed hh isCapability hv

theorem cancelOrchestrationHandler_change :
    Change client event (client.cancelOrchestrationHandler frame frameBytes now) := by
  unfold cancelOrchestrationHandler
  split
  next => exact .ignored
  next capability _ =>
    split
    next => exact .ignored
    next requestId _ =>
      split
      next => exact .ignored
      next number _ =>
        split
        next => exact .ignored
        next task hf => exact .task hf .cancelled

theorem dispatch_change (he : event = .reads number frame frameBytes now)
    (hf : client.queries number = some query) (reading : query.phase = .reading) :
    Change client event (client.dispatch number query frame frameBytes now) := by
  unfold dispatch
  split
  next => exact .ignored
  next noResponse =>
    split
    next => exact cancelOrchestrationHandler_change
    next noCancel =>
      split
      swap
      next => exact .ignored
      next asking =>
        split
        next spawned isSpawned =>
          obtain ⟨ha, ⟨⟩⟩ := ite_none_left_eq_some.mp isSpawned
          obtain ⟨unknown, room⟩ := not_or.mp ha
          refine .spawned he hf reading ⟨noResponse, noCancel, asking⟩ (Nat.lt_of_not_le room)
            fun id hk => ?_
          by_contra taken
          exact unknown ⟨id, hk, taken⟩
        next => exact .torn hf (reading ▸ .failed) (by simp)

theorem dispatch_requests (asking : requests frame)
    (room : client.orchestrationTasks.length < client.maxPending)
    (unknown : ∀ id ∈ boundedRequestId frame, client.handlers id = none) :
    ∃ handlers, client.dispatch number query frame frameBytes now = { client with
      orchestrationTasks := client.orchestrationTasks ++ [client.taskCount]
      tasks := update client.tasks client.taskCount
        (some { frame := frame, frameBytes := frameBytes, query := number })
      taskCount := client.taskCount + 1
      handlers := handlers } := by
  have ha : ¬ ((∃ id ∈ boundedRequestId frame, client.handlers id ≠ none) ∨
      client.maxPending ≤ client.orchestrationTasks.length) := by
    rintro (⟨id, hk, taken⟩ | full)
    · exact taken (unknown id hk)
    · exact Nat.not_le_of_lt room full
  obtain ⟨noResponse, noCancel, asks⟩ := asking
  rw [dispatch, if_neg noResponse, if_neg noCancel, if_pos asks, spawnOrchestrationHandler, if_neg ha]
  exact ⟨_, rfl⟩

theorem dispatch_cancel (isCancel : frame.get "type" = some (.str cancelType)) :
    client.dispatch number query frame frameBytes now =
      client.cancelOrchestrationHandler frame frameBytes now := by
  have noResponse : frame.get "type" ≠ some (.str responseType) := by
    rw [isCancel]
    decide
  rw [dispatch, if_neg noResponse, if_pos isCancel]

theorem cancelOrchestrationHandler_keeps (frame : Frame) (frameBytes : Nat) (now : Int) :
    (client.cancelOrchestrationHandler frame frameBytes now).orchestrationTasks =
        client.orchestrationTasks ∧
    (client.cancelOrchestrationHandler frame frameBytes now).queries = client.queries := by
  unfold cancelOrchestrationHandler
  split
  next => exact ⟨rfl, rfl⟩
  next =>
    split
    next => exact ⟨rfl, rfl⟩
    next =>
      split
      next => exact ⟨rfl, rfl⟩
      next =>
        split
        next => exact ⟨rfl, rfl⟩
        next => exact ⟨rfl, rfl⟩

theorem step_reads (hf : client.queries number = some query) (reading : query.phase = .reading)
    (frame : Frame) (frameBytes : Nat) (now : Int) :
    client.step (.reads number frame frameBytes now) =
      some (client.dispatch number query frame frameBytes now) := by
  show (client.queries number).bind _ = _
  rw [hf, bind_some]
  exact if_pos reading

theorem stepTask_change {task : HandlerTask} (found : client.tasks number = some task)
    (hs : client.stepTask number task event = some next) : Change client event next := by
  unfold stepTask at hs
  split at hs
  next =>
    obtain ⟨⟨hf, hu⟩, ⟨⟩⟩ := ite_none_right_eq_some.mp hs
    exact runOrchestrationHandler_change found hf hu
  next =>
    split at hs
    next hr =>
      cases hs
      exact .task found (.answered _ hr)
    next => simp at hs
  next =>
    split at hs
    next sending =>
      split at hs
      next intact =>
        cases hs
        exact .task found (.written sending intact)
      next cut =>
        cases hs
        exact .task found (.unsent sending cut)
    next => simp at hs
  next =>
    obtain ⟨draining, ⟨⟩⟩ := ite_none_right_eq_some.mp hs
    exact .task found (.drained draining)
  next =>
    obtain ⟨⟨undone, cancelling⟩, ⟨⟩⟩ := ite_none_right_eq_some.mp hs
    exact .task found (.interrupted undone cancelling)
  next =>
    obtain ⟨⟨hd, hl⟩, ⟨⟩⟩ := ite_none_right_eq_some.mp hs
    exact .completed found hd hl
  next => simp at hs

theorem endQuery_change (hf : client.queries number = some query)
    (ending : Ending client query.phase .closing) :
    Change client event (client.endQuery number query) :=
  @Change.torn _ _ _ _ _ _ client.connected hf ending id

theorem stepQuery_change (hf : client.queries number = some query) (hs : event.query = some number)
    (stepped : client.stepQuery number query event = some next) : Change client event next := by
  unfold stepQuery at stepped
  split at stepped
  next =>
    obtain ⟨⟨starting, connected⟩, ⟨⟩⟩ := ite_none_right_eq_some.mp stepped
    have move : QueryMove client query.phase .reading := starting ▸ .issued connected
    exact @Change.moved _ _ _ _ _ _ client.registry hf move
  next =>
    obtain ⟨reading, ⟨⟩⟩ := ite_none_right_eq_some.mp stepped
    cases hs
    exact dispatch_change rfl hf reading
  next =>
    obtain ⟨hh, ⟨⟩⟩ := ite_none_right_eq_some.mp stepped
    refine endQuery_change hf ?_
    rcases hh with starting | reading
    · exact starting ▸ .startless
    · exact reading ▸ .ended
  next =>
    split at stepped
    next hw failing =>
      obtain ⟨drained, ⟨⟩⟩ := ite_none_right_eq_some.mp stepped
      exact endQuery_change hf (failing ▸ .closed drained)
    next => simp at stepped
  next =>
    split at stepped
    next hw closing =>
      obtain ⟨drained, ⟨⟩⟩ := ite_none_right_eq_some.mp stepped
      exact .moved hf (closing ▸ .closed drained)
    next => simp at stepped
  next => simp at stepped

theorem beginQuery_change {sessionId : Text} {object : Option Nat}
    {given : Option (Text → Option η)}
    (begun : client.beginQuery sessionId object given now = some next) :
    Change client event next := by
  obtain ⟨hi, begun⟩ := ite_none_left_eq_some.mp begun
  have hi := not_not.mp hi
  cases object with
  | none =>
    obtain ⟨-, ⟨⟩⟩ := ite_none_left_eq_some.mp begun
    exact .begun hi
  | some _ =>
    obtain ⟨_, -, begun⟩ := bind_eq_some_iff.mp begun
    obtain ⟨-, begun⟩ := ite_none_left_eq_some.mp begun
    obtain ⟨_, -, rfl⟩ := map_eq_some_iff.mp begun
    exact .claimed hi

theorem step_change (hs : client.step event = some next) : Change client event next := by
  cases event with
  | generates object _ =>
    obtain ⟨⟨free, -⟩, ⟨⟩⟩ := ite_none_right_eq_some.mp hs
    exact .generated free
  | begins _ _ _ _ => exact beginQuery_change hs
  | issues | reads | ends | fails | closes =>
    obtain ⟨_, hf, moved⟩ := bind_eq_some_iff.mp hs
    exact stepQuery_change hf rfl moved
  | runs | finishes | writes | drains | interrupts | completes =>
    obtain ⟨_, hf, moved⟩ := bind_eq_some_iff.mp hs
    exact stepTask_change hf moved
  | disconnects => exact some.inj hs ▸ .disconnected
  | returns _ =>
    obtain ⟨_, hf, moved⟩ := bind_eq_some_iff.mp hs
    obtain ⟨drained, ⟨⟩⟩ := ite_none_right_eq_some.mp moved
    exact .returned hf drained
  | breaks => exact some.inj hs ▸ .broke

end Client

end Yinshi.Orchestration
