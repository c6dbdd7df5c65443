import Yinshi.Prompt.Outcome

/-! One process of the prompt journal: the start that holds the start lock, the background
consumers, cancellations, retained terminal statuses, shutdown and recovery. The statements
of their database operations interleave freely, and a storage failure may hide what a
statement did before the operation runs again. -/

namespace Yinshi.Prompt
open ByteText Keyed Runs Relation

/-- Where `_consume` stands; `unwinding` closes the event source. -/
inductive Phase
  | created
  | setting (call : Call)
  | executing (finalStatus : Status)
  | appending (finalStatus : Status) (append : AppendCall)
  | guarding (finalStatus : Status) (append : AppendCall)
  | unwinding (finalStatus : Status)
  | persisting (finalStatus : Status) (call : Call)

inductive Move
  | statement
  | lost (committed : Bool)
  | fail
  | resume
  | yields (event : Event)
  | finish
  | interrupt

inductive Turn
  | goes (db : Database) (phase : Phase)
  | invokes
  | drops
  | ends
  | retains (status : Status)

def runningCall (runId : Text) : Call := .setStatus runId .running [.starting]

def Call.lost (call : Call) (db : Database) (committed : Bool) : Database :=
  if committed then (call.step db).1 else db

def AppendCall.lost (append : AppendCall) (db : Database) (committed : Bool) : Database :=
  if committed then (append.attempt db).1 else db

def guarded (runId : Text) (finalStatus : Status) (event : Event) : Phase :=
  .guarding finalStatus (consumerCall runId event true)

def failing (runId : Text) : Phase := guarded runId .failed executionFailedEvent

def interrupted (closing : Bool) (runId : Text) : Phase :=
  if closing then guarded runId .interrupted interruptedEvent
  else guarded runId .cancelled userStopEvent

section Turns
variable (db : Database) (closing : Bool) (runId : Text)

def createdTurn : Move → Option Turn
  | .resume => some (.goes db (.setting (runningCall runId)))
  -- the body never runs, so neither does its `finally`
  | .interrupt => some .drops
  | _ => none

def settingTurn (call : Call) : Move → Option Turn
  | .statement => some (.goes (call.step db).1 (.setting (call.step db).2))
  | .lost committed => some (.goes (call.lost db committed) (.setting (runningCall runId)))
  | .fail => some (.goes db (failing runId))
  | .resume =>
    match call with
    | .returned .done => some .invokes
    | .returned (.raised (.runStopping _)) => some (.goes db (.unwinding .cancelled))
    | .returned _ => some (.goes db (failing runId))
    | _ => none
  | .interrupt => some (.goes db (interrupted closing runId))
  | _ => none

def executingTurn (finalStatus : Status) : Move → Option Turn
  | .yields event =>
    match validateEvent event with
    | .ok () => some (.goes db (.appending finalStatus (consumerCall runId event false)))
    | .error _ => some (.goes db (failing runId))
  | .finish => some (.goes db (.unwinding finalStatus))
  | .fail => some (.goes db (failing runId))
  | .interrupt => some (.goes db (interrupted closing runId))
  | _ => none

def appendingTurn (finalStatus : Status) (append : AppendCall) : Move → Option Turn
  | .statement =>
    match append.attempt db with
    | (db, _, .raised _) => some (.goes db (failing runId))
    | (db, _, _) => some (.goes db (.executing (append.event.failureStatus.getD finalStatus)))
  | .lost committed =>
    some (.goes (append.lost db committed) (.appending finalStatus (append.attempt db).2.1))
  | .fail => some (.goes db (failing runId))
  | .interrupt => some (.goes db (interrupted closing runId))
  | _ => none

def guardingTurn (finalStatus : Status) (append : AppendCall) : Move → Option Turn
  | .statement => some (.goes (append.attempt db).1 (.unwinding finalStatus))
  | .lost committed =>
    some (.goes (append.lost db committed) (.guarding finalStatus (append.attempt db).2.1))
  | .fail | .interrupt => some (.goes db (.unwinding finalStatus))
  | _ => none

def unwindingTurn (finalStatus : Status) : Move → Option Turn
  | .resume | .interrupt => some (.goes db (.persisting finalStatus (.setTerminal runId finalStatus)))
  | _ => none

def persistingTurn (finalStatus : Status) (call : Call) : Move → Option Turn
  | .statement => some (.goes (call.step db).1 (.persisting finalStatus (call.step db).2))
  | .lost committed =>
    some (.goes (call.lost db committed) (.persisting finalStatus (.setTerminal runId finalStatus)))
  | .fail => some (.retains finalStatus)
  | .resume =>
    match call with
    | .returned (.raised _) => some (.retains finalStatus)
    | .returned _ => some .ends
    | _ => none
  -- a cancellation is no `Exception`: nothing is retained
  | .interrupt => some .ends
  | _ => none

def Phase.turn : Phase → Move → Option Turn
  | .created => createdTurn db runId
  | .setting call => settingTurn db closing runId call
  | .executing finalStatus => executingTurn db closing runId finalStatus
  | .appending finalStatus append => appendingTurn db closing runId finalStatus append
  | .guarding finalStatus append => guardingTurn db finalStatus append
  | .unwinding finalStatus => unwindingTurn db runId finalStatus
  | .persisting finalStatus call => persistingTurn db runId finalStatus call

end Turns

/-- A task that runs `_consume`, and whether `cancel` was called on it. -/
structure Consumer where
  runId : Text
  phase : Phase := .created
  cancelled : Bool := false

/-- Where `cancel` stands after its recovery and reconciliation. -/
inductive CancelPhase
  | requesting (call : Call)
  | coordinating
  | awaiting (ref : Nat)
  | appending (append : AppendCall)
  | terminating (call : Call)

structure CancelCall where
  runId : Text
  sessionId : Text
  phase : CancelPhase

/-- What a move of `cancel` leaves: the phase unless it ended, and the task it cancels. -/
structure CancelTurn where
  db : Database
  phase : Option CancelPhase
  flags : Option Nat := none

def stopCall (runId : Text) : AppendCall where
  runId := runId
  event := userStopEvent
  deduplicate := true

section Cancelling
variable (db : Database) (call : CancelCall) (live : Nat → Bool) (raised : List Nat)

def requestingTurn (request : Call) : Move → Option CancelTurn
  | .statement => some ⟨(request.step db).1, some (.requesting (request.step db).2), none⟩
  | .lost committed =>
    some ⟨request.lost db committed, some (.requesting (.cancel call.runId call.sessionId)), none⟩
  | .fail => some ⟨db, none, none⟩
  | .resume =>
    match request with
    | .returned (.run _ true) => some ⟨db, some .coordinating, none⟩
    | .returned _ => some ⟨db, none, none⟩
    | _ => none
  | _ => none

/-- The answer of the run coordinator: on `ABSENT` the registered task is cancelled, unless
it is done; after any other answer `cancel` only loads the run. -/
def coordinatingTurn (task : Option Nat) : Move → Option CancelTurn
  | .resume =>
    match task.filter live with
    | some ref => some ⟨db, some (.awaiting ref), some ref⟩
    | none => some ⟨db, some (.appending (stopCall call.runId)), none⟩
  | .fail => some ⟨db, none, none⟩
  | _ => none

def awaitingTurn (ref : Nat) : Move → Option CancelTurn
  | .resume =>
    if live ref then none
    else if ref ∈ raised then some ⟨db, none, none⟩
    else some ⟨db, some (.appending (stopCall call.runId)), none⟩
  | .interrupt => if live ref then some ⟨db, some (.awaiting ref), some ref⟩ else none
  | _ => none

def stopAppendingTurn (append : AppendCall) : Move → Option CancelTurn
  | .statement =>
    match append.attempt db with
    | (db, _, .raised _) => some ⟨db, none, none⟩
    | (db, _, _) => some ⟨db, some (.terminating (.setTerminal call.runId .cancelled)), none⟩
  | .lost committed =>
    some ⟨append.lost db committed, some (.appending (append.attempt db).2.1), none⟩
  | .fail => some ⟨db, none, none⟩
  | _ => none

def terminatingTurn (write : Call) : Move → Option CancelTurn
  | .statement => some ⟨(write.step db).1, some (.terminating (write.step db).2), none⟩
  | .lost committed =>
    some ⟨write.lost db committed, some (.terminating (.setTerminal call.runId .cancelled)), none⟩
  | .fail => some ⟨db, none, none⟩
  | .resume =>
    match write with
    | .returned _ => some ⟨db, none, none⟩
    | _ => none
  | _ => none

def CancelCall.turn (task : Option Nat) : Move → Option CancelTurn :=
  match call.phase with
  | .requesting request => requestingTurn db call request
  | .coordinating => coordinatingTurn db call live task
  | .awaiting ref => awaitingTurn db call live raised ref
  | .appending append => stopAppendingTurn db call append
  | .terminating write => terminatingTurn db call write

end Cancelling

/-- The `_start_serialized` that holds the start lock. -/
structure StartCall where
  id : Text
  sessionId : Text
  key : Text
  call : Call

structure ReconcileCall where
  runId : Text
  status : Status
  call : Call

/-- The database and the journal object of one process, with the runs whose executor was
called and what the starts returned. -/
structure Process where
  db : Database
  recovered : Bool := false
  closing : Bool := false
  starting : Option StartCall := none
  consumers : Nat → Option Consumer := fun _ => none
  cancels : Nat → Option CancelCall := fun _ => none
  reconciles : Nat → Option ReconcileCall := fun _ => none
  tasks : Text → Option Nat := fun _ => none
  pending : Text → Option Status := fun _ => none
  raised : List Nat := []
  nextRef : Nat := 0
  invoked : List Text := []
  returned : List (Text × Text × Text) := []

inductive Action
  | recover (reported : Bool)
  | restart
  | begin (id sessionId key : Text)
  | start (move : Move)
  | consumer (ref : Nat) (move : Move)
  | stop (number : Nat) (sessionId runId : Text)
  | cancel (number : Nat) (move : Move)
  | retry (number : Nat) (runId : Text)
  | reconcile (number : Nat) (move : Move)
  | close
  | clear

namespace Process
variable (s : Process)

def live (ref : Nat) : Bool := (s.consumers ref).isSome

def flag (ref : Nat) : Nat → Option Consumer :=
  Function.update s.consumers ref ((s.consumers ref).map ({ · with cancelled := true }))

/-- The registration of a task and the end of `_start_serialized`. -/
def register (start : StartCall) (run : PromptRun) : Process :=
  let consumers := Function.update s.consumers s.nextRef (some { runId := run.id })
  match s.tasks run.id with
  | none =>
    { s with
      starting := none, consumers := consumers, nextRef := s.nextRef + 1,
      tasks := Function.update s.tasks run.id (some s.nextRef),
      returned := s.returned ++ [(start.sessionId, start.key, run.id)] }
  -- the assertion on `setdefault` fails, but the task was created
  | some _ => { s with starting := none, consumers := consumers, nextRef := s.nextRef + 1 }

def decided (start : StartCall) (run : PromptRun) (created : Bool) : Process :=
  if created ∨ (run.status = .starting ∧ s.tasks run.id = none) then s.register start run
  else { s with
    starting := none, returned := s.returned ++ [(start.sessionId, start.key, run.id)] }

def startTurn (start : StartCall) : Move → Option Process
  | .statement =>
    some { s with
      db := (start.call.step s.db).1, starting := some { start with call := (start.call.step s.db).2 } }
  | .lost committed =>
    some { s with
      db := start.call.lost s.db committed,
      starting := some { start with call := .start start.id start.sessionId start.key } }
  | .fail => some { s with starting := none }
  | .resume =>
    match start.call with
    | .returned (.run run created) => some (s.decided start run created)
    | .returned _ => some { s with starting := none }
    | _ => none
  | _ => none

def unregister (ref : Nat) (runId : Text) : Text → Option Nat :=
  if s.tasks runId = some ref then Function.update s.tasks runId none else s.tasks

def consumerTurn (ref : Nat) (c : Consumer) (cancelled : Bool) : Turn → Process
  | .goes db phase =>
    { s with
      db := db
      consumers := Function.update s.consumers ref (some { c with phase := phase, cancelled := cancelled }) }
  | .invokes =>
    { s with
      consumers := Function.update s.consumers ref (some { c with phase := .executing .completed })
      invoked := s.invoked ++ [c.runId] }
  | .drops => { s with consumers := Function.update s.consumers ref none }
  | .ends =>
    { s with
      consumers := Function.update s.consumers ref none, tasks := s.unregister ref c.runId }
  | .retains status =>
    { s with
      consumers := Function.update s.consumers ref none, tasks := s.unregister ref c.runId
      pending := Function.update s.pending c.runId (some status), raised := ref :: s.raised }

def consumerMove (ref : Nat) (c : Consumer) : Move → Option Process
  | .interrupt =>
    if c.cancelled then (c.phase.turn s.db s.closing c.runId .interrupt).map (s.consumerTurn ref c false)
    else none
  | move => (c.phase.turn s.db s.closing c.runId move).map (s.consumerTurn ref c c.cancelled)

def cancelTurn (number : Nat) (call : CancelCall) (turn : CancelTurn) : Process :=
  { s with
    db := turn.db
    cancels := Function.update s.cancels number (turn.phase.map ({ call with phase := · }))
    consumers := turn.flags.elim s.consumers s.flag }

def reconcileTurn (number : Nat) (call : ReconcileCall) : Move → Option Process
  | .statement =>
    some { s with
      db := (call.call.step s.db).1
      reconciles := Function.update s.reconciles number (some { call with call := (call.call.step s.db).2 }) }
  | .lost committed =>
    some { s with
      db := call.call.lost s.db committed
      reconciles := Function.update s.reconciles number
        (some { call with call := .setTerminal call.runId call.status }) }
  | .fail => some { s with reconciles := Function.update s.reconciles number none }
  | .resume =>
    match call.call with
    | .returned (.raised _) => some { s with reconciles := Function.update s.reconciles number none }
    | .returned _ =>
      some { s with
        reconciles := Function.update s.reconciles number none
        pending := if s.pending call.runId = some call.status
          then Function.update s.pending call.runId none else s.pending }
    | _ => none
  | _ => none

def closes : Process :=
  { s with
    closing := true
    consumers := fun ref => (s.consumers ref).map fun c =>
      { c with cancelled := c.cancelled || decide (s.tasks c.runId = some ref) } }

def Gathered : Prop :=
  ∀ ref < s.nextRef, ∀ c ∈ s.consumers ref, s.tasks c.runId ≠ some ref

instance : Decidable s.Gathered :=
  inferInstanceAs (Decidable (∀ ref < s.nextRef, ∀ c ∈ s.consumers ref, s.tasks c.runId ≠ some ref))

def act : Action → Option Process
  | .recover reported =>
    if s.recovered then none
    else some { s with db := s.db.recoverPromptDatabase, recovered := reported }
  | .restart => some { db := s.db, nextRef := s.nextRef, invoked := s.invoked, returned := s.returned }
  | .begin id sessionId key =>
    if s.recovered ∧ s.closing = false ∧ s.starting.isNone ∧ s.db.runById id = none then
      some { s with starting := some ⟨id, sessionId, key, .start id sessionId key⟩ }
    else none
  | .start move => s.starting.bind fun start => s.startTurn start move
  | .consumer ref move => (s.consumers ref).bind fun c => s.consumerMove ref c move
  | .stop number sessionId runId =>
    if s.recovered ∧ (s.cancels number).isNone then
      some { s with
        cancels := Function.update s.cancels number
          (some ⟨runId, sessionId, .requesting (.cancel runId sessionId)⟩) }
    else none
  | .cancel number move =>
    (s.cancels number).bind fun call =>
      (call.turn s.db s.live s.raised (s.tasks call.runId) move).map (s.cancelTurn number call)
  | .retry number runId =>
    if s.recovered ∧ (s.reconciles number).isNone then
      (s.pending runId).map fun status =>
        { s with
          reconciles := Function.update s.reconciles number
            (some ⟨runId, status, .setTerminal runId status⟩) }
    else none
  | .reconcile number move => (s.reconciles number).bind fun call => s.reconcileTurn number call move
  | .close => if s.starting.isNone then some s.closes else none
  | .clear => if s.closing ∧ s.Gathered then some { s with tasks := fun _ => none } else none

end Process

end Yinshi.Prompt
