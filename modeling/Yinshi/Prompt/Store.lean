import Yinshi.Base.ByteText
import Yinshi.Base.Keyed

/-! The prompt tables and the SQL statements of the prompt journal. A statement is a
function of the committed tables; a transaction that writes is one function too. -/

namespace Yinshi.Prompt
open ByteText Keyed

inductive Status
  | starting
  | running
  | stopping
  | completed
  | failed
  | cancelled
  | interrupted
  deriving DecidableEq

def activeStatuses : List Status := [.starting, .running, .stopping]

def terminalStatuses : List Status := [.completed, .failed, .cancelled, .interrupted]

/-- What the journal raises, with the exception class of the source. -/
inductive PromptError
  | runNotFound (message : String)
  | runConflict (message : String)
  | runStopping (message : String)
  | runtime (message : String)
  | value (message : String)
  | integrity
  deriving DecidableEq

structure PromptRun where
  id : Text
  sessionId : Text
  idempotencyKey : Text
  status : Status
  deriving DecidableEq

/-- What the journal reads of an event: its type, when that is a string, and its
canonical JSON. -/
structure Event where
  type : Option Text
  json : Bytes
  deriving DecidableEq

structure EventRow where
  runId : Text
  sequence : Nat
  event : Event
  deriving DecidableEq

/-- The committed tables. Of the sessions only the ids are kept. -/
structure Database where
  sessions : List Text
  runs : List PromptRun
  events : List EventRow
  deriving DecidableEq

def eventBytesMax : Nat := 1048576
def eventBatchBytesMax : Nat := 48000
def eventCountMax : Nat := 100000
def eventBatchMax : Nat := 100

def resultType : Text := text "result"
def cancelledType : Text := text "cancelled"
def errorType : Text := text "error"

def terminalEventFinalStatuses : List (Text × Status) :=
  [(resultType, .completed), (cancelledType, .cancelled), (errorType, .failed)]

def Event.finalStatus (event : Event) : Option Status :=
  event.type.bind fun type => terminalEventFinalStatuses.lookup type

def interruptedEvent : Event :=
  ⟨some errorType, bytes "\x7b\"error\":\"Prompt run was interrupted\",\"type\":\"error\"\x7d"⟩

def userStopEvent : Event :=
  ⟨some cancelledType, bytes "\x7b\"reason\":\"user_stop\",\"type\":\"cancelled\"\x7d"⟩

def executionFailedEvent : Event :=
  ⟨some errorType, bytes "\x7b\"error\":\"Prompt execution failed\",\"type\":\"error\"\x7d"⟩

namespace Database

def runById (db : Database) (id : Text) : Option PromptRun := db.runs.find? (·.id = id)

/-- `SELECT ... WHERE session_id = ? AND idempotency_key = ?`. -/
def runByKey (db : Database) (sessionId key : Text) : Option PromptRun :=
  db.runs.find? fun run => run.sessionId = sessionId ∧ run.idempotencyKey = key

/-- `SELECT id ... WHERE session_id = ? AND status IN ('starting', 'running', 'stopping')`. -/
def activeRun (db : Database) (sessionId : Text) : Option PromptRun :=
  db.runs.find? fun run => run.sessionId = sessionId ∧ run.status ∈ activeStatuses

/-- Two rows that a unique index of `prompt_runs` keeps apart. -/
def clashes (first second : PromptRun) : Prop :=
  first.id = second.id ∨
  (first.sessionId = second.sessionId ∧ first.idempotencyKey = second.idempotencyKey) ∨
  (first.sessionId = second.sessionId ∧ first.status ∈ activeStatuses ∧
    second.status ∈ activeStatuses)

instance (first second : PromptRun) : Decidable (clashes first second) :=
  inferInstanceAs (Decidable (_ ∨ _))

/-- `INSERT INTO prompt_runs`, unless a key or an index is violated. -/
def insertRun (db : Database) (run : PromptRun) : Option Database :=
  if run.sessionId ∉ db.sessions ∨ ∃ other ∈ db.runs, clashes other run then none
  else some { db with runs := db.runs ++ [run] }

/-- `UPDATE prompt_runs SET status = ? WHERE id = ? AND status IN (...)`. -/
def updateStatus (db : Database) (id : Text) (status : Status) (expected : List Status) : Database :=
  { db with runs := db.runs.map fun run =>
      if run.id = id ∧ run.status ∈ expected then { run with status := status } else run }

def updateCount (db : Database) (id : Text) (expected : List Status) : Nat :=
  (db.runs.filter fun run => run.id = id ∧ run.status ∈ expected).length

def statusOf (db : Database) (id : Text) : Option Status := (db.runById id).map (·.status)

def journal (db : Database) (runId : Text) : List EventRow :=
  sortBy (·.sequence) (db.events.filter (·.runId = runId))

def nextSequence (db : Database) (runId : Text) : Nat :=
  (((db.events.filter (·.runId = runId)).map (·.sequence)).max?).elim 0 (· + 1)

/-- `SELECT event_json ... WHERE run_id = ? AND sequence = ?`. -/
def eventAt (db : Database) (runId : Text) (sequence : Nat) : Option Event :=
  (db.events.find? fun row => row.runId = runId ∧ row.sequence = sequence).map (·.event)

def insertEvent (db : Database) (runId : Text) (sequence : Nat) (event : Event) : Database :=
  { db with events := db.events ++ [⟨runId, sequence, event⟩] }

def deriveTerminalStatusFromEvents (db : Database) (runId : Text) : Option Status :=
  (db.journal runId).reverse.findSome? (·.event.finalStatus)

def recoverRun (db : Database) (row : PromptRun) : Database :=
  match db.deriveTerminalStatusFromEvents row.id with
  | none =>
    let sequence := db.nextSequence row.id
    let db := if sequence < eventCountMax then db.insertEvent row.id sequence interruptedEvent else db
    db.updateStatus row.id .interrupted activeStatuses
  | some derived =>
    db.updateStatus row.id (if row.status = .stopping then .cancelled else derived) activeStatuses

def recoverPromptDatabase (db : Database) : Database :=
  (db.runs.filter (·.status ∈ activeStatuses)).foldl recoverRun db

end Database

/-- A call of `_append_event`; `intendedSequence` survives from one attempt to the next. -/
structure AppendCall where
  runId : Text
  event : Event
  unlessTerminal : Bool := false
  deduplicate : Bool := false
  intendedSequence : Option Nat := none
  deriving DecidableEq

inductive AppendOutcome
  | raised (error : PromptError)
  | skipped
  | duplicate
  | stored
  | inserted
  deriving DecidableEq

def validateEvent (event : Event) : Except PromptError Unit :=
  if event.type = none then .error (.value "prompt journal event must have a string type")
  else if eventBytesMax < event.json.length then
    .error (.value "prompt journal event exceeds the byte limit")
  else .ok ()

def AppendCall.attempt (call : AppendCall) (db : Database) : Database × AppendCall × AppendOutcome :=
  match db.runById call.runId with
  | none => (db, call, .raised (.runNotFound "prompt run not found"))
  | some run =>
    if call.unlessTerminal ∧ (run.status ∈ terminalStatuses ∨ run.status = .stopping) then
      (db, call, .skipped)
    else if call.deduplicate ∧ ∃ row ∈ db.events, row.runId = call.runId ∧
        row.event.json = call.event.json then (db, call, .duplicate)
    else
      let sequence := call.intendedSequence.getD (db.nextSequence call.runId)
      let call := { call with intendedSequence := some sequence }
      if eventCountMax ≤ sequence then
        (db, call, .raised (.runtime "prompt journal event count exceeded the limit"))
      else match db.eventAt call.runId sequence with
        | some stored =>
          if stored.json ≠ call.event.json then
            (db, call, .raised (.runtime "prompt journal sequence contains a different event"))
          else (db, call, .stored)
        | none => (db.insertEvent call.runId sequence call.event, call, .inserted)

def pageFrom {α : Type} (size : α → Nat) : Nat → List α → List α
  | _, [] => []
  | used, row :: rows =>
    if used + size row ≤ eventBatchBytesMax then row :: pageFrom size (used + size row) rows
    else []

/-- One page of at most `eventBatchMax` rows and, but for its first row,
`eventBatchBytesMax` bytes. -/
def page {α : Type} (size : α → Nat) (rows : List α) : List α :=
  match rows.take eventBatchMax with
  | [] => []
  | row :: rows => row :: pageFrom size (size row) rows

end Yinshi.Prompt
