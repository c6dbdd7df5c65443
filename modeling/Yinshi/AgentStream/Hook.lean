import Mathlib.Logic.Function.Basic
import Yinshi.Base.ByteText

/-! The prompts of a browser session (`useAgentStream.ts`). What happens between two awaits is
one event. Runs and calls of `cancel` have numbers; a run stands for its abort controller, its
handle and the promise of that handle as well. A session or runtime change is rendered with its
effect. -/

namespace Yinshi.AgentStream
open ByteText Function

def whitespace (c : Nat) : Bool :=
  (9 ≤ c ∧ c ≤ 13) ∨ c = 32 ∨ c = 0xa0 ∨ c = 0x1680 ∨ (0x2000 ≤ c ∧ c ≤ 0x200a) ∨ c = 0x2028 ∨ c = 0x2029 ∨
  c = 0x202f ∨ c = 0x205f ∨ c = 0x3000 ∨ c = 0xfeff

def trim (value : Text) : Text := (value.dropWhile whitespace).rdropWhile whitespace

@[simp] theorem trim_trim (value : Text) : trim (trim value) = trim value := by
  have inner := dropWhile_rdropWhile whitespace (value.dropWhile whitespace) (List.dropWhile_idempotent _ _)
  rw [trim, trim, inner, List.rdropWhile_idempotent]

inductive RunState
  | idle
  | running
  | stopping
  deriving DecidableEq

inductive TurnStatus
  | completed
  | cancelled
  | failed
  deriving DecidableEq

structure Context (ς τ : Type) where
  sessionId : Option ς
  runtimeTransport : Option τ
  deriving DecidableEq

structure QueuedPrompt where
  prompt : Text
  model : Option Text
  thinking : Option Text
  submission : Nat

inductive TurnId
  | runtime (runId : Text)
  | own (number : Nat)
  deriving DecidableEq

inductive ChatMessage (β : Type)
  | user (content : Text)
  | turn (id : TurnId) (blocks : List β) (streaming : Bool) (turnStatus : Option TurnStatus)
  | failure
  | cancellationError

inductive RunPhase (β : Type)
  | starting
  | streaming (turnId : TurnId) (blocks : List β) (turnStatus : TurnStatus) (frame : Bool)
  | finishing
  | ended
  deriving DecidableEq

/-- A call of `startPrompt` or `resumePrompt`. `submission` is the prompt it was started for,
`started` what the promise of its handle came to. -/
structure Run (ς τ β : Type) where
  generation : Nat
  operation : Nat
  context : Context ς τ
  submission : Option Nat
  phase : RunPhase β
  started : Option Bool := none

inductive Target (ς : Type)
  | handle (run : Nat)
  | session (sessionId : ς)

inductive CancelPhase
  | starting (run : Nat)
  | requesting
  | settled
  deriving DecidableEq

/-- A call of `cancel` that found the state running. -/
structure CancelCall (ς : Type) where
  generation : Nat
  operation : Nat
  activeController : Option Nat
  phase : CancelPhase
  sent : Option (Target ς) := none

structure Hook (ς τ β : Type) where
  context : Context ς τ
  messages : List (ChatMessage β)
  runState : RunState
  abortRef : Option Nat
  promptHandleRef : Option Nat
  promptStartRef : Option Nat
  cancelInFlightRef : Bool
  queuedPromptRef : Option QueuedPrompt
  generationRef : Nat
  operationRef : Nat
  runs : Nat → Option (Run ς τ β)
  runCount : Nat
  cancels : Nat → Option (CancelCall ς)
  cancelCount : Nat
  submissions : Nat

def ChatMessage.isTurn {β : Type} (id : TurnId) : ChatMessage β → Bool
  | .turn other _ _ _ => other = id
  | _ => false

def upsert {β : Type} (id : TurnId) (message : ChatMessage β) : List (ChatMessage β) → List (ChatMessage β)
  | [] => [message]
  | first :: rest => if first.isTurn id then message :: rest else first :: upsert id message rest

/-- `failed` carries its error block; the start of a run or its stream may be aborted instead. -/
inductive Event (ς τ β : Type)
  | renders (context : Context ς τ)
  | sends (prompt : Text) (model thinking : Option Text)
  | cancels
  | bootstraps (context : Context ς τ) (history : List (ChatMessage β)) (activeRunId : Option Text)
    (attaches : Bool)
  | starts (run : Nat) (runId : Text)
  | startFails (run : Nat) (aborted : Bool)
  | streams (run : Nat) (blocks : List β) (changed : Bool) (turnStatus : Option TurnStatus)
  | paints (run : Nat)
  | finishes (run : Nat)
  | streamFails (run : Nat) (error : Option β)
  | ends (run : Nat)
  | resumes (call : Nat)
  | answers (call : Nat) (succeeds : Bool)

namespace Hook
variable {ς τ β : Type} (hook : Hook ς τ β)

def initial (context : Context ς τ) : Hook ς τ β where
  context := context
  messages := []
  runState := .idle
  abortRef := none
  promptHandleRef := none
  promptStartRef := none
  cancelInFlightRef := false
  queuedPromptRef := none
  generationRef := 1
  operationRef := 1
  runs _ := none
  runCount := 0
  cancels _ := none
  cancelCount := 0
  submissions := 0

def isCurrent (generation operation : Nat) : Prop :=
  hook.generationRef = generation ∧ hook.operationRef = operation

instance (generation operation : Nat) : Decidable (hook.isCurrent generation operation) :=
  inferInstanceAs (Decidable (_ ∧ _))

def setRun (number : Nat) (run : Run ς τ β) : Hook ς τ β :=
  { hook with runs := update hook.runs number (some run) }

def setCancel (number : Nat) (call : CancelCall ς) : Hook ς τ β :=
  { hook with cancels := update hook.cancels number (some call) }

def render (context : Context ς τ) : Hook ς τ β :=
  { hook with
    context := context
    messages := []
    runState := .idle
    abortRef := none
    promptHandleRef := none
    promptStartRef := none
    cancelInFlightRef := false
    queuedPromptRef := none
    generationRef := hook.generationRef + 2
    operationRef := hook.operationRef + 2 }

/-- The queued updater is taken to run with this event: its own `isCurrent` check repeats the
caller's. -/
def upsertTurn (turnId : TurnId) (blocks : List β) (turnStatus : TurnStatus) (isDone : Bool) : Hook ς τ β :=
  let message : ChatMessage β := .turn turnId blocks (not isDone) (if isDone then some turnStatus else none)
  { hook with messages := upsert turnId message hook.messages }

variable [DecidableEq ς] [DecidableEq τ]

def startPrompt (context : Context ς τ) (queued : QueuedPrompt) : Hook ς τ β :=
  if context.sessionId = none ∨ trim queued.prompt = [] ∨ hook.context ≠ context then hook else
  { hook with
    operationRef := hook.operationRef + 1
    messages := hook.messages ++ [.user (trim queued.prompt)]
    runState := .running
    abortRef := some hook.runCount
    promptStartRef := if context.runtimeTransport.isSome then some hook.runCount else none
    promptHandleRef := if context.runtimeTransport.isSome then hook.promptHandleRef else none
    runs := update hook.runs hook.runCount (some
      { generation := hook.generationRef
        operation := hook.operationRef + 1
        context := context
        submission := some queued.submission
        phase := if context.runtimeTransport.isSome then .starting
          else .streaming (.own hook.runCount) [] .completed false })
    runCount := hook.runCount + 1 }

def endRun (number : Nat) (run : Run ς τ β) : Hook ς τ β :=
  let ended := hook.setRun number { run with phase := .ended }
  if hook.isCurrent run.generation run.operation then
    let idle : Hook ς τ β := { ended with
      abortRef := none
      promptHandleRef := none
      promptStartRef := none
      queuedPromptRef := none
      runState := .idle }
    match hook.queuedPromptRef with
    | some queued => idle.startPrompt run.context queued
    | none => idle
  else ended

/-- `resumePrompt`, up to its first await; without a handle it throws. -/
def resumePrompt (context : Context ς τ) (runId : Text) (attaches : Bool) : Hook ς τ β :=
  if context.sessionId = none ∨ context.runtimeTransport = none ∨ hook.context ≠ context then hook else
  let begun := { hook with
    operationRef := hook.operationRef + 1
    abortRef := some hook.runCount
    runs := update hook.runs hook.runCount (some
      { generation := hook.generationRef
        operation := hook.operationRef + 1
        context := context
        submission := none
        phase := if attaches then .streaming (.runtime runId) [] .completed false else .ended })
    runCount := hook.runCount + 1 }
  if attaches then { begun with promptHandleRef := some hook.runCount, runState := .running } else begun

def bootstrapSession (context : Context ς τ) (history : List (ChatMessage β))
    (activeRunId : Option Text) (attaches : Bool) : Hook ς τ β :=
  if hook.context ≠ context then hook else
  let reset := { hook with
    operationRef := hook.operationRef + 1
    abortRef := none
    promptHandleRef := none
    promptStartRef := none
    queuedPromptRef := none
    cancelInFlightRef := false
    runState := .idle
    messages := history }
  match activeRunId with
  | some runId => reset.resumePrompt context runId attaches
  | none => reset

omit [DecidableEq ς] [DecidableEq τ] in
def cancel : Hook ς τ β :=
  if hook.runState ≠ .running ∨ hook.cancelInFlightRef = true then hook else
  let call : CancelCall ς :=
    { generation := hook.generationRef, operation := hook.operationRef,
      activeController := hook.abortRef, phase := .requesting }
  let stopping := { hook with
      cancelInFlightRef := true, runState := .stopping, cancelCount := hook.cancelCount + 1 }
  match hook.context.sessionId with
  | none =>
    { stopping with cancelInFlightRef := false }.setCancel hook.cancelCount
      { call with phase := .settled }
  | some sessionId =>
    match hook.context.runtimeTransport with
    | none => stopping.setCancel hook.cancelCount { call with sent := some (.session sessionId) }
    | some _ =>
      match hook.promptHandleRef, hook.promptStartRef with
      | some run, _ => stopping.setCancel hook.cancelCount { call with sent := some (.handle run) }
      | none, some run => stopping.setCancel hook.cancelCount { call with phase := .starting run }
      | none, none => stopping.setCancel hook.cancelCount call

def sendPrompt (prompt : Text) (model thinking : Option Text) : Hook ς τ β :=
  if hook.context.sessionId = none ∨ trim prompt = [] then hook else
  let queued : QueuedPrompt :=
    { prompt := trim prompt, model := model, thinking := thinking, submission := hook.submissions }
  let submitted := { hook with submissions := hook.submissions + 1 }
  match hook.runState with
  | .running => { submitted with queuedPromptRef := some queued }.cancel
  | .stopping => { submitted with queuedPromptRef := some queued }
  | .idle => submitted.startPrompt hook.context queued

omit [DecidableEq ς] [DecidableEq τ] in
def settleCancel (number : Nat) (call : CancelCall ς) (succeeds : Bool) : Hook ς τ β :=
  let settled := hook.setCancel number { call with phase := .settled }
  if hook.isCurrent call.generation call.operation then
    let answered := if succeeds then settled else
      { settled with
        runState := if call.activeController ≠ none ∧ hook.abortRef = call.activeController then .running
          else hook.runState
        messages := hook.messages ++ [.cancellationError] }
    { answered with cancelInFlightRef := false }
  else settled

def stepRun (number : Nat) (run : Run ς τ β) : Event ς τ β → Option (Hook ς τ β)
  | .starts _ runId =>
    match run.phase with
    | .starting =>
      if hook.isCurrent run.generation run.operation then
        some ({ hook with promptHandleRef := some number }.setRun number
          { run with started := some true, phase := .streaming (.runtime runId) [] .completed false })
      else some (hook.setRun number { run with started := some true, phase := .ended })
    | _ => none
  | .startFails _ aborted =>
    match run.phase with
    | .starting =>
      let failed := { run with started := some false }
      if hook.isCurrent run.generation run.operation ∧ aborted = false then
        let reported : Hook ς τ β := { hook with messages := hook.messages ++ [.failure] }
        some (reported.endRun number failed)
      else some (hook.endRun number failed)
    | _ => none
  | .streams _ blocks changed turnStatus =>
    match run.phase with
    | .streaming turnId _ oldStatus frame =>
      if hook.isCurrent run.generation run.operation then
        match turnStatus with
        | some status => some ((hook.upsertTurn turnId blocks status true).setRun number
            { run with phase := .streaming turnId blocks status false })
        | none => some (hook.setRun number
            { run with phase := .streaming turnId blocks oldStatus (frame || changed) })
      else some (hook.setRun number { run with phase := .finishing })
    | _ => none
  | .paints _ =>
    match run.phase with
    | .streaming turnId blocks turnStatus true =>
      let painted := hook.setRun number { run with phase := .streaming turnId blocks turnStatus false }
      if hook.isCurrent run.generation run.operation then
        some (painted.upsertTurn turnId blocks turnStatus false)
      else some painted
    | _ => none
  | .finishes _ =>
    match run.phase with
    | .streaming turnId blocks turnStatus _ =>
      let finished := hook.setRun number { run with phase := .finishing }
      if hook.isCurrent run.generation run.operation then
        some (finished.upsertTurn turnId blocks turnStatus true)
      else some finished
    | _ => none
  | .streamFails _ error =>
    match run.phase with
    | .streaming turnId blocks _ _ =>
      let finished := hook.setRun number { run with phase := .finishing }
      match error with
      | some block =>
        if hook.isCurrent run.generation run.operation then
          some (finished.upsertTurn turnId (blocks ++ [block]) .failed true)
        else some finished
      | none => some finished
    | _ => none
  | .ends _ =>
    match run.phase with
    | .finishing => some (hook.endRun number run)
    | _ => none
  | _ => none

omit [DecidableEq ς] [DecidableEq τ] in
def stepCancel (number : Nat) (call : CancelCall ς) : Event ς τ β → Option (Hook ς τ β)
  | .resumes _ =>
    match call.phase with
    | .starting run =>
      match (hook.runs run).bind (·.started) with
      | some true => some (hook.setCancel number
          { call with phase := .requesting, sent := some (.handle run) })
      | some false => some (hook.settleCancel number call false)
      | none => none
    | _ => none
  | .answers _ succeeds =>
    if call.phase = .requesting then some (hook.settleCancel number call succeeds) else none
  | _ => none

def step (event : Event ς τ β) : Option (Hook ς τ β) :=
  match event with
  | .renders context => if context ≠ hook.context then some (hook.render context) else none
  | .sends prompt model thinking => some (hook.sendPrompt prompt model thinking)
  | .cancels => some hook.cancel
  | .bootstraps context history activeRunId attaches =>
    some (hook.bootstrapSession context history activeRunId attaches)
  | .starts number _ | .startFails number _ | .streams number _ _ _ | .paints number | .finishes number
  | .streamFails number _ | .ends number => (hook.runs number).bind fun run => hook.stepRun number run event
  | .resumes number | .answers number _ =>
    (hook.cancels number).bind fun call => hook.stepCancel number call event

end Hook

end Yinshi.AgentStream
