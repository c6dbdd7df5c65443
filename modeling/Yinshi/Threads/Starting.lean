import Yinshi.Prompt.Operations
import Yinshi.Threads.Lifecycle

/-! The operations that start and cancel a child's initial run, interleaved at their awaits.
A run is accepted in one transaction and the delegation is marked running in another; a
starter that is dropped in between leaves a run that nothing will stop. -/

namespace Yinshi.Threads
open ByteText Keyed Checked Runs Relation List Option
open Prompt (PromptRun)

/-! ### Operations -/

/-- The arguments of `_start_initial_prompt` that decide its course. -/
structure Starter where
  delegationId : Text
  childSessionId : Option Text
  authorizationGuard : Option Guard := none

def Starter.guard (starter : Starter) : Guard := starter.authorizationGuard.getD noGuard

/-- An operation between two of its awaits. The last arguments of a phase are what it has
read so far. -/
inductive Operation
  -- `_start_initial_prompt`
  | starting (starter : Starter)
  | accepted (starter : Starter) (run : PromptRun)
  | marked (starter : Starter) (run : PromptRun)
  | compensating (starter : Starter) (run : PromptRun) (call : Prompt.Call)
  | refused (starter : Starter)
  | failing (starter : Starter)
  -- `cancel_child` and `_cancel_running`
  | loading (delegationId : Text) (turns : Nat)
  | deciding (row : Delegation) (turns : Nat)
  | stopping (row : Delegation)
  | requesting (delegationId : Text) (run : PromptRun) (call : Prompt.Call)
  | adopting (delegationId : Text) (target : Status)

def executing : List Prompt.Status := [.starting, .running]

def stoppable : List Status := [.running, .cancelling]

/-- The delegation and the run that a starter has to promote or to compensate. -/
def Operation.holding : Operation → Option (Text × Text)
  | .accepted starter run | .marked starter run | .compensating starter run _ =>
    some (starter.delegationId, run.id)
  | _ => none

inductive Begins (db : Database) : Operation → Prop
  | starter {row : Delegation} (member : row ∈ db.delegations) (queued : row.status = .queued)
      (guard : Option Guard) : Begins db (.starting ⟨row.id, row.childSessionId, guard⟩)
  | canceller (delegationId : Text) : Begins db (.loading delegationId 4)

section Turns
variable (digest : Text → Text) (settings : Settings)

inductive Turn : Database → Operation → Database → Option Operation → Prop
  -- The acceptance transaction of `journal.start`.
  | accept {db db' : Database} {starter : Starter} {child runId : Text} {run : PromptRun}
      (attached : starter.childSessionId = some child)
      (done : acceptInitialRun digest settings starter.guard db starter.delegationId child runId =
          .ok (db', run)) :
      Turn db (.starting starter) db' (some (.accepted starter run))
  | refuse {db : Database} {starter : Starter} {child runId : Text} {message : String}
      (attached : starter.childSessionId = some child)
      (pending : acceptInitialRun digest settings starter.guard db starter.delegationId child runId =
        .error (.cancelPending message)) :
      Turn db (.starting starter) db
        (if starter.authorizationGuard.isNone then some (.refused starter) else none)
  | raise (db : Database) (starter : Starter) : Turn db (.starting starter) db (some (.failing starter))
  | cancelRefused (db : Database) (starter : Starter) :
      Turn db (.refused starter) (cancelQueued db starter.delegationId) none
  | fail {db db' : Database} {starter : Starter}
      (done : failQueuedStart starter.guard db starter.delegationId = .ok db') :
      Turn db (.failing starter) db' none
  | mark {db db' : Database} {starter : Starter} {run : PromptRun}
      (done : markRunning starter.guard db starter.delegationId = .ok db') :
      Turn db (.accepted starter run) db' (some (.marked starter run))
  | markRaised (db : Database) (starter : Starter) (run : PromptRun) :
      Turn db (.accepted starter run) db (some (.compensating starter run (.cancel run.id run.sessionId)))
  | promoted {db : Database} {starter : Starter} {run : PromptRun} {row : Delegation}
      (found : db.delegationById starter.delegationId = some row) (running : row.status = .running) :
      Turn db (.marked starter run) db none
  | demoted {db : Database} {starter : Starter} {run : PromptRun} {row : Delegation}
      (found : db.delegationById starter.delegationId = some row) (decided : row.status ≠ .running) :
      Turn db (.marked starter run) db (some (.compensating starter run (.cancel run.id run.sessionId)))
  | compensate (db : Database) (starter : Starter) (run : PromptRun) (call : Prompt.Call) :
      Turn db (.compensating starter run call) (db.withPrompts (call.step db.prompts).1)
        (some (.compensating starter run (call.step db.prompts).2))
  | compensated (db : Database) (starter : Starter) (run : PromptRun) (outcome : Prompt.Outcome) :
      Turn db (.compensating starter run (.returned outcome)) db none
  -- The loop of `cancel_child`.
  | load {db : Database} {delegationId : Text} {turns : Nat} {row : Delegation}
      (found : db.delegationById delegationId = some row) :
      Turn db (.loading delegationId turns) db (some (.deciding row turns))
  | provisioning {row : Delegation} (db : Database) (turns : Nat) (was : row.status = .provisioning) :
      Turn db (.deciding row (turns + 1)) (claimProvisioningCancel db row.id).1 (some (.loading row.id turns))
  | queued {row : Delegation} (db : Database) (turns : Nat) (was : row.status = .queued) :
      Turn db (.deciding row (turns + 1)) (cancelQueued db row.id) (some (.loading row.id turns))
  | running {row : Delegation} (db : Database) (turns : Nat) (was : row.status = .running) :
      Turn db (.deciding row (turns + 1)) (claimCancelling db row.id).1
        (some (if (claimCancelling db row.id).2 = 1 then .stopping row else .loading row.id turns))
  | cancelling {row : Delegation} (db : Database) (turns : Nat) (was : row.status = .cancelling) :
      Turn db (.deciding row (turns + 1)) db (some (.stopping row))
  | decided {row : Delegation} (db : Database) (turns : Nat)
      (final : row.status ∈ terminalStatuses ∨ turns = 0) : Turn db (.deciding row turns) db none
  -- `_cancel_running` after its claim; the journal answers with the run as it stands.
  | find {db : Database} {row : Delegation} {run : PromptRun}
      (found : initialRun digest db row = .ok (some run)) :
      Turn db (.stopping row) db (some (.requesting row.id run (.cancel run.id run.sessionId)))
  | unstarted {db : Database} {row : Delegation} (missing : initialRun digest db row = .ok none) :
      Turn db (.stopping row) db none
  | request (db : Database) (delegationId : Text) (run : PromptRun) (call : Prompt.Call) :
      Turn db (.requesting delegationId run call) (db.withPrompts (call.step db.prompts).1)
        (some (.requesting delegationId run (call.step db.prompts).2))
  | settle {db : Database} {delegationId : Text} {run stopped current : PromptRun}
      {requested : Bool} (found : db.prompts.runOf run.id run.sessionId = some current) :
      Turn db (.requesting delegationId run (.returned (.run stopped requested))) db
        ((runStatusToDelegationStatus current.status).map (.adopting delegationId))
  | unsettled (db : Database) (delegationId : Text) (run : PromptRun) (error : Prompt.PromptError) :
      Turn db (.requesting delegationId run (.returned (.raised error))) db none
  | adopt (db : Database) (delegationId : Text) (target : Status) :
      Turn db (.adopting delegationId target) (adoptTerminalCancellation db delegationId target) none

inductive Elsewhere : Database → Database → Prop
  | plain {db db' : Database} (step : Plain digest settings db db') : Elsewhere db db'
  | prepareTerminalResult {db db' : Database} (request : Request) (guard : Guard)
      (childSessionId runId summary : Text) {intent : Option SealIntent}
      (done : prepareTerminalResult digest request guard db childSessionId runId summary =
          .ok (db', intent)) :
      Elsewhere db db'
  | commitSeal {db db' : Database} (request : Request) (guard : Guard) (intent : SealIntent)
      (finalized : Finalized) {row : ResultRow}
      (done : commitSeal digest settings request guard db intent finalized = .ok (db', row)) : Elsewhere db db'
  | reportResult {db db' : Database} (request : Request) (childSessionId : Text) (body : ReportBody)
      {reported : Reported} (done : reportResult request db childSessionId body = .ok (db', reported)) :
      Elsewhere db db'
  | reportAgentResult {db db' : Database} (request : Request) (caller : Caller) (body : ReportBody)
      {reported : Reported}
      (done : reportAgentResult digest settings request db caller body = .ok (db', reported)) : Elsewhere db db'
  | prompt {db : Database} {prompts : Prompt.Database} (writes : db.prompts.Writes prompts)
      (apart : ∀ run ∈ prompts.runs, run.name ∈ db.prompts.names ∨ ∀ row ∈ db.delegations,
        row.childSessionId = some run.sessionId →
          initialRunIdempotencyKey digest row.id ≠ .ok run.idempotencyKey) :
      Elsewhere db (db.withPrompts prompts)

structure System where
  db : Database
  operations : List Operation

/-- One step. A task may be cancelled at any await, and `journal.start` may raise although its
transaction has committed; `allowed` tells where. -/
inductive Step (allowed : Database → Operation → Prop) : System → System → Prop
  | begin {db : Database} {operations : List Operation} {operation : Operation}
      (begins : Begins db operation) : Step allowed ⟨db, operations⟩ ⟨db, operations ++ [operation]⟩
  | turn {db db' : Database} {front back : List Operation} {operation : Operation}
      {next : Option Operation} (turns : Turn digest settings db operation db' next) :
      Step allowed ⟨db, front ++ operation :: back⟩ ⟨db', front ++ next.toList ++ back⟩
  | leave {db : Database} {front back : List Operation} {operation : Operation}
      (lets : allowed db operation) : Step allowed ⟨db, front ++ operation :: back⟩ ⟨db, front ++ back⟩
  | lose {db : Database} {front back : List Operation} {starter : Starter} {run : PromptRun}
      (lets : allowed db (.accepted starter run)) :
      Step allowed ⟨db, front ++ .accepted starter run :: back⟩ ⟨db, front ++ .failing starter :: back⟩
  | elsewhere {db db' : Database} {operations : List Operation}
      (writes : Elsewhere digest settings db db') : Step allowed ⟨db, operations⟩ ⟨db', operations⟩

end Turns

/-- Dropping an operation does no harm: it has accepted no run, or the run no longer executes,
or the delegation is running or cancelling, so that a later cancellation stops the run. -/
def Harmless (db : Database) (operation : Operation) : Prop :=
  ∀ delegationId runId, operation.holding = some (delegationId, runId) →
    (∀ status ∈ db.prompts.statusOf runId, status ∉ executing) ∨
    ∃ row, db.delegationById delegationId = some row ∧ row.status ∈ stoppable

/-! ### Compensation -/

section Prompts
variable {db db' : Prompt.Database} {run : PromptRun} {call : Prompt.Call}

def Compensates (db : Prompt.Database) (run : PromptRun) : Prompt.Call → Prop
  | .cancel runId sessionId => runId = run.id ∧ sessionId = run.sessionId
  | .cancelUpdate old => old.id = run.id ∧ old.sessionId = run.sessionId
  | .cancelReread runId sessionId => runId = run.id ∧ sessionId = run.sessionId ∧ db.Reached 2 run.id
  | .returned _ => db.Reached 2 run.id
  | _ => False

theorem Compensates.stops (compensates : Compensates db run call) : call.Stops db run.id run.sessionId := by
  cases call with
  | returned outcome =>
    cases outcome with
    | run _ flag =>
      cases flag
      · trivial
      · exact compensates
    | _ => trivial
  | cancel | cancelUpdate => exact compensates
  | cancelReread => exact ⟨compensates.1, compensates.2.1⟩
  | _ => exact compensates.elim

theorem Compensates.mono (ha : db.Advances db') (compensates : Compensates db run call) :
    Compensates db' run call := by
  cases call with
  | cancelReread => exact ⟨compensates.1, compensates.2.1, ha.rises _ _ compensates.2.2⟩
  | returned => exact ha.rises _ _ compensates
  | cancel | cancelUpdate => exact compensates
  | _ => exact compensates.elim

theorem executing_rank {status : Prompt.Status} : status ∈ executing ↔ status.rank < 2 := by
  cases status <;> decide

theorem not_reached_iff (hi : db.Indexed) (hl : run ∈ db.runs) :
    ¬ db.Reached 2 run.id ↔ run.status ∈ executing := by
  have status := hi.statusOf_run hl
  rw [executing_rank]
  constructor
  · intro early
    by_contra late
    exact early ⟨run.status, status, not_lt.mp late⟩
  · rintro early ⟨_, hs, late⟩
    cases status.symm.trans hs
    exact absurd early (not_lt.mpr late)

theorem exists_of_name {name : Text × Text × Text} (hl : name ∈ db.names) :
    ∃ run ∈ db.runs, run.name = name := mem_map.mp hl

theorem updateCount_of_run (hi : db.Indexed) (hl : run ∈ db.runs) {expected : List Prompt.Status}
    (expects : run.status ∈ expected) : db.updateCount run.id expected = 1 := by
  have hs : ∀ other ∈ db.runs.filter fun row => row.id = run.id ∧ row.status ∈ expected, other = run := by
    intro _ hm
    obtain ⟨old, chosen⟩ := mem_filter.mp hm
    exact key_inj_of_nodup hi.ids old hl (of_decide_eq_true chosen).1
  have hd : (db.runs.filter fun row => row.id = run.id ∧ row.status ∈ expected).Nodup :=
    (Nodup.of_map _ hi.ids).filter _
  have hm : run ∈ db.runs.filter fun row => row.id = run.id ∧ row.status ∈ expected :=
    mem_filter.mpr ⟨hl, by simpa using expects⟩
  rw [eq_replicate_of_mem hs, nodup_replicate] at hd
  have := length_pos_of_mem hm
  rw [Prompt.Database.updateCount]
  omega

theorem names_updateStatus {id : Text} {status : Prompt.Status} {expected : List Prompt.Status} :
    (db.updateStatus id status expected).names = db.names := by
  rw [Prompt.Database.names, Prompt.Database.names, Prompt.Database.updateStatus, List.map_map]
  refine List.map_congr_left fun run _ => ?_
  rw [Function.comp_apply]
  split <;> rfl

theorem insertRun_names (inserted : db.insertRun run = some db') : db'.names = db.names ++ [run.name] := by
  rw [Prompt.Database.insertRun] at inserted
  split at inserted
  next => simp at inserted
  next =>
    cases inserted
    rw [Prompt.Database.names, map_append]
    rfl

theorem stops_names {runId sessionId : Text} (hs : call.Stops db runId sessionId) :
    (call.step db).1.names = db.names := by
  cases call with
  | cancel | cancelReread =>
    simp only [Prompt.Call.step]
    split
    next => rfl
    next =>
      split
      next => rfl
      next => split <;> rfl
  | cancelUpdate _ =>
    simp only [Prompt.Call.step]
    split
    next => exact names_updateStatus
    next => rfl
  | returned _ => rfl
  | _ => exact hs.elim

theorem Compensates.step (compensates : Compensates db run call) (hi : db.Indexed)
    (hn : run.name ∈ db.names) : Compensates (call.step db).1 run (call.step db).2 := by
  obtain ⟨hc, hl, hs⟩ := exists_of_name hn
  simp only [PromptRun.name, Prod.mk.injEq] at hs
  obtain ⟨session, -, hr⟩ := hs
  have hf : db.runOf run.id run.sessionId = some hc := by
    cases answer : db.runOf run.id run.sessionId with
    | none => exact absurd (find?_eq_none.mp answer hc hl) (by simp [session, hr])
    | some other =>
      have chosen : other.id = run.id ∧ other.sessionId = run.sessionId := by simpa using find?_some answer
      rw [key_inj_of_nodup hi.ids (mem_of_find?_eq_some answer) hl (chosen.1.trans hr.symm)]
  have late : hc.status ∉ executing → db.Reached 2 run.id := by
    intro hd
    by_contra early
    exact hd ((not_reached_iff hi hl).mp (hr ▸ early))
  cases call with
  | cancel runId sessionId =>
    obtain ⟨rfl, rfl⟩ := compensates
    simp only [Prompt.Call.step, hf]
    split
    next terminal => exact late fun early => by revert terminal early; cases hc.status <;> decide
    next =>
      split
      next stopping => exact late (by rw [stopping]; decide)
      next => exact ⟨hr, session⟩
  | cancelUpdate _ =>
    obtain ⟨hs, sessions⟩ := compensates
    simp only [Prompt.Call.step]
    split
    next counted =>
      refine ⟨.stopping, ?_, by decide⟩
      rw [← hs]
      exact hi.statusOf_updated counted
    next uncounted =>
      refine ⟨hs, sessions, late fun early => uncounted ?_⟩
      rw [hs, ← hr]
      exact updateCount_of_run hi hl early
  | cancelReread _ _ =>
    obtain ⟨rfl, rfl, reached⟩ := compensates
    simp only [Prompt.Call.step, hf]
    split
    next => exact reached
    next => split <;> exact reached
  | returned _ => exact compensates
  | _ => exact compensates.elim

end Prompts

/-! ### Steps of the tables -/

section Tables
variable {digest : Text → Text} {settings : Settings} {db db' : Database}
variable {row' : Delegation}

structure Onward (digest : Text → Text) (db db' : Database) : Prop where
  explained : Explained digest False db db'
  advances : db.prompts.Advances db'.prompts
  known : ∀ run ∈ db'.runs, run.name ∈ db.prompts.names ∨ (db.sessionById run.sessionId).isSome

theorem Onward.of_runs (he : Explained digest False db db') (hs : db'.runs = db.runs) :
    Onward digest db db' := by
  refine ⟨he, Prompt.Database.advances_of_runs hs, ?_⟩
  intro _ hl
  rw [hs] at hl
  exact .inl (mem_map_of_mem hl)

theorem Onward.refl (db : Database) : Onward digest db db := .of_runs (Beside.refl db).explained rfl

theorem Plain.onward (step : Plain digest settings db db') : Onward digest db db' :=
  .of_runs step.explained.1 step.aside.runs

theorem writes_known {prompts prompts' : Prompt.Database} (writes : prompts.Writes prompts') :
    ∀ run ∈ prompts'.runs, run.name ∈ prompts.names ∨ run.sessionId ∈ prompts.sessions := by
  have hk : prompts'.names = prompts.names → ∀ run ∈ prompts'.runs,
      run.name ∈ prompts.names ∨ run.sessionId ∈ prompts.sessions :=
    fun hs run hl => .inl (hs ▸ mem_map_of_mem hl)
  have hr : ∀ (rows : List PromptRun) (db : Prompt.Database),
      (rows.foldl Prompt.Database.recoverRun db).names.length = db.names.length := by
    intro rows
    induction rows with
    | nil => exact fun _ => rfl
    | cons row _ ih =>
      intro _
      rw [foldl_cons, ih]
      simp only [Prompt.Database.names, length_map]
      exact (advance_recoverRun row).length_eq.symm
  cases writes with
  | unchanged => exact hk rfl
  | @inserted _ _ hf =>
    intro _ hl
    rw [Prompt.Database.insertRun] at hf
    split at hf
    next => simp at hf
    next free =>
      cases hf
      rcases mem_append.mp hl with old | own
      · exact .inl (mem_map_of_mem old)
      · rw [mem_singleton.mp own]
        exact .inr (not_not.mp (not_or.mp free).1)
  | updated _ _ _ _ => exact hk names_updateStatus
  | appended append => exact hk (by rw [Prompt.Database.names, append.attempt_runs]; rfl)
  | recovered => exact hk (Prompt.Database.Writes.recovered.advances.names.eq_of_length (hr _ _).symm).symm

theorem onward_prompt {prompts : Prompt.Database} (writes : db.prompts.Writes prompts) :
    Onward digest db (db.withPrompts prompts) := by
  have hs : (db.withPrompts prompts).prompts.runs = prompts.runs := rfl
  refine ⟨Beside.explained ⟨rfl, rfl, writes_advance writes⟩,
    writes.advances.trans (Prompt.Database.advances_of_runs hs), ?_⟩
  intro run hl
  refine (writes_known writes run hl).imp_right ?_
  exact sessionById_isSome.mpr

theorem Elsewhere.explained (writes : Elsewhere digest settings db db') (hf : Formed db) :
    (Explained digest False db db' ∧ db'.runs = db.runs) ∨
    ∃ prompts, db.prompts.Writes prompts ∧ db' = db.withPrompts prompts ∧
      ∀ run ∈ prompts.runs, run.name ∈ db.prompts.names ∨
        ∀ row ∈ db.delegations, row.childSessionId = some run.sessionId →
          initialRunIdempotencyKey digest row.id ≠ .ok run.idempotencyKey := by
  cases writes with
  | plain step => exact .inl ⟨step.explained.1, step.aside.runs⟩
  | prepareTerminalResult request guard childSessionId _ _ hd =>
    exact .inl (prepareTerminalResult_explained hf.ids hd)
  | commitSeal request _ _ _ hd => exact .inl (commitSeal_explained hf.ids hd)
  | reportResult request _ body hd =>
    obtain ⟨beside, runs⟩ := reportResult_beside hd
    exact .inl ⟨beside.explained, runs⟩
  | reportAgentResult _ _ _ hd =>
    obtain ⟨beside, runs⟩ := reportAgentResult_beside hd
    exact .inl ⟨beside.explained, runs⟩
  | prompt writes ha => exact .inr ⟨_, writes, rfl, ha⟩

/-! ### Initial runs -/

def Initial (digest : Text → Text) (db : Database) (delegationId : Text) (run : PromptRun) : Prop :=
  ∃ row ∈ db.delegations, row.id = delegationId ∧ row.childSessionId = some run.sessionId ∧
    initialRunIdempotencyKey digest delegationId = .ok run.idempotencyKey ∧ run.name ∈ db.prompts.names

def Loaded (db : Database) (delegationId : Text) (childSessionId : Option Text) : Prop :=
  ∃ row ∈ db.delegations, row.id = delegationId ∧
    ∀ child, childSessionId = some child → row.childSessionId = some child

variable {delegationId : Text} {run : PromptRun} {row : Delegation}

theorem initialRun_eq_some :
    initialRun digest db row = .ok (some run) ↔
    ∃ key child, initialRunIdempotencyKey digest row.id = .ok key ∧
      row.childSessionId = some child ∧ db.prompts.runByKey child key = some run := by
  simp only [initialRun, steps_ok, bind_eq_some_iff]
  constructor
  · rintro ⟨key, keyed, child, ha, hf⟩
    exact ⟨key, child, keyed, ha, hf⟩
  · rintro ⟨key, child, keyed, ha, hf⟩
    exact ⟨key, keyed, child, ha, hf⟩

theorem initialRun_initial (hf : initialRun digest db row = .ok (some run)) {stored : Delegation}
    (hm : stored ∈ db.delegations) (hs : stored.id = row.id)
    (child : ∀ child, row.childSessionId = some child → stored.childSessionId = some child) :
    Initial digest db row.id run := by
  obtain ⟨_, _, keyed, ha, hr⟩ := initialRun_eq_some.1 hf
  obtain ⟨hn, rfl, rfl⟩ := Prompt.runByKey_named hr
  exact ⟨stored, hm, hs, child _ ha, keyed, hn⟩

theorem Initial.found (initial : Initial digest db delegationId run) (hf : Formed db)
    (hi : db.prompts.Indexed) (hm : row ∈ db.delegations) (hs : row.id = delegationId) :
    ∃ current ∈ db.runs, initialRun digest db row = .ok (some current) ∧ current.id = run.id := by
  obtain ⟨_, hl, own, ha, keyed, hn⟩ := initial
  obtain rfl := key_inj_of_nodup hf.ids hl hm (own.trans hs.symm)
  obtain ⟨current, hr, name⟩ := exists_of_name hn
  simp only [PromptRun.name, Prod.mk.injEq] at name
  obtain ⟨session, key, id⟩ := name
  refine ⟨current, hr, initialRun_eq_some.2 ⟨_, _, own ▸ keyed, ha, ?_⟩, id⟩
  have hu := (find?_eq_some_iff (fun run : PromptRun => (run.sessionId, run.idempotencyKey))
    (k := (run.sessionId, run.idempotencyKey)) hi.keys).mpr ⟨hr, by rw [session, key]⟩
  simpa [Prompt.Database.runByKey] using hu

theorem Rewrite.keepsChild {adopting : Prop} {attachment : Option (Text × Text)}
    (rewrite : Rewrite digest db adopting attachment row row')
    (bare : row.status = .provisioning → row.childSessionId = none) {child : Text}
    (ha : row.childSessionId = some child) : row'.childSessionId = some child := by
  rcases rewrite.child with hs | ⟨_, -, was, -⟩
  · rw [hs, ha]
  · cases (bare was).symm.trans ha

theorem Loaded.mono {childSessionId : Option Text} (onward : Onward digest db db') (hf : Formed db)
    (loaded : Loaded db delegationId childSessionId) : Loaded db' delegationId childSessionId := by
  obtain ⟨_, _, _, hr⟩ := onward.explained
  obtain ⟨row, hm, hs, child⟩ := loaded
  obtain ⟨row', hl, rewrite⟩ := hr.successor hm
  exact ⟨row', hl, rewrite.id.trans hs,
    fun own ha => rewrite.keepsChild (hf.bare row hm) (child own ha)⟩

theorem Initial.mono (onward : Onward digest db db') (hf : Formed db)
    (initial : Initial digest db delegationId run) : Initial digest db' delegationId run := by
  obtain ⟨_, _, _, hr⟩ := onward.explained
  obtain ⟨row, hm, hs, ha, keyed, hn⟩ := initial
  obtain ⟨row', hl, rewrite⟩ := hr.successor hm
  exact ⟨row', hl, rewrite.id.trans hs, rewrite.keepsChild (hf.bare row hm) ha, keyed,
    onward.advances.names.subset hn⟩

theorem Delegation.Moves.stoppable {status : Status} (moves : row.Moves digest db False status)
    (was : row.status ∈ Threads.stoppable)
    (active : ∀ run, initialRun digest db row = .ok (some run) → run.status ∈ executing) :
    status ∈ Threads.stoppable := by
  cases moves with
  | cancelling => decide
  | adopted allowed => exact allowed.elim
  | observed _ hf adopted =>
    have early := active _ hf
    have late := (runStatus_terminal adopted).1
    exact absurd (Prompt.rank_le_terminal late .stopping) (not_le.mpr (executing_rank.1 early))
  | provisionFailed before | startFailed before | started before
  | queueCancelled before | provisionStale before
  | provisionCancelled before => exact absurd (before ▸ was) (by decide)

theorem Rewrite.stoppable {attachment : Option (Text × Text)}
    (rewrite : Rewrite digest db False attachment row row') (was : row.status ∈ Threads.stoppable)
    (active : ∀ run, initialRun digest db row = .ok (some run) → run.status ∈ executing) :
    row'.status ∈ Threads.stoppable := by
  cases rewrite with
  | kept _ status => rwa [status]
  | moved _ moves => exact moves.stoppable was active
  | rescoped => exact was
  | attached _ _ before => exact absurd (before ▸ was) (by decide)

theorem Onward.origin (onward : Onward digest db db') (hf : Formed db) (hi : db.prompts.Indexed)
    (hk : ∀ run ∈ db.runs, (db.sessionById run.sessionId).isSome) {run' : PromptRun}
    (hm : row' ∈ db'.delegations) (found : initialRun digest db' row' = .ok (some run'))
    (old : run'.name ∈ db.prompts.names) :
    ∃ row ∈ db.delegations, ∃ run, initialRun digest db row = .ok (some run) ∧ Advance run run' ∧
      (row.status ∈ stoppable → run'.status ∈ executing → row'.status ∈ stoppable) := by
  obtain ⟨key, child, keyed, ha, isRun⟩ := initialRun_eq_some.1 found
  obtain ⟨-, session, own⟩ := Prompt.runByKey_named isRun
  obtain ⟨_, _, new, hr⟩ := onward.explained
  obtain ⟨before, hl, name⟩ := exists_of_name old
  simp only [PromptRun.name, Prod.mk.injEq] at name
  rcases hr.origin hm with ⟨row, hs, rewrite⟩ | reserved
  · have stays : row.childSessionId = some child := by
      rcases rewrite.child with same | ⟨_, attaches, -, -, isChild⟩
      · rw [← same, ha]
      · -- A session that is new has no runs yet.
        cases isChild.symm.trans ha
        have after := hr.sessions
        rw [attaches] at after
        have hh := hk before hl
        rw [name.1, session, after.1] at hh
        simp at hh
    have initial : Initial digest db row.id run' :=
      ⟨row, hs, rfl, session ▸ stays, by rw [← rewrite.id, keyed, own], old⟩
    obtain ⟨run, -, isInitial, -⟩ := initial.found hf hi hs rfl
    obtain ⟨key', child', keyed', ha', hf'⟩ := initialRun_eq_some.1 isInitial
    obtain ⟨_, again, advance⟩ := hr.runs.runByKey hf'
    obtain rfl : child' = child := some.inj (ha'.symm.trans stays)
    obtain rfl : key' = key := Except.ok.inj (keyed'.symm.trans (rewrite.id ▸ keyed))
    cases again.symm.trans isRun
    refine ⟨row, hs, run, isInitial, advance, fun was early => rewrite.stoppable was ?_⟩
    intro _ ho
    cases ho.symm.trans isInitial
    exact executing_rank.2 (advance.rises.trans_lt (executing_rank.1 early))
  · cases ha.symm.trans reserved.session

end Tables

/-! ### The invariant -/

section Invariant
variable {digest : Text → Text} {settings : Settings} {db db' : Database} {s t : System}
variable {operation : Operation}

def Operation.Fits (digest : Text → Text) (db : Database) : Operation → Prop
  | .starting starter => Loaded db starter.delegationId starter.childSessionId
  | .accepted starter run | .marked starter run => Initial digest db starter.delegationId run
  | .compensating starter run call =>
    Initial digest db starter.delegationId run ∧ Compensates db.prompts run call
  | .deciding row _ | .stopping row => Loaded db row.id row.childSessionId
  | .requesting delegationId run call =>
    Initial digest db delegationId run ∧ call.Stops db.prompts run.id run.sessionId
  | .adopting delegationId target => ∃ run status, Initial digest db delegationId run ∧
      db.prompts.statusOf run.id = some status ∧ runStatusToDelegationStatus status = some target
  | .refused _ | .failing _ | .loading _ _ => True

def Settled (digest : Text → Text) (db : Database) (runId : Text) : Prop :=
  ∀ row ∈ db.delegations, ∀ run, initialRun digest db row = .ok (some run) → run.id = runId →
    run.status ∈ executing → row.status ∈ stoppable

structure Sound (digest : Text → Text) (s : System) : Prop where
  formed : Formed s.db
  indexed : s.db.prompts.Indexed
  known : ∀ run ∈ s.db.runs, (s.db.sessionById run.sessionId).isSome
  fits : ∀ operation ∈ s.operations, operation.Fits digest s.db
  covered : ∀ row ∈ s.db.delegations, ∀ run, initialRun digest s.db row = .ok (some run) →
    run.status ∈ executing → row.status ∈ stoppable ∨
      ∃ operation ∈ s.operations, ∃ id, operation.holding = some (id, run.id)

theorem Operation.Fits.mono (onward : Onward digest db db') (formed : Formed db)
    (hf : operation.Fits digest db) : operation.Fits digest db' := by
  cases operation with
  | starting | deciding | stopping => exact Loaded.mono onward formed hf
  | accepted | marked => exact Initial.mono onward formed hf
  | compensating | requesting => exact ⟨hf.1.mono onward formed, hf.2.mono onward.advances⟩
  | adopting =>
    obtain ⟨run, status, initial, is, adopted⟩ := hf
    exact ⟨run, status, initial.mono onward formed,
      onward.advances.terminal _ _ (runStatus_terminal adopted).1 is, adopted⟩
  | refused | failing | loading => trivial

theorem Sound.step (sound : Sound digest s) (onward : Onward digest s.db t.db)
    (fits : ∀ operation ∈ t.operations, operation.Fits digest t.db)
    (new : ∀ row ∈ t.db.delegations, ∀ run, initialRun digest t.db row = .ok (some run) →
        run.name ∉ s.db.prompts.names →
        ∃ operation ∈ t.operations, ∃ id, operation.holding = some (id, run.id))
    (held : ∀ operation ∈ s.operations, ∀ id runId,
        operation.holding = some (id, runId) →
        (∃ operation ∈ t.operations, ∃ id, operation.holding = some (id, runId)) ∨
        Settled digest t.db runId) : Sound digest t := by
  obtain ⟨_, _, _, hr⟩ := onward.explained
  refine ⟨hr.formed sound.formed, onward.advances.indexed sound.indexed, ?_, fits, ?_⟩
  · intro run hl
    refine hr.sessions.mono ?_
    rcases onward.known run hl with old | hk
    · obtain ⟨before, isRun, name⟩ := exists_of_name old
      simp only [PromptRun.name, Prod.mk.injEq] at name
      exact name.1 ▸ sound.known before isRun
    · exact hk
  · intro row hm run hf early
    by_cases old : run.name ∈ s.db.prompts.names
    · obtain ⟨before, stored, earlier, isInitial, advance, stays⟩ :=
        onward.origin sound.formed sound.indexed sound.known hm hf old
      have active := executing_rank.2 (advance.rises.trans_lt (executing_rank.1 early))
      rcases sound.covered before stored earlier isInitial active with was | ⟨operation, hi, id, hh⟩
      · exact .inl (stays was early)
      · rcases held operation hi id _ hh with ⟨holder, hl, id, still⟩ | hs
        · exact .inr ⟨holder, hl, id, advance.id ▸ still⟩
        · exact .inl (hs row hm run hf advance.id early)
    · exact .inr (new row hm run hf old)

theorem Sound.quiet (hs : Sound digest s) (onward : Onward digest s.db t.db)
    (names : ∀ row ∈ t.db.delegations, ∀ run,
        initialRun digest t.db row = .ok (some run) → run.name ∈ s.db.prompts.names)
    (fits : ∀ operation ∈ t.operations, operation.Fits digest t.db)
    (hh : ∀ operation ∈ s.operations, ∀ id runId, operation.holding = some (id, runId) →
        (∃ operation ∈ t.operations, ∃ id, operation.holding = some (id, runId)) ∨
        Settled digest t.db runId) : Sound digest t :=
  hs.step onward fits (fun row hm run hf new => absurd (names row hm run hf) new) hh

theorem initialRun_named {row : Delegation} {run : PromptRun}
    (hf : initialRun digest db row = .ok (some run)) :
    run ∈ db.runs ∧ run.name ∈ db.prompts.names := by
  obtain ⟨_, _, -, -, hr⟩ := initialRun_eq_some.1 hf
  exact ⟨mem_of_find?_eq_some hr, (Prompt.runByKey_named hr).1⟩

structure Effective (digest : Text → Text) (db : Database) (operation : Operation) (db' : Database)
    (next : Option Operation) : Prop where
  onward : Onward digest db db'
  fits : ∀ own ∈ next, own.Fits digest db'
  new : ∀ row ∈ db'.delegations, ∀ run, initialRun digest db' row = .ok (some run) →
    run.name ∉ db.prompts.names → ∃ own ∈ next, ∃ id, own.holding = some (id, run.id)
  held : ∀ id runId, operation.holding = some (id, runId) →
    (∃ own ∈ next, ∃ id, own.holding = some (id, runId)) ∨ Settled digest db' runId

section Turns
variable {operation : Operation} {next : Option Operation} {starter : Starter} {run : PromptRun}

theorem Effective.of_names (onward : Onward digest db db')
    (names : db'.prompts.names = db.prompts.names) (fits : ∀ own ∈ next, own.Fits digest db')
    (hh : ∀ id runId, operation.holding = some (id, runId) →
        (∃ own ∈ next, ∃ id, own.holding = some (id, runId)) ∨ Settled digest db' runId) :
    Effective digest db operation db' next :=
  ⟨onward, fits, fun _ _ _ hf new => absurd (names ▸ (initialRun_named hf).2) new, hh⟩

theorem Effective.plain (step : Plain digest settings db db')
    (hf : ∀ own ∈ next, own.Fits digest db')
    (hh : ∀ id runId, operation.holding = some (id, runId) →
        (∃ own ∈ next, ∃ id, own.holding = some (id, runId)) ∨ Settled digest db' runId) :
    Effective digest db operation db' next := by
  refine .of_names step.onward ?_ hf hh
  simp only [Prompt.Database.names, Database.prompts, step.aside.runs]

theorem Effective.read (hf : ∀ own ∈ next, own.Fits digest db)
    (hh : ∀ id runId, operation.holding = some (id, runId) →
      (∃ own ∈ next, ∃ id, own.holding = some (id, runId)) ∨ Settled digest db runId) :
    Effective digest db operation db next := .of_names (.refl db) rfl hf hh

theorem acceptInitialRun_effective (loaded : Loaded db starter.delegationId starter.childSessionId)
    {child runId : Text} (ha : starter.childSessionId = some child)
    (hd : acceptInitialRun digest settings starter.guard db starter.delegationId child runId =
        .ok (db', run)) :
    Effective digest db (.starting starter) db' (some (.accepted starter run)) := by
  obtain ⟨row, hm, hs, isChild⟩ := loaded
  have own := isChild child ha
  simp only [acceptInitialRun, bind_eq_ok] at hd
  obtain ⟨key, keyed, hd⟩ := hd
  split at hd
  next old hf =>
    obtain ⟨rfl, rfl⟩ := hd
    obtain ⟨hn, rfl, rfl⟩ := Prompt.runByKey_named hf
    refine .read ?_ (by simp [Operation.holding])
    rintro _ ⟨⟩
    exact ⟨row, hm, hs, own, keyed, hn⟩
  next missing =>
    simp only [bind_eq_ok, orRaise_eq_ok, pure_eq_ok, Prod.mk.injEq] at hd
    obtain ⟨_, -, prompts, inserted, rfl, rfl⟩ := hd
    have names : (db.withPrompts prompts).prompts.names =
        db.prompts.names ++ [(child, key, runId)] := insertRun_names inserted
    refine ⟨onward_prompt (.inserted inserted), ?_, ?_, by simp [Operation.holding]⟩
    · rintro _ ⟨⟩
      exact ⟨row, hm, hs, own, keyed, by rw [names]; simp [PromptRun.name]⟩
    · intro _ _ _ hf new
      have hl := (initialRun_named hf).2
      rw [names, mem_append, mem_singleton] at hl
      have name := hl.resolve_left new
      simp only [PromptRun.name, Prod.mk.injEq] at name
      exact ⟨_, rfl, starter.delegationId, by rw [Operation.holding, name.2.2]⟩

theorem settled_of_status (hf : Formed db) (hi : db.prompts.Indexed) {delegationId : Text}
    {row : Delegation} (initial : Initial digest db delegationId run)
    (found : db.delegationById delegationId = some row) (status : row.status ∈ stoppable) :
    Settled digest db run.id := by
  intro other hm hc isInitial same _
  obtain ⟨hs, hl, own, ha, _, hn⟩ := initial
  -- The session of a run belongs to one delegation.
  obtain ⟨_, child, -, theirs, isRun⟩ := initialRun_eq_some.1 isInitial
  obtain ⟨-, session, -⟩ := Prompt.runByKey_named isRun
  obtain ⟨before, isBefore, name⟩ := exists_of_name hn
  simp only [PromptRun.name, Prod.mk.injEq] at name
  have equal : before = hc :=
    key_inj_of_nodup hi.ids isBefore (initialRun_named isInitial).1 (name.2.2.trans same.symm)
  have sameChild : child = run.sessionId := by rw [← session, ← equal, name.1]
  have sameId := hf.children other hm hs hl child theirs (sameChild ▸ ha)
  have hr := (find?_eq_some_iff Delegation.id hf.ids).mp found
  rw [key_inj_of_nodup hf.ids hm hr.1 (sameId.trans (own.trans hr.2.symm))]
  exact status

theorem stops_effective (call : Prompt.Call) {holder holder' : Operation}
    (hs : call.Stops db.prompts run.id run.sessionId)
    (hf : Onward digest db (db.withPrompts (call.step db.prompts).1) →
      holder'.Fits digest (db.withPrompts (call.step db.prompts).1))
    (same : holder'.holding = holder.holding) :
    Effective digest db holder (db.withPrompts (call.step db.prompts).1) (some holder') := by
  have onward : Onward digest db (db.withPrompts (call.step db.prompts).1) :=
    onward_prompt (call.step_writes hs.proper db.prompts)
  refine .of_names onward (stops_names hs) ?_ ?_
  · rintro _ ⟨⟩
    exact hf onward
  · intro id _ hh
    exact .inl ⟨holder', rfl, id, same.trans hh⟩

theorem loaded_of_found {delegationId : Text} {row : Delegation}
    (hf : db.delegationById delegationId = some row) : Loaded db row.id row.childSessionId :=
  ⟨row, mem_of_find?_eq_some hf, rfl, fun _ ha => ha⟩

theorem Turn.effective (turns : Turn digest settings db operation db' next) (formed : Formed db)
    (indexed : db.prompts.Indexed) (fits : operation.Fits digest db) :
    Effective digest db operation db' next := by
  cases turns with
  | accept ha hd => exact acceptInitialRun_effective fits ha hd
  | refuse _ _ =>
    refine .read ?_ (by simp [Operation.holding])
    intro own chosen
    split at chosen
    next => exact some.inj chosen ▸ trivial
    next => simp at chosen
  | raise _ starter =>
    refine .read ?_ (by simp [Operation.holding])
    rintro _ ⟨⟩
    trivial
  | cancelRefused _ starter =>
    have step : Plain digest settings db (cancelQueued db starter.delegationId) := .cancelQueued db _
    exact .plain step (by simp) (by simp [Operation.holding])
  | fail hd =>
    have step : Plain digest settings db db' := .failQueuedStart _ _ hd
    exact .plain step (by simp) (by simp [Operation.holding])
  | @mark _ _ starter run hd =>
    have step : Plain digest settings db db' := .markRunning _ _ hd
    refine .plain step ?_ fun id runId hh => .inl ⟨_, rfl, id, hh⟩
    rintro _ ⟨⟩
    exact Initial.mono step.onward formed fits
  | markRaised _ starter run | demoted hf decided =>
    refine .read ?_ fun id runId hh => .inl ⟨_, rfl, id, hh⟩
    rintro _ ⟨⟩
    exact ⟨fits, rfl, rfl⟩
  | @promoted _ starter run row hf hr =>
    refine .read (by simp) fun id runId hh => .inr ?_
    simp only [Operation.holding, some.injEq, Prod.mk.injEq] at hh
    rw [← hh.2]
    exact settled_of_status formed indexed fits hf (by rw [hr]; decide)
  | compensate _ starter run call =>
    refine stops_effective call fits.2.stops (fun onward => ?_) rfl
    exact ⟨fits.1.mono onward formed,
      (fits.2.step indexed fits.1.choose_spec.2.2.2.2).mono (Prompt.Database.advances_of_runs rfl)⟩
  | compensated _ _ run _ =>
    refine .read (by simp) fun id runId hh => .inr ?_
    simp only [Operation.holding, some.injEq, Prod.mk.injEq] at hh
    rw [← hh.2]
    intro _ _ _ hf hs early
    exact absurd (hs ▸ fits.2) ((not_reached_iff indexed (initialRun_named hf).1).mpr early)
  | load hf =>
    refine .read ?_ (by simp [Operation.holding])
    rintro _ ⟨⟩
    exact loaded_of_found hf
  | @provisioning row _ turns was =>
    have step : Plain digest settings db (claimProvisioningCancel db row.id).1 :=
      .claimProvisioningCancel db _
    refine .plain step ?_ (by simp [Operation.holding])
    rintro _ ⟨⟩
    trivial
  | @queued row _ turns was =>
    have step : Plain digest settings db (cancelQueued db row.id) := .cancelQueued db _
    refine .plain step ?_ (by simp [Operation.holding])
    rintro _ ⟨⟩
    trivial
  | @running row _ turns was =>
    have step : Plain digest settings db (claimCancelling db row.id).1 := .claimCancelling db row.id
    refine .plain step ?_ (by simp [Operation.holding])
    rintro _ ⟨⟩
    split
    next => exact Loaded.mono step.onward formed fits
    next => trivial
  | cancelling _ turns _ =>
    refine .read ?_ (by simp [Operation.holding])
    rintro _ ⟨⟩
    exact fits
  | decided _ turns final | unsettled _ delegationId run error
  | unstarted _ => exact .read (by simp) (by simp [Operation.holding])
  | find hf =>
    refine .read ?_ (by simp [Operation.holding])
    rintro _ ⟨⟩
    obtain ⟨_, hm, hs, child⟩ := fits
    exact ⟨initialRun_initial hf hm hs child, rfl, rfl⟩
  | request _ delegationId run call =>
    refine stops_effective call fits.2 (fun onward => ?_) rfl
    exact ⟨fits.1.mono onward formed, (fits.2.step indexed).mono (Prompt.Database.advances_of_runs rfl)⟩
  | @settle _ delegationId run _ hc _ hf =>
    refine .read ?_ (by simp [Operation.holding])
    intro _ chosen
    obtain ⟨target, adopted, rfl⟩ := map_eq_some_iff.mp chosen
    exact ⟨run, hc.status, fits.1, (indexed.statusOf_runOf hf).1, adopted⟩
  | adopt _ delegationId target =>
    obtain ⟨run, _, initial, is, adopted⟩ := fits
    -- The cancelled run is the initial run, so this is what an observer would have written.
    have he : Explained digest False db (adoptTerminalCancellation db delegationId target) := by
      refine .update (.refl db) fun row hm chosen => ?_
      obtain ⟨_, hl, hf, hs⟩ := initial.found formed indexed hm chosen.1
      refine .moved ⟨rfl, rfl, rfl, rfl⟩ (.observed (by rw [chosen.2]; decide) hf ?_)
      have read := indexed.statusOf_run hl
      rw [hs] at read
      rw [← some.inj (is.symm.trans read)]
      exact adopted
    exact .of_names (.of_runs he rfl) rfl (by simp) (by simp [Operation.holding])

end Turns

/-! ### Runs -/

theorem Begins.fits (begins : Begins db operation) : operation.Fits digest db := by
  cases begins with
  | starter hm _ _ => exact ⟨_, hm, rfl, fun _ ha => ha⟩
  | canceller _ => trivial

theorem Elsewhere.onward (writes : Elsewhere digest settings db db') (formed : Formed db) :
    Onward digest db db' ∧
    ∀ row ∈ db'.delegations, ∀ run,
      initialRun digest db' row = .ok (some run) → run.name ∈ db.prompts.names := by
  rcases writes.explained formed with ⟨he, runs⟩ | ⟨_, statement, rfl, apart⟩
  · refine ⟨.of_runs he runs, fun row hm run hf => ?_⟩
    have hn := (initialRun_named hf).1
    rw [runs] at hn
    exact mem_map_of_mem hn
  · refine ⟨onward_prompt statement, fun row hm run hf => ?_⟩
    refine (apart run (initialRun_named hf).1).resolve_right fun none => ?_
    obtain ⟨_, _, keyed, ha, hr⟩ := initialRun_eq_some.1 hf
    obtain ⟨-, rfl, rfl⟩ := Prompt.runByKey_named hr
    exact none row hm ha keyed

theorem Harmless.settled (harmless : Harmless db operation) (formed : Formed db)
    (hi : db.prompts.Indexed) (fits : operation.Fits digest db) {id runId : Text}
    (hh : operation.holding = some (id, runId)) : Settled digest db runId := by
  rcases harmless id runId hh with hd | ⟨row, hf, status⟩
  · intro _ _ run isInitial hs early
    have read := hi.statusOf_run (initialRun_named isInitial).1
    exact absurd early (hd _ (hs ▸ read))
  · cases operation with
    | accepted starter run | marked starter run =>
      obtain ⟨rfl, rfl⟩ := hh
      exact settled_of_status formed hi fits hf status
    | compensating _ _ _ =>
      obtain ⟨rfl, rfl⟩ := hh
      exact settled_of_status formed hi fits.1 hf status
    | _ => simp [Operation.holding] at hh

theorem Sound.replace {front back : List Operation} {next : Option Operation}
    (sound : Sound digest ⟨db, front ++ operation :: back⟩)
    (effective : Effective digest db operation db' next) :
    Sound digest ⟨db', front ++ next.toList ++ back⟩ := by
  have others : ∀ other, other ∈ front ∨ other ∈ back → other ∈ front ++ operation :: back ∧
      other ∈ front ++ next.toList ++ back := by
    intro other hl
    rcases hl with left | hr
    · simp [left]
    · simp [hr]
  have own : ∀ other ∈ next, other ∈ front ++ next.toList ++ back := by
    intro other chosen
    simp [mem_toList.mpr chosen]
  refine sound.step effective.onward ?_ ?_ ?_
  · intro other hl
    simp only [mem_append, mem_toList] at hl
    rcases hl with (left | chosen) | hr
    · exact (sound.fits other (others other (.inl left)).1).mono effective.onward sound.formed
    · exact effective.fits other chosen
    · exact (sound.fits other (others other (.inr hr)).1).mono effective.onward sound.formed
  · intro row hm run hf new
    obtain ⟨holder, chosen, id, hh⟩ := effective.new row hm run hf new
    exact ⟨holder, own holder chosen, id, hh⟩
  · intro other hl id runId hh
    simp only [mem_append, mem_cons] at hl
    rcases hl with left | rfl | hr
    · exact .inl ⟨other, (others other (.inl left)).2, id, hh⟩
    · refine (effective.held id runId hh).imp_left ?_
      rintro ⟨holder, chosen, id, hs⟩
      exact ⟨holder, own holder chosen, id, hs⟩
    · exact .inl ⟨other, (others other (.inr hr)).2, id, hh⟩

theorem step_sound (step : Step digest settings Harmless s t) (hs : Sound digest s) : Sound digest t := by
  cases step with
  | @begin db operations operation begins =>
    refine hs.quiet (.refl db) (fun _ _ _ hf => (initialRun_named hf).2) ?_ ?_
    · intro other hl
      rcases mem_append.mp hl with old | new
      · exact hs.fits other old
      · rw [mem_singleton.mp new]
        exact begins.fits
    · intro other hl id runId hh
      exact .inl ⟨other, mem_append_left _ hl, id, hh⟩
  | turn turns => exact hs.replace (turns.effective hs.formed hs.indexed (hs.fits _ (by simp)))
  | @leave db front back operation lets =>
    have effective : Effective digest db operation db none :=
      .read (by simp)
        fun id runId hh => .inr (lets.settled hs.formed hs.indexed (hs.fits operation (by simp)) hh)
    simpa using hs.replace effective
  | @lose db _ _ starter run lets =>
    have effective : Effective digest db (.accepted starter run) db (some (.failing starter)) := by
      refine .read ?_ fun id runId hh => .inr (lets.settled hs.formed hs.indexed
        (hs.fits (.accepted starter run) (by simp)) hh)
      rintro _ ⟨⟩
      trivial
    simpa using hs.replace effective
  | @elsewhere _ _ _ writes =>
    obtain ⟨onward, names⟩ := writes.onward hs.formed
    exact hs.quiet onward names (fun other hl => (hs.fits other hl).mono onward hs.formed)
      fun other hl id runId hh => .inl ⟨other, hl, id, hh⟩

structure Fresh (s : System) : Prop where
  operations : s.operations = []
  delegations : s.db.delegations = []
  indexed : s.db.prompts.Indexed
  known : ∀ run ∈ s.db.runs, (s.db.sessionById run.sessionId).isSome

theorem Fresh.sound (hf : Fresh s) : Sound digest s := by
  refine ⟨formed_of_nil hf.delegations, hf.indexed, hf.known, ?_, ?_⟩
  all_goals simp [hf.delegations, hf.operations]

/-- In every run in which no starter is dropped while it holds a run that nothing else would
stop, a run that executes for a terminal delegation has a starter in flight that will
compensate it; with no operation in flight there is none. -/
theorem no_orphaned_execution {first last : System} (start : Fresh first)
    (run : ReflTransGen (Step digest settings Harmless) first last) :
    ∀ row ∈ last.db.delegations, row.status ∈ terminalStatuses →
      ∀ run, initialRun digest last.db row = .ok (some run) →
        (run.status ∈ executing →
            ∃ operation ∈ last.operations, ∃ id, operation.holding = some (id, run.id)) ∧
        (last.operations = [] → run.status ∉ executing) := by
  have hs := run_keeps (Sound digest) (fun _ _ step => step_sound step) run start.sound
  intro row hm terminal run hf
  have holder : run.status ∈ executing →
      ∃ operation ∈ last.operations, ∃ id, operation.holding = some (id, run.id) := by
    intro early
    refine (hs.covered row hm run hf early).resolve_left fun stoppable => ?_
    revert terminal stoppable
    cases row.status <;> decide
  refine ⟨holder, fun hq early => ?_⟩
  obtain ⟨_, hi, -⟩ := holder early
  rw [hq] at hi
  simp at hi

end Invariant

/-! ### A starter that loses its delegation -/

def sampleChild : Delegation :=
  { sampleReservation with
    childWorkspaceId := some (text "child-workspace")
    childSessionId := some (text "child")
    baseKind := some .head
    baseCommit := some (text "base")
    status := .queued }

def sampleAttachment : Attachment where
  delegationId := sampleReservation.id
  workspace := { id := text "child-workspace", repoId := text "repo", path := text "/repo/child",
                 delegated := true }
  session := { id := text "child", workspaceId := text "child-workspace" }
  baseKind := .head
  baseCommit := text "base"

def attachedDatabase (status : Status) : Database :=
  { rootDatabase with
    workspaces := rootDatabase.workspaces ++ [sampleAttachment.workspace]
    sessions := rootDatabase.sessions ++ [sampleAttachment.session]
    delegations := [{ sampleChild with status := status }] }

def sampleRun (status : Prompt.Status) : PromptRun :=
  ⟨text "run", text "child", sampleReservation.id, status⟩

def acceptedDatabase (status : Status) (runStatus : Prompt.Status) : Database :=
  { attachedDatabase status with runs := [sampleRun runStatus] }

def sampleStarter : Starter := ⟨sampleReservation.id, some (text "child"), none⟩

section Samples
variable {allowed : Database → Operation → Prop}

theorem root_fresh : Fresh ⟨rootDatabase, []⟩ := by
  refine ⟨rfl, rfl, ⟨?_, ?_, ?_⟩, ?_⟩
  all_goals simp [rootDatabase, Database.prompts]

theorem step_alone {digest : Text → Text} {settings : Settings} {db db' : Database}
    {operation : Operation} {next : Option Operation}
    (turns : Turn digest settings db operation db' next) :
    Step digest settings allowed ⟨db, [operation]⟩ ⟨db', next.toList⟩ := by
  have step := @Step.turn digest settings allowed db db' [] [] operation next turns
  simpa using step

theorem sample_accepted : ReflTransGen (Step id {} allowed) ⟨rootDatabase, []⟩
    ⟨acceptedDatabase .queued .starting, [.accepted sampleStarter (sampleRun .starting)]⟩ := by
  have hr : Plain id {} rootDatabase reservedDatabase := .reserve {} sampleCall
    (by decide : reserve {} {} rootDatabase sampleCall = .ok (reservedDatabase, sampleReservation))
  have ha : Plain id {} reservedDatabase (attachedDatabase .queued) := .attach sampleAttachment (by decide)
  have hm : sampleChild ∈ (attachedDatabase .queued).delegations := by decide
  have begins : Begins (attachedDatabase .queued)
        (.starting ⟨sampleChild.id, sampleChild.childSessionId, none⟩) :=
    .starter hm rfl none
  have accepts : acceptInitialRun id {} noGuard (attachedDatabase .queued) sampleReservation.id (text "child")
      (text "run") = .ok (acceptedDatabase .queued .starting, sampleRun .starting) := by decide
  have hac : Turn id {} (attachedDatabase .queued) (.starting sampleStarter)
      (acceptedDatabase .queued .starting) (some (.accepted sampleStarter (sampleRun .starting))) :=
    .accept rfl accepts
  calc ReflTransGen (Step id {} allowed) ⟨rootDatabase, []⟩ ⟨reservedDatabase, []⟩ :=
        .single (.elsewhere (.plain hr))
    ReflTransGen (Step id {} allowed) _ ⟨attachedDatabase .queued, []⟩ := .single (.elsewhere (.plain ha))
    ReflTransGen (Step id {} allowed) _ ⟨attachedDatabase .queued, [.starting sampleStarter]⟩ :=
        .single (.begin begins)
    ReflTransGen (Step id {} allowed) _ _ := .single (step_alone hac)

theorem sample_cancelled :
    ReflTransGen (Step id {} allowed) ⟨acceptedDatabase .queued .starting, []⟩
      ⟨acceptedDatabase .cancelled .starting, []⟩ := by
  have begins : Begins (acceptedDatabase .queued .starting) (.loading sampleReservation.id 4) := .canceller _
  have loaded : Turn id {} (acceptedDatabase .queued .starting) (.loading sampleReservation.id 4)
      (acceptedDatabase .queued .starting) (some (.deciding sampleChild 4)) := .load (by decide)
  have cancelled : Turn id {} (acceptedDatabase .queued .starting) (.deciding sampleChild 4)
      (cancelQueued (acceptedDatabase .queued .starting) sampleChild.id) (some (.loading sampleChild.id 3)) :=
    .queued _ 3 rfl
  have reloaded : Turn id {} (acceptedDatabase .cancelled .starting) (.loading sampleReservation.id 3)
      (acceptedDatabase .cancelled .starting)
        (some (.deciding { sampleChild with status := .cancelled } 3)) :=
    .load (by decide)
  have hr : Turn id {} (acceptedDatabase .cancelled .starting)
      (.deciding { sampleChild with status := .cancelled } 3) (acceptedDatabase .cancelled .starting) none :=
    .decided _ 3 (.inl (by decide))
  calc ReflTransGen (Step id {} allowed) ⟨acceptedDatabase .queued .starting, []⟩
        ⟨acceptedDatabase .queued .starting, [.loading sampleReservation.id 4]⟩ := .single (.begin begins)
    ReflTransGen (Step id {} allowed) _ ⟨_, [.deciding sampleChild 4]⟩ := .single (step_alone loaded)
    ReflTransGen (Step id {} allowed) _ ⟨_, [.loading sampleChild.id 3]⟩ := .single (step_alone cancelled)
    ReflTransGen (Step id {} allowed) _ ⟨_, [.deciding { sampleChild with status := .cancelled } 3]⟩ :=
        .single (step_alone reloaded)
    ReflTransGen (Step id {} allowed) _ _ := .single (step_alone hr)

/-- The starter is cancelled after the acceptance, then the delegation is cancelled: the run
executes, and nothing is in flight. -/
theorem orphaned_run :
    ∃ first last : System, Fresh first ∧ ReflTransGen (Step id {} fun _ _ => True) first last ∧
      last.operations = [] ∧
      ∃ row ∈ last.db.delegations, row.status = .cancelled ∧
        ∃ run, initialRun id last.db row = .ok (some run) ∧ run.status ∈ executing := by
  have dropped : Step id {} (fun _ _ => True)
      ⟨acceptedDatabase .queued .starting, [.accepted sampleStarter (sampleRun .starting)]⟩
      ⟨acceptedDatabase .queued .starting, []⟩ :=
    @Step.leave id {} (fun _ _ => True) (acceptedDatabase .queued .starting) [] []
      (.accepted sampleStarter (sampleRun .starting)) trivial
  exact ⟨⟨rootDatabase, []⟩, ⟨acceptedDatabase .cancelled .starting, []⟩, root_fresh,
    (sample_accepted.tail dropped).trans sample_cancelled, rfl, { sampleChild with status := .cancelled },
    by decide, rfl, sampleRun .starting, by decide, by decide⟩

theorem sample_compensated : ReflTransGen (Step id {} allowed) ⟨rootDatabase, []⟩
    ⟨acceptedDatabase .cancelled .stopping, []⟩ := by
  have cancelled : Plain id {} (acceptedDatabase .queued .starting)
      (cancelQueued (acceptedDatabase .queued .starting) sampleReservation.id) := .cancelQueued _ _
  have lost : markRunning sampleStarter.guard (acceptedDatabase .cancelled .starting) sampleReservation.id =
      .ok (acceptedDatabase .cancelled .starting) := by decide
  have marked : Turn id {} (acceptedDatabase .cancelled .starting)
        (.accepted sampleStarter (sampleRun .starting))
      (acceptedDatabase .cancelled .starting)
          (some (.marked sampleStarter (sampleRun .starting))) := .mark lost
  have hf : (acceptedDatabase .cancelled .starting).delegationById sampleReservation.id =
      some { sampleChild with status := .cancelled } := by decide
  have demoted : Turn id {} (acceptedDatabase .cancelled .starting)
      (.marked sampleStarter (sampleRun .starting)) (acceptedDatabase .cancelled .starting)
      (some (.compensating sampleStarter (sampleRun .starting) (.cancel (text "run") (text "child")))) :=
    .demoted hf (by decide)
  have read : Turn id {} (acceptedDatabase .cancelled .starting)
      (.compensating sampleStarter (sampleRun .starting) (.cancel (text "run") (text "child")))
      (acceptedDatabase .cancelled .starting)
      (some (.compensating sampleStarter (sampleRun .starting) (.cancelUpdate (sampleRun .starting)))) :=
    .compensate _ _ _ _
  have stopped : Turn id {} (acceptedDatabase .cancelled .starting)
      (.compensating sampleStarter (sampleRun .starting) (.cancelUpdate (sampleRun .starting)))
      (acceptedDatabase .cancelled .stopping)
      (some (.compensating sampleStarter (sampleRun .starting)
          (.returned (.run (sampleRun .stopping) true)))) :=
    .compensate _ _ _ _
  calc ReflTransGen (Step id {} allowed) ⟨rootDatabase, []⟩
        ⟨acceptedDatabase .queued .starting, [.accepted sampleStarter (sampleRun .starting)]⟩ := sample_accepted
    ReflTransGen (Step id {} allowed) _ ⟨acceptedDatabase .cancelled .starting, _⟩ :=
        .single (.elsewhere (.plain cancelled))
    ReflTransGen (Step id {} allowed) _ ⟨_, [_]⟩ := .single (step_alone marked)
    ReflTransGen (Step id {} allowed) _ ⟨_, [_]⟩ := .single (step_alone demoted)
    ReflTransGen (Step id {} allowed) _ ⟨_, [_]⟩ := .single (step_alone read)
    ReflTransGen (Step id {} allowed) _ ⟨_, [_]⟩ := .single (step_alone stopped)
    ReflTransGen (Step id {} allowed) _ _ := .single (step_alone (.compensated _ _ _ _))

theorem no_orphaned_execution_compensated :
    { sampleChild with status := .cancelled } ∈
        (acceptedDatabase .cancelled .stopping).delegations ∧
    ∀ run, initialRun id (acceptedDatabase .cancelled .stopping)
            { sampleChild with status := .cancelled } = .ok (some run) →
      run.status ∉ executing := by
  refine ⟨by decide, fun run hf => ?_⟩
  have hs := no_orphaned_execution root_fresh sample_compensated
    { sampleChild with status := .cancelled } (by decide) (by decide) run hf
  exact hs.2 rfl

end Samples

end Yinshi.Threads
