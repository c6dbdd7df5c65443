import Yinshi.Threads.Starting

/-! Calls of `spawn_child` and `retry_child` that race for one idempotency key. A call reads,
reserves, works on Git and attaches in separate transactions; the row of the key decides
between the calls, and it outlives each of them. -/

namespace Yinshi.Threads
open ByteText Keyed Checked Runs Relation List
open Prompt (PromptRun)

/-! ### Calls -/

/-- The key of an agent's call; `digest` is the UUID of the name in the URL namespace. -/
def agentSpawnKey (digest : Text → Text) (caller : Caller) : Text :=
  digest (text "yinshi:thread-spawn:" ++ caller.runId ++ text ":" ++ caller.toolCallId)

structure RetryBody where
  model : Option Text := none
  thinking : Option Text := none

def retryAllowedStatuses : List Status := [.failed, .cancelled, .interrupted]

/-- The arguments with which `retry_child` calls `spawn_child`. -/
def retryCall (settings : Settings) (request : Request) (db : Database) (childSessionId key : Text)
    (body : RetryBody) (reservationId : Text) (createdAt : Nat) : Except ThreadError SpawnCall := do
  rejectIf (settings.hierarchyEnabled = false) .hierarchyDisabled
  let row ← loadChildDelegation request db childSessionId
  rejectIf (row.status ∉ retryAllowedStatuses) (.orchestration "retry_not_allowed"
    "thread retry requires a failed, cancelled, or interrupted child")
  pure {
    parentSessionId := row.parentSessionId
    idempotencyKey := key
    body := {
      title := row.title
      task := row.task
      context := row.context
      role := row.role
      model := body.model.or (some row.requestedModel)
      thinking := body.thinking.or row.requestedThinking }
    retryOf := some row.id
    reservationId := reservationId
    createdAt := createdAt }

inductive Phase
  | entered
  | preflight
  | reconciling
  | reserving
  | provisioning
  | failing
  | attached
  | returned (delegationId : Text)
  | raised (error : ThreadError)
  -- Git, the runtime or the start of the run raised.
  | failed
  -- The task was cancelled or the process died.
  | lost

/-- A call of `spawn_child`; `artifacts` records that it has begun to create Git artifacts. -/
structure Spawn where
  request : Request
  call : SpawnCall
  phase : Phase := .entered
  artifacts : Bool := false

def Spawn.enter (settings : Settings) (db : Database) (spawn : Spawn) : Except ThreadError Unit := do
  rejectIf (settings.hierarchyEnabled = false) .hierarchyDisabled
  authorizeSpawnParent settings spawn.request db spawn.call.parentSessionId none

def Spawn.loadPreflight (settings : Settings) (db : Database) (spawn : Spawn) :
    Except ThreadError ParentContext := do
  rejectIf (settings.hierarchyEnabled = false ∨ settings.agentDelegationEnabled = false) .hierarchyDisabled
  authorizeSpawnParent settings spawn.request db spawn.call.parentSessionId spawn.call.caller
  let session ← orRaise (.notFound spawn.call.parentSessionId) (db.sessionById spawn.call.parentSessionId)
  loadParentContext db session.workspaceId spawn.call.reservationId

def Spawn.guard (settings : Settings) (spawn : Spawn) : Guard := fun db =>
  authorizeSpawnParent settings spawn.request db spawn.call.parentSessionId none

/-- What a call does with the row of its key: only the winner of the reservation creates its
Git artifacts. -/
def Spawn.take (spawn : Spawn) (row : Delegation) : Spawn :=
  if row.id ≠ spawn.call.reservationId ∨ row.status ≠ .provisioning then
    { spawn with phase := .returned row.id }
  else { spawn with phase := .provisioning, artifacts := true }

inductive SpawnTurn (settings : Settings) : Database → Spawn → Database → Spawn → Prop
  | raise {db : Database} {spawn : Spawn} {error : ThreadError}
      (check : (spawn.phase = .entered ∧ spawn.call.caller = none ∧ spawn.enter settings db = .error error) ∨
        (spawn.phase = .entered ∧ ∃ caller ∈ spawn.call.caller,
          existingSpawn spawn.request db spawn.call caller = .error error) ∨
        (spawn.phase = .preflight ∧ spawn.loadPreflight settings db = .error error) ∨
        (spawn.phase = .reconciling ∧ spawn.guard settings db = .error error) ∨
        (spawn.phase = .reserving ∧ reserve settings spawn.request db spawn.call = .error error)) :
      SpawnTurn settings db spawn db { spawn with phase := .raised error }
  | enter {db : Database} {spawn : Spawn} (phase : spawn.phase = .entered)
      (manual : spawn.call.caller = none) (done : spawn.enter settings db = .ok ()) :
      SpawnTurn settings db spawn db { spawn with phase := .reconciling }
  | replayed {db : Database} {spawn : Spawn} {caller : Caller} {row : Delegation}
      (phase : spawn.phase = .entered) (agent : spawn.call.caller = some caller)
      (done : existingSpawn spawn.request db spawn.call caller = .ok (some row)) :
      SpawnTurn settings db spawn db { spawn with phase := .returned row.id }
  | unknown {db : Database} {spawn : Spawn} {caller : Caller} (phase : spawn.phase = .entered)
      (agent : spawn.call.caller = some caller)
      (done : existingSpawn spawn.request db spawn.call caller = .ok none) :
      SpawnTurn settings db spawn db { spawn with phase := .preflight }
  | preflight {db : Database} {spawn : Spawn} {context : ParentContext}
      (phase : spawn.phase = .preflight) (done : spawn.loadPreflight settings db = .ok context) :
      SpawnTurn settings db spawn db { spawn with
        phase := .reserving, call := { spawn.call with expectedContext := some context } }
  -- `reconcile_stale_provisioning`; its cleanups are transactions of their own.
  | reconcile {db db' : Database} {spawn : Spawn} {stale : Delegation → Bool} {claimed : List Text}
      (phase : spawn.phase = .reconciling)
      (done : claimStaleProvisioning (spawn.guard settings) db stale (some spawn.call.parentSessionId) none =
        .ok (db', claimed)) : SpawnTurn settings db spawn db' { spawn with phase := .reserving }
  | reserve {db db' : Database} {spawn : Spawn} {row : Delegation} (phase : spawn.phase = .reserving)
      (done : reserve settings spawn.request db spawn.call = .ok (db', row)) :
      SpawnTurn settings db spawn db' (spawn.take row)
  -- The transactions inside `create_child_git_artifacts`.
  | claim {db db' : Database} {spawn : Spawn} {gitSpace : Text} (phase : spawn.phase = .provisioning)
      (done : claimGitArtifacts settings spawn.request db spawn.call.parentSessionId spawn.call.reservationId
        gitSpace spawn.call.caller = .ok db') : SpawnTurn settings db spawn db' spawn
  | snapshot {db db' : Database} {spawn : Spawn} {context : ParentContext} {gitSpace ref oid : Text}
      (phase : spawn.phase = .provisioning)
      (done : recordSnapshotIntent settings spawn.request db context spawn.call.parentSessionId
        spawn.call.reservationId gitSpace ref oid spawn.call.caller = .ok db') :
      SpawnTurn settings db spawn db' spawn
  -- The attachment may raise although its transaction has committed.
  | attach {db db' : Database} {spawn : Spawn} {attachment : Attachment} (phase : spawn.phase = .provisioning)
      (own : attachment.delegationId = spawn.call.reservationId) (done : attach db attachment = .ok db')
      (certain : Bool) :
      SpawnTurn settings db spawn db' { spawn with phase := if certain then .attached else .failing }
  | broken {db : Database} {spawn : Spawn} (phase : spawn.phase = .provisioning) :
      SpawnTurn settings db spawn db { spawn with phase := .failing }
  | failReservation {db : Database} {spawn : Spawn} (phase : spawn.phase = .failing) :
      SpawnTurn settings db spawn (failReservation db spawn.call.reservationId)
        { spawn with phase := .failed }
  -- The start of the run has its own transactions.
  | finish {db : Database} {spawn : Spawn} (phase : spawn.phase = .attached) :
      SpawnTurn settings db spawn db { spawn with phase := .returned spawn.call.reservationId }
  | fail {db : Database} {spawn : Spawn} (phase : spawn.phase = .attached ∨ spawn.phase = .preflight) :
      SpawnTurn settings db spawn db { spawn with phase := .failed }
  | lose (db : Database) (spawn : Spawn) : SpawnTurn settings db spawn db { spawn with phase := .lost }

structure Spawns where
  db : Database
  spawns : List Spawn

def Spawns.unused (s : Spawns) (reservationId : Text) : Prop :=
  reservationId ∉ s.spawns.map (·.call.reservationId)

section Steps
variable (digest : Text → Text)

inductive SpawnStep : Spawns → Spawns → Prop
  | spawn {s : Spawns} (request : Request) (call : SpawnCall) (fresh : s.unused call.reservationId)
      (keyed : ∀ caller ∈ call.caller, call.idempotencyKey = agentSpawnKey digest caller) :
      SpawnStep s ⟨s.db, s.spawns ++ [⟨request, call, .entered, false⟩]⟩
  | retry {s : Spawns} {settings : Settings} (request : Request) {child key : Text} {body : RetryBody}
      {reservationId : Text} {createdAt : Nat} {call : SpawnCall} (fresh : s.unused reservationId)
      (made : retryCall settings request s.db child key body reservationId createdAt = .ok call) :
      SpawnStep s ⟨s.db, s.spawns ++ [⟨request, call, .entered, false⟩]⟩
  | turn {settings : Settings} {db db' : Database} {front back : List Spawn} {spawn spawn' : Spawn}
      (turns : SpawnTurn settings db spawn db' spawn') :
      SpawnStep ⟨db, front ++ spawn :: back⟩ ⟨db', front ++ spawn' :: back⟩
  | elsewhere {settings : Settings} {db db' : Database} {spawns : List Spawn}
      (writes : Transaction digest settings db db') : SpawnStep ⟨db, spawns⟩ ⟨db', spawns⟩

end Steps

/-! ### The comparison -/

/-- The stored row and a call agree in the normalized request and, for an agent, in the
initiator. -/
structure Agrees (row : Delegation) (call : SpawnCall) : Prop where
  request : ∃ normalized, row.normalized = .ok normalized ∧ call.body.normalized call.retryOf = .ok normalized
  initiator : ∀ caller ∈ call.caller, row.initiator = .agent ∧ row.delegatedByRunId = some caller.runId ∧
    row.delegatedByToolCallId = some caller.toolCallId ∧ row.autoStart = call.body.startImmediately

section Comparison
variable {settings : Settings} {request : Request} {db db' : Database} {row : Delegation} {call : SpawnCall}

theorem assertSpawnReplayMatches_iff :
    assertSpawnReplayMatches row call.body call.retryOf call.caller = .ok () ↔ Agrees row call := by
  have requests : assertRequestMatches row call.body call.retryOf = .ok () ↔
      ∃ normalized, row.normalized = .ok normalized ∧ call.body.normalized call.retryOf = .ok normalized := by
    simp only [assertRequestMatches, steps_ok, not_not]
    constructor
    · rintro ⟨stored, isStored, _, isIncoming, rfl⟩
      exact ⟨stored, isStored, isIncoming⟩
    · rintro ⟨normalized, isStored, isIncoming⟩
      exact ⟨normalized, isStored, normalized, isIncoming, rfl⟩
  simp only [assertSpawnReplayMatches, steps_ok, requests]
  cases caller : call.caller with
  | none =>
    constructor
    · rintro ⟨hs, -⟩
      exact ⟨hs, by simp [caller]⟩
    · intro ha
      exact ⟨ha.request, rfl⟩
  | some agent =>
    simp only [rejectIf_eq_ok, not_or, not_not]
    constructor
    · rintro ⟨hs, initiator⟩
      refine ⟨hs, ?_⟩
      rw [caller]
      rintro _ ⟨⟩
      exact initiator
    · intro ha
      exact ⟨ha.request, ha.initiator agent (by rw [caller]; rfl)⟩

theorem assertSpawnReplayMatches_conflict {stored incoming : Normalized}
    (isStored : row.normalized = .ok stored)
    (isIncoming : call.body.normalized call.retryOf = .ok incoming) (differs : ¬ Agrees row call) :
    ∃ message, assertSpawnReplayMatches row call.body call.retryOf call.caller =
        .error (.conflict message) := by
  rw [← assertSpawnReplayMatches_iff] at differs
  simp only [assertSpawnReplayMatches, assertRequestMatches, isStored, isIncoming, rejectIf] at differs ⊢
  by_cases hs : stored = incoming
  · cases caller : call.caller with
    | none => simp [hs, caller, bind, Except.bind, pure, Except.pure] at differs
    | some _ =>
      simp only [hs, caller, bind, Except.bind, ne_eq, not_true_eq_false, if_false] at differs ⊢
      split at differs
      next hr => exact ⟨_, if_pos hr⟩
      next => exact absurd rfl differs
  · exact ⟨"idempotency key was already used with a different request", by simp [hs, bind, Except.bind]⟩

theorem reserve_stored
    (authorized :
      authorizeSpawnParent settings request db call.parentSessionId call.caller = .ok ())
    (hf : db.delegationByKey call.parentSessionId call.idempotencyKey = some row) :
    reserve settings request db call =
      (assertSpawnReplayMatches row call.body call.retryOf call.caller).map fun _ => (db, row) := by
  simp only [reserve, authorized, hf]
  cases assertSpawnReplayMatches row call.body call.retryOf call.caller <;> rfl

theorem existingSpawn_stored {caller : Caller} (agent : call.caller = some caller)
    (authorized :
      authorizeSpawnParent settings request db call.parentSessionId call.caller = .ok ())
    (hf : db.delegationByKey call.parentSessionId call.idempotencyKey = some row) :
    existingSpawn request db call caller =
      (assertSpawnReplayMatches row call.body call.retryOf call.caller).map fun _ => some row := by
  simp only [authorizeSpawnParent, agent, authorizeCaller, steps_ok] at authorized
  obtain ⟨parent, hs, -, identity⟩ := authorized
  simp only [existingSpawn, parent, hs, identity, hf, agent]
  cases assertSpawnReplayMatches row call.body call.retryOf (some caller) <;> rfl

theorem reserve_agrees (hd : reserve settings request db call = .ok (db', row)) :
    row ∈ db'.delegations ∧ row.parentSessionId = call.parentSessionId ∧
    row.idempotencyKey = call.idempotencyKey ∧ Agrees row call := by
  simp only [reserve, steps_ok] at hd
  obtain ⟨-, hd⟩ := hd
  split at hd
  next hf =>
    simp only [steps_ok, Prod.mk.injEq] at hd
    obtain ⟨ha, rfl, rfl⟩ := hd
    have chosen := find?_some hf
    simp only [decide_eq_true_eq] at chosen
    exact ⟨mem_of_find?_eq_some hf, chosen.1, chosen.2, assertSpawnReplayMatches_iff.1 ha⟩
  next =>
    simp only [steps_ok, Prod.mk.injEq] at hd
    obtain ⟨-, _, normal, _, insert, rfl, rfl⟩ := hd
    rw [insertDelegation] at insert
    split at insert
    next => simp at insert
    next =>
      cases insert
      refine ⟨by simp, rfl, rfl, ⟨?_, ?_⟩⟩
      · rw [reservation_normalized normal]
        simp only [Body.normalized, normal]
        exact ⟨_, rfl, rfl⟩
      · intro _ isCaller
        simp [Body.reservation, Option.mem_def.mp isCaller]

theorem existingSpawn_agrees {caller : Caller} (agent : call.caller = some caller)
    (hd : existingSpawn request db call caller = .ok (some row)) :
    row ∈ db.delegations ∧ row.parentSessionId = call.parentSessionId ∧
    row.idempotencyKey = call.idempotencyKey ∧ Agrees row call := by
  simp only [existingSpawn, steps_ok] at hd
  obtain ⟨-, -, -, hd⟩ := hd
  split at hd
  next => simp at hd
  next hf =>
    simp only [steps_ok, Option.some.injEq] at hd
    obtain ⟨ha, rfl⟩ := hd
    rw [← agent] at ha
    have chosen := find?_some hf
    simp only [decide_eq_true_eq] at chosen
    exact ⟨mem_of_find?_eq_some hf, chosen.1, chosen.2, assertSpawnReplayMatches_iff.1 ha⟩

end Comparison

/-! ### The tables -/

structure Kept (db : Database) : Prop where
  formed : Formed db
  indexed : db.prompts.Indexed
  requests : ∀ row ∈ db.delegations, ∃ normalized, row.normalized = .ok normalized
  workspaces : ∀ row ∈ db.delegations, row.childSessionId = none → row.childWorkspaceId = none

/-- What a row keeps for ever: its key, its child once it has one, its initial run once it is
accepted, and its end. -/
structure Persists (digest : Text → Text) (db db' : Database) (row row' : Delegation) : Prop where
  identity : row'.identity = row.identity
  session : ∀ child, row.childSessionId = some child → row'.childSessionId = some child
  workspace : ∀ workspace, row.childWorkspaceId = some workspace → row'.childWorkspaceId = some workspace
  run : ∀ run, initialRun digest db row = .ok (some run) →
    ∃ run', initialRun digest db' row' = .ok (some run') ∧ run'.id = run.id
  ended : row.status ∈ terminalStatuses → row'.status = row.status ∧ row'.childSessionId = row.childSessionId

section Tables
variable {digest : Text → Text} {settings : Settings} {db db' db'' : Database} {row row' row'' : Delegation}

theorem Persists.refl : Persists digest db db row row :=
  ⟨rfl, fun _ own => own, fun _ own => own, fun run hf => ⟨run, hf, rfl⟩, fun _ => ⟨rfl, rfl⟩⟩

theorem Persists.trans (first : Persists digest db db' row row')
    (second : Persists digest db' db'' row' row'') : Persists digest db db'' row row'' := by
  refine ⟨second.identity.trans first.identity,
    fun child own => second.session child (first.session child own),
      fun workspace own => second.workspace workspace (first.workspace workspace own), ?_, ?_⟩
  · intro run hf
    obtain ⟨middle, isMiddle, hs⟩ := first.run run hf
    obtain ⟨last, hl, again⟩ := second.run middle isMiddle
    exact ⟨last, hl, again.trans hs⟩
  · intro terminal
    obtain ⟨status, child⟩ := first.ended terminal
    obtain ⟨status', child'⟩ := second.ended (status ▸ terminal)
    exact ⟨status'.trans status, child'.trans child⟩

theorem Transaction.advances (step : Transaction digest settings db db') (hf : Formed db) :
    db.prompts.Advances db'.prompts := by
  cases step with
  | plain step => exact Prompt.Database.advances_of_runs step.aside.runs
  | prepareTerminalResult request guard childSessionId runId _ hd =>
    have both : Explained digest False db db' ∧ db'.runs = db.runs :=
      prepareTerminalResult_explained hf.ids hd
    exact Prompt.Database.advances_of_runs both.2
  | commitSeal request guard _ _ hd =>
    have both : Explained digest False db db' ∧ db'.runs = db.runs := commitSeal_explained hf.ids hd
    exact Prompt.Database.advances_of_runs both.2
  | reportResult request childSessionId body hd =>
    exact Prompt.Database.advances_of_runs (reportResult_beside hd).2
  | reportAgentResult _ _ _ hd => exact Prompt.Database.advances_of_runs (reportAgentResult_beside hd).2
  | acceptInitialRun _ delegationId _ _ hd =>
    simp only [Threads.acceptInitialRun, bind_eq_ok] at hd
    obtain ⟨_, -, hd⟩ := hd
    split at hd
    next =>
      simp only [pure_eq_ok, Prod.mk.injEq] at hd
      exact hd.1 ▸ .refl _
    next =>
      simp only [bind_eq_ok, orRaise_eq_ok, pure_eq_ok, Prod.mk.injEq] at hd
      obtain ⟨_, -, prompts, inserted, rfl, -⟩ := hd
      have onward : Onward digest db (db.withPrompts prompts) := onward_prompt (.inserted inserted)
      exact onward.advances
  | adoptTerminalCancellation _ _ => exact Prompt.Database.advances_of_runs rfl
  | prompt writes =>
    have onward : Onward digest db (db.withPrompts _) := onward_prompt writes
    exact onward.advances

theorem Transaction.kept (step : Transaction digest settings db db') (hke : Kept db) : Kept db' := by
  obtain ⟨_, _, _, hr⟩ := step.explained hke.formed.ids
  refine ⟨hr.formed hke.formed, (step.advances hke.formed).indexed hke.indexed, ?_, ?_⟩
  · intro row' hm
    rcases hr.origin hm with ⟨row, old, rewrite⟩ | reserved
    · have hs : row'.normalized = row.normalized := congrArg Identity.request rewrite.identity
      rw [hs]
      exact hke.requests row old
    · exact reserved.request
  · intro _ hm bare
    rcases hr.origin hm with ⟨row, old, rewrite⟩ | reserved
    · cases rewrite with
      | kept hk | moved hk => rw [hk.workspace, hke.workspaces row old (hk.session ▸ bare)]
      | rescoped => exact hke.workspaces row old bare
      | attached _ _ _ _ session => cases bare.symm.trans session
    · exact reserved.workspace

theorem Transaction.persists (step : Transaction digest settings db db') (hke : Kept db)
    (hm : row ∈ db.delegations) : ∃ row' ∈ db'.delegations, Persists digest db db' row row' := by
  obtain ⟨_, _, _, rewritten⟩ := step.explained hke.formed.ids
  obtain ⟨row', hl, rewrite⟩ := rewritten.successor hm
  have bare := hke.formed.bare row hm
  refine ⟨row', hl, rewrite.identity, fun child own => rewrite.keepsChild bare own, ?_, ?_, ?_⟩
  · intro _ own
    cases rewrite with
    | kept hk | moved hk => rw [hk.workspace, own]
    | rescoped => exact own
    | attached _ _ was => cases (hke.workspaces row hm (bare was)).symm.trans own
  · intro _ hf
    obtain ⟨key, child, keyed, ha, hr⟩ := initialRun_eq_some.mp hf
    obtain ⟨run', hr', advance⟩ := rewritten.runs.runByKey hr
    exact ⟨run',
      initialRun_eq_some.mpr ⟨key, child, rewrite.id ▸ keyed, rewrite.keepsChild bare ha, hr'⟩,
      advance.id⟩
  · intro terminal
    refine ⟨rewrite.terminal terminal, ?_⟩
    rcases rewrite.child with hs | ⟨_, -, was, -⟩
    · exact hs
    · exact absurd (was ▸ terminal) (by decide)

end Tables

/-! ### The invariant -/

/-- The row with this id is the row of the call's key, and it agrees with the call. -/
def Spawn.Owns (db : Database) (spawn : Spawn) (id : Text) : Prop :=
  ∃ row ∈ db.delegations, row.id = id ∧ row.parentSessionId = spawn.call.parentSessionId ∧
    row.idempotencyKey = spawn.call.idempotencyKey ∧ Agrees row spawn.call

def winning : List Phase := [.provisioning, .failing, .attached]

structure Spawn.Fits (db : Database) (spawn : Spawn) : Prop where
  artifacts : spawn.artifacts = true → spawn.Owns db spawn.call.reservationId
  returned : ∀ id, spawn.phase = .returned id → spawn.Owns db id
  winner : spawn.phase ∈ winning → spawn.artifacts = true

structure Spawns.Exact (s : Spawns) : Prop where
  kept : Kept s.db
  distinct : (s.spawns.map (·.call.reservationId)).Nodup
  fits : ∀ spawn ∈ s.spawns, spawn.Fits s.db

section Invariant
variable {digest : Text → Text} {settings : Settings} {db db' : Database} {row row' : Delegation}
  {spawn spawn' : Spawn} {s t : Spawns}

theorem agrees_of_identity (hs : row'.identity = row.identity) {call : SpawnCall}
    (ha : Agrees row call) : Agrees row' call := by
  simp only [Delegation.identity, Identity.mk.injEq] at hs
  obtain ⟨-, -, -, initiator, run, tool, request, start⟩ := hs
  refine ⟨by rw [request]; exact ha.request, ?_⟩
  rw [initiator, run, tool, start]
  exact ha.initiator

theorem Spawn.Owns.mono
    (persists : ∀ row ∈ db.delegations, ∃ row' ∈ db'.delegations, row'.identity = row.identity)
    {id : Text} (owns : spawn.Owns db id) : spawn.Owns db' id := by
  obtain ⟨row, hm, own, parent, key, ha⟩ := owns
  obtain ⟨row', hl, hs⟩ := persists row hm
  have fields := hs
  simp only [Delegation.identity, Identity.mk.injEq] at fields
  exact ⟨row', hl, fields.1.trans own, fields.2.1.trans parent, fields.2.2.1.trans key,
    agrees_of_identity hs ha⟩

theorem Spawn.Fits.mono
    (persists : ∀ row ∈ db.delegations, ∃ row' ∈ db'.delegations, row'.identity = row.identity)
    (hf : spawn.Fits db) : spawn.Fits db' :=
  ⟨fun hm => (hf.artifacts hm).mono persists, fun id back => (hf.returned id back).mono persists, hf.winner⟩

theorem Spawn.Fits.goesOn (hf : spawn.Fits db) {phase : Phase} (hr : ∀ id, phase ≠ .returned id)
    (winner : phase ∈ winning → spawn.phase ∈ winning) :
    Spawn.Fits db { spawn with phase := phase } :=
  ⟨hf.artifacts, fun id back => absurd back (hr id), fun won => hf.winner (winner won)⟩

theorem SpawnTurn.transaction (turns : SpawnTurn settings db spawn db' spawn') :
    db' = db ∨ Transaction digest settings db db' := by
  cases turns with
  | reconcile phase hd => exact .inr (.plain (.claimStaleProvisioning _ _ _ _ hd))
  | reserve phase hd => exact .inr (.plain (.reserve _ _ hd))
  | claim phase hd => exact .inr (.plain (.claimGitArtifacts _ _ _ _ _ hd))
  | snapshot phase hd => exact .inr (.plain (.recordSnapshotIntent _ _ _ _ _ _ _ _ hd))
  | attach _ _ hd => exact .inr (.plain (.attach _ hd))
  | failReservation => exact .inr (.plain (.failReservation _ _))
  | _ => exact .inl rfl

theorem SpawnTurn.call (turns : SpawnTurn settings db spawn db' spawn') :
    ∃ context, spawn'.call = { spawn.call with expectedContext := context } := by
  cases turns with
  | preflight => exact ⟨_, rfl⟩
  | reserve =>
    rw [Spawn.take]
    split <;> exact ⟨spawn.call.expectedContext, rfl⟩
  | _ => exact ⟨spawn.call.expectedContext, rfl⟩

theorem SpawnTurn.fits (turns : SpawnTurn settings db spawn db' spawn')
    (persists : ∀ row ∈ db.delegations, ∃ row' ∈ db'.delegations, row'.identity = row.identity)
    (hf : spawn.Fits db) : spawn'.Fits db' := by
  have later := hf.mono persists
  cases turns with
  | raise | lose | fail | failReservation | reconcile | unknown
  | enter => exact later.goesOn (by simp) (by simp [winning])
  | replayed phase agent hd =>
    obtain ⟨hm, parent, key, ha⟩ := existingSpawn_agrees agent hd
    refine ⟨later.artifacts, ?_, by simp [winning]⟩
    rintro _ ⟨⟩
    exact ⟨_, hm, rfl, parent, key, ha⟩
  | preflight phase hd =>
    refine ⟨fun made => ?_, by simp, by simp [winning]⟩
    obtain ⟨row, hm, own, parent, key, ha⟩ := later.artifacts made
    exact ⟨row, hm, own, parent, key, ha.request, ha.initiator⟩
  | @reserve _ _ row phase hd =>
    obtain ⟨hm, parent, key, ha⟩ := reserve_agrees hd
    rw [Spawn.take]
    split
    next =>
      refine ⟨later.artifacts, ?_, by simp [winning]⟩
      rintro _ ⟨⟩
      exact ⟨row, hm, rfl, parent, key, ha⟩
    next own =>
      refine ⟨fun _ => ⟨row, hm, ?_, parent, key, ha⟩, by simp, fun _ => rfl⟩
      exact not_not.mp (not_or.mp own).1
  | claim | snapshot => exact later
  | attach phase _ _ certain =>
    refine later.goesOn ?_ (fun _ => by rw [phase]; simp [winning])
    cases certain <;> simp
  | broken phase => exact later.goesOn (by simp) (fun _ => by rw [phase]; simp [winning])
  | finish phase =>
    refine ⟨later.artifacts, ?_, by simp [winning]⟩
    rintro _ ⟨⟩
    exact later.artifacts (later.winner (by rw [phase]; simp [winning]))

theorem retryCall_reservation {request : Request} {child key reservationId : Text}
    {body : RetryBody} {createdAt : Nat} {call : SpawnCall}
    (hm : retryCall settings request db child key body reservationId createdAt = .ok call) :
    call.reservationId = reservationId := by
  simp only [retryCall, steps_ok] at hm
  obtain ⟨-, _, -, -, rfl⟩ := hm
  rfl

theorem Spawns.Exact.enter (exact : s.Exact) {request : Request} {call : SpawnCall}
    (hf : s.unused call.reservationId) :
    Spawns.Exact ⟨s.db, s.spawns ++ [⟨request, call, .entered, false⟩]⟩ := by
  refine ⟨exact.kept, ?_, ?_⟩
  · rw [map_append]
    refine nodup_append.mpr ⟨exact.distinct, by simp, ?_⟩
    intro old hl new own
    obtain rfl : new = call.reservationId := by simpa using own
    rintro rfl
    exact hf hl
  · intro spawn hm
    rcases mem_append.mp hm with old | new
    · exact exact.fits spawn old
    · rw [mem_singleton.mp new]
      exact ⟨by simp, by simp, by simp [winning]⟩

theorem SpawnStep.exact (step : SpawnStep digest s t) (before : s.Exact) :
    t.Exact ∧
    ∀ row ∈ s.db.delegations, ∃ row' ∈ t.db.delegations, Persists digest s.db t.db row row' := by
  have hs : ∀ row ∈ s.db.delegations, ∃ row' ∈ s.db.delegations, Persists digest s.db s.db row row' :=
    fun row hm => ⟨row, hm, .refl⟩
  cases step with
  | spawn request call hf => exact ⟨before.enter hf, hs⟩
  | retry _ hf made =>
    rw [← retryCall_reservation made] at hf
    exact ⟨before.enter hf, hs⟩
  | @turn settings db db' front back spawn _ turns =>
    have tables : Kept db' ∧
        ∀ row ∈ db.delegations, ∃ row' ∈ db'.delegations, Persists digest db db' row row' := by
      have writes : db' = db ∨ Transaction digest settings db db' := turns.transaction
      rcases writes with rfl | writes
      · exact ⟨before.kept, hs⟩
      · exact ⟨writes.kept before.kept, fun row hm => writes.persists before.kept hm⟩
    obtain ⟨hk, persists⟩ := tables
    have identities : ∀ row ∈ db.delegations, ∃ row' ∈ db'.delegations, row'.identity = row.identity := by
      intro row hm
      obtain ⟨row', hl, same⟩ := persists row hm
      exact ⟨row', hl, same.identity⟩
    refine ⟨⟨hk, ?_, ?_⟩, persists⟩
    · obtain ⟨_, call⟩ := turns.call
      have hd := before.distinct
      simp only [map_append, map_cons] at hd ⊢
      rw [call]
      exact hd
    · intro other hm
      have others : other ∈ front ++ back → other.Fits db' := by
        intro old
        refine (before.fits other ?_).mono identities
        rcases mem_append.mp old with left | hr
        · exact mem_append_left _ left
        · exact mem_append_right _ (mem_cons_of_mem _ hr)
      rcases mem_append.mp hm with left | hr
      · exact others (mem_append_left _ left)
      · rcases mem_cons.mp hr with rfl | hr
        · exact turns.fits identities (before.fits spawn (by simp))
        · exact others (mem_append_right _ hr)
  | elsewhere writes =>
    refine ⟨⟨writes.kept before.kept, before.distinct, fun spawn hm => ?_⟩,
      fun row hm => writes.persists before.kept hm⟩
    refine (before.fits spawn hm).mono fun row hl => ?_
    obtain ⟨row', later, same⟩ := writes.persists before.kept hl
    exact ⟨row', later, same.identity⟩

theorem run_exact (run : ReflTransGen (SpawnStep digest) s t) (before : s.Exact) :
    t.Exact ∧
    ∀ row ∈ s.db.delegations, ∃ row' ∈ t.db.delegations, Persists digest s.db t.db row row' := by
  induction run with
  | refl => exact ⟨before, fun row hm => ⟨row, hm, .refl⟩⟩
  | tail _ step ih =>
    obtain ⟨middle, persists⟩ := ih
    obtain ⟨after, again⟩ := step.exact middle
    refine ⟨after, fun row hm => ?_⟩
    obtain ⟨row', hl, first⟩ := persists row hm
    obtain ⟨row'', later, second⟩ := again row' hl
    exact ⟨row'', later, first.trans second⟩

/-! ### Exactly once -/

structure Spawns.Fresh (s : Spawns) : Prop where
  none : s.db.delegations = []
  idle : s.spawns = []
  indexed : s.db.prompts.Indexed

theorem Spawns.Fresh.exact (hf : s.Fresh) : s.Exact := by
  refine ⟨⟨formed_of_nil hf.none, hf.indexed, ?_, ?_⟩, ?_, ?_⟩
  · simp [hf.none]
  · simp [hf.none]
  · simp [hf.idle]
  · simp [hf.idle]

/-- What an authorized call does when it finds the row of its key. -/
structure Decided (settings : Settings) (db : Database) (spawn : Spawn) (row : Delegation) : Prop where
  agreed : Agrees row spawn.call → reserve settings spawn.request db spawn.call = .ok (db, row) ∧
    ∀ caller ∈ spawn.call.caller, existingSpawn spawn.request db spawn.call caller = .ok (some row)
  refused : ¬ Agrees row spawn.call →
    ∀ normalized, spawn.call.body.normalized spawn.call.retryOf = .ok normalized →
    ∃ message, reserve settings spawn.request db spawn.call = .error (.conflict message) ∧
      ∀ caller ∈ spawn.call.caller,
        existingSpawn spawn.request db spawn.call caller = .error (.conflict message)

theorem Kept.delegationByKey (hk : Kept db) (hm : row ∈ db.delegations) :
    db.delegationByKey row.parentSessionId row.idempotencyKey = some row := by
  have hu := (find?_eq_some_iff (fun row : Delegation => (row.parentSessionId, row.idempotencyKey))
    (k := (row.parentSessionId, row.idempotencyKey)) hk.formed.keys).mpr ⟨hm, rfl⟩
  simpa [Database.delegationByKey] using hu

theorem Kept.decided (hk : Kept db) (hm : row ∈ db.delegations)
    (parent : row.parentSessionId = spawn.call.parentSessionId)
    (key : row.idempotencyKey = spawn.call.idempotencyKey)
    (authorized : authorizeSpawnParent settings spawn.request db spawn.call.parentSessionId
          spawn.call.caller = .ok ()) : Decided settings db spawn row := by
  have hf := hk.delegationByKey hm
  rw [parent, key] at hf
  have hr := reserve_stored authorized hf
  refine ⟨fun ha => ?_, fun differs normalized isIncoming => ?_⟩
  · have matched := assertSpawnReplayMatches_iff.2 ha
    refine ⟨by rw [hr, matched]; rfl, fun caller agent => ?_⟩
    rw [existingSpawn_stored agent authorized hf, matched]
    rfl
  · obtain ⟨_, isStored⟩ := hk.requests row hm
    obtain ⟨message, conflicts⟩ := assertSpawnReplayMatches_conflict isStored isIncoming differs
    refine ⟨message, by rw [hr, conflicts]; rfl, fun caller agent => ?_⟩
    rw [existingSpawn_stored agent authorized hf, conflicts]
    rfl

theorem Spawn.Owns.agrees (hk : Kept db) {id : Text} (owns : spawn.Owns db id)
    (hm : row ∈ db.delegations) (parent : row.parentSessionId = spawn.call.parentSessionId)
    (key : row.idempotencyKey = spawn.call.idempotencyKey) :
    row.id = id ∧ Agrees row spawn.call := by
  obtain ⟨own, hl, isId, ownParent, ownKey, ha⟩ := owns
  have hs : own = row := key_inj_of_nodup hk.formed.keys hl hm (by rw [parent, key, ownParent, ownKey])
  exact ⟨hs ▸ isId, hs ▸ ha⟩

theorem SpawnTurn.conflicting (turns : SpawnTurn settings db spawn db' spawn') (hk : Kept db)
    (hf : spawn.Fits db) (hm : row ∈ db.delegations)
    (parent : row.parentSessionId = spawn.call.parentSessionId)
    (key : row.idempotencyKey = spawn.call.idempotencyKey) (differs : ¬ Agrees row spawn.call)
    (later : spawn.phase ≠ .reconciling) : db' = db := by
  have loses : spawn.phase ∉ winning := fun won =>
    differs ((hf.artifacts (hf.winner won)).agrees hk hm parent key).2
  cases turns with
  | reconcile phase => exact absurd phase later
  | @reserve _ _ _ phase hd =>
    simp only [Threads.reserve, steps_ok] at hd
    obtain ⟨-, hd⟩ := hd
    rw [← parent, ← key, hk.delegationByKey hm] at hd
    simp only [steps_ok, Prod.mk.injEq] at hd
    exact hd.2.1.symm
  | claim phase | failReservation phase | attach phase
  | snapshot phase => exact absurd (by rw [phase]; simp [winning]) loses
  | _ => rfl

structure SpawnedOnce (digest : Text → Text) (s : Spawns) : Prop where
  keys : (s.db.delegations.map fun row => (row.parentSessionId, row.idempotencyKey)).Nodup
  artifacts : ∀ parent key, s.spawns.countP (fun spawn => spawn.call.parentSessionId = parent ∧
    spawn.call.idempotencyKey = key ∧ spawn.artifacts = true) ≤ 1
  initialRuns : ∀ row ∈ s.db.delegations, ∀ child key, row.childSessionId = some child →
    initialRunIdempotencyKey digest row.id = .ok key →
    s.db.runs.countP (fun run => run.sessionId = child ∧ run.idempotencyKey = key) ≤ 1
  decided : ∀ spawn ∈ s.spawns, ∀ row ∈ s.db.delegations,
    row.parentSessionId = spawn.call.parentSessionId →
    row.idempotencyKey = spawn.call.idempotencyKey →
    (∀ id, spawn.phase = .returned id → id = row.id ∧ Agrees row spawn.call) ∧
    (∀ settings, authorizeSpawnParent settings spawn.request s.db spawn.call.parentSessionId
        spawn.call.caller = .ok () → Decided settings s.db spawn row) ∧
    (¬ Agrees row spawn.call →
      spawn.artifacts = false ∧
      ∀ settings db' spawn',
        SpawnTurn settings s.db spawn db' spawn' → spawn.phase ≠ .reconciling → db' = s.db)
  owns : ∀ spawn ∈ s.spawns, ∀ id, spawn.phase = .returned id → spawn.Owns s.db id
  persists : ∀ t, ReflTransGen (SpawnStep digest) s t →
    ∀ row ∈ s.db.delegations, ∃ row' ∈ t.db.delegations,
      Persists digest s.db t.db row row' ∧
      (row.childSessionId ≠ none → ¬ ownedCleanup t.db row') ∧
      (ownedCleanup s.db row → row'.childSessionId = none)

/-- A key has one delegation, one call that creates its Git artifacts, one child and one initial
run, whatever becomes of the calls; a call that returns names the delegation of its key. -/
theorem spawn_exactly_once {first : Spawns} (fresh : first.Fresh)
    (run : ReflTransGen (SpawnStep digest) first s) : SpawnedOnce digest s := by
  obtain ⟨exact, -⟩ := run_exact run fresh.exact
  refine ⟨exact.kept.formed.keys, ?_, ?_, ?_, fun spawn hm => (exact.fits spawn hm).returned, ?_⟩
  · intro parent key
    by_cases some : ∃ spawn ∈ s.spawns, spawn.call.parentSessionId = parent ∧
        spawn.call.idempotencyKey = key ∧ spawn.artifacts = true
    · obtain ⟨winner, hl, isParent, isKey, made⟩ := some
      refine countP_le_one exact.distinct winner.call.reservationId fun other hm chosen => ?_
      simp only [decide_eq_true_eq] at chosen
      obtain ⟨row, hs, own, ofParent, ofKey, -⟩ := (exact.fits winner hl).artifacts made
      have owns := (exact.fits other hm).artifacts chosen.2.2
      rw [← own, ← (owns.agrees exact.kept hs (by rw [ofParent, isParent, chosen.1])
        (by rw [ofKey, isKey, chosen.2.1])).1]
    · rw [countP_eq_zero.mpr fun spawn hm chosen => some ⟨spawn, hm, of_decide_eq_true chosen⟩]
      exact Nat.zero_le 1
  · intro row hm child key ha _
    refine countP_le_one exact.kept.indexed.keys (child, key) fun run _ chosen => ?_
    simp only [decide_eq_true_eq] at chosen
    rw [chosen.1, chosen.2]
  · intro spawn hm row hs parent key
    have hf := exact.fits spawn hm
    refine ⟨fun id back => ?_, fun settings authorized => exact.kept.decided hs parent key authorized, ?_⟩
    · obtain ⟨same, hag⟩ := (hf.returned id back).agrees exact.kept hs parent key
      exact ⟨same.symm, hag⟩
    · intro differs
      refine ⟨?_,
        fun settings db' spawn' turns later =>
          turns.conflicting exact.kept hf hs parent key differs later⟩
      by_contra made
      exact differs ((hf.artifacts (by simpa using made)).agrees exact.kept hs parent key).2
  · intro _ rest row hm
    obtain ⟨-, persists⟩ := run_exact rest exact
    obtain ⟨row', hl, same⟩ := persists row hm
    refine ⟨row', hl, same, fun ha cleanup => ?_, fun cleanup => ?_⟩
    · obtain ⟨child, isChild⟩ := Option.ne_none_iff_exists'.mp ha
      cases (same.session child isChild).symm.trans cleanup.2.1
    · rw [(same.ended cleanup.2.2.2.1).2, cleanup.2.1]

end Invariant

/-! ### Two calls for one key -/

def sampleSpawn (call : SpawnCall) (phase : Phase) (artifacts : Bool) : Spawn := ⟨{}, call, phase, artifacts⟩

def repeatedCall : SpawnCall :=
  { sampleCall with reservationId := text "fedcba9876543210fedcba9876543210" }

def differentCall : SpawnCall :=
  { repeatedCall with body := { sampleBody with title := text "Rebuild" } }

theorem root_unspawned : Spawns.Fresh ⟨rootDatabase, []⟩ :=
  ⟨rfl, rfl, root_fresh.indexed⟩

theorem sample_reserves (db db' : Database) (spawns : List Spawn) (call : SpawnCall)
    (row : Delegation) (manual : call.caller = none)
    (hf : Spawns.unused ⟨db, spawns⟩ call.reservationId)
    (enters : (sampleSpawn call .entered false).enter {} db = .ok ())
    (hs : claimStaleProvisioning ((sampleSpawn call .reconciling false).guard {}) db
          (fun _ => false) (some call.parentSessionId) none = .ok (db, []))
    (hd : reserve {} {} db call = .ok (db', row)) :
    ReflTransGen (SpawnStep id) ⟨db, spawns⟩
      ⟨db', spawns ++ [(sampleSpawn call .reserving false).take row]⟩ := by
  have begun : SpawnStep id ⟨db, spawns⟩ ⟨db, spawns ++ [sampleSpawn call .entered false]⟩ :=
    .spawn {} call hf (by simp [manual])
  have entered : SpawnStep id ⟨db, spawns ++ [sampleSpawn call .entered false]⟩
      ⟨db, spawns ++ [sampleSpawn call .reconciling false]⟩ := .turn (.enter rfl manual enters)
  have reconciled : SpawnStep id ⟨db, spawns ++ [sampleSpawn call .reconciling false]⟩
      ⟨db, spawns ++ [sampleSpawn call .reserving false]⟩ := .turn (.reconcile rfl hs)
  have hr : SpawnStep id ⟨db, spawns ++ [sampleSpawn call .reserving false]⟩
      ⟨db', spawns ++ [(sampleSpawn call .reserving false).take row]⟩ := .turn (.reserve rfl hd)
  exact (((ReflTransGen.single begun).tail entered).tail reconciled).tail hr

theorem sample_replayed :
    ReflTransGen (SpawnStep id) ⟨rootDatabase, []⟩ ⟨reservedDatabase,
        [sampleSpawn sampleCall .provisioning true,
          sampleSpawn repeatedCall (.returned sampleReservation.id) false]⟩ := by
  have first := sample_reserves rootDatabase reservedDatabase [] sampleCall sampleReservation rfl
    (by simp [Spawns.unused]) (by decide) (by decide) (by decide)
  have second := sample_reserves reservedDatabase reservedDatabase [sampleSpawn sampleCall .provisioning true]
    repeatedCall sampleReservation rfl (by simp only [Spawns.unused]; decide) (by decide)
      (by decide) (by decide)
  exact first.trans second

theorem spawn_exactly_once_replayed :
    Spawns.Fresh ⟨rootDatabase, []⟩ ∧
    ∀ row ∈ reservedDatabase.delegations, row.parentSessionId = text "root" →
      row.idempotencyKey = text "key" →
      sampleReservation.id = row.id ∧ Agrees row repeatedCall := by
  refine ⟨root_unspawned, fun row hm parent key => ?_⟩
  obtain ⟨-, -, -, calls, -⟩ := spawn_exactly_once root_unspawned sample_replayed
  exact (calls (sampleSpawn repeatedCall (.returned sampleReservation.id) false) (by simp) row hm
    parent key).1
    _ rfl

/-- A call in conflict interrupts a stale reservation before it raises. -/
theorem conflicting_call_writes :
    ∃ s : Spawns, ReflTransGen (SpawnStep id) ⟨rootDatabase, []⟩ s ∧
      ∃ spawn ∈ s.spawns, spawn.phase = .entered ∧
        (∃ row ∈ s.db.delegations, row.parentSessionId = spawn.call.parentSessionId ∧
          row.idempotencyKey = spawn.call.idempotencyKey ∧
          row.normalized ≠ spawn.call.body.normalized spawn.call.retryOf) ∧
        ∃ db' spawn' message, ReflTransGen
              (fun a b : Database × Spawn => SpawnTurn {} a.1 a.2 b.1 b.2) (s.db, spawn)
              (db', spawn') ∧ spawn'.phase = .raised (.conflict message) ∧ db' ≠ s.db := by
  have begun : ReflTransGen (SpawnStep id) ⟨rootDatabase, []⟩
      ⟨reservedDatabase, [sampleSpawn differentCall .entered false]⟩ := by
    have hr : SpawnStep id ⟨rootDatabase, []⟩ ⟨reservedDatabase, []⟩ := .elsewhere sample_reserved
    refine (ReflTransGen.single hr).tail ?_
    exact .spawn {} differentCall (by simp [Spawns.unused])
      (by simp [differentCall, repeatedCall, sampleCall])
  have entered : SpawnTurn {} reservedDatabase (sampleSpawn differentCall .entered false) reservedDatabase
      (sampleSpawn differentCall .reconciling false) := .enter rfl rfl (by decide)
  have interrupts : claimStaleProvisioning ((sampleSpawn differentCall .reconciling false).guard {})
      reservedDatabase (fun _ => true) (some (text "root")) none =
        .ok (staleDatabase, [sampleReservation.id]) := by
    decide
  have reconciled : SpawnTurn {} reservedDatabase (sampleSpawn differentCall .reconciling false) staleDatabase
      (sampleSpawn differentCall .reserving false) := .reconcile rfl interrupts
  have refuses : reserve {} {} staleDatabase differentCall =
      .error (.conflict "idempotency key was already used with a different request") := by decide
  have raised : SpawnTurn {} staleDatabase
      (sampleSpawn differentCall .reserving false) staleDatabase (sampleSpawn differentCall
        (.raised (.conflict "idempotency key was already used with a different request")) false) :=
    .raise (.inr (.inr (.inr (.inr ⟨rfl, refuses⟩))))
  have turns : ReflTransGen (fun a b : Database × Spawn => SpawnTurn {} a.1 a.2 b.1 b.2)
      (reservedDatabase, sampleSpawn differentCall .entered false) (staleDatabase, sampleSpawn differentCall
        (.raised (.conflict "idempotency key was already used with a different request")) false) :=
    .head (b := (reservedDatabase, sampleSpawn differentCall .reconciling false)) entered
      (.head (b := (staleDatabase, sampleSpawn differentCall .reserving false)) reconciled (.single raised))
  exact ⟨_, begun, sampleSpawn differentCall .entered false, by simp, rfl,
    ⟨sampleReservation, by decide, rfl, rfl, by decide⟩, staleDatabase, _, _, turns, rfl, by decide⟩

end Yinshi.Threads
