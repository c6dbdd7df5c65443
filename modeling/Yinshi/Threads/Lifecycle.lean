import Yinshi.Threads.Results
import Yinshi.Threads.Runs

/-! What the transactions of the service and of the prompt journal do to the delegations, in
any interleaving. Every transaction rewrites the rows in place and adds at most one
reservation; the status machine of a delegation is read off the rewrites. -/

namespace Yinshi.Threads
open ByteText Keyed Checked Runs Relation List Option

/-! ### Transactions -/

inductive Plain (digest : Text → Text) (settings : Settings) : Database → Database → Prop
  | reserve {db db' : Database} (request : Request) (call : SpawnCall) {row : Delegation}
      (done : reserve settings request db call = .ok (db', row)) : Plain digest settings db db'
  | claimGitArtifacts {db db' : Database} (request : Request)
      (parentSessionId reservationId gitSpace : Text) (caller : Option Caller)
      (done : claimGitArtifacts settings request db parentSessionId reservationId gitSpace caller = .ok db') :
      Plain digest settings db db'
  | recordSnapshotIntent {db db' : Database} (request : Request) (context : ParentContext)
      (parentSessionId reservationId gitSpace ref oid : Text) (caller : Option Caller)
      (done : recordSnapshotIntent settings request db context parentSessionId reservationId gitSpace ref oid
        caller = .ok db') : Plain digest settings db db'
  | attach {db db' : Database} (attachment : Attachment) (done : attach db attachment = .ok db') :
      Plain digest settings db db'
  | failReservation (db : Database) (delegationId : Text) :
      Plain digest settings db (failReservation db delegationId)
  | claimProvisioningCancel (db : Database) (delegationId : Text) :
      Plain digest settings db (claimProvisioningCancel db delegationId).1
  | claimStaleProvisioning {db db' : Database} (guard : Guard) (stale : Delegation → Bool)
      (parentSessionId : Option Text) (delegationIds : Option (List Text)) {claimed : List Text}
      (done : claimStaleProvisioning guard db stale parentSessionId delegationIds = .ok (db', claimed)) :
      Plain digest settings db db'
  | releaseCleanup {db db' : Database} (guard : Guard) (original : Delegation)
      (done : releaseCleanup guard db original = .ok db') : Plain digest settings db db'
  | cancelQueued (db : Database) (delegationId : Text) :
      Plain digest settings db (cancelQueued db delegationId)
  | markRunning {db db' : Database} (guard : Guard) (delegationId : Text)
      (done : markRunning guard db delegationId = .ok db') : Plain digest settings db db'
  | failQueuedStart {db db' : Database} (guard : Guard) (delegationId : Text)
      (done : failQueuedStart guard db delegationId = .ok db') : Plain digest settings db db'
  | claimCancelling (db : Database) (delegationId : Text) :
      Plain digest settings db (claimCancelling db delegationId).1
  | claimCancelTargets {db db' : Database} (request : Request) (threadId : Text)
      (caller : Option Caller) (cascade : Bool) {targets : List Delegation}
      (done : claimCancelTargets settings request db threadId caller cascade = .ok (db', targets)) :
      Plain digest settings db db'
  | clearCancelClaims {db db' : Database} (targets : List Delegation)
      (done : clearCancelClaims digest db targets = .ok db') : Plain digest settings db db'
  | recordFinalizationFailure {db db' : Database} (request : Request) (guard : Guard) (intent : SealIntent)
      (done : recordFinalizationFailure settings request guard db intent = .ok db') :
      Plain digest settings db db'

/-- One committed transaction, with any arguments. A cancellation adopts the status of a run. -/
inductive Transaction (digest : Text → Text) (settings : Settings) : Database → Database → Prop
  | plain {db db' : Database} (step : Plain digest settings db db') : Transaction digest settings db db'
  | prepareTerminalResult {db db' : Database} (request : Request) (guard : Guard)
      (childSessionId runId summary : Text) {intent : Option SealIntent}
      (done : prepareTerminalResult digest request guard db childSessionId runId summary =
          .ok (db', intent)) :
      Transaction digest settings db db'
  | commitSeal {db db' : Database} (request : Request) (guard : Guard) (intent : SealIntent)
      (finalized : Finalized) {row : ResultRow}
      (done : commitSeal digest settings request guard db intent finalized = .ok (db', row)) :
      Transaction digest settings db db'
  | reportResult {db db' : Database} (request : Request) (childSessionId : Text) (body : ReportBody)
      {reported : Reported} (done : reportResult request db childSessionId body = .ok (db', reported)) :
      Transaction digest settings db db'
  | reportAgentResult {db db' : Database} (request : Request) (caller : Caller) (body : ReportBody)
      {reported : Reported}
      (done : reportAgentResult digest settings request db caller body = .ok (db', reported)) :
      Transaction digest settings db db'
  | acceptInitialRun {db db' : Database} (guard : Guard) (delegationId childSessionId runId : Text)
      {run : Prompt.PromptRun}
      (done : acceptInitialRun digest settings guard db delegationId childSessionId runId = .ok (db', run)) :
      Transaction digest settings db db'
  | adoptTerminalCancellation (db : Database) (delegationId : Text) {runStatus : Prompt.Status}
      {target : Status} (adopted : runStatusToDelegationStatus runStatus = some target) :
      Transaction digest settings db (adoptTerminalCancellation db delegationId target)
  | prompt {db : Database} {prompts : Prompt.Database} (writes : db.prompts.Writes prompts) :
      Transaction digest settings db (db.withPrompts prompts)

/-! ### Rewrites -/

structure Identity where
  id : Text
  parentSessionId : Text
  idempotencyKey : Text
  initiator : Initiator
  delegatedByRunId : Option Text
  delegatedByToolCallId : Option Text
  request : Except ThreadError Normalized
  autoStart : Bool

def Delegation.identity (row : Delegation) : Identity where
  id := row.id
  parentSessionId := row.parentSessionId
  idempotencyKey := row.idempotencyKey
  initiator := row.initiator
  delegatedByRunId := row.delegatedByRunId
  delegatedByToolCallId := row.delegatedByToolCallId
  request := row.normalized
  autoStart := row.autoStart

structure Delegation.Keeps (row row' : Delegation) : Prop where
  identity : row'.identity = row.identity
  session : row'.childSessionId = row.childSessionId
  workspace : row'.childWorkspaceId = row.childWorkspaceId
  scope : row'.cancelScope = row.cancelScope

/-- The statuses a row may be moved to, with what the update checked; `adopting` says that the
transaction adopts the status of a cancelled run. -/
inductive Delegation.Moves (digest : Text → Text) (db : Database) (adopting : Prop)
    (row : Delegation) : Status → Prop
  | provisionFailed (was : row.status = .provisioning) (bare : row.childSessionId = none) :
      Moves digest db adopting row .failed
  | provisionCancelled (was : row.status = .provisioning) : Moves digest db adopting row .cancelled
  | provisionStale (was : row.status = .provisioning) (bare : row.childSessionId = none) :
      Moves digest db adopting row .interrupted
  | queueCancelled (was : row.status = .queued) : Moves digest db adopting row .cancelled
  | started (was : row.status = .queued) : Moves digest db adopting row .running
  | startFailed (was : row.status = .queued) : Moves digest db adopting row .failed
  | cancelling (was : row.status = .running) : Moves digest db adopting row .cancelling
  | adopted {runStatus : Prompt.Status} {target : Status} (allowed : adopting)
      (was : row.status = .cancelling)
          (adopted : runStatusToDelegationStatus runStatus = some target) :
        Moves digest db adopting row target
  | observed {run : Prompt.PromptRun} {target : Status} (was : row.status ∉ terminalStatuses)
      (found : initialRun digest db row = .ok (some run))
      (adopted : runStatusToDelegationStatus run.status = some target) : Moves digest db adopting row target

inductive Rewrite (digest : Text → Text) (db : Database) (adopting : Prop)
    (attachment : Option (Text × Text)) (row : Delegation) : Delegation → Prop
  | kept {row' : Delegation} (keeps : row.Keeps row') (status : row'.status = row.status) :
      Rewrite digest db adopting attachment row row'
  | moved {row' : Delegation} (keeps : row.Keeps row') (moves : row.Moves digest db adopting row'.status) :
      Rewrite digest db adopting attachment row row'
  | rescoped (scope : Option CancelScope) :
    Rewrite digest db adopting attachment row { row with cancelScope := scope }
  | attached {row' : Delegation} {child : Text} (attaches : attachment = some (row.id, child))
      (identity : row'.identity = row.identity) (was : row.status = .provisioning)
      (status : row'.status = .queued) (session : row'.childSessionId = some child)
      (workspace : row'.childWorkspaceId.isSome) (scope : row'.cancelScope = row.cancelScope) :
      Rewrite digest db adopting attachment row row'

structure Reserved (db : Database) (row : Delegation) : Prop where
  status : row.status = .provisioning
  session : row.childSessionId = none
  workspace : row.childWorkspaceId = none
  scope : row.cancelScope = none
  newId : db.delegationById row.id = none
  newKey : db.delegationByKey row.parentSessionId row.idempotencyKey = none
  parent : (db.sessionById row.parentSessionId).isSome
  request : ∃ normalized, row.normalized = .ok normalized

def SessionsAfter (db db' : Database) : Option (Text × Text) → Prop
  | none => db'.sessions = db.sessions
  | some (_, child) => db.sessionById child = none ∧
      (∃ row ∈ db'.delegations, row.childSessionId = some child) ∧
      ∃ session, session.id = child ∧ db'.sessions = db.sessions ++ [session]

structure Rewritten (digest : Text → Text) (adopting : Prop) (db db' : Database)
    (attachment : Option (Text × Text)) (front new : List Delegation) : Prop where
  rows : db'.delegations = front ++ new
  each : List.Forall₂ (Rewrite digest db adopting attachment) db.delegations front
  added : new = [] ∨ ∃ row, new = [row] ∧ Reserved db row
  sessions : SessionsAfter db db' attachment
  runs : RunsAdvance db.runs db'.runs

def Explained (digest : Text → Text) (adopting : Prop) (db db' : Database) : Prop :=
  ∃ attachment front new, Rewritten digest adopting db db' attachment front new

structure Beside (db db' : Database) : Prop where
  delegations : db'.delegations = db.delegations
  sessions : db'.sessions = db.sessions
  runs : RunsAdvance db.runs db'.runs

structure Aside (db db' : Database) : Prop where
  runs : db'.runs = db.runs
  events : db'.events = db.events
  results : db'.results = db.results
  reportCalls : db'.reportCalls = db.reportCalls

section Rewrites
variable {digest : Text → Text} {adopting : Prop} {db db' : Database} {row row' : Delegation}
  {settings : Settings}
variable {request : Request} {child : Text} {guard : Guard} {body : ReportBody} {reported : Reported}

theorem Delegation.Keeps.refl (row : Delegation) : row.Keeps row := ⟨rfl, rfl, rfl, rfl⟩

theorem Rewrite.refl {attachment : Option (Text × Text)} (row : Delegation) :
    Rewrite digest db adopting attachment row row := .kept (.refl row) rfl

theorem Beside.refl (db : Database) : Beside db db := ⟨rfl, rfl, .refl _⟩

theorem Explained.inPlace (sessions : db'.sessions = db.sessions)
    (runs : RunsAdvance db.runs db'.runs)
    (each : List.Forall₂ (Rewrite digest db adopting none) db.delegations db'.delegations) :
    Explained digest adopting db db' :=
  ⟨none, db'.delegations, [], (append_nil _).symm, each, .inl rfl, sessions, runs⟩

theorem Beside.explained (beside : Beside db db') : Explained digest adopting db db' := by
  refine .inPlace beside.sessions beside.runs ?_
  rw [beside.delegations]
  exact forall₂_same.mpr fun row _ => .refl row

theorem forall₂_update {attachment : Option (Text × Text)} {selected : Delegation → Prop}
    [DecidablePred selected] {write : Delegation → Delegation}
    (each : ∀ row ∈ db.delegations,
        selected row → Rewrite digest db adopting attachment row (write row)) :
    List.Forall₂ (Rewrite digest db adopting attachment) db.delegations
      (db.updateDelegations selected write).delegations := by
  refine forall₂_map_right_iff.mpr (forall₂_same.mpr fun row hm => ?_)
  split
  next chosen => exact each row hm chosen
  next => exact .refl row

theorem Explained.update {db₀ : Database} (beside : Beside db db₀) {selected : Delegation → Prop}
    [DecidablePred selected] {write : Delegation → Delegation}
    (each :
      ∀ row ∈ db.delegations, selected row → Rewrite digest db adopting none row (write row)) :
    Explained digest adopting db (db₀.updateDelegations selected write) := by
  refine .inPlace beside.sessions beside.runs ?_
  rw [Database.updateDelegations, beside.delegations]
  exact forall₂_update each

theorem loadChildDelegation_mem (loaded : loadChildDelegation request db child = .ok row) :
    row ∈ db.delegations ∧ row.childSessionId = some child := by
  simp only [loadChildDelegation, steps_ok] at loaded
  exact ⟨mem_of_find?_eq_some loaded.2, by simpa using find?_some loaded.2⟩

theorem reserve_cases {call : SpawnCall} (hd : reserve settings request db call = .ok (db', row)) :
    db' = db ∨
    admitSpawn settings request db call = .ok () ∧ Reserved db row ∧
    db' = { db with delegations := db.delegations ++ [row] } ∧
    ∃ model, row =
        call.body.reservation call.reservationId call.createdAt call.parentSessionId
          call.idempotencyKey call.retryOf call.caller model := by
  simp only [reserve, steps_ok] at hd
  obtain ⟨-, hd⟩ := hd
  split at hd
  next =>
    simp only [steps_ok, Prod.mk.injEq] at hd
    exact .inl hd.2.1.symm
  next =>
    simp only [steps_ok, Prod.mk.injEq] at hd
    obtain ⟨admitted, model, normal, _, insert, rfl, rfl⟩ := hd
    rw [insertDelegation] at insert
    split at insert
    next => simp at insert
    next hf =>
      cases insert
      simp only [not_or, Bool.not_eq_true, isSome_eq_false_iff, isNone_iff_eq_none] at hf
      have request : ∃ normalized, call.body.normalized call.retryOf = .ok normalized := by
        simp only [Body.normalized, normal]
        exact ⟨_, rfl⟩
      rw [← reservation_normalized normal] at request
      exact .inr ⟨admitted, ⟨rfl, rfl, rfl, rfl, hf.1, hf.2.1, isSome_iff_ne_none.mpr hf.2.2.1,
        request⟩, rfl, model, rfl⟩

theorem reserve_explained {call : SpawnCall}
    (hd : reserve settings request db call = .ok (db', row)) :
    Explained digest adopting db db' ∧ Aside db db' := by
  rcases reserve_cases hd with rfl | ⟨-, hr, rfl, -⟩
  · exact ⟨Beside.explained ⟨rfl, rfl, .refl _⟩, rfl, rfl, rfl, rfl⟩
  · exact ⟨⟨none, db.delegations, [row], rfl, forall₂_same.mpr fun row _ => .refl row,
      .inr ⟨row, rfl, hr⟩, rfl, .refl _⟩, rfl, rfl, rfl, rfl⟩

theorem attach_explained {attachment : Attachment} (hd : attach db attachment = .ok db') :
    Explained digest adopting db db' ∧ Aside db db' := by
  simp only [attach, steps_ok] at hd
  obtain ⟨hf, hc, rfl⟩ := hd
  simp only [not_or, Bool.not_eq_true, isSome_eq_false_iff, isNone_iff_eq_none] at hf
  obtain ⟨row, member, chosen⟩ : ∃ row ∈ db.delegations,
      row.id = attachment.delegationId ∧ row.status = .provisioning := by
    have some := countP_pos_iff.mp (Nat.lt_of_lt_of_eq Nat.zero_lt_one (not_not.mp hc).symm)
    simpa using some
  refine ⟨⟨some (attachment.delegationId, attachment.session.id), _, [], (append_nil _).symm,
    forall₂_update fun row _ chosen => ?_, .inl rfl, ⟨hf.2.1, ?_, attachment.session, rfl, rfl⟩, .refl _⟩,
    rfl, rfl, rfl, rfl⟩
  · exact .attached (by rw [chosen.1]) rfl chosen.2 rfl rfl rfl rfl
  · exact ⟨_, mem_map_of_mem member, by rw [if_pos chosen]⟩

/-! ### Claims -/

structure ScopesOnly (db db' : Database) : Prop where
  rows : List.Forall₂ (fun row row' : Delegation => ∃ scope, row' = { row with cancelScope := scope })
    db.delegations db'.delegations
  rest : db' = { db with delegations := db'.delegations }

theorem ScopesOnly.refl (db : Database) : ScopesOnly db db :=
  ⟨forall₂_same.mpr fun row _ => ⟨row.cancelScope, rfl⟩, rfl⟩

theorem ScopesOnly.trans {db'' : Database} (first : ScopesOnly db db')
    (second : ScopesOnly db' db'') : ScopesOnly db db'' := by
  refine ⟨?_, second.rest.trans (by rw [first.rest])⟩
  have compose : ∀ {rows rows' rows'' : List Delegation},
      Forall₂ (fun row row' : Delegation => ∃ scope, row' = { row with cancelScope := scope }) rows rows' →
      Forall₂ (fun row row' : Delegation => ∃ scope, row' = { row with cancelScope := scope }) rows' rows'' →
      Forall₂ (fun row row' : Delegation => ∃ scope, row' = { row with cancelScope := scope }) rows
        rows'' := by
    intro _ _ rows'' front back
    induction front generalizing rows'' with
    | nil => exact back
    | cons hh _ ih =>
      cases back with
      | cons ht rest =>
        obtain ⟨_, rfl⟩ := hh
        obtain ⟨scope, rfl⟩ := ht
        exact .cons ⟨scope, rfl⟩ (ih rest)
  exact compose first.rows second.rows

theorem ScopesOnly.update (selected : Delegation → Prop) [DecidablePred selected]
    (scope : Delegation → Option CancelScope) :
    ScopesOnly db
      (db.updateDelegations selected fun row => { row with cancelScope := scope row }) := by
  refine ⟨forall₂_map_right_iff.mpr (forall₂_same.mpr fun row _ => ?_), rfl⟩
  split
  · exact ⟨scope row, rfl⟩
  · exact ⟨row.cancelScope, rfl⟩

theorem ScopesOnly.foldl {α : Type} {write : Database → α → Database}
    (each : ∀ db entry, ScopesOnly db (write db entry)) (entries : List α) (db : Database) :
    ScopesOnly db (entries.foldl write db) := by
  induction entries generalizing db with
  | nil => exact .refl _
  | cons entry _ ih => exact (each db entry).trans (ih _)

theorem claimCancelTargets_scopes {threadId : Text} {caller : Option Caller} {cascade : Bool}
    {targets : List Delegation}
    (hd : claimCancelTargets settings request db threadId caller cascade = .ok (db', targets)) :
    ScopesOnly db db' := by
  simp only [claimCancelTargets, steps_ok, Prod.mk.injEq] at hd
  obtain ⟨_, -, rfl, -⟩ := hd
  exact .foldl (fun _ _ => .update _ _) _ _

theorem clearCancelClaims_scopes {targets : List Delegation}
    (hd : clearCancelClaims digest db targets = .ok db') : ScopesOnly db db' := by
  simp only [clearCancelClaims, steps_ok] at hd
  obtain ⟨_, -, rfl⟩ := hd
  refine .foldl (fun db row => ?_) _ _
  split
  · exact .update _ fun _ => none
  · exact .refl _

theorem ScopesOnly.explained (scopes : ScopesOnly db db') : Explained digest adopting db db' := by
  refine .inPlace (by rw [scopes.rest]) (.of_eq (by rw [scopes.rest])) (scopes.rows.imp ?_)
  rintro _ _ ⟨scope, rfl⟩
  exact .rescoped scope

theorem ScopesOnly.aside (scopes : ScopesOnly db db') : Aside db db' := by
  rw [scopes.rest]
  exact ⟨rfl, rfl, rfl, rfl⟩

/-! ### Results -/

theorem validateSealIdentity_row {intent : SealIntent} {owned : Bool}
    (hv : validateSealIdentity settings request guard db intent owned = .ok ()) :
    ∃ row ∈ db.delegations, row.id = intent.delegationId ∧ row.status ∈ terminalStatuses := by
  simp only [validateSealIdentity, steps_ok, not_or, not_not] at hv
  obtain ⟨-, -, row, read, -, hs, -⟩ := hv
  exact ⟨row, (loadChildDelegation_mem read).1, hs.1, hs.2.2.2.2.2.2⟩

theorem commitSeal_explained {intent : SealIntent} {finalized : Finalized} {result : ResultRow}
    (ids : (db.delegations.map (·.id)).Nodup)
    (hd : commitSeal digest settings request guard db intent finalized = .ok (db', result)) :
    Explained digest adopting db db' ∧ db'.runs = db.runs := by
  simp only [commitSeal, steps_ok] at hd
  obtain ⟨hv, -, result, -, hd⟩ := hd
  obtain ⟨_, hm, hs, hc⟩ := validateSealIdentity_row hv
  split at hd
  next =>
    simp only [steps_ok, Prod.mk.injEq] at hd
    rw [← hd.2.1]
    exact ⟨Beside.explained ⟨rfl, rfl, .refl _⟩, rfl⟩
  next =>
    simp only [steps_ok, Prod.mk.injEq] at hd
    obtain ⟨-, rfl, -⟩ := hd
    split
    next => exact ⟨Beside.explained ⟨rfl, rfl, .refl _⟩, rfl⟩
    next =>
      have beside : Beside db (db.updateResult intent.delegationId result.version (·.sealWith finalized)) :=
        ⟨rfl, rfl, .refl _⟩
      refine ⟨.update beside fun row hl chosen => ?_, rfl⟩
      obtain rfl := key_inj_of_nodup ids hl hm (chosen.trans hs.symm)
      exact .kept ⟨rfl, rfl, rfl, rfl⟩ (if_pos hc)

theorem prepareTerminalResult_explained {runId summary : Text} {intent : Option SealIntent}
    (ids : (db.delegations.map (·.id)).Nodup)
    (hd : prepareTerminalResult digest request guard db child runId summary = .ok (db', intent)) :
    Explained digest adopting db db' ∧ db'.runs = db.runs := by
  simp only [prepareTerminalResult, steps_ok] at hd
  obtain ⟨-, hd⟩ := hd
  split at hd
  next =>
    simp only [pure_eq_ok, Prod.mk.injEq] at hd
    rw [← hd.1]
    exact ⟨Beside.explained ⟨rfl, rfl, .refl _⟩, rfl⟩
  next row hf =>
    have hm : row ∈ db.delegations := mem_of_find?_eq_some hf
    have ha : row.childSessionId = some child := by simpa using find?_some hf
    simp only [bind_eq_ok] at hd
    obtain ⟨key, keyed, hd⟩ := hd
    split at hd
    next =>
      simp only [pure_eq_ok, Prod.mk.injEq] at hd
      rw [← hd.1]
      exact ⟨Beside.explained ⟨rfl, rfl, .refl _⟩, rfl⟩
    next target adopted =>
      obtain ⟨run, hl, adopted⟩ := bind_eq_some_iff.mp adopted
      have run_found : initialRun digest db row = .ok (some run) := by
        simp only [initialRun, steps_ok]
        exact ⟨key, keyed, by rw [ha]; exact (filter_eq_some_iff.mp hl).1⟩
      rw [adoptRun] at hd
      split at hd
      next =>
        simp only [Except.ok.injEq, Prod.mk.injEq] at hd
        rw [← hd.1]
        exact ⟨Beside.explained ⟨rfl, rfl, .refl _⟩, rfl⟩
      next =>
        simp only [steps_ok, Prod.mk.injEq] at hd
        obtain ⟨_, -, rfl, -⟩ := hd
        refine ⟨.update ⟨by split <;> rfl, by split <;> rfl, .of_eq (by split <;> rfl)⟩
          fun other hl chosen => ?_, by split <;> rfl⟩
        obtain rfl := key_inj_of_nodup ids hl hm chosen
        by_cases terminal : other.status ∈ terminalStatuses
        · exact .kept ⟨rfl, rfl, rfl, rfl⟩ (if_pos terminal)
        · refine .moved ⟨rfl, rfl, rfl, rfl⟩ ?_
          rw [show adoptedStatus other.status target = target from if_neg terminal]
          exact .observed terminal run_found adopted

theorem writeReport_beside {delegationId : Text}
    (hd : writeReport db delegationId body = .ok (db', reported)) :
    Beside db db' ∧ db'.runs = db.runs := by
  rw [writeReport] at hd
  split at hd
  next =>
    simp only [steps_ok, Prod.mk.injEq] at hd
    obtain ⟨-, rfl, -⟩ := hd
    exact ⟨⟨rfl, rfl, .refl _⟩, rfl⟩
  next =>
    simp only [steps_ok] at hd
    obtain ⟨-, hd⟩ := hd
    split at hd
    next =>
      simp only [steps_ok, Prod.mk.injEq] at hd
      obtain ⟨-, rfl, -⟩ := hd
      exact ⟨⟨rfl, rfl, .refl _⟩, rfl⟩
    next =>
      obtain ⟨rfl, -⟩ := hd
      exact ⟨⟨rfl, rfl, .refl _⟩, rfl⟩

theorem reportResult_beside (hd : reportResult request db child body = .ok (db', reported)) :
    Beside db db' ∧ db'.runs = db.runs := by
  simp only [reportResult, bind_eq_ok] at hd
  obtain ⟨_, -, hd⟩ := hd
  exact writeReport_beside hd

theorem reportAgentResult_beside {caller : Caller}
    (hd : reportAgentResult digest settings request db caller body = .ok (db', reported)) :
    Beside db db' ∧ db'.runs = db.runs := by
  simp only [reportAgentResult, steps_ok] at hd
  obtain ⟨-, _, -, _, -, -, hd⟩ := hd
  split at hd
  next =>
    simp only [steps_ok, Prod.mk.injEq] at hd
    obtain ⟨-, rfl, -⟩ := hd
    exact ⟨⟨rfl, rfl, .refl _⟩, rfl⟩
  next =>
    simp only [steps_ok, Prod.mk.injEq, recordReportCall] at hd
    obtain ⟨_, wrote, _, ⟨-, rfl⟩, rfl, -⟩ := hd
    obtain ⟨beside, runs⟩ := writeReport_beside wrote
    exact ⟨⟨beside.delegations, beside.sessions, beside.runs⟩, runs⟩

theorem acceptInitialRun_beside {delegationId runId : Text} {run : Prompt.PromptRun}
    (hd : acceptInitialRun digest settings guard db delegationId child runId = .ok (db', run)) :
    Beside db db' := by
  simp only [acceptInitialRun, bind_eq_ok] at hd
  obtain ⟨_, -, hd⟩ := hd
  split at hd
  next =>
    obtain ⟨rfl, -⟩ := hd
    exact ⟨rfl, rfl, .refl _⟩
  next =>
    simp only [bind_eq_ok, orRaise_eq_ok, pure_eq_ok, Prod.mk.injEq] at hd
    obtain ⟨_, -, _, inserted, rfl, -⟩ := hd
    exact ⟨rfl, rfl, writes_advance (.inserted inserted)⟩

theorem Plain.explained (step : Plain digest settings db db') :
    Explained digest adopting db db' ∧ Aside db db' := by
  cases step with
  | reserve request _ hd => exact reserve_explained hd
  | claimGitArtifacts request parentSessionId _ _ caller hd =>
    simp only [Threads.claimGitArtifacts, steps_ok] at hd
    obtain ⟨-, -, _, -, -, -, -, rfl⟩ := hd
    exact ⟨.update (.refl _) fun row _ _ => .kept ⟨rfl, rfl, rfl, rfl⟩ rfl, rfl, rfl, rfl, rfl⟩
  | recordSnapshotIntent request _ _ _ _ _ _ _ hd =>
    simp only [Threads.recordSnapshotIntent, steps_ok] at hd
    obtain ⟨-, -, -, _, -, -, _, -, -, -, -, rfl⟩ := hd
    exact ⟨.update (.refl _) fun row _ _ => .kept ⟨rfl, rfl, rfl, rfl⟩ rfl, rfl, rfl, rfl, rfl⟩
  | attach _ hd => exact attach_explained hd
  | failReservation delegationId =>
    refine ⟨.update (.refl _) fun row _ chosen => ?_, rfl, rfl, rfl, rfl⟩
    exact .moved ⟨rfl, rfl, rfl, rfl⟩ (.provisionFailed chosen.2.1 chosen.2.2.1)
  | claimProvisioningCancel delegationId =>
    refine ⟨.update (.refl _) fun row _ chosen => ?_, rfl, rfl, rfl, rfl⟩
    exact .moved ⟨rfl, rfl, rfl, rfl⟩ (.provisionCancelled chosen.2)
  | claimStaleProvisioning guard _ _ _ hd =>
    simp only [Threads.claimStaleProvisioning, steps_ok, Prod.mk.injEq] at hd
    obtain ⟨-, rfl, -⟩ := hd
    refine ⟨.update (.refl _) fun row _ chosen => ?_, rfl, rfl, rfl, rfl⟩
    exact .moved ⟨rfl, rfl, rfl, rfl⟩ (.provisionStale chosen.1 chosen.2.1)
  | releaseCleanup guard _ hd =>
    simp only [Threads.releaseCleanup, steps_ok] at hd
    obtain ⟨-, _, -, -, rfl⟩ := hd
    exact ⟨.update (.refl _) fun row _ _ => .kept ⟨rfl, rfl, rfl, rfl⟩ rfl, rfl, rfl, rfl, rfl⟩
  | cancelQueued delegationId =>
    refine ⟨.update (.refl _) fun row _ chosen => ?_, rfl, rfl, rfl, rfl⟩
    exact .moved ⟨rfl, rfl, rfl, rfl⟩ (.queueCancelled chosen.2)
  | markRunning guard delegationId hd =>
    simp only [Threads.markRunning, steps_ok] at hd
    obtain ⟨-, rfl⟩ := hd
    refine ⟨.update (.refl _) fun row _ chosen => ?_, rfl, rfl, rfl, rfl⟩
    exact .moved ⟨rfl, rfl, rfl, rfl⟩ (.started chosen.2)
  | failQueuedStart _ _ hd =>
    simp only [Threads.failQueuedStart, steps_ok] at hd
    obtain ⟨-, rfl⟩ := hd
    refine ⟨.update (.refl _) fun row _ chosen => ?_, rfl, rfl, rfl, rfl⟩
    exact .moved ⟨rfl, rfl, rfl, rfl⟩ (.startFailed chosen.2)
  | claimCancelling _ =>
    refine ⟨.update (.refl _) fun row _ chosen => ?_, rfl, rfl, rfl, rfl⟩
    exact .moved ⟨rfl, rfl, rfl, rfl⟩ (.cancelling chosen.2)
  | claimCancelTargets _ _ _ _ hd =>
    have scopes := claimCancelTargets_scopes hd
    exact ⟨scopes.explained, scopes.aside⟩
  | clearCancelClaims _ hd =>
    have scopes := clearCancelClaims_scopes hd
    exact ⟨scopes.explained, scopes.aside⟩
  | recordFinalizationFailure _ _ _ hd =>
    simp only [Threads.recordFinalizationFailure, steps_ok] at hd
    obtain ⟨-, rfl⟩ := hd
    exact ⟨.update (.refl _) fun row _ _ => .kept ⟨rfl, rfl, rfl, rfl⟩ rfl, rfl, rfl, rfl, rfl⟩

theorem Plain.aside (step : Plain digest settings db db') : Aside db db' := by
  have both : Explained digest False db db' ∧ Aside db db' := step.explained
  exact both.2

theorem Transaction.explained (ids : (db.delegations.map (·.id)).Nodup)
    (step : Transaction digest settings db db') : Explained digest True db db' := by
  cases step with
  | plain step => exact step.explained.1
  | adoptTerminalCancellation _ adopted =>
    exact .update (.refl _)
      fun row _ chosen => .moved ⟨rfl, rfl, rfl, rfl⟩ (.adopted trivial chosen.2 adopted)
  | acceptInitialRun guard _ childSessionId _ hd => exact (acceptInitialRun_beside hd).explained
  | prepareTerminalResult request _ _ _ _ hd => exact (prepareTerminalResult_explained ids hd).1
  | commitSeal request _ _ _ hd => exact (commitSeal_explained ids hd).1
  | reportResult _ _ _ hd => exact (reportResult_beside hd).1.explained
  | reportAgentResult _ _ _ hd => exact (reportAgentResult_beside hd).1.explained
  | prompt writes => exact Beside.explained ⟨rfl, rfl, writes_advance writes⟩

end Rewrites

/-! ### Well-formed tables -/

/-- What the indexes of the schema guarantee, and that a reservation has no child. -/
structure Formed (db : Database) : Prop where
  ids : (db.delegations.map (·.id)).Nodup
  keys : (db.delegations.map fun row => (row.parentSessionId, row.idempotencyKey)).Nodup
  children : ∀ row ∈ db.delegations, ∀ other ∈ db.delegations, ∀ child,
    row.childSessionId = some child → other.childSessionId = some child → row.id = other.id
  bare : ∀ row ∈ db.delegations, row.status = .provisioning → row.childSessionId = none
  parents : ∀ row ∈ db.delegations, (db.sessionById row.parentSessionId).isSome
  known : ∀ row ∈ db.delegations, ∀ child ∈ row.childSessionId, (db.sessionById child).isSome

section Formed
variable {digest : Text → Text} {adopting : Prop} {db db' : Database} {row row' : Delegation}
  {settings : Settings} {attachment : Option (Text × Text)}
variable {status : Status}

theorem sessionById_isSome {id : Text} : (db.sessionById id).isSome ↔ id ∈ db.sessions.map (·.id) := by
  rw [Database.sessionById, find?_isSome]
  simp

theorem SessionsAfter.mono (after : SessionsAfter db db' attachment) {id : Text}
    (hk : (db.sessionById id).isSome) : (db'.sessionById id).isSome := by
  rw [sessionById_isSome] at hk ⊢
  cases attachment with
  | none => rwa [show db'.sessions = db.sessions from after]
  | some _ =>
    obtain ⟨-, -, _, -, hs⟩ := after
    rw [hs, map_append]
    exact mem_append_left _ hk

section
variable (rewrite : Rewrite digest db adopting attachment row row')
include rewrite

theorem Rewrite.identity : row'.identity = row.identity := by
  cases rewrite with
  | kept hk | moved hk => exact hk.identity
  | rescoped => rfl
  | attached _ identity => exact identity

theorem Rewrite.id : row'.id = row.id :=
  congrArg Identity.id rewrite.identity

theorem Rewrite.parent :
    row'.parentSessionId = row.parentSessionId := congrArg Identity.parentSessionId rewrite.identity

theorem Rewrite.key :
    row'.idempotencyKey = row.idempotencyKey := congrArg Identity.idempotencyKey rewrite.identity

theorem Rewrite.child :
    row'.childSessionId = row.childSessionId ∨
    ∃ child, attachment = some (row.id, child) ∧ row.status = .provisioning ∧
      row'.status = .queued ∧ row'.childSessionId = some child := by
  cases rewrite with
  | kept hk | moved hk => exact .inl hk.session
  | rescoped => exact .inl rfl
  | attached attaches _ was status session => exact .inr ⟨_, attaches, was, status, session⟩

end

theorem Delegation.Moves.not_provisioning (moves : row.Moves digest db adopting status) :
    status ≠ .provisioning := by
  cases moves with
  | adopted _ was adopted | observed was hf adopted =>
    rintro rfl
    exact absurd (runStatus_terminal adopted).2 (by decide)
  | _ => decide

theorem Rewrite.bare (rewrite : Rewrite digest db adopting attachment row row')
    (bare : row.status = .provisioning → row.childSessionId = none)
    (was : row'.status = .provisioning) : row'.childSessionId = none := by
  cases rewrite with
  | kept hk status => rw [hk.session, bare (status ▸ was)]
  | moved _ moves => exact absurd was moves.not_provisioning
  | rescoped => exact bare was
  | attached _ _ _ status => exact absurd (was.symm.trans status) (by decide)

theorem forall₂_map_eq {α β : Type} {r : α → α → Prop} {field : α → β}
    (hs : ∀ x y, r x y → field y = field x) {xs ys : List α} (related : List.Forall₂ r xs ys) :
    ys.map field = xs.map field := by
  induction related with
  | nil => rfl
  | cons hh _ ih => rw [map_cons, map_cons, hs _ _ hh, ih]

section Rewritten
variable {front new : List Delegation} (rewritten : Rewritten digest adopting db db' attachment front new)
include rewritten

theorem Rewritten.origin (hm : row' ∈ db'.delegations) :
    (∃ row ∈ db.delegations, Rewrite digest db adopting attachment row row') ∨
    Reserved db row' := by
  rw [rewritten.rows] at hm
  rcases mem_append.mp hm with old | added
  · exact .inl (forall₂_mem_right rewritten.each old)
  · rcases rewritten.added with none | ⟨_, one, hr⟩
    · rw [none] at added
      simp at added
    · rw [one, mem_singleton] at added
      exact .inr (added ▸ hr)

theorem Rewritten.successor (hm : row ∈ db.delegations) :
    ∃ row' ∈ db'.delegations, Rewrite digest db adopting attachment row row' := by
  obtain ⟨row', old, rewrite⟩ := forall₂_mem_left rewritten.each hm
  exact ⟨row', by rw [rewritten.rows]; exact mem_append_left _ old, rewrite⟩

theorem Rewritten.nodup {β : Type} {field : Delegation → β} (hd : (db.delegations.map field).Nodup)
    (hs : ∀ row row', Rewrite digest db adopting attachment row row' → field row' = field row)
    (hf : ∀ row', Reserved db row' → ∀ row ∈ db.delegations, field row ≠ field row') :
    (db'.delegations.map field).Nodup := by
  rw [rewritten.rows, map_append, forall₂_map_eq hs rewritten.each]
  rcases rewritten.added with none | ⟨row, one, hr⟩
  · rw [none]
    simpa using hd
  · rw [one]
    refine nodup_append.mpr ⟨hd, by simp, ?_⟩
    intro _ hl other own
    obtain ⟨old, hm, rfl⟩ := mem_map.mp hl
    obtain rfl : other = field row := by simpa using own
    exact hf row hr old hm

theorem Rewritten.formed (hf : Formed db) : Formed db' := by
  have ids : (db'.delegations.map (·.id)).Nodup := by
    refine rewritten.nodup hf.ids (fun _ _ => Rewrite.id) fun row' hr row hm => ?_
    exact (find?_eq_none_iff Delegation.id).mp hr.newId row hm
  refine ⟨ids, ?_, ?_, ?_, ?_, ?_⟩
  · refine rewritten.nodup hf.keys ?_ ?_
    · intro row row' rewrite
      rw [rewrite.parent, rewrite.key]
    · intro row' hr row hm same
      have clash := find?_eq_none.mp hr.newKey row hm
      simp only [Prod.mk.injEq] at same
      exact clash (by simp [same.1, same.2])
  · intro row' hm _ hl child own theirs
    rcases rewritten.origin hm with ⟨row, old, first⟩ | hr
    · rcases rewritten.origin hl with ⟨other, older, second⟩ | hr
      · rw [first.id, second.id]
        rcases first.child with hs | ⟨new, attaches, -, -, session⟩
        · rcases second.child with hs' | ⟨new, attaches, -, -, session⟩
          · exact hf.children row old other older child (hs ▸ own) (hs' ▸ theirs)
          · have hk := hf.known row old child (hs ▸ own)
            obtain rfl : new = child := some.inj (session.symm.trans theirs)
            have after := rewritten.sessions
            rw [attaches] at after
            simp [after.1] at hk
        · obtain rfl : new = child := some.inj (session.symm.trans own)
          rcases second.child with hs' | ⟨_, attaches', -, -, _⟩
          · have hk := hf.known other older new (hs' ▸ theirs)
            have after := rewritten.sessions
            rw [attaches] at after
            simp [after.1] at hk
          · rw [attaches] at attaches'
            exact (Prod.mk.inj (some.inj attaches')).1
      · cases theirs.symm.trans hr.session
    · cases own.symm.trans hr.session
  · intro row' hm was
    rcases rewritten.origin hm with ⟨row, old, rewrite⟩ | hr
    · exact rewrite.bare (hf.bare row old) was
    · exact hr.session
  · intro _ hm
    rcases rewritten.origin hm with ⟨row, old, rewrite⟩ | hr
    · rw [rewrite.parent]
      exact rewritten.sessions.mono (hf.parents row old)
    · exact rewritten.sessions.mono hr.parent
  · intro _ hm child own
    rcases rewritten.origin hm with ⟨row, old, rewrite⟩ | hr
    · rcases rewrite.child with hs | ⟨new, attaches, -, -, session⟩
      · exact rewritten.sessions.mono (hf.known row old child (hs ▸ own))
      · obtain rfl : new = child := some.inj (session.symm.trans own)
        have after := rewritten.sessions
        rw [attaches] at after
        obtain ⟨-, -, _, rfl, same⟩ := after
        rw [sessionById_isSome, same]
        simp
    · cases (mem_def.mp own).symm.trans hr.session

end Rewritten

theorem Transaction.formed (step : Transaction digest settings db db') (hf : Formed db) : Formed db' := by
  obtain ⟨_, _, _, hr⟩ := step.explained hf.ids
  exact hr.formed hf

/-! ### The status machine -/

/-- The moves the transition table misses: a stale reservation is interrupted, and an attached
delegation adopts the outcome of its initial run from whatever state it is in. -/
inductive Delegation.Adopts (digest : Text → Text) (db : Database) (row : Delegation) : Status → Prop
  | stale (was : row.status = .provisioning) (bare : row.childSessionId = none) :
      Adopts digest db row .interrupted
  | outcome {run : Prompt.PromptRun} {target : Status} (was : row.status ∈ [.queued, .running, .cancelling])
      (found : initialRun digest db row = .ok (some run))
      (adopted : runStatusToDelegationStatus run.status = some target) : Adopts digest db row target

theorem initialRun_attached {run : Prompt.PromptRun}
    (hf : initialRun digest db row = .ok (some run)) : row.childSessionId ≠ none := by
  simp only [initialRun, steps_ok] at hf
  intro bare
  rw [bare] at hf
  simp at hf

theorem Delegation.Moves.conforms (moves : row.Moves digest db adopting status)
    (bare : row.status = .provisioning → row.childSessionId = none) :
    canTransition row.status status = true ∨ row.Adopts digest db status := by
  cases moves with
  | provisionFailed was | cancelling was | startFailed was | started was
  | queueCancelled was | provisionCancelled was => exact .inl (by rw [was]; decide)
  | provisionStale was bare => exact .inr (.stale was bare)
  | adopted _ was adopted =>
    have terminal := (runStatus_terminal adopted).2
    rw [was]
    cases status <;> first | exact .inl rfl | exact absurd terminal (by decide)
  | observed was hf adopted =>
    refine .inr (.outcome ?_ hf adopted)
    have ha := initialRun_attached hf
    cases hc : row.status <;> first
      | exact absurd (bare hc) ha
      | exact absurd (hc ▸ was) (by decide)
      | simp

theorem Delegation.Moves.not_terminal (moves : row.Moves digest db adopting status) :
    row.status ∉ terminalStatuses := by
  cases moves with
  | observed was => exact was
  | provisionFailed was | adopted _ was | cancelling was | startFailed was | started was
  | queueCancelled was | provisionStale was | provisionCancelled was => rw [was]; decide

theorem Rewrite.conforms (rewrite : Rewrite digest db adopting attachment row row')
    (bare : row.status = .provisioning → row.childSessionId = none) :
    row'.status = row.status ∨ canTransition row.status row'.status = true ∨
    row.Adopts digest db row'.status := by
  cases rewrite with
  | kept _ status => exact .inl status
  | moved _ moves => exact .inr (moves.conforms bare)
  | rescoped => exact .inl rfl
  | attached _ _ was status =>
    refine .inr (.inl ?_)
    rw [was, status]
    decide

theorem Rewrite.terminal (rewrite : Rewrite digest db adopting attachment row row')
    (terminal : row.status ∈ terminalStatuses) : row'.status = row.status := by
  cases rewrite with
  | kept _ status => exact status
  | moved _ moves => exact absurd terminal moves.not_terminal
  | rescoped => rfl
  | attached _ _ was => exact absurd (was ▸ terminal) (by decide)

theorem formed_of_nil (none : db.delegations = []) : Formed db := by
  refine ⟨?_, ?_, ?_, ?_, ?_, ?_⟩
  all_goals simp [none]

theorem delegationByChild_of_unique (ids : (db.delegations.map (·.id)).Nodup)
    (children : ∀ row ∈ db.delegations, ∀ other ∈ db.delegations, ∀ child,
        row.childSessionId = some child → other.childSessionId = some child → row.id = other.id)
    (hm : row ∈ db.delegations) {child : Text} (ha : row.childSessionId = some child) :
    db.delegationByChild child = some row := by
  cases hf : db.delegationByChild child with
  | none => exact absurd ha (by simpa using find?_eq_none.mp hf row hm)
  | some other =>
    have own : other.childSessionId = some child := by simpa using find?_some hf
    have hl := mem_of_find?_eq_some hf
    rw [key_inj_of_nodup ids hl hm (children other hl row hm child own ha)]

theorem Formed.delegationByChild (formed : Formed db) (hm : row ∈ db.delegations) {child : Text}
    (ha : row.childSessionId = some child) : db.delegationByChild child = some row :=
  delegationByChild_of_unique formed.ids formed.children hm ha

section
variable (step : Transaction digest settings db db') (hf : Formed db)
include step hf

theorem Transaction.rewrite (hm : row ∈ db.delegations) (later : row' ∈ db'.delegations)
    (hs : row'.id = row.id) : ∃ attachment, Rewrite digest db True attachment row row' := by
  obtain ⟨attachment, _, _, hr⟩ := step.explained hf.ids
  obtain ⟨_, hl, rewrite⟩ := hr.successor hm
  have hd := (hr.formed hf).ids
  rw [key_inj_of_nodup hd later hl (hs.trans rewrite.id.symm)]
  exact ⟨attachment, rewrite⟩

theorem Transaction.delegationByChild {child : Text}
    (found : db.delegationByChild child = some row) :
    ∃ row', db'.delegationByChild child = some row' ∧ row'.id = row.id := by
  have hm : row ∈ db.delegations := mem_of_find?_eq_some found
  have ha : row.childSessionId = some child := by simpa using find?_some found
  obtain ⟨_, _, _, hr⟩ := step.explained hf.ids
  obtain ⟨next, hl, rewrite⟩ := hr.successor hm
  have hs : next.childSessionId = some child := by
    rcases rewrite.child with same | ⟨_, -, was, -⟩
    · rw [same, ha]
    · cases (hf.bare row hm was).symm.trans ha
  cases again : db'.delegationByChild child with
  | none => exact absurd hs (by simpa using find?_eq_none.mp again next hl)
  | some row' =>
    have own : row'.childSessionId = some child := by simpa using find?_some again
    refine ⟨row', rfl, ?_⟩
    rw [← rewrite.id]
    exact (hr.formed hf).children row' (mem_of_find?_eq_some again) next hl child own hs

theorem Transaction.advance : RunsAdvance db.runs db'.runs := by
  obtain ⟨_, _, _, hr⟩ := step.explained hf.ids
  exact hr.runs

end

theorem run_formed {first last : Database} (hf : Formed first)
    (run : ReflTransGen (Transaction digest settings) first last) : Formed last :=
  run_keeps Formed (fun _ _ step => step.formed) run hf

theorem run_terminal {first last : Database} (hf : Formed first)
    (run : ReflTransGen (Transaction digest settings) first last) (hm : row ∈ first.delegations)
    (terminal : row.status ∈ terminalStatuses) :
    ∃ row' ∈ last.delegations, row'.id = row.id ∧ row'.status = row.status := by
  induction run with
  | refl => exact ⟨row, hm, rfl, rfl⟩
  | tail before step ih =>
    obtain ⟨_, hl, hs, status⟩ := ih
    obtain ⟨_, _, _, hr⟩ := step.explained (run_formed hf before).ids
    obtain ⟨row', later, rewrite⟩ := hr.successor hl
    exact ⟨row', later, rewrite.id.trans hs, (rewrite.terminal (status ▸ terminal)).trans status⟩

/-- Every committed change of a status is in the transition table, or interrupts a stale
reservation, or adopts the outcome of the initial run; a terminal status is final. -/
theorem lifecycle_conformance {first db db' last : Database} (formed : Formed first)
    (before : ReflTransGen (Transaction digest settings) first db)
    (step : Transaction digest settings db db')
    (after : ReflTransGen (Transaction digest settings) db' last) :
    (∀ row ∈ db.delegations, ∀ row' ∈ db'.delegations,
        row'.id = row.id → row'.status ≠ row.status →
        canTransition row.status row'.status = true ∨ row.Adopts digest db row'.status) ∧
    (∀ row ∈ db'.delegations, row.status ∈ terminalStatuses →
      ∀ row' ∈ last.delegations, row'.id = row.id → row'.status = row.status) := by
  have hh := run_formed formed before
  refine ⟨?_, ?_⟩
  · intro row hm _ later hs hc
    obtain ⟨_, rewrite⟩ := step.rewrite hh hm later hs
    exact (rewrite.conforms (hh.bare row hm)).resolve_left hc
  · intro _ hm terminal _ later hs
    obtain ⟨_, hl, id, status⟩ := run_terminal (step.formed hh) after hm terminal
    have hd := (run_formed (step.formed hh) after).ids
    rw [key_inj_of_nodup hd later hl (hs.trans id.symm)]
    exact status

end Formed

/-! ### A stale reservation -/

def rootDatabase : Database where
  repos := [⟨text "repo", text "/repo", none⟩]
  workspaces := [{ id := text "workspace", repoId := text "repo", path := text "/repo/workspace" }]
  sessions := [{ id := text "root", workspaceId := text "workspace" }]

def sampleBody : Body where
  title := text "Inspect"
  task := text "Inspect the tree"

def sampleCall : SpawnCall where
  parentSessionId := text "root"
  idempotencyKey := text "key"
  body := sampleBody
  reservationId := text "0123456789abcdef0123456789abcdef"

def sampleReservation : Delegation :=
  sampleBody.reservation sampleCall.reservationId 0 (text "root") (text "key") none none defaultSessionModel

def reservedDatabase : Database := { rootDatabase with delegations := [sampleReservation] }

def staleDatabase : Database :=
  { rootDatabase with delegations := [{ sampleReservation with
      status := .interrupted
      errorCode := some "provisioning_stale"
      errorDetailSafe := some "stale provisioning was interrupted before completion" }] }

theorem rootDatabase_formed : Formed rootDatabase :=
  ⟨by decide, by decide, by simp [rootDatabase], by simp [rootDatabase], by simp [rootDatabase],
    by simp [rootDatabase]⟩

theorem sample_reserved : Transaction id {} rootDatabase reservedDatabase :=
  .plain (.reserve {} sampleCall
    (by decide : reserve {} {} rootDatabase sampleCall = .ok (reservedDatabase, sampleReservation)))

theorem sample_interrupted : Transaction id {} reservedDatabase staleDatabase :=
  .plain (.claimStaleProvisioning noGuard (fun _ => true) none none
    (by decide : claimStaleProvisioning noGuard reservedDatabase (fun _ => true) none none =
      .ok (staleDatabase, [sampleReservation.id])))

theorem lifecycle_conformance_stale :
    Transaction id {} reservedDatabase staleDatabase ∧
    ∀ row ∈ reservedDatabase.delegations, ∀ row' ∈ staleDatabase.delegations,
      row'.id = row.id → row'.status ≠ row.status →
      canTransition row.status row'.status = true ∨ row.Adopts id reservedDatabase row'.status :=
  ⟨sample_interrupted,
    (lifecycle_conformance rootDatabase_formed (.single sample_reserved) sample_interrupted
      .refl).1⟩

/-- The transition table does not allow the interruption of a reservation. -/
theorem stale_outside_table :
    ∃ db db' : Database, ReflTransGen (Transaction id {}) rootDatabase db ∧
      Transaction id {} db db' ∧
      ∃ row ∈ db.delegations, ∃ row' ∈ db'.delegations,
        row'.id = row.id ∧ row'.status ≠ row.status ∧
        canTransition row.status row'.status = false :=
  ⟨reservedDatabase, staleDatabase, .single sample_reserved, sample_interrupted, by decide⟩

end Yinshi.Threads
