import Yinshi.Base.Runs
import Yinshi.Prompt.Store

/-! The status of a prompt run under any interleaving of the statements of `start`,
`_set_status`, `cancel`, `_set_terminal_status`, `_append_event` and recovery. -/

namespace Yinshi.Prompt
open ByteText Keyed Runs Relation List

inductive Outcome
  | run (run : PromptRun) (flag : Bool)
  | terminal (sessionId : Text) (status : Status)
  | done
  | raised (error : PromptError)
  deriving DecidableEq

/-- An operation before one of its statements, with what it has read so far. -/
inductive Call
  | start (id sessionId key : Text)
  | startSession (id sessionId key : Text)
  | startInsert (id sessionId key : Text)
  | startRecheck (id sessionId key : Text)
  | startActive (sessionId : Text)
  | setStatus (runId : Text) (status : Status) (expected : List Status)
  | setStatusUpdate (runId : Text) (status : Status) (expected : List Status)
  | cancel (runId sessionId : Text)
  | cancelUpdate (run : PromptRun)
  | cancelReread (runId sessionId : Text)
  | setTerminal (runId : Text) (status : Status)
  | terminalUpdate (runId sessionId : Text) (effectiveStatus : Status)
  | terminalReread (runId sessionId : Text)
  | append (call : AppendCall)
  | recover
  | returned (outcome : Outcome)
  deriving DecidableEq

/-- `SELECT id, session_id, status FROM prompt_runs WHERE id = ? AND session_id = ?`. -/
def Database.runOf (db : Database) (runId sessionId : Text) : Option PromptRun :=
  db.runs.find? fun run => run.id = runId ∧ run.sessionId = sessionId

def Call.step (db : Database) : Call → Database × Call
  | .start id sessionId key =>
    match db.runByKey sessionId key with
    | some run => (db, .returned (.run run (run.id = id)))
    | none => (db, .startSession id sessionId key)
  | .startSession id sessionId key =>
    if sessionId ∈ db.sessions then (db, .startInsert id sessionId key)
    else (db, .returned (.raised (.runNotFound "session not found")))
  | .startInsert id sessionId key =>
    match db.runByKey sessionId key with
    | some run => (db, .returned (.run run (run.id = id)))
    | none =>
      match db.insertRun ⟨id, sessionId, key, .starting⟩ with
      | some db => (db, .returned (.run ⟨id, sessionId, key, .starting⟩ true))
      | none => (db, .startRecheck id sessionId key)
  | .startRecheck id sessionId key =>
    match db.runByKey sessionId key with
    | some run => (db, .returned (.run run (run.id = id)))
    | none => (db, .startActive sessionId)
  | .startActive sessionId =>
    match db.activeRun sessionId with
    | some _ => (db, .returned (.raised (.runConflict "session already has an active prompt run")))
    | none => (db, .returned (.raised .integrity))
  | .setStatus runId status expected =>
    if db.statusOf runId = some status then (db, .returned .done)
    else if status = .running ∧ db.statusOf runId = some .stopping then
      (db, .returned (.raised (.runStopping "prompt cancellation won before startup")))
    else (db, .setStatusUpdate runId status expected)
  | .setStatusUpdate runId status expected =>
    (db.updateStatus runId status expected,
      if db.updateCount runId expected ≠ 1 then
        .returned (.raised (.runtime "prompt run status transition was rejected"))
      else .returned .done)
  | .cancel runId sessionId =>
    match db.runOf runId sessionId with
    | none => (db, .returned (.raised (.runNotFound "prompt run not found")))
    | some run =>
      if run.status ∈ terminalStatuses then (db, .returned (.run run false))
      else if run.status = .stopping then (db, .returned (.run run true))
      else (db, .cancelUpdate run)
  | .cancelUpdate run =>
    if db.updateCount run.id [.starting, .running] = 1 then
      (db.updateStatus run.id .stopping [.starting, .running],
        .returned (.run { run with status := .stopping } true))
    else (db, .cancelReread run.id run.sessionId)
  | .cancelReread runId sessionId =>
    match db.runOf runId sessionId with
    | none => (db, .returned (.raised (.runNotFound "prompt run not found")))
    | some run =>
      if run.status ∈ terminalStatuses then (db, .returned (.run run false))
      else if run.status = .stopping then (db, .returned (.run run true))
      else (db, .returned (.raised (.runtime "prompt cancellation transition was rejected")))
  | .setTerminal runId status =>
    match db.runById runId with
    | none => (db, .returned (.raised (.runNotFound "prompt run not found")))
    | some run =>
      if run.status ∈ terminalStatuses then (db, .returned (.terminal run.sessionId run.status))
      else (db, .terminalUpdate runId run.sessionId
        (if run.status = .stopping then .cancelled else status))
  | .terminalUpdate runId sessionId effectiveStatus =>
    if db.updateCount runId activeStatuses ≠ 1 then (db, .terminalReread runId sessionId)
    else (db.updateStatus runId effectiveStatus activeStatuses,
      .returned (.terminal sessionId effectiveStatus))
  | .terminalReread runId sessionId =>
    match db.statusOf runId with
    | some status =>
      if status ∈ terminalStatuses then (db, .returned (.terminal sessionId status))
      else (db, .returned (.raised (.runtime "prompt terminal status transition was rejected")))
    | none => (db, .returned (.raised (.runtime "prompt terminal status transition was rejected")))
  | .append call => ((call.attempt db).1, .returned .done)
  | .recover => (db.recoverPromptDatabase, .returned .done)
  | .returned outcome => (db, .returned outcome)

inductive Call.Fresh : Call → Prop
  | start (id sessionId key : Text) : Fresh (.start id sessionId key)
  | setStatus (runId : Text) : Fresh (.setStatus runId .running [.starting])
  | cancel (runId sessionId : Text) : Fresh (.cancel runId sessionId)
  | setTerminal (runId : Text) {status : Status} (terminal : status ∈ terminalStatuses) :
      Fresh (.setTerminal runId status)
  | append (call : AppendCall) : Fresh (.append call)
  | recover : Fresh .recover

abbrev Calls := Pool Database Call

def Call.Acts (db : Database) (call : Call) (db' : Database) (call' : Call) : Prop :=
  call.step db = (db', call')

def StatementStep : Calls → Calls → Prop := Pool.Step Call.Fresh Call.Acts

namespace Database
variable {db db' : Database} {id : Text} {status : Status} {expected : List Status}

structure Indexed (db : Database) : Prop where
  ids : (db.runs.map (·.id)).Nodup
  keys : (db.runs.map fun run => (run.sessionId, run.idempotencyKey)).Nodup
  active : ((db.runs.filter (·.status ∈ activeStatuses)).map (·.sessionId)).Nodup

theorem runById_updateStatus (other : Text) : (db.updateStatus id status expected).runById other =
    (db.runById other).map fun run =>
      if run.id = id ∧ run.status ∈ expected then { run with status := status } else run := by
  rw [runById, runById, updateStatus, find?_map]
  congr 2
  funext run
  simp only [Function.comp_apply]
  split <;> rfl

theorem statusOf_updateStatus (other : Text) : (db.updateStatus id status expected).statusOf other =
    (db.statusOf other).map fun old => if other = id ∧ old ∈ expected then status else old := by
  rw [statusOf, runById_updateStatus, statusOf, Option.map_map, Option.map_map]
  cases hf : db.runById other with
  | none => rfl
  | some run =>
    have hs : run.id = other := by simpa using find?_some hf
    simp only [Option.map_some, Function.comp_apply, hs, Option.some.injEq]
    split <;> rfl

theorem statusOf_insertRun {run : PromptRun} (inserted : db.insertRun run = some db') :
    db.statusOf id = some status → db'.statusOf id = some status := by
  rw [insertRun] at inserted
  split at inserted
  next => simp at inserted
  next =>
    cases inserted
    rw [statusOf, statusOf, runById, runById, find?_append]
    cases db.runs.find? (·.id = id) with
    | none => simp
    | some _ => exact fun hs => hs

theorem Indexed.updateStatus (hi : db.Indexed) (hw : ∀ old ∈ expected, old ∈ activeStatuses) :
    (db.updateStatus id status expected).Indexed := by
  have hk : ∀ {β : Type} (field : PromptRun → β),
        (∀ run status, field { run with status := status } = field run) →
      (db.updateStatus id status expected).runs.map field = db.runs.map field := by
    intro β _ hs
    rw [Database.updateStatus, List.map_map]
    refine map_congr_left fun run _ => ?_
    simp only [Function.comp_apply]
    split
    · exact hs run status
    · rfl
  refine ⟨?_, ?_, ?_⟩
  · rw [hk (·.id) fun _ _ => rfl]
    exact hi.ids
  · rw [hk (fun run => (run.sessionId, run.idempotencyKey)) fun _ _ => rfl]
    exact hi.keys
  · rw [Database.updateStatus, filter_map, List.map_map]
    have sublist : (db.runs.filter ((fun run : PromptRun => decide (run.status ∈ activeStatuses)) ∘
        fun run => if run.id = id ∧ run.status ∈ expected then { run with status := status }
          else run)).Sublist (db.runs.filter (·.status ∈ activeStatuses)) := by
      refine monotone_filter_right _ fun run => ?_
      simp only [Function.comp_apply]
      split
      next hc => exact fun _ => decide_eq_true (hw _ hc.2)
      next => exact fun hs => hs
    have hs : (PromptRun.sessionId ∘ fun run =>
        if run.id = id ∧ run.status ∈ expected then { run with status := status } else run) =
        PromptRun.sessionId := by
      funext run
      simp only [Function.comp_apply]
      split <;> rfl
    rw [hs]
    exact hi.active.sublist (sublist.map _)

theorem Indexed.insertRun {run : PromptRun} (hi : db.Indexed)
    (inserted : db.insertRun run = some db') : db'.Indexed := by
  rw [Database.insertRun] at inserted
  split at inserted
  next => simp at inserted
  next hf =>
    cases inserted
    rw [not_or] at hf
    have ha : ∀ other ∈ db.runs, ¬ clashes other run := fun other hm clash => hf.2 ⟨other, hm, clash⟩
    simp only [clashes, not_or, not_and] at ha
    refine ⟨?_, ?_, ?_⟩
    · rw [map_append, nodup_append']
      refine ⟨hi.ids, by simp, ?_⟩
      simp only [map_cons, map_nil, disjoint_singleton, mem_map, not_exists, not_and]
      exact fun other hm => (ha other hm).1
    · rw [map_append, nodup_append']
      refine ⟨hi.keys, by simp, ?_⟩
      simp only [map_cons, map_nil, disjoint_singleton, mem_map, not_exists, not_and, Prod.mk.injEq]
      exact fun other hm => (ha other hm).2.1
    · rw [filter_append, map_append, nodup_append']
      refine ⟨hi.active, ?_, ?_⟩
      · rw [filter_singleton]
        cases decide (run.status ∈ activeStatuses) <;> simp
      · intro _ old new
        obtain ⟨other, ho, rfl⟩ := mem_map.mp old
        obtain ⟨_, isAdded, hs⟩ := mem_map.mp new
        obtain ⟨hr, isActive⟩ := mem_filter.mp isAdded
        obtain ⟨hm, wasActive⟩ := mem_filter.mp ho
        rw [mem_singleton.mp hr] at hs isActive
        exact (ha other hm).2.2 hs.symm (of_decide_eq_true wasActive) (of_decide_eq_true isActive)

structure Follows (db db' : Database) : Prop where
  indexed : db.Indexed → db'.Indexed
  terminal : ∀ id, ∀ status ∈ terminalStatuses, db.statusOf id = some status →
    db'.statusOf id = some status

def KeepsStops (db db' : Database) : Prop :=
  ∀ id, db.statusOf id = some .stopping →
    ∃ status ∈ [Status.stopping, .cancelled, .interrupted], db'.statusOf id = some status

theorem Follows.refl (db : Database) : db.Follows db := ⟨fun h => h, fun _ _ _ h => h⟩

theorem Follows.trans {db'' : Database} (first : db.Follows db') (second : db'.Follows db'') :
    db.Follows db'' :=
  ⟨fun h => second.indexed (first.indexed h),
    fun id status isTerminal h =>
      second.terminal id status isTerminal (first.terminal id status isTerminal h)⟩

theorem KeepsStops.refl (db : Database) : db.KeepsStops db :=
  fun _ stopping => ⟨_, by simp, stopping⟩

theorem terminal_not_active {status : Status} (terminal : status ∈ terminalStatuses) :
    status ∉ activeStatuses := by
  revert terminal
  cases status <;> decide

theorem follows_updateStatus (hw : ∀ old ∈ expected, old ∈ activeStatuses) :
    db.Follows (db.updateStatus id status expected) := by
  refine ⟨fun hi => hi.updateStatus hw, fun other old isTerminal hs => ?_⟩
  rw [statusOf_updateStatus, hs, Option.map_some, if_neg fun h => terminal_not_active isTerminal (hw old h.2)]

theorem follows_of_runs (hs : db'.runs = db.runs) : db.Follows db' := by
  have statuses : ∀ other, db'.statusOf other = db.statusOf other := by
    intro other
    rw [statusOf, statusOf, runById, runById, hs]
  refine ⟨fun hi => ?_, fun other old _ h => by rw [statuses, h]⟩
  exact ⟨hs ▸ hi.ids, hs ▸ hi.keys, hs ▸ hi.active⟩

theorem follows_recoverRun (row : PromptRun) : db.Follows (db.recoverRun row) := by
  rw [recoverRun]
  split
  · refine Follows.trans (follows_of_runs ?_) (follows_updateStatus fun _ h => h)
    split <;> rfl
  · exact follows_updateStatus fun _ h => h

theorem statusOf_recoverRun (row : PromptRun) (other : Text) :
    ∃ status,
      (db.recoverRun row).statusOf other =
          (db.statusOf other).map
            (fun old => if other = row.id ∧ old ∈ activeStatuses then status else old) ∧
      (row.status = .stopping → status ∈ [.cancelled, .interrupted]) := by
  rw [recoverRun]
  split
  · refine ⟨.interrupted, ?_, fun _ => by decide⟩
    rw [statusOf_updateStatus]
    split <;> rfl
  next derived _ =>
    refine ⟨_, statusOf_updateStatus other, fun stopping => ?_⟩
    rw [if_pos stopping]
    decide

theorem follows_foldl (rows : List PromptRun) : db.Follows (rows.foldl recoverRun db) := by
  induction rows generalizing db with
  | nil => exact Follows.refl db
  | cons row _ ih => exact Follows.trans (follows_recoverRun row) ih

theorem follows_recover : db.Follows db.recoverPromptDatabase := follows_foldl _

theorem keepsStops_recover (hi : db.Indexed) : db.KeepsStops db.recoverPromptDatabase := by
  intro runId stopping
  rw [recoverPromptDatabase]
  obtain ⟨run, hf, isStopping⟩ := Option.map_eq_some_iff.mp stopping
  have hr := (find?_eq_some_iff (fun run : PromptRun => run.id) hi.ids).mp hf
  have rows : ∀ row ∈ db.runs.filter (·.status ∈ activeStatuses), row.id = runId → row.status = .stopping := by
    intro row hm hs
    rw [key_inj_of_nodup hi.ids (mem_filter.mp hm).1 hr.1 (hs.trans hr.2.symm)]
    exact isStopping
  have start : ∃ status ∈ [Status.stopping, .cancelled, .interrupted],
      db.statusOf runId = some status := ⟨_, by simp, stopping⟩
  clear stopping hf isStopping hr hi
  generalize db.runs.filter (·.status ∈ activeStatuses) = active at rows
  induction active generalizing db with
  | nil => exact start
  | cons row _ ih =>
    refine ih ?_ fun other hm => rows other (by simp [hm])
    obtain ⟨_, ho, hs⟩ := start
    obtain ⟨_, hc, _⟩ := @statusOf_recoverRun db row runId
    refine ⟨_, ?_, by rw [hc, hs, Option.map_some]⟩
    split
    next own => tauto
    next => exact ho

end Database

open Database

def Status.rank : Status → Nat
  | .starting => 0
  | .running => 1
  | .stopping => 2
  | .completed | .failed | .cancelled | .interrupted => 3

theorem rank_le_terminal {status : Status} (terminal : status ∈ terminalStatuses) (old : Status) :
    old.rank ≤ status.rank := by
  revert terminal
  cases status <;> cases old <;> decide

inductive Database.Writes (db : Database) : Database → Prop
  | unchanged : Writes db db
  | inserted {run : PromptRun} {db' : Database} (new : db.insertRun run = some db') : Writes db db'
  | updated (id : Text) (status : Status) (expected : List Status)
      (rises : ∀ old ∈ expected, old ∈ activeStatuses ∧ old.rank ≤ status.rank) :
      Writes db (db.updateStatus id status expected)
  | appended (append : AppendCall) : Writes db (append.attempt db).1
  | recovered : Writes db db.recoverPromptDatabase

def Call.Proper : Call → Prop
  | .setStatus _ status expected | .setStatusUpdate _ status expected =>
    status = .running ∧ expected = [.starting]
  | .setTerminal _ status | .terminalUpdate _ _ status => status ∈ terminalStatuses
  | _ => True

/-- A terminal write does not overtake a stop: it writes `completed` or `failed` only
when the run is not stopping. -/
def Call.Careful (db : Database) : Call → Prop
  | .terminalUpdate runId _ effectiveStatus =>
    db.statusOf runId = some .stopping → effectiveStatus ∈ [.cancelled, .interrupted]
  | _ => True

def CarefulStep : Calls → Calls → Prop :=
  Pool.Step Call.Fresh fun db call db' call' => call.Acts db db' call' ∧ call.Careful db

theorem Call.Fresh.proper {call : Call} (hf : call.Fresh) : call.Proper := by
  cases hf with
  | setStatus runId => exact ⟨rfl, rfl⟩
  | setTerminal _ terminal => exact terminal
  | _ => trivial

section Statements
variable {db db' : Database} {call call' : Call}

theorem AppendCall.attempt_runs (append : AppendCall) : (append.attempt db).1.runs = db.runs := by
  rw [AppendCall.attempt]
  split
  · rfl
  · split
    · rfl
    · split
      · rfl
      · dsimp only
        split
        · rfl
        · split
          · split <;> rfl
          · rfl

theorem Database.Writes.follows (writes : db.Writes db') : db.Follows db' := by
  cases writes with
  | unchanged => exact .refl _
  | inserted new => exact ⟨fun hi => hi.insertRun new, fun _ _ _ => statusOf_insertRun new⟩
  | updated _ _ _ rises => exact follows_updateStatus fun old ho => (rises old ho).1
  | appended append => exact follows_of_runs append.attempt_runs
  | recovered => exact follows_recover

theorem Call.step_writes (proper : call.Proper) (db : Database) : db.Writes (call.step db).1 := by
  cases call with
  | startInsert _ sessionId _ =>
    simp only [Call.step]
    split
    · exact .unchanged
    · split
      next inserted => exact .inserted inserted
      next => exact .unchanged
  | setStatusUpdate runId _ _ =>
    obtain ⟨rfl, rfl⟩ := proper
    exact .updated _ _ _ (by decide)
  | cancelUpdate _ =>
    simp only [Call.step]
    split
    · exact .updated _ _ _ (by decide)
    · exact .unchanged
  | terminalUpdate _ _ _ =>
    simp only [Call.step]
    split
    · exact .unchanged
    · exact .updated _ _ _ fun old active => ⟨active, rank_le_terminal proper old⟩
  | append append => exact .appended append
  | recover => exact .recovered
  | start | startRecheck | startSession | startActive | setStatus | cancel | cancelReread
  | setTerminal | terminalReread | returned =>
    simp only [Call.step]
    repeat' split
    all_goals exact .unchanged

theorem Call.step_proper (proper : call.Proper) (db : Database) : (call.step db).2.Proper := by
  cases call with
  | setStatus runId status _ =>
    simp only [Call.step]
    split
    · trivial
    · split
      · trivial
      · exact proper
  | setTerminal _ status =>
    simp only [Call.step]
    split
    · trivial
    · split
      · trivial
      · show (if _ then Status.cancelled else status) ∈ terminalStatuses
        split
        · decide
        · exact proper
  | start | startRecheck | startSession | startActive | startInsert | setStatusUpdate | cancel
  | cancelUpdate | cancelReread | terminalUpdate | terminalReread | append | recover | returned =>
    simp only [Call.step]
    repeat' split
    all_goals trivial

theorem Call.Acts.follows (ha : call.Acts db db' call') (proper : call.Proper) :
    db.Follows db' ∧ call'.Proper := by
  have writes := Call.step_writes proper db
  have hk := Call.step_proper proper db
  rw [ha] at writes hk
  exact ⟨writes.follows, hk⟩

theorem keepsStops_updateStatus {id : Text} {status : Status} {expected : List Status}
    (hs : db.statusOf id = some .stopping → .stopping ∈ expected →
      status ∈ [.cancelled, .interrupted]) :
    db.KeepsStops (db.updateStatus id status expected) := by
  intro _ stopping
  rw [statusOf_updateStatus, stopping, Option.map_some]
  refine ⟨_, ?_, rfl⟩
  split
  next own =>
    obtain ⟨rfl, isExpected⟩ := own
    exact mem_cons_of_mem _ (hs stopping isExpected)
  next => simp

theorem Call.Acts.keepsStops (ha : call.Acts db db' call') (proper : call.Proper)
    (careful : call.Careful db) (hi : db.Indexed) : db.KeepsStops db' := by
  unfold Call.Acts at ha
  cases call with
  | startInsert _ sessionId _ =>
    simp only [Call.step] at ha
    split at ha
    · cases ha
      exact .refl _
    · split at ha
      next inserted =>
        cases ha
        exact fun other stopping => ⟨_, by simp, statusOf_insertRun inserted stopping⟩
      next =>
        cases ha
        exact .refl _
  | setStatusUpdate runId _ _ =>
    cases ha
    refine keepsStops_updateStatus fun _ isExpected => ?_
    rw [proper.2] at isExpected
    exact absurd isExpected (by decide)
  | cancelUpdate _ =>
    simp only [Call.step] at ha
    split at ha <;> cases ha
    · exact keepsStops_updateStatus fun _ isExpected => absurd isExpected (by decide)
    · exact .refl _
  | terminalUpdate _ _ _ =>
    simp only [Call.step] at ha
    split at ha <;> cases ha
    · exact .refl _
    · exact keepsStops_updateStatus fun stopping _ => careful stopping
  | append call =>
    cases ha
    intro _ stopping
    refine ⟨.stopping, by simp, ?_⟩
    rw [← stopping, statusOf, statusOf, runById, runById, call.attempt_runs]
  | recover =>
    cases ha
    exact keepsStops_recover hi
  | start | startRecheck | startSession | startActive | setStatus | cancel | cancelReread
  | setTerminal | terminalReread | returned =>
    have hs : db' = db := by
      simp only [Call.step] at ha
      repeat' split at ha
      all_goals exact (congrArg Prod.fst ha).symm
    rw [hs]
    exact .refl _

end Statements

section Runs
variable {first last : Calls}

def Calls.Proper (calls : Calls) : Prop := Pool.Holds Indexed (fun _ call => call.Proper) calls

theorem StatementStep.proper (calls next : Calls) (step : StatementStep calls next)
    (proper : calls.Proper) : next.Proper :=
  Pool.step_holds (fun _ _ hf _ => hf.proper)
    (fun _ _ _ _ ha hi own => ⟨(ha.follows own).1.indexed hi, (ha.follows own).2⟩)
    (fun _ _ _ _ _ _ _ _ other => other) calls next step proper

theorem StatementStep.follows (calls next : Calls) (step : StatementStep calls next)
    (proper : calls.Proper) : calls.shared.Follows next.shared := by
  cases step with
  | spawn _ => exact .refl _
  | act ha => exact (ha.follows (proper.threads _ (by simp))).1

theorem CarefulStep.statement (calls next : Calls) (step : CarefulStep calls next) :
    StatementStep calls next := by
  cases step with
  | spawn hf => exact .spawn hf
  | act ha => exact .act ha.1

theorem CarefulStep.keepsStops (calls next : Calls) (step : CarefulStep calls next)
    (proper : calls.Proper) : calls.shared.KeepsStops next.shared := by
  cases step with
  | spawn _ => exact .refl _
  | act ha => exact ha.1.keepsStops (proper.threads _ (by simp)) ha.2 proper.shared

theorem run_follows (run : ReflTransGen StatementStep first last) (proper : first.Proper) :
    first.shared.Follows last.shared ∧ last.Proper := by
  refine run_keeps (fun calls => first.shared.Follows calls.shared ∧ calls.Proper)
    (fun calls next step hh => ?_) run ⟨.refl _, proper⟩
  exact ⟨hh.1.trans (StatementStep.follows calls next step hh.2), StatementStep.proper calls next step hh.2⟩

def StopKept (db : Database) (runId : Text) : Prop :=
  ∃ status ∈ [Status.stopping, .cancelled, .interrupted], db.statusOf runId = some status

theorem careful_run_keeps (run : ReflTransGen CarefulStep first last) (proper : first.Proper)
    {runId : Text} (stopped : StopKept first.shared runId) : StopKept last.shared runId := by
  refine (run_keeps (fun calls => StopKept calls.shared runId ∧ calls.Proper)
    (fun calls next step hh => ?_) run ⟨stopped, proper⟩).1
  have statement := CarefulStep.statement calls next step
  refine ⟨?_, StatementStep.proper calls next statement hh.2⟩
  obtain ⟨status, isStatus, hs⟩ := hh.1
  rcases mem_cons.mp isStatus with rfl | he
  · exact CarefulStep.keepsStops calls next step hh.2 runId hs
  · refine ⟨status, isStatus, (StatementStep.follows calls next statement hh.2).terminal runId status ?_ hs⟩
    simp only [mem_cons, not_mem_nil, or_false] at he
    rcases he with rfl | rfl <;> decide

/-- Under every interleaving the indexes hold and terminal statuses stay; a stop stays in
force as long as no terminal write overtakes it. -/
theorem status_machine {db : Database} {middle last : Calls} (indexed : db.Indexed)
    (run : ReflTransGen StatementStep ⟨db, []⟩ middle)
    (more : ReflTransGen StatementStep middle last) :
    middle.shared.Indexed ∧
    (∀ runId, ∀ status ∈ terminalStatuses,
      middle.shared.statusOf runId = some status → last.shared.statusOf runId = some status) ∧
    (ReflTransGen CarefulStep middle last →
      ∀ runId, middle.shared.statusOf runId = some .stopping → StopKept last.shared runId) := by
  have proper : Calls.Proper ⟨db, []⟩ := ⟨indexed, by simp⟩
  obtain ⟨-, hr⟩ := run_follows run proper
  refine ⟨hr.shared, (run_follows more hr).1.terminal, fun careful runId stopping => ?_⟩
  exact careful_run_keeps careful hr ⟨_, by simp, stopping⟩

end Runs

def sampleRun : PromptRun := ⟨text "run", text "session", text "key", .running⟩

def sampleDatabase : Database := ⟨[text "session"], [sampleRun], []⟩

def stoppedDatabase : Database := ⟨[text "session"], [{ sampleRun with status := .stopping }], []⟩

theorem StatementStep.acts {db db' : Database} {before after : List Call} {call call' : Call}
    (ha : call.step db = (db', call')) :
    StatementStep ⟨db, before ++ call :: after⟩ ⟨db', before ++ call' :: after⟩ := .act ha

def cancelledDatabase : Database := ⟨[text "session"], [{ sampleRun with status := .cancelled }], []⟩

def stoppedCall : Call := .returned (.run { sampleRun with status := .stopping } true)

theorem sampleDatabase_indexed : sampleDatabase.Indexed := ⟨by decide, by decide, by decide⟩

theorem stop_run : ReflTransGen StatementStep ⟨sampleDatabase, []⟩ ⟨stoppedDatabase, [stoppedCall]⟩ :=
  calc ReflTransGen StatementStep ⟨sampleDatabase, []⟩
        ⟨sampleDatabase, [.cancel (text "run") (text "session")]⟩ :=
        .single (Pool.Step.spawn (.cancel _ _))
    ReflTransGen StatementStep _ ⟨sampleDatabase, [.cancelUpdate sampleRun]⟩ :=
        .single (@StatementStep.acts _ _ [] [] _ _ (by decide))
    ReflTransGen StatementStep _ ⟨stoppedDatabase, [stoppedCall]⟩ :=
        .single (@StatementStep.acts _ _ [] [] _ _ (by decide))

theorem late_writer : ReflTransGen CarefulStep ⟨stoppedDatabase, [stoppedCall]⟩
    ⟨cancelledDatabase, [stoppedCall, .returned (.terminal (text "session") .cancelled)]⟩ :=
  calc ReflTransGen CarefulStep ⟨stoppedDatabase, [stoppedCall]⟩
        ⟨stoppedDatabase, [stoppedCall, .setTerminal (text "run") .completed]⟩ :=
        .single (@Pool.Step.spawn _ _ _ _ stoppedDatabase [stoppedCall] _ (.setTerminal _ (by decide)))
    ReflTransGen CarefulStep _ ⟨stoppedDatabase,
          [stoppedCall, .terminalUpdate (text "run") (text "session") .cancelled]⟩ :=
        .single (@Pool.Step.act _ _ _ _ _ _ [stoppedCall] [] _ _ ⟨by unfold Call.Acts; decide, trivial⟩)
    ReflTransGen CarefulStep _ ⟨cancelledDatabase,
          [stoppedCall, .returned (.terminal (text "session") .cancelled)]⟩ :=
        .single (@Pool.Step.act _ _ _ _ _ _ [stoppedCall] [] _ _
            ⟨by unfold Call.Acts; decide, fun _ => by decide⟩)

theorem status_machine_sampleRun : stoppedDatabase.Indexed ∧ StopKept cancelledDatabase (text "run") := by
  have more := ReflTransGen.mono CarefulStep.statement _ _ late_writer
  obtain ⟨hi, -, hk⟩ := status_machine sampleDatabase_indexed stop_run more
  exact ⟨hi, hk late_writer (text "run") (by decide)⟩

/-- The terminal writer reads `running`, the stop is committed, the run completes. -/
theorem stop_overtaken :
    ∃ middle last : Calls, ReflTransGen StatementStep ⟨sampleDatabase, []⟩ middle ∧
      ReflTransGen StatementStep middle last ∧
      middle.shared.statusOf (text "run") = some .stopping ∧
      last.shared.statusOf (text "run") = some .completed := by
  let writer : Call := .terminalUpdate (text "run") (text "session") .completed
  refine ⟨⟨stoppedDatabase, [writer, stoppedCall]⟩, ⟨_, [(writer.step stoppedDatabase).2, stoppedCall]⟩,
    ?_, .single (@StatementStep.acts stoppedDatabase _ [] [stoppedCall] writer _ rfl), by decide,
    by decide⟩
  calc ReflTransGen StatementStep ⟨sampleDatabase, []⟩
        ⟨sampleDatabase, [.setTerminal (text "run") .completed]⟩ :=
        .single (Pool.Step.spawn (.setTerminal _ (by decide)))
    ReflTransGen StatementStep _ ⟨sampleDatabase, [writer]⟩ :=
        .single (@StatementStep.acts _ _ [] [] _ _ (by decide))
    ReflTransGen StatementStep _ ⟨sampleDatabase, [writer, .cancel (text "run") (text "session")]⟩ :=
        .single (@Pool.Step.spawn _ _ Call.Fresh Call.Acts sampleDatabase [writer] _ (.cancel _ _))
    ReflTransGen StatementStep _ ⟨sampleDatabase, [writer, .cancelUpdate sampleRun]⟩ :=
        .single (@StatementStep.acts _ _ [writer] [] _ _ (by decide))
    ReflTransGen StatementStep _ ⟨stoppedDatabase, [writer, stoppedCall]⟩ :=
        .single (@StatementStep.acts _ _ [writer] [] _ _ (by decide))

end Yinshi.Prompt
