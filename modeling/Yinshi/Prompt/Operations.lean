import Yinshi.Prompt.Process

/-! The database operations of a process: what their statements do to the rows of the
runs, and what an operation in progress knows of its run. -/

namespace Yinshi.Prompt
open ByteText Keyed Runs Relation List Option

def PromptRun.name (run : PromptRun) : Text × Text × Text := (run.sessionId, run.idempotencyKey, run.id)

namespace Database
variable {db db' : Database} {id : Text} {status : Status} {n : Nat}

def Reached (db : Database) (n : Nat) (id : Text) : Prop :=
  ∃ status, db.statusOf id = some status ∧ n ≤ status.rank

def names (db : Database) : List (Text × Text × Text) := db.runs.map PromptRun.name

structure Advances (db db' : Database) : Prop extends Follows db db' where
  rises : ∀ n id, db.Reached n id → db'.Reached n id
  names : db.names <+: db'.names

theorem Advances.refl (db : Database) : db.Advances db :=
  ⟨.refl db, fun _ _ hr => hr, prefix_refl _⟩

theorem Advances.trans {db'' : Database} (first : db.Advances db') (second : db'.Advances db'') :
    db.Advances db'' :=
  ⟨first.toFollows.trans second.toFollows,
    fun n id hr => second.rises n id (first.rises n id hr), first.names.trans second.names⟩

theorem advances_of_runs (hs : db'.runs = db.runs) : db.Advances db' := by
  refine ⟨follows_of_runs hs, fun n id hr => ?_, ?_⟩
  · rwa [Reached, statusOf, runById, hs]
  · rw [Database.names, Database.names, hs]

theorem advances_updateStatus {expected : List Status}
    (rises : ∀ old ∈ expected, old ∈ activeStatuses ∧ old.rank ≤ status.rank) :
    db.Advances (db.updateStatus id status expected) := by
  refine ⟨follows_updateStatus fun old ho => (rises old ho).1, ?_, ?_⟩
  · rintro _ _ ⟨old, hs, hr⟩
    refine ⟨_, by rw [statusOf_updateStatus, hs, map_some], ?_⟩
    split
    next hc => exact hr.trans (rises old hc.2).2
    next => exact hr
  · have hs : (db.updateStatus id status expected).names = db.names := by
      rw [Database.names, Database.names, updateStatus, List.map_map]
      refine map_congr_left fun run _ => ?_
      simp only [Function.comp_apply]
      split <;> rfl
    rw [hs]

theorem advances_insertRun {run : PromptRun} (inserted : db.insertRun run = some db') : db.Advances db' := by
  refine ⟨⟨fun hi => hi.insertRun inserted, fun _ _ _ => statusOf_insertRun inserted⟩, ?_, ?_⟩
  · rintro _ _ ⟨old, hs, hr⟩
    exact ⟨old, statusOf_insertRun inserted hs, hr⟩
  · rw [insertRun] at inserted
    split at inserted
    · simp at inserted
    · cases inserted
      exact ⟨[run.name], by simp [Database.names]⟩

theorem finalStatus_terminal {event : Event} (final : event.finalStatus = some status) :
    status ∈ terminalStatuses := by
  rcases finalStatus_cases event with h | h | h | h
  · rw [h.2.1] at final
    exact some.inj final ▸ by decide
  · rw [h.2.1] at final
    exact some.inj final ▸ by decide
  · rw [h.2.1] at final
    exact some.inj final ▸ by decide
  · rw [h.2.2.2.1] at final
    cases final

theorem derive_terminal (derived : db.deriveTerminalStatusFromEvents id = some status) :
    ∃ row ∈ db.rows id, row.event.finalStatus = some status := by
  obtain ⟨row, hl, final⟩ := exists_of_findSome?_eq_some derived
  refine ⟨row, ?_, final⟩
  rwa [mem_reverse, journal, mem_sortBy] at hl

theorem advances_recoverRun (row : PromptRun) : db.Advances (db.recoverRun row) := by
  rw [recoverRun]
  split
  · refine .trans (advances_of_runs ?_) (advances_updateStatus fun old active =>
      ⟨active, rank_le_terminal (by decide) old⟩)
    split <;> rfl
  next derived isDerived =>
    obtain ⟨_, -, final⟩ := derive_terminal isDerived
    refine advances_updateStatus fun old active => ⟨active, rank_le_terminal ?_ old⟩
    split
    · decide
    · exact finalStatus_terminal final

theorem advances_foldl (rows : List PromptRun) : db.Advances (rows.foldl recoverRun db) := by
  induction rows generalizing db with
  | nil => exact .refl db
  | cons row _ ih => exact .trans (advances_recoverRun row) ih

theorem Writes.advances (writes : db.Writes db') : db.Advances db' := by
  cases writes with
  | unchanged => exact .refl _
  | inserted new => exact advances_insertRun new
  | updated _ _ _ rises => exact advances_updateStatus rises
  | appended append => exact advances_of_runs append.attempt_runs
  | recovered => exact advances_foldl _

theorem reached_terminal : db.Reached 3 id ↔ ∃ status ∈ terminalStatuses, db.statusOf id = some status := by
  constructor
  · rintro ⟨status, hs, hr⟩
    refine ⟨status, ?_, hs⟩
    revert hr
    cases status <;> decide
  · rintro ⟨status, terminal, hs⟩
    refine ⟨status, hs, ?_⟩
    revert terminal
    cases status <;> decide

theorem reached_of_name {name : Text × Text × Text} (hl : name ∈ db.names) : db.Reached 0 name.2.2 := by
  obtain ⟨run, hr, rfl⟩ := mem_map.mp hl
  cases hf : db.runById run.id with
  | none => exact absurd (decide_eq_true rfl) (find?_eq_none.mp hf run hr)
  | some other => exact ⟨other.status, by rw [statusOf, PromptRun.name, hf, map_some], Nat.zero_le _⟩

end Database

section Operations
variable {db db' : Database} {id sessionId key runId : Text} {status : Status} {call : Call}
variable {run : PromptRun}

def Call.Starts (db : Database) (id sessionId key : Text) : Call → Prop
  | .start i s k | .startSession i s k | .startInsert i s k | .startRecheck i s k =>
    i = id ∧ s = sessionId ∧ k = key
  | .startActive _ | .returned (.raised _) => True
  | .returned (.run run created) =>
    run.name ∈ db.names ∧ run.sessionId = sessionId ∧ run.idempotencyKey = key ∧
      (created = true → run.id = id)
  | _ => False

/-- A call of `_set_status` before the executor, with how far the run had come. -/
def Call.SetsRunning (db : Database) (runId : Text) : Call → Prop
  | .setStatus r status expected | .setStatusUpdate r status expected =>
    r = runId ∧ status = .running ∧ expected = [.starting]
  | .returned .done => db.Reached 1 runId
  | .returned (.raised (.runStopping _)) => db.Reached 2 runId
  | .returned _ => True
  | _ => False

/-- A call of `_set_terminal_status`; another status than its own is that of a stop. -/
def Call.SetsTerminal (db : Database) (runId : Text) (status : Status) : Call → Prop
  | .setTerminal r final => r = runId ∧ final = status
  | .terminalUpdate r _ effective =>
    r = runId ∧ effective ∈ terminalStatuses ∧
      (effective = status ∨ effective = .cancelled ∧ db.Reached 2 runId)
  | .terminalReread r _ => r = runId
  | .returned _ => True
  | _ => False

/-- A call of `request_stop`, with a stop that is under way. -/
def Call.Stops (db : Database) (runId sessionId : Text) : Call → Prop
  | .cancel r s | .cancelReread r s => r = runId ∧ s = sessionId
  | .cancelUpdate run => run.id = runId ∧ run.sessionId = sessionId
  | .returned (.run _ true) => db.Reached 2 runId
  | .returned _ => True
  | _ => False

theorem Call.Starts.proper (hs : call.Starts db id sessionId key) : call.Proper := by
  cases call <;> simp_all [Call.Starts, Call.Proper]

theorem Call.SetsRunning.proper (sets : call.SetsRunning db runId) : call.Proper := by
  cases call <;> simp_all [Call.SetsRunning, Call.Proper]

theorem Call.SetsTerminal.proper (sets : call.SetsTerminal db runId status)
    (terminal : status ∈ terminalStatuses) : call.Proper := by
  cases call <;> simp_all [Call.SetsTerminal, Call.Proper]

theorem Call.Stops.proper (hs : call.Stops db runId sessionId) : call.Proper := by
  cases call <;> simp_all [Call.Stops, Call.Proper]

/-! Later states of the database. -/

theorem Call.Starts.mono (ha : db.Advances db') (hs : call.Starts db id sessionId key) :
    call.Starts db' id sessionId key := by
  unfold Call.Starts at *
  split at hs
  all_goals first
    | exact hs
    | exact ⟨ha.names.subset hs.1, hs.2⟩

theorem Call.SetsRunning.mono (ha : db.Advances db') (sets : call.SetsRunning db runId) :
    call.SetsRunning db' runId := by
  unfold Call.SetsRunning at *
  split at sets
  all_goals first
    | exact sets
    | exact ha.rises _ _ sets

theorem Call.SetsTerminal.mono (ha : db.Advances db') (sets : call.SetsTerminal db runId status) :
    call.SetsTerminal db' runId status := by
  unfold Call.SetsTerminal at *
  split at sets
  all_goals first
    | exact sets
    | exact ⟨sets.1, sets.2.1, sets.2.2.imp_right fun stopped => ⟨stopped.1, ha.rises _ _ stopped.2⟩⟩

theorem Call.Stops.mono (ha : db.Advances db') (hs : call.Stops db runId sessionId) :
    call.Stops db' runId sessionId := by
  unfold Call.Stops at *
  split at hs
  all_goals first
    | exact hs
    | exact ha.rises _ _ hs

/-! Their statements. -/

theorem Database.Indexed.statusOf_run (hi : db.Indexed) (hl : run ∈ db.runs) :
    db.statusOf run.id = some run.status := by
  have hf := (find?_eq_some_iff (fun run : PromptRun => run.id) hi.ids).mpr ⟨hl, rfl⟩
  rw [Database.statusOf, Database.runById, hf, map_some]

theorem Database.Indexed.statusOf_counted (hi : db.Indexed) {expected : List Status}
    (hc : db.updateCount runId expected = 1) : ∃ old ∈ expected, db.statusOf runId = some old := by
  obtain ⟨run, only⟩ := length_eq_one_iff.mp hc
  obtain ⟨hl, matched⟩ := mem_filter.mp (only ▸ mem_singleton_self run)
  obtain ⟨rfl, isExpected⟩ := of_decide_eq_true matched
  exact ⟨_, isExpected, hi.statusOf_run hl⟩

theorem Database.Indexed.statusOf_updated (hi : db.Indexed) {expected : List Status}
    (hc : db.updateCount runId expected = 1) :
    (db.updateStatus runId status expected).statusOf runId = some status := by
  obtain ⟨_, isExpected, hs⟩ := hi.statusOf_counted hc
  rw [statusOf_updateStatus, hs, map_some, if_pos ⟨rfl, isExpected⟩]

theorem runByKey_named (hf : db.runByKey sessionId key = some run) :
    run.name ∈ db.names ∧ run.sessionId = sessionId ∧ run.idempotencyKey = key := by
  have matched : run.sessionId = sessionId ∧ run.idempotencyKey = key := by simpa using find?_some hf
  exact ⟨mem_map_of_mem (mem_of_find?_eq_some hf), matched⟩

theorem Call.Starts.step (hs : call.Starts db id sessionId key) :
    (call.step db).2.Starts (call.step db).1 id sessionId key := by
  have hn : ∀ run, db.runByKey sessionId key = some run →
      (Call.returned (.run run (run.id = id))).Starts db id sessionId key := by
    intro run hf
    obtain ⟨hl, session, isKey⟩ := runByKey_named hf
    exact ⟨hl, session, isKey, of_decide_eq_true⟩
  cases call with
  | start i s k | startRecheck i s k =>
    obtain ⟨rfl, rfl, rfl⟩ := hs
    simp only [Call.step]
    split
    next run hf => exact hn run hf
    next => first | exact ⟨rfl, rfl, rfl⟩ | trivial
  | startSession i s k =>
    obtain ⟨rfl, rfl, rfl⟩ := hs
    simp only [Call.step]
    split
    · exact ⟨rfl, rfl, rfl⟩
    · trivial
  | startInsert _ s _ =>
    obtain ⟨rfl, rfl, rfl⟩ := hs
    simp only [Call.step]
    split
    next run hf => exact hn run hf
    next =>
      split
      next after inserted =>
        refine ⟨?_, rfl, rfl, fun _ => rfl⟩
        rw [Database.insertRun] at inserted
        split at inserted
        · simp at inserted
        · cases inserted
          simp [Database.names]
      next => exact ⟨rfl, rfl, rfl⟩
  | startActive _ =>
    simp only [Call.step]
    split <;> trivial
  | returned _ => exact hs
  | _ => exact hs.elim

theorem Call.SetsRunning.step (sets : call.SetsRunning db runId) (hi : db.Indexed) :
    (call.step db).2.SetsRunning (call.step db).1 runId ∧
    ((call.step db).2 = .returned .done →
      call = .returned .done ∨ (call.step db).1.statusOf runId = some .running) := by
  cases call with
  | setStatus r status expected =>
    obtain ⟨rfl, rfl, rfl⟩ := sets
    simp only [Call.step]
    split
    next hr => exact ⟨⟨_, hr, by decide⟩, fun _ => .inr hr⟩
    next =>
      split
      next stopping => exact ⟨⟨_, stopping.2, by decide⟩, by simp⟩
      next => exact ⟨⟨rfl, rfl, rfl⟩, by simp⟩
  | setStatusUpdate r _ _ =>
    obtain ⟨rfl, rfl, rfl⟩ := sets
    simp only [Call.step]
    split
    · exact ⟨trivial, by simp⟩
    next hc =>
      have hr : (db.updateStatus r .running [.starting]).statusOf r = some .running :=
        hi.statusOf_updated (not_not.mp hc)
      exact ⟨⟨_, hr, by decide⟩, fun _ => .inr hr⟩
  | returned _ => exact ⟨sets, .inl⟩
  | _ => exact sets.elim

theorem Call.SetsTerminal.step (sets : call.SetsTerminal db runId status)
    (terminal : status ∈ terminalStatuses) :
    (call.step db).2.SetsTerminal (call.step db).1 runId status := by
  cases call with
  | setTerminal r _ =>
    obtain ⟨rfl, rfl⟩ := sets
    simp only [Call.step]
    split
    · trivial
    next run hf =>
      split
      · trivial
      · split
        next stopping =>
          refine ⟨rfl, by decide, .inr ⟨rfl, run.status, ?_, by rw [stopping]; decide⟩⟩
          rw [Database.statusOf, hf, map_some]
        next => exact ⟨rfl, terminal, .inl rfl⟩
  | terminalUpdate r session _ =>
    simp only [Call.step]
    split
    · exact sets.1
    · trivial
  | terminalReread _ _ =>
    simp only [Call.step]
    repeat' split
    all_goals trivial
  | returned _ => trivial
  | _ => exact sets.elim

theorem Database.Indexed.statusOf_runOf (hi : db.Indexed)
    (hf : db.runOf runId sessionId = some run) :
    db.statusOf runId = some run.status ∧ run.id = runId ∧ run.sessionId = sessionId := by
  obtain ⟨rfl, session⟩ : run.id = runId ∧ run.sessionId = sessionId := by simpa using find?_some hf
  exact ⟨hi.statusOf_run (mem_of_find?_eq_some hf), rfl, session⟩

theorem Call.Stops.step (stops : call.Stops db runId sessionId) (hi : db.Indexed) :
    (call.step db).2.Stops (call.step db).1 runId sessionId := by
  cases call with
  | cancel r s | cancelReread r s =>
    obtain ⟨rfl, rfl⟩ := stops
    simp only [Call.step]
    split
    · trivial
    next run hf =>
      obtain ⟨hs, hr, session⟩ := hi.statusOf_runOf hf
      split
      · trivial
      · split
        next stopping => exact ⟨_, hs, by rw [stopping]; decide⟩
        next => first | exact ⟨hr, session⟩ | trivial
  | cancelUpdate _ =>
    obtain ⟨rfl, rfl⟩ := stops
    simp only [Call.step]
    split
    next hc => exact ⟨_, hi.statusOf_updated hc, by decide⟩
    next => exact ⟨rfl, rfl⟩
  | returned _ => exact stops
  | _ => exact stops.elim

end Operations

section Phases
variable {db db' : Database} {runId sessionId : Text} {closing : Bool} {append : AppendCall}
variable {phase : Phase} {move : Move}

theorem AppendCall.attempt_call (append : AppendCall) (db : Database) :
    ∃ intended, (append.attempt db).2.1 = { append with intendedSequence := intended } := by
  rw [AppendCall.attempt]
  split
  · exact ⟨_, rfl⟩
  · split
    · exact ⟨_, rfl⟩
    · split
      · exact ⟨_, rfl⟩
      · dsimp only
        split
        · exact ⟨_, rfl⟩
        · split
          · split <;> exact ⟨_, rfl⟩
          · exact ⟨_, rfl⟩

theorem AppendCall.advances_lost (append : AppendCall) (db : Database) (committed : Bool) :
    db.Advances (append.lost db committed) := by
  rw [AppendCall.lost]
  split
  · exact (Database.Writes.appended append).advances
  · exact .refl db

theorem Call.Proper.advances {call : Call} (proper : call.Proper) (db : Database) :
    db.Advances (call.step db).1 := (Call.step_writes proper db).advances

theorem Call.Proper.advances_lost {call : Call} (proper : call.Proper) (db : Database)
    (committed : Bool) : db.Advances (call.lost db committed) := by
  rw [Call.lost]
  split
  · exact proper.advances db
  · exact .refl db

def Phase.Formed (db : Database) (runId : Text) : Phase → Prop
  | .created => True
  | .setting call => call.SetsRunning db runId
  | .executing final | .unwinding final => final ∈ terminalStatuses
  | .appending final append => final ∈ terminalStatuses ∧ append.runId = runId
  | .guarding final append =>
    final ∈ terminalStatuses ∧ append.runId = runId ∧ append.unlessTerminal = true
  | .persisting final call => final ∈ terminalStatuses ∧ call.SetsTerminal db runId final

def CancelPhase.Formed (db : Database) (runId sessionId : Text) : CancelPhase → Prop
  | .requesting call => call.Stops db runId sessionId
  | .coordinating | .awaiting _ => db.Reached 2 runId
  | .appending append =>
    db.Reached 2 runId ∧ ∃ intended, append = { stopCall runId with intendedSequence := intended }
  | .terminating call => db.Reached 2 runId ∧ call.SetsTerminal db runId .cancelled

def ReconcileCall.Formed (db : Database) (call : ReconcileCall) : Prop :=
  call.status ∈ terminalStatuses ∧ call.call.SetsTerminal db call.runId call.status

theorem Phase.Formed.mono (ha : db.Advances db') (hf : phase.Formed db runId) : phase.Formed db' runId := by
  cases phase with
  | setting call => exact Call.SetsRunning.mono ha hf
  | persisting _ _ => exact ⟨hf.1, hf.2.mono ha⟩
  | _ => exact hf

theorem CancelPhase.Formed.mono {phase : CancelPhase} (ha : db.Advances db')
    (hf : phase.Formed db runId sessionId) : phase.Formed db' runId sessionId := by
  cases phase with
  | requesting call => exact Call.Stops.mono ha hf
  | coordinating | awaiting ref => exact ha.rises _ _ hf
  | appending _ => exact ⟨ha.rises _ _ hf.1, hf.2⟩
  | terminating _ => exact ⟨ha.rises _ _ hf.1, hf.2.mono ha⟩

theorem formed_failing : (failing runId).Formed db runId := ⟨by decide, rfl, rfl⟩

theorem formed_interrupted : (interrupted closing runId).Formed db runId := by
  rw [interrupted]
  split <;> exact ⟨by decide, rfl, rfl⟩

theorem failureStatus_terminal {event : Event} {final : Status}
    (terminal : final ∈ terminalStatuses) : event.failureStatus.getD final ∈ terminalStatuses := by
  rcases finalStatus_cases event with h | h | h | h
  · simpa [h] using terminal
  · simp [h, terminalStatuses]
  · simp [h, terminalStatuses]
  · simpa [h] using terminal

theorem Phase.Formed.turn {next : Phase} (hf : phase.Formed db runId) (hi : db.Indexed)
    (turns : phase.turn db closing runId move = some (.goes db' next)) :
    db.Advances db' ∧ next.Formed db' runId := by
  cases phase with
  | created =>
    cases move <;> simp only [Phase.turn, createdTurn, reduceCtorEq, some.injEq, Turn.goes.injEq] at turns
    obtain ⟨rfl, rfl⟩ := turns
    exact ⟨.refl _, rfl, rfl, rfl⟩
  | setting call =>
    cases move <;> simp only [Phase.turn, settingTurn, reduceCtorEq, some.injEq, Turn.goes.injEq] at turns
    case statement =>
      obtain ⟨rfl, rfl⟩ := turns
      exact ⟨(Call.SetsRunning.proper hf).advances db, (Call.SetsRunning.step hf hi).1⟩
    case lost committed =>
      obtain ⟨rfl, rfl⟩ := turns
      exact ⟨(Call.SetsRunning.proper hf).advances_lost db committed, rfl, rfl, rfl⟩
    case fail =>
      obtain ⟨rfl, rfl⟩ := turns
      exact ⟨.refl _, formed_failing⟩
    case resume =>
      split at turns <;> simp only [reduceCtorEq, some.injEq, Turn.goes.injEq] at turns
      · obtain ⟨rfl, rfl⟩ := turns
        exact ⟨.refl _, (by decide : Status.cancelled ∈ terminalStatuses)⟩
      · obtain ⟨rfl, rfl⟩ := turns
        exact ⟨.refl _, formed_failing⟩
    case interrupt =>
      obtain ⟨rfl, rfl⟩ := turns
      exact ⟨.refl _, formed_interrupted⟩
  | executing final =>
    cases move <;> simp only [Phase.turn, executingTurn, reduceCtorEq, some.injEq, Turn.goes.injEq] at turns
    case yields event =>
      split at turns <;> cases turns
      · exact ⟨.refl _, hf, rfl⟩
      · exact ⟨.refl _, formed_failing⟩
    case finish =>
      obtain ⟨rfl, rfl⟩ := turns
      exact ⟨.refl _, hf⟩
    case fail =>
      obtain ⟨rfl, rfl⟩ := turns
      exact ⟨.refl _, formed_failing⟩
    case interrupt =>
      obtain ⟨rfl, rfl⟩ := turns
      exact ⟨.refl _, formed_interrupted⟩
  | appending final append =>
    cases move <;> simp only [Phase.turn, appendingTurn, reduceCtorEq, some.injEq, Turn.goes.injEq] at turns
    case statement =>
      have ha := (@Database.Writes.appended db append).advances
      split at turns <;> cases turns
      next ran =>
        rw [ran] at ha
        exact ⟨ha, formed_failing⟩
      next _ ran =>
        rw [ran] at ha
        exact ⟨ha, failureStatus_terminal hf.1⟩
    case lost committed =>
      obtain ⟨rfl, rfl⟩ := turns
      obtain ⟨intended, hs⟩ := append.attempt_call db
      refine ⟨append.advances_lost db committed, hf.1, ?_⟩
      rw [hs]
      exact hf.2
    case fail =>
      obtain ⟨rfl, rfl⟩ := turns
      exact ⟨.refl _, formed_failing⟩
    case interrupt =>
      obtain ⟨rfl, rfl⟩ := turns
      exact ⟨.refl _, formed_interrupted⟩
  | guarding final append =>
    cases move <;> simp only [Phase.turn, guardingTurn, reduceCtorEq, some.injEq, Turn.goes.injEq] at turns
    case statement =>
      obtain ⟨rfl, rfl⟩ := turns
      exact ⟨(Database.Writes.appended append).advances, hf.1⟩
    case lost committed =>
      obtain ⟨rfl, rfl⟩ := turns
      obtain ⟨_, hs⟩ := append.attempt_call db
      refine ⟨append.advances_lost db committed, hf.1, ?_⟩
      rw [hs]
      exact hf.2
    case fail =>
      obtain ⟨rfl, rfl⟩ := turns
      exact ⟨.refl _, hf.1⟩
    case interrupt =>
      obtain ⟨rfl, rfl⟩ := turns
      exact ⟨.refl _, hf.1⟩
  | unwinding final =>
    cases move <;> simp only [Phase.turn, unwindingTurn, reduceCtorEq, some.injEq, Turn.goes.injEq] at turns
    case resume =>
      obtain ⟨rfl, rfl⟩ := turns
      exact ⟨.refl _, hf, rfl, rfl⟩
    case interrupt =>
      obtain ⟨rfl, rfl⟩ := turns
      exact ⟨.refl _, hf, rfl, rfl⟩
  | persisting _ _ =>
    obtain ⟨terminal, sets⟩ := hf
    cases move <;> simp only [Phase.turn, persistingTurn, reduceCtorEq, some.injEq, Turn.goes.injEq] at turns
    case statement =>
      obtain ⟨rfl, rfl⟩ := turns
      exact ⟨(sets.proper terminal).advances db, terminal, sets.step terminal⟩
    case lost committed =>
      obtain ⟨rfl, rfl⟩ := turns
      exact ⟨(sets.proper terminal).advances_lost db committed, terminal, rfl, rfl⟩
    case resume => split at turns <;> simp at turns

theorem retains_persisting {status : Status}
    (turns : phase.turn db closing runId move = some (.retains status)) :
    ∃ call, phase = .persisting status call := by
  cases phase with
  | persisting final call =>
    cases move <;>
      simp only [Phase.turn, persistingTurn, reduceCtorEq, some.injEq, Turn.retains.injEq] at turns
    case fail =>
      subst turns
      exact ⟨_, rfl⟩
    case resume =>
      split at turns <;> simp only [reduceCtorEq, some.injEq, Turn.retains.injEq] at turns
      subst turns
      exact ⟨_, rfl⟩
  | created => cases move <;> simp [Phase.turn, createdTurn] at turns
  | setting _ =>
    cases move <;> simp [Phase.turn, settingTurn] at turns
    split at turns <;> simp at turns
  | executing final =>
    cases move <;> simp [Phase.turn, executingTurn] at turns
    split at turns <;> simp at turns
  | appending final append =>
    cases move <;> simp [Phase.turn, appendingTurn] at turns
    split at turns <;> simp at turns
  | guarding final _ => cases move <;> simp [Phase.turn, guardingTurn] at turns
  | unwinding _ => cases move <;> simp [Phase.turn, unwindingTurn] at turns

theorem CancelCall.Formed.turn {call : CancelCall} {live : Nat → Bool} {raised : List Nat}
    {task : Option Nat} {turn : CancelTurn} (hf : call.phase.Formed db call.runId call.sessionId)
    (hi : db.Indexed) (turns : call.turn db live raised task move = some turn) :
    db.Advances turn.db ∧ ∀ phase ∈ turn.phase, phase.Formed turn.db call.runId call.sessionId := by
  obtain ⟨runId, _, phase⟩ := call
  dsimp only at hf ⊢
  cases phase with
  | requesting _ =>
    have proper := Call.Stops.proper hf
    cases move <;> simp only [CancelCall.turn, requestingTurn, reduceCtorEq, some.injEq] at turns
    case statement =>
      subst turns
      refine ⟨proper.advances db, fun phase next => ?_⟩
      exact some.inj next ▸ Call.Stops.step hf hi
    case lost committed =>
      subst turns
      refine ⟨proper.advances_lost db committed, fun phase next => ?_⟩
      exact some.inj next ▸ ⟨rfl, rfl⟩
    case fail =>
      subst turns
      exact ⟨.refl _, by simp⟩
    case resume =>
      split at turns <;> simp only [reduceCtorEq, some.injEq] at turns
      · subst turns
        exact ⟨.refl _, fun phase next => some.inj next ▸ hf⟩
      · subst turns
        exact ⟨.refl _, by simp⟩
  | coordinating =>
    cases move <;> simp only [CancelCall.turn, coordinatingTurn, reduceCtorEq, some.injEq] at turns
    case resume =>
      split at turns <;> cases turns
      · exact ⟨.refl _, fun phase next => some.inj next ▸ hf⟩
      · exact ⟨.refl _, fun phase next => some.inj next ▸ ⟨hf, _, rfl⟩⟩
    case fail =>
      subst turns
      exact ⟨.refl _, by simp⟩
  | awaiting _ =>
    cases move <;> simp only [CancelCall.turn, awaitingTurn, reduceCtorEq] at turns
    case resume =>
      split at turns
      · simp at turns
      · split at turns <;> cases turns
        · exact ⟨.refl _, by simp⟩
        · exact ⟨.refl _, fun phase next => some.inj next ▸ ⟨hf, _, rfl⟩⟩
    case interrupt =>
      split at turns
      · cases turns
        exact ⟨.refl _, fun phase next => some.inj next ▸ hf⟩
      · simp at turns
  | appending _ =>
    obtain ⟨stopped, intended, rfl⟩ := hf
    have ha := (@Database.Writes.appended db { stopCall runId with intendedSequence := intended }).advances
    cases move <;> simp only [CancelCall.turn, stopAppendingTurn, reduceCtorEq, some.injEq] at turns
    case statement =>
      split at turns <;> cases turns
      next ran =>
        rw [ran] at ha
        exact ⟨ha, by simp⟩
      next _ ran =>
        rw [ran] at ha
        refine ⟨ha, fun phase next => some.inj next ▸ ⟨?_, rfl, rfl⟩⟩
        exact ha.rises _ _ stopped
    case lost committed =>
      subst turns
      have hk := AppendCall.advances_lost { stopCall runId with intendedSequence := intended } db committed
      obtain ⟨later, hs⟩ := AppendCall.attempt_call { stopCall runId with intendedSequence := intended } db
      refine ⟨hk, fun phase next => some.inj next ▸ ⟨hk.rises _ _ stopped, later, ?_⟩⟩
      rw [hs]
    case fail =>
      subst turns
      exact ⟨.refl _, by simp⟩
  | terminating _ =>
    obtain ⟨stopped, sets⟩ := hf
    have proper := sets.proper (by decide)
    cases move <;> simp only [CancelCall.turn, terminatingTurn, reduceCtorEq, some.injEq] at turns
    case statement =>
      subst turns
      refine ⟨proper.advances db, fun phase next => some.inj next ▸ ⟨?_, ?_⟩⟩
      · exact (proper.advances db).rises _ _ stopped
      · exact sets.step (by decide)
    case lost committed =>
      subst turns
      refine ⟨proper.advances_lost db committed, fun phase next => some.inj next ▸ ⟨?_, rfl, rfl⟩⟩
      exact (proper.advances_lost db committed).rises _ _ stopped
    case fail =>
      subst turns
      exact ⟨.refl _, by simp⟩
    case resume =>
      split at turns <;> simp only [reduceCtorEq, some.injEq] at turns
      subst turns
      exact ⟨.refl _, by simp⟩

end Phases

end Yinshi.Prompt
