import Yinshi.Prompt.Execution

/-! Stops and terminal statuses: what the statements and the consumers of a process do to the
journals of runs that are stopping or over. -/

namespace Yinshi.Prompt
open ByteText Keyed Runs Relation List Option

def Event.Typed (typeOf : Bytes → Option Text) (event : Event) : Prop := event.type = typeOf event.json

/-- A reader of the `type` field agrees with the events of the journal itself. -/
structure Parses (typeOf : Bytes → Option Text) : Prop where
  userStop : userStopEvent.Typed typeOf
  interrupted : interruptedEvent.Typed typeOf
  executionFailed : executionFailedEvent.Typed typeOf

namespace Database
variable {db db' : Database} {runId : Text} {typeOf : Bytes → Option Text}
variable {status : Status} {ends : Text → Prop}

def UserStopped (db : Database) (runId : Text) : Prop :=
  ∃ row ∈ db.rows runId, row.event.json = userStopEvent.json

def CancelStored (db : Database) (runId : Text) : Prop :=
  ∃ row ∈ db.rows runId, row.event.type = some cancelledType

/-- The run is still stopping, or the event of `cancel` is stored. -/
def Stopped (db : Database) (runId : Text) : Prop :=
  db.statusOf runId = some .stopping ∨ db.UserStopped runId

/-- What allows the status `cancelled`: its event, or a stop that brings it. -/
def Excused (db : Database) (runId : Text) : Prop := db.CancelStored runId ∨ db.Reached 2 runId

def Typed (typeOf : Bytes → Option Text) (db : Database) : Prop :=
  ∀ row ∈ db.events, row.event.Typed typeOf

theorem mem_rows {row : EventRow} : row ∈ db.rows runId ↔ row ∈ db.events ∧ row.runId = runId := by
  simp [rows]

theorem Typed.of_json (ht : db.Typed typeOf) {event : Event} (isTyped : event.Typed typeOf)
    (hc : event.type = some cancelledType)
    (hk : ∃ row ∈ db.rows runId, row.event.json = event.json) : db.CancelStored runId := by
  obtain ⟨row, hl, hs⟩ := hk
  refine ⟨row, hl, ?_⟩
  rw [ht row (mem_rows.1 hl).1, hs, ← isTyped, hc]

theorem Typed.userStopped (ht : db.Typed typeOf) (parses : Parses typeOf)
    (stopped : db.UserStopped runId) : db.CancelStored runId :=
  ht.of_json parses.userStop rfl stopped

/-- Journals grow, those of terminal runs stay, and a run is cancelled with its event. Only
the runs of `ends` may become terminal. -/
structure Proceeds (typeOf : Bytes → Option Text) (ends : Text → Prop) (db db' : Database) : Prop
    extends Advances db db' where
  grows : db.events <+: db'.events
  typed : db'.Typed typeOf
  closed : ∀ runId, db.Reached 3 runId → db'.rows runId = db.rows runId
  fewer : ∀ runId, db'.Reached 3 runId → db.Reached 3 runId ∨ ends runId
  cancelled : ∀ runId, db'.statusOf runId = some .cancelled →
    db.statusOf runId = some .cancelled ∨ db'.CancelStored runId

section
variable (grows : db.events <+: db'.events)
include grows

theorem rows_grow (runId : Text) : db.rows runId <+: db'.rows runId :=
  grows.filter _

theorem UserStopped.mono (stopped : db.UserStopped runId) : db'.UserStopped runId := by
  obtain ⟨row, hl, hs⟩ := stopped
  exact ⟨row, (rows_grow grows runId).subset hl, hs⟩

theorem CancelStored.mono (stored : db.CancelStored runId) : db'.CancelStored runId := by
  obtain ⟨row, hl, hs⟩ := stored
  exact ⟨row, (rows_grow grows runId).subset hl, hs⟩

theorem Excused.mono (ha : db.Advances db') (excused : db.Excused runId) : db'.Excused runId :=
  excused.imp (fun hs => hs.mono grows) (ha.rises _ _)

end

theorem not_terminal_of_rank (hs : db.statusOf runId = some status)
    (lower : status.rank < 3) : ¬ db.Reached 3 runId := by
  rintro ⟨_, also, _⟩
  rw [hs] at also
  cases also
  omega

theorem Proceeds.refl (ht : db.Typed typeOf) : db.Proceeds typeOf ends db :=
  ⟨.refl db, prefix_refl _, ht, fun _ _ => rfl, fun _ hr => .inl hr,
    fun _ hs => .inl hs⟩

theorem statusOf_inserted {run : PromptRun} (inserted : db.insertRun run = some db')
    (hs : db'.statusOf runId = some status) :
    db.statusOf runId = some status ∨ status = run.status := by
  rw [insertRun] at inserted
  split at inserted
  · simp at inserted
  · cases inserted
    rw [statusOf, runById, find?_append] at hs
    cases hf : db.runs.find? (·.id = runId) with
    | some _ =>
      left
      rw [statusOf, runById, hf]
      simpa [hf] using hs
    | none =>
      right
      simp only [hf, none_or, find?_singleton] at hs
      split at hs
      · exact (some.inj hs).symm
      · simp at hs

theorem proceeds_insertRun {run : PromptRun} (inserted : db.insertRun run = some db')
    (starting : run.status = .starting) (ht : db.Typed typeOf) : db.Proceeds typeOf ends db' := by
  have events : db'.events = db.events := by
    rw [insertRun] at inserted
    split at inserted
    · simp at inserted
    · rw [← some.inj inserted]
  have hs : ∀ runId, db'.rows runId = db.rows runId := fun runId => by rw [rows, rows, events]
  refine ⟨advances_insertRun inserted, events ▸ prefix_refl _, ?_, fun runId _ => hs runId, ?_, ?_⟩
  · rw [Typed, events]
    exact ht
  · rintro runId ⟨status, isStatus, hr⟩
    rcases statusOf_inserted inserted isStatus with old | new
    · exact .inl ⟨status, old, hr⟩
    · rw [new, starting] at hr
      simp [Status.rank] at hr
  · intro _ hc
    rcases statusOf_inserted inserted hc with old | new
    · exact .inl old
    · simp [starting] at new

theorem statusOf_updated_cases {id : Text} {later : Status} {expected : List Status}
    (hs : (db.updateStatus id status expected).statusOf runId = some later) :
    db.statusOf runId = some later ∨
    runId = id ∧ later = status ∧ ∃ old ∈ expected, db.statusOf runId = some old := by
  rw [statusOf_updateStatus] at hs
  obtain ⟨old, ho, hc⟩ := map_eq_some_iff.mp hs
  split at hc
  next own => exact .inr ⟨own.1, hc.symm, old, own.2, ho⟩
  next => exact .inl (hc ▸ ho)

theorem proceeds_updateStatus {id : Text} {expected : List Status}
    (rises : ∀ old ∈ expected, old ∈ activeStatuses ∧ old.rank ≤ status.rank) (ht : db.Typed typeOf)
    (allowed : status.rank = 3 → ends id)
    (stored : status = .cancelled →
      ∀ old ∈ expected, db.statusOf id = some old → db.CancelStored id) :
    db.Proceeds typeOf ends (db.updateStatus id status expected) := by
  refine ⟨advances_updateStatus rises, prefix_refl _, ht, fun _ _ => rfl, ?_, ?_⟩
  · rintro runId ⟨later, hs, hr⟩
    rcases statusOf_updated_cases hs with old | ⟨rfl, rfl, -⟩
    · exact .inl ⟨later, old, hr⟩
    · refine .inr (allowed ?_)
      revert hr
      cases later <;> simp [Status.rank]
  · intro _ hc
    rcases statusOf_updated_cases hc with old | ⟨rfl, isStatus, old, ho, hs⟩
    · exact .inl old
    · exact .inr (stored isStatus.symm old ho hs)

theorem proceeds_insertEvent {sequence : Nat} {event : Event} (isTyped : event.Typed typeOf)
    (ht : db.Typed typeOf) (isOpen : ¬ db.Reached 3 runId) :
    db.Proceeds typeOf ends (db.insertEvent runId sequence event) := by
  have grows : db.events <+: (db.insertEvent runId sequence event).events := prefix_append _ _
  refine ⟨advances_of_runs rfl, grows, fun row hl => ?_, fun other hr => ?_,
    fun _ hr => .inl hr, fun _ hs => .inl hs⟩
  · rcases mem_append.mp hl with old | new
    · exact ht row old
    · rw [mem_singleton.mp new]
      exact isTyped
  · rw [rows_insertEvent, if_neg, append_nil]
    rintro rfl
    exact isOpen hr

theorem recoverRun_events (parses : Parses typeOf) (row : PromptRun) (ht : db.Typed typeOf) :
    db.events <+: (db.recoverRun row).events ∧ (db.recoverRun row).Typed typeOf := by
  rw [recoverRun]
  split
  · dsimp only
    split
    · refine ⟨prefix_append _ _, fun other hl => ?_⟩
      rcases mem_append.mp hl with old | new
      · exact ht other old
      · rw [mem_singleton.mp new]
        exact parses.interrupted
    · exact ⟨prefix_refl _, ht⟩
  · exact ⟨prefix_refl _, ht⟩

theorem foldl_recover_events (parses : Parses typeOf) (active : List PromptRun)
    (ht : db.Typed typeOf) :
    db.events <+: (active.foldl recoverRun db).events ∧
    (active.foldl recoverRun db).Typed typeOf := by
  induction active generalizing db with
  | nil => exact ⟨prefix_refl _, ht⟩
  | cons row _ ih =>
    obtain ⟨first, hk⟩ := recoverRun_events parses row ht
    obtain ⟨rest, final⟩ := ih hk
    exact ⟨first.trans rest, final⟩

theorem recover_other (hi : db.Indexed)
    (inactive : ∀ status ∈ activeStatuses, db.statusOf runId ≠ some status) :
    db.recoverPromptDatabase.statusOf runId = db.statusOf runId ∧
    db.recoverPromptDatabase.rows runId = db.rows runId := by
  refine foldl_recover_other fun row hl hs => ?_
  obtain ⟨hr, active⟩ := mem_filter.mp hl
  exact inactive row.status (of_decide_eq_true active) (hs ▸ hi.statusOf_run hr)

/-- A stopping run that recovery cancels has the event of its stop. -/
def Recoverable (db : Database) : Prop :=
  ∀ run ∈ db.runs, run.status = .stopping → db.deriveTerminalStatusFromEvents run.id ≠ none →
    db.UserStopped run.id

theorem proceeds_recover (hi : db.Indexed) (ht : db.Typed typeOf) (parses : Parses typeOf)
    (recoverable : db.Recoverable) :
    db.Proceeds typeOf (fun _ => True) db.recoverPromptDatabase := by
  obtain ⟨grows, hk⟩ := foldl_recover_events parses (db.runs.filter (·.status ∈ activeStatuses)) ht
  refine ⟨Writes.recovered.advances, grows, hk, fun runId reached => ?_, fun _ _ => .inr trivial,
    fun runId hc => ?_⟩
  · refine (recover_other hi fun status active hs => ?_).2
    obtain ⟨_, ho, also⟩ := reached_terminal.mp reached
    rw [hs] at also
    exact terminal_not_active ho (some.inj also ▸ active)
  · by_cases inactive : ∀ status ∈ activeStatuses, db.statusOf runId ≠ some status
    · exact .inl ((recover_other hi inactive).1 ▸ hc)
    · right
      push Not at inactive
      obtain ⟨_, active, hs⟩ := inactive
      obtain ⟨run, hf, rfl⟩ := map_eq_some_iff.mp hs
      rw [statusOf_recover hi hf active, recoveredStatus] at hc
      have isRun := (find?_eq_some_iff (fun run : PromptRun => run.id) hi.ids).mp hf
      obtain ⟨hl, rfl⟩ := isRun
      cases isDerived : db.deriveTerminalStatusFromEvents run.id with
      | none => simp [isDerived] at hc
      | some _ =>
        refine CancelStored.mono grows ?_
        simp only [isDerived, some.injEq] at hc
        split at hc
        next stopping => exact ht.userStopped parses (recoverable run hl stopping (by simp [isDerived]))
        next =>
          subst hc
          obtain ⟨row, hr, final⟩ := derive_terminal isDerived
          refine ⟨row, hr, ?_⟩
          rcases finalStatus_cases row.event with h | h | h | h
          · simp [h] at final
          · exact h.1
          · simp [h] at final
          · simp [h] at final

end Database

section Appends
variable {db : Database} {append : AppendCall} {typeOf : Bytes → Option Text}

theorem AppendCall.attempt_events (append : AppendCall) (db : Database) :
    (append.attempt db).1 = db ∨
    ∃ sequence,
      (append.attempt db).1 = db.insertEvent append.runId sequence append.event ∧
      (append.unlessTerminal = true → ¬ db.Reached 2 append.runId) ∧
      (append.deduplicate = true → ¬ ∃ row ∈ db.rows append.runId,
        row.event.json = append.event.json) := by
  rw [AppendCall.attempt]
  split
  · exact .inl rfl
  next run found =>
    split
    · exact .inl rfl
    next live =>
      split
      · exact .inl rfl
      next hf =>
        dsimp only
        split
        · exact .inl rfl
        · split
          · split <;> exact .inl rfl
          · refine .inr ⟨_, rfl, fun hg reached => live ⟨hg, ?_⟩, fun deduplicate hk => hf ⟨deduplicate, ?_⟩⟩
            · obtain ⟨_, hs, rank⟩ := reached
              rw [Database.statusOf, found, map_some] at hs
              cases hs
              revert rank
              cases run.status <;> simp [Status.rank, terminalStatuses]
            · obtain ⟨row, hl, json⟩ := hk
              obtain ⟨hr, own⟩ := Database.mem_rows.mp hl
              exact ⟨row, hr, own, json⟩

theorem AppendCall.attempt_known (hp : append.unlessTerminal = false)
    (normal : ∀ error, (append.attempt db).2.2 ≠ .raised error) :
    ∃ row ∈ (append.attempt db).1.rows append.runId, row.event.json = append.event.json := by
  rw [AppendCall.attempt] at normal ⊢
  split at normal
  · exact absurd rfl (normal _)
  · split at normal
    next skips => simp [hp] at skips
    next live =>
      rw [if_neg live]
      split at normal
      next repeated =>
        rw [if_pos repeated]
        obtain ⟨row, hr, own, json⟩ := repeated.2
        exact ⟨row, Database.mem_rows.mpr ⟨hr, own⟩, json⟩
      next fresh =>
        rw [if_neg fresh]
        dsimp only at normal ⊢
        split at normal
        · exact absurd rfl (normal _)
        next room =>
          rw [if_neg room]
          split at normal
          next stored isStored =>
            split at normal
            · exact absurd rfl (normal _)
            next hs =>
              rw [if_neg hs]
              obtain ⟨row, hf, rfl⟩ := map_eq_some_iff.mp isStored
              have matched := find?_some hf
              simp only [decide_eq_true_eq] at matched
              exact ⟨row, Database.mem_rows.mpr ⟨mem_of_find?_eq_some hf, matched.1⟩, not_not.mp hs⟩
          next => refine ⟨_, Database.mem_rows.mpr ⟨mem_append_right _ (mem_singleton_self _), rfl⟩, rfl⟩

theorem AppendCall.proceeds {ends : Text → Prop} (append : AppendCall) (ht : db.Typed typeOf)
    (isTyped : append.event.Typed typeOf)
    (isOpen : append.unlessTerminal = true ∨ ¬ db.Reached 3 append.runId ∨
      append.deduplicate = true ∧
      ∃ row ∈ db.rows append.runId, row.event.json = append.event.json) :
    db.Proceeds typeOf ends (append.attempt db).1 := by
  rcases append.attempt_events db with hs | ⟨_, hs, live, hf⟩
  · rw [hs]
    exact .refl ht
  · rw [hs]
    refine Database.proceeds_insertEvent isTyped ht ?_
    rcases isOpen with hg | isOpen | ⟨deduplicate, hk⟩
    · rintro ⟨status, found, _⟩
      exact live hg ⟨status, found, by omega⟩
    · exact isOpen
    · exact absurd hk (hf deduplicate)

end Appends

structure Database.Settles (typeOf : Bytes → Option Text) (ends : Text → Prop) (db db' : Database) :
    Prop extends Proceeds typeOf ends db db' where
  stopped : ∀ runId, db.Stopped runId → db'.Stopped runId

section Statements
variable {db db' : Database} {typeOf : Bytes → Option Text} {ends : Text → Prop} {call : Call}
  {runId sessionId id key : Text} {status : Status} {committed : Bool}

theorem Database.Proceeds.settles (proceeds : db.Proceeds typeOf ends db')
    (stays : ∀ runId, db.statusOf runId = some .stopping → db'.Stopped runId) :
    db.Settles typeOf ends db' :=
  ⟨proceeds, fun runId stopped => stopped.elim (stays runId) fun hs => .inr (hs.mono proceeds.grows)⟩

theorem Database.Settles.refl (ht : db.Typed typeOf) : db.Settles typeOf ends db :=
  (Proceeds.refl ht).settles fun _ stopping => .inl stopping

theorem AppendCall.settles (append : AppendCall)
    (proceeds : db.Proceeds typeOf ends (append.attempt db).1) :
    db.Settles typeOf ends (append.attempt db).1 := by
  refine proceeds.settles fun runId stopping => .inl ?_
  rw [Database.statusOf, Database.runById, append.attempt_runs]
  exact stopping

theorem settles_updateStatus {expected : List Status}
    (rises : ∀ old ∈ expected, old ∈ activeStatuses ∧ old.rank ≤ status.rank) (ht : db.Typed typeOf)
    (allowed : status.rank = 3 → ends id)
    (hs : status = .cancelled → ∀ old ∈ expected, db.statusOf id = some old → db.CancelStored id)
    (stop : .stopping ∈ expected → db.statusOf id = some .stopping → db.UserStopped id) :
    db.Settles typeOf ends (db.updateStatus id status expected) := by
  refine (Database.proceeds_updateStatus rises ht allowed hs).settles fun other stopping => ?_
  by_cases own : other = id ∧ Status.stopping ∈ expected
  · exact .inr (own.1 ▸ stop own.2 (own.1 ▸ stopping))
  · left
    rw [Database.statusOf_updateStatus, stopping, map_some, if_neg own]

theorem settles_lost (ht : db.Typed typeOf)
    (hs : committed = true → db.Settles typeOf ends (call.step db).1) :
    db.Settles typeOf ends (call.lost db committed) := by
  rw [Call.lost]
  split
  next isCommitted => exact hs isCommitted
  next => exact .refl ht

theorem AppendCall.settles_lost {append : AppendCall} (ht : db.Typed typeOf)
    (hs : db.Settles typeOf ends (append.attempt db).1) :
    db.Settles typeOf ends (append.lost db committed) := by
  rw [AppendCall.lost]
  split
  · exact hs
  · exact .refl ht

theorem Call.Starts.settles (hs : call.Starts db id sessionId key) (ht : db.Typed typeOf) :
    db.Settles typeOf ends (call.step db).1 := by
  cases call with
  | startInsert _ _ _ =>
    simp only [Call.step]
    split
    · exact .refl ht
    · split
      next inserted =>
        refine (Database.proceeds_insertRun inserted rfl ht).settles fun other stopping => ?_
        exact .inl (Database.statusOf_insertRun inserted stopping)
      next => exact .refl ht
  | start | startSession | startRecheck | startActive | returned =>
    simp only [Call.step]
    repeat' split
    all_goals exact .refl ht
  | _ => exact hs.elim

theorem Call.SetsRunning.settles (sets : call.SetsRunning db runId) (ht : db.Typed typeOf) :
    db.Settles typeOf ends (call.step db).1 := by
  cases call with
  | setStatusUpdate _ _ _ =>
    obtain ⟨rfl, rfl, rfl⟩ := sets
    exact settles_updateStatus (by decide) ht (by simp [Status.rank]) (by simp) (by simp)
  | setStatus | returned =>
    simp only [Call.step]
    repeat' split
    all_goals exact .refl ht
  | _ => exact sets.elim

theorem Call.Stops.settles (hs : call.Stops db runId sessionId) (ht : db.Typed typeOf) :
    db.Settles typeOf ends (call.step db).1 := by
  cases call with
  | cancelUpdate _ =>
    simp only [Call.step]
    split
    · exact settles_updateStatus (by decide) ht (by simp [Status.rank]) (by simp) (by simp)
    · exact .refl ht
  | cancel | cancelReread | returned =>
    simp only [Call.step]
    repeat' split
    all_goals exact .refl ht
  | _ => exact hs.elim

def Call.Terminates (runId : Text) : Call → Prop
  | .terminalUpdate r _ _ => r = runId
  | _ => False

theorem Call.SetsTerminal.settles (sets : call.SetsTerminal db runId status) (ht : db.Typed typeOf)
    (parses : Parses typeOf) (excused : status = .cancelled → db.Excused runId)
    (stop : call.Terminates runId → db.statusOf runId = some .stopping → db.UserStopped runId)
    (allowed : call.Terminates runId → ends runId) : db.Settles typeOf ends (call.step db).1 := by
  cases call with
  | terminalUpdate r _ _ =>
    obtain ⟨rfl, terminal, own⟩ := sets
    simp only [Call.step]
    split
    · exact .refl ht
    · refine settles_updateStatus (fun old active => ⟨active, rank_le_terminal terminal old⟩) ht
        (fun _ => allowed rfl) (fun hc old active hs => ?_) fun _ => stop rfl
      subst hc
      have past : db.Reached 2 r → db.CancelStored r := by
        rintro ⟨_, also, hr⟩
        refine ht.userStopped parses (stop rfl ?_)
        rw [hs] at also ⊢
        cases also
        revert active hr
        cases old <;> simp [activeStatuses, Status.rank]
      rcases own with rfl | ⟨-, stopped⟩
      · exact (excused rfl).elim id past
      · exact past stopped
  | setTerminal | terminalReread | returned =>
    simp only [Call.step]
    repeat' split
    all_goals exact .refl ht
  | _ => exact sets.elim

end Statements

def Phase.Live : Phase → Prop
  | .setting (.returned .done) | .executing _ | .appending _ _ => True
  | _ => False

def Phase.Sound (typeOf : Bytes → Option Text) (db : Database) (runId : Text) : Phase → Prop
  | .created | .setting _ => True
  | .executing final | .unwinding final | .persisting final _ => final = .cancelled → db.Excused runId
  | .appending final append =>
    (final = .cancelled → db.Excused runId) ∧ append.event.Typed typeOf ∧ append.unlessTerminal = false
  | .guarding final append => (final = .cancelled → db.Excused runId) ∧ append.event.Typed typeOf

/-- What the steps of a consumer rest on: it is interrupted for a stop or at shutdown, the
executor yields typed events, and a stop has its event before the terminal write. -/
structure Phase.Orderly (typeOf : Bytes → Option Text) (db : Database) (closing : Bool)
    (runId : Text) (phase : Phase) (move : Move) : Prop where
  flagged : move = .interrupt → closing = true ∨ db.Reached 2 runId
  yields : ∀ event, move = .yields event → event.Typed typeOf
  stop : move = .statement ∨ move = .lost true → ∀ final call, phase = .persisting final call →
    call.Terminates runId → db.statusOf runId = some .stopping → db.UserStopped runId

section Consuming
variable {db db' : Database} {typeOf : Bytes → Option Text} {runId : Text} {closing : Bool}
  {phase next : Phase} {move : Move}

theorem Phase.Sound.mono (grows : db.events <+: db'.events) (ha : db.Advances db')
    (hs : phase.Sound typeOf db runId) : phase.Sound typeOf db' runId := by
  cases phase with
  | created | setting call => trivial
  | executing final | unwinding final | persisting final call => exact fun hc => (hs hc).mono grows ha
  | appending final append | guarding final append => exact ⟨fun hc => (hs.1 hc).mono grows ha, hs.2⟩

theorem sound_failing (parses : Parses typeOf) : (failing runId).Sound typeOf db runId :=
  ⟨by simp, parses.executionFailed⟩

theorem sound_interrupted (parses : Parses typeOf) (flagged : closing = true ∨ db.Reached 2 runId) :
    (interrupted closing runId).Sound typeOf db runId := by
  rw [interrupted]
  split
  next => exact ⟨by simp, parses.interrupted⟩
  next hs =>
    refine ⟨fun _ => .inr ?_, parses.userStop⟩
    simpa [hs] using flagged

theorem not_live_interrupted : ¬ (interrupted closing runId).Live := by
  rw [interrupted]
  split <;> exact id

/-- What a move of a consumer does: only one that is no longer live ends its run. -/
structure Phase.Settled (typeOf : Bytes → Option Text) (db db' : Database) (runId : Text)
    (phase next : Phase) : Prop where
  settles : db.Settles typeOf (fun r => r = runId ∧ ¬ phase.Live) db'
  sound : next.Sound typeOf db' runId
  live : next.Live → phase.Live ∨ db'.statusOf runId = some .running

theorem settled_quiet (ht : db.Typed typeOf) (hs : next.Sound typeOf db runId) (hq : ¬ next.Live) :
    phase.Settled typeOf db db runId next := ⟨.refl ht, hs, fun live => absurd live hq⟩

theorem append_settles {append : AppendCall} {ends : Text → Prop} (ht : db.Typed typeOf)
    (isTyped : append.event.Typed typeOf)
    (isOpen : append.unlessTerminal = true ∨ ¬ db.Reached 3 append.runId) :
    db.Settles typeOf ends (append.attempt db).1 :=
  append.settles (append.proceeds ht isTyped (isOpen.imp_right .inl))

theorem Phase.Sound.turn (sound : phase.Sound typeOf db runId) (hf : phase.Formed db runId)
    (isOpen : phase.Live → ¬ db.Reached 3 runId) (hi : db.Indexed) (ht : db.Typed typeOf)
    (parses : Parses typeOf) (orderly : phase.Orderly typeOf db closing runId move)
    (turns : phase.turn db closing runId move = some (.goes db' next)) :
    phase.Settled typeOf db db' runId next := by
  cases phase with
  | created =>
    cases move <;> simp only [Phase.turn, createdTurn, reduceCtorEq, some.injEq, Turn.goes.injEq] at turns
    obtain ⟨rfl, rfl⟩ := turns
    exact settled_quiet ht trivial id
  | setting call =>
    cases move <;> simp only [Phase.turn, settingTurn, reduceCtorEq, some.injEq, Turn.goes.injEq] at turns
    case statement =>
      obtain ⟨rfl, rfl⟩ := turns
      refine ⟨Call.SetsRunning.settles hf ht, trivial, fun live => ?_⟩
      have ha : (call.step db).2 = .returned .done := by
        revert live
        cases (call.step db).2 with
        | returned outcome => cases outcome <;> simp [Phase.Live]
        | _ => simp [Phase.Live]
      refine ((Call.SetsRunning.step hf hi).2 ha).imp_left fun same => ?_
      rw [same]
      trivial
    case lost committed =>
      obtain ⟨rfl, rfl⟩ := turns
      exact ⟨settles_lost ht fun _ => Call.SetsRunning.settles hf ht, trivial, False.elim⟩
    case fail =>
      obtain ⟨rfl, rfl⟩ := turns
      exact settled_quiet ht (sound_failing parses) id
    case resume =>
      split at turns <;> simp only [reduceCtorEq, some.injEq, Turn.goes.injEq] at turns
      · obtain ⟨rfl, rfl⟩ := turns
        exact settled_quiet ht (fun _ => .inr hf) id
      · obtain ⟨rfl, rfl⟩ := turns
        exact settled_quiet ht (sound_failing parses) id
    case interrupt =>
      obtain ⟨rfl, rfl⟩ := turns
      exact settled_quiet ht (sound_interrupted parses (orderly.flagged rfl)) not_live_interrupted
  | executing final =>
    cases move <;> simp only [Phase.turn, executingTurn, reduceCtorEq, some.injEq, Turn.goes.injEq] at turns
    case yields event =>
      split at turns <;> cases turns
      · exact ⟨.refl ht, ⟨sound, orderly.yields event rfl, rfl⟩, fun _ => .inl trivial⟩
      · exact settled_quiet ht (sound_failing parses) id
    case finish =>
      obtain ⟨rfl, rfl⟩ := turns
      exact settled_quiet ht sound id
    case fail =>
      obtain ⟨rfl, rfl⟩ := turns
      exact settled_quiet ht (sound_failing parses) id
    case interrupt =>
      obtain ⟨rfl, rfl⟩ := turns
      exact settled_quiet ht (sound_interrupted parses (orderly.flagged rfl)) not_live_interrupted
  | appending final append =>
    obtain ⟨excused, isTyped, hp⟩ := sound
    obtain ⟨-, rfl⟩ := hf
    have hs := @append_settles db typeOf append
          (fun r => r = append.runId ∧ ¬ (Phase.appending final append).Live)
      ht isTyped (.inr (isOpen trivial))
    cases move <;> simp only [Phase.turn, appendingTurn, reduceCtorEq, some.injEq, Turn.goes.injEq] at turns
    case statement =>
      have hk := @AppendCall.attempt_known db append hp
      split at turns <;> cases turns
      next ran =>
        rw [ran] at hs
        exact ⟨hs, sound_failing parses, False.elim⟩
      next normal ran =>
        rw [ran] at hs hk
        refine ⟨hs, fun hc => ?_, fun _ => .inl trivial⟩
        rcases finalStatus_cases append.event with h | h | h | h
        · exact (excused (by simpa [h] using hc)).mono hs.grows hs.toAdvances
        · exact .inl (hs.typed.of_json isTyped h.1 (hk fun error hr => normal error hr))
        · simp [h] at hc
        · exact (excused (by simpa [h] using hc)).mono hs.grows hs.toAdvances
    case lost committed =>
      obtain ⟨rfl, rfl⟩ := turns
      obtain ⟨intended, same⟩ := append.attempt_call db
      have lost := @AppendCall.settles_lost db typeOf _ committed append ht hs
      refine ⟨lost, ?_, fun _ => .inl trivial⟩
      rw [same]
      exact ⟨fun hc => (excused hc).mono lost.grows lost.toAdvances, isTyped, hp⟩
    case fail =>
      obtain ⟨rfl, rfl⟩ := turns
      exact settled_quiet ht (sound_failing parses) id
    case interrupt =>
      obtain ⟨rfl, rfl⟩ := turns
      exact settled_quiet ht (sound_interrupted parses (orderly.flagged rfl)) not_live_interrupted
  | guarding final append =>
    obtain ⟨excused, isTyped⟩ := sound
    obtain ⟨-, rfl, hg⟩ := hf
    have hs := @append_settles db typeOf append
          (fun r => r = append.runId ∧ ¬ (Phase.guarding final append).Live)
      ht isTyped (.inl hg)
    cases move <;> simp only [Phase.turn, guardingTurn, reduceCtorEq, some.injEq, Turn.goes.injEq] at turns
    case statement =>
      obtain ⟨rfl, rfl⟩ := turns
      exact ⟨hs, fun hc => (excused hc).mono hs.grows hs.toAdvances, False.elim⟩
    case lost committed =>
      obtain ⟨rfl, rfl⟩ := turns
      obtain ⟨_, same⟩ := append.attempt_call db
      have lost := @AppendCall.settles_lost db typeOf _ committed append ht hs
      refine ⟨lost, ?_, False.elim⟩
      rw [same]
      exact ⟨fun hc => (excused hc).mono lost.grows lost.toAdvances, isTyped⟩
    case fail =>
      obtain ⟨rfl, rfl⟩ := turns
      exact settled_quiet ht excused id
    case interrupt =>
      obtain ⟨rfl, rfl⟩ := turns
      exact settled_quiet ht excused id
  | unwinding final =>
    cases move <;> simp only [Phase.turn, unwindingTurn, reduceCtorEq, some.injEq, Turn.goes.injEq] at turns
    case resume =>
      obtain ⟨rfl, rfl⟩ := turns
      exact settled_quiet ht sound id
    case interrupt =>
      obtain ⟨rfl, rfl⟩ := turns
      exact settled_quiet ht sound id
  | persisting final call =>
    obtain ⟨_, sets⟩ := hf
    have hs : move = .statement ∨ move = .lost true →
        db.Settles typeOf (fun r => r = runId ∧ ¬ (Phase.persisting final call).Live) (call.step db).1 :=
      fun writes => sets.settles ht parses sound (orderly.stop writes final call rfl) fun _ => ⟨rfl, id⟩
    cases move <;> simp only [Phase.turn, persistingTurn, reduceCtorEq, some.injEq, Turn.goes.injEq] at turns
    case statement =>
      obtain ⟨rfl, rfl⟩ := turns
      have hs := hs (.inl rfl)
      exact ⟨hs, fun hc => (sound hc).mono hs.grows hs.toAdvances, False.elim⟩
    case lost committed =>
      obtain ⟨rfl, rfl⟩ := turns
      have lost := @settles_lost db typeOf _ call committed ht fun isCommitted =>
        hs (.inr (isCommitted ▸ rfl))
      exact ⟨lost, fun hc => (sound hc).mono lost.grows lost.toAdvances, False.elim⟩
    case resume => split at turns <;> simp at turns

end Consuming

end Yinshi.Prompt
