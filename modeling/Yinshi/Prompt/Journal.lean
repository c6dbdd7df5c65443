import Yinshi.Base.Numbered
import Yinshi.Prompt.Status

/-! The event journal of the prompt runs: `_append_event` with its retries, recovery and
the paged reader `events`, in any interleaving. Appends of one run hold its append lock. -/

namespace Yinshi.Prompt
open ByteText Keyed Numbered Runs Relation List Option
variable {db : Database}

structure PromptEventBatch where
  runId : Text
  status : Status
  events : List Event
  nextSequence : Nat

def collectEvents : List EventRow → List Event → Nat → Nat → Except PromptError (List Event × Nat)
  | [], events, cursor, _ => .ok (events, cursor)
  | row :: rows, events, cursor, eventBytes =>
    if row.sequence ≠ cursor then .error (.runtime "prompt journal sequence is not contiguous")
    else if events ≠ [] ∧ eventBatchBytesMax < eventBytes + row.event.json.length then
      .ok (events, cursor)
    else collectEvents rows (events ++ [row.event]) (cursor + 1) (eventBytes + row.event.json.length)

namespace Database

def readEvents (db : Database) (sessionId runId : Text) (nextSequence : Nat) :
    Except PromptError PromptEventBatch :=
  match db.runOf runId sessionId with
  | none => .error (.runNotFound "prompt run not found")
  | some run => do
      let rows := ((db.journal runId).filter (nextSequence ≤ ·.sequence)).take eventBatchMax
      let (events, cursor) ← collectEvents rows [] nextSequence 0
      return ⟨runId, run.status, events, cursor⟩

variable {db db' : Database} {runId other : Text} {event : Event}

def rows (db : Database) (runId : Text) : List EventRow := db.events.filter (·.runId = runId)

def Ordered (db : Database) : Prop := ∀ runId, From (·.sequence) 0 (db.rows runId)

theorem Ordered.journal (ordered : db.Ordered) (runId : Text) : db.journal runId = db.rows runId :=
  sortBy_eq_self (ordered runId).sorted

theorem Ordered.nextSequence (ordered : db.Ordered) (runId : Text) :
    db.nextSequence runId = (db.rows runId).length := (ordered runId).next

theorem Ordered.eventAt (ordered : db.Ordered) (runId : Text) (sequence : Nat) :
    db.eventAt runId sequence = (db.rows runId)[sequence]?.map (·.event) := by
  have hf := (ordered runId).find? sequence
  rw [Nat.zero_add, rows, find?_filter] at hf
  simp only [decide_eq_true_eq] at hf
  rw [Database.eventAt, rows, ← hf]

theorem rows_insertEvent (sequence : Nat) : (db.insertEvent runId sequence event).rows other =
    db.rows other ++ if runId = other then [⟨runId, sequence, event⟩] else [] := by
  rw [rows, insertEvent, filter_append, rows]
  split
  next hs => simp [hs]
  next ha => simp [ha]

theorem Ordered.insertEvent (ordered : db.Ordered) :
    (db.insertEvent runId (db.rows runId).length event).Ordered := by
  intro other
  rw [rows_insertEvent]
  split
  next hs =>
    subst hs
    exact (ordered runId).snoc (Nat.zero_add _).symm
  next => simpa using ordered other

theorem ordered_of_events (hs : db'.events = db.events) (ordered : db.Ordered) : db'.Ordered := by
  intro other
  rw [rows, hs]
  exact ordered other

end Database

section Pages
variable {α : Type} {size : α → Nat} {rows : List α}

theorem pageFrom_start (used : Nat) : pageFrom size used rows <+: rows := by
  induction rows generalizing used with
  | nil => exact prefix_refl _
  | cons row _ ih =>
    rw [pageFrom]
    split
    · exact prefix_cons_inj row |>.mpr (ih _)
    · exact nil_prefix

theorem page_start : page size rows <+: rows := by
  refine IsPrefix.trans ?_ <| take_prefix eventBatchMax rows
  rw [page]
  split
  next none => exact nil_prefix
  next row rest hl =>
    rw [hl]
    exact prefix_cons_inj row |>.mpr (pageFrom_start _)

theorem page_eq_nil : page size rows = [] ↔ rows = [] := by
  cases rows with
  | nil => simp [page]
  | cons _ _ => simp [page, eventBatchMax]

end Pages

def EventRow.size (row : EventRow) : Nat := row.event.json.length

theorem collectEvents_more {rows : List EventRow} {events : List Event} {cursor used : Nat}
    (numbered : From (·.sequence) cursor rows) (some : events ≠ []) :
    collectEvents rows events cursor used =
      .ok (events ++ (pageFrom EventRow.size used rows).map (·.event),
          cursor + (pageFrom EventRow.size used rows).length) := by
  induction rows generalizing events cursor used with
  | nil => simp [collectEvents, pageFrom]
  | cons row _ ih =>
    obtain ⟨first, rest⟩ := from_cons.mp numbered
    rw [collectEvents, if_neg (by simpa using first), pageFrom]
    by_cases hf : used + row.size ≤ eventBatchBytesMax
    · rw [if_neg fun h => Nat.not_lt.mpr hf h.2, if_pos hf, ih rest (by simp)]
      simp only [EventRow.size, append_assoc, map_cons, singleton_append,
        length_cons, Except.ok.injEq, Prod.mk.injEq, true_and]
      omega
    · rw [if_pos ⟨some, by simpa [EventRow.size] using hf⟩, if_neg hf]
      simp

theorem collectEvents_page {rows : List EventRow} {cursor : Nat}
    (numbered : From (·.sequence) cursor rows) :
    collectEvents (rows.take eventBatchMax) [] cursor 0 =
      .ok ((page EventRow.size rows).map (·.event), cursor + (page EventRow.size rows).length) := by
  rw [← take_append_drop eventBatchMax rows] at numbered
  have taken := (from_append.mp numbered).1
  rw [page]
  split
  next none => rw [none]; rfl
  next row rest hl =>
    rw [hl] at taken ⊢
    obtain ⟨first, more⟩ := from_cons.mp taken
    rw [collectEvents, if_neg (by simpa using first), if_neg (by simp), nil_append,
      collectEvents_more more (by simp), Nat.zero_add]
    simp only [EventRow.size, map_cons, singleton_append, length_cons, Except.ok.injEq,
      Prod.mk.injEq, true_and]
    omega

namespace Database

theorem Ordered.readEvents {db : Database} (ordered : db.Ordered) {sessionId runId : Text}
    {run : PromptRun} (known : db.runOf runId sessionId = some run) (cursor : Nat) :
    db.readEvents sessionId runId cursor =
      .ok ⟨runId, run.status, (page EventRow.size ((db.rows runId).drop cursor)).map (·.event),
          cursor + (page EventRow.size ((db.rows runId).drop cursor)).length⟩ := by
  have rest : (db.rows runId).filter (cursor ≤ ·.sequence) = (db.rows runId).drop cursor := by
    simpa using (ordered runId).filter_ge cursor
  have numbered : From (·.sequence) cursor ((db.rows runId).drop cursor) := by
    simpa using (ordered runId).drop cursor
  simp only [Database.readEvents, known, ordered.journal, rest]
  rw [collectEvents_page numbered]
  rfl

end Database

inductive AppendCall.Attempts (db : Database) (call : AppendCall) :
    Database → AppendCall → AppendOutcome → Prop
  | missing (message : String) (none : db.runById call.runId = none) :
      Attempts db call db call (.raised (.runNotFound message))
  | skipped {run : PromptRun} (found : db.runById call.runId = some run)
      (guarded : call.unlessTerminal = true)
      (past : run.status ∈ terminalStatuses ∨ run.status = .stopping) :
      Attempts db call db call .skipped
  | duplicate {run : PromptRun} (found : db.runById call.runId = some run)
      (deduplicate : call.deduplicate = true)
      (known : ∃ row ∈ db.rows call.runId, row.event.json = call.event.json) :
      Attempts db call db call .duplicate
  | rejected (message : String) {run : PromptRun} (found : db.runById call.runId = some run)
      {sequence : Nat}
      (next : sequence = call.intendedSequence.getD (db.rows call.runId).length) :
      Attempts db call db { call with intendedSequence := some sequence } (.raised (.runtime message))
  | stored {run : PromptRun} (found : db.runById call.runId = some run)
      {sequence : Nat} {row : EventRow}
      (next : sequence = call.intendedSequence.getD (db.rows call.runId).length)
      (listed : (db.rows call.runId)[sequence]? = some row)
      (own : row.event.json = call.event.json) :
      Attempts db call db { call with intendedSequence := some sequence } .stored
  | inserted {run : PromptRun} (found : db.runById call.runId = some run) {sequence : Nat}
      (live : call.unlessTerminal = true →
        ¬ (run.status ∈ terminalStatuses ∨ run.status = .stopping))
      (fresh : call.deduplicate = true →
        ¬ ∃ row ∈ db.rows call.runId, row.event.json = call.event.json)
      (next : sequence = call.intendedSequence.getD (db.rows call.runId).length)
      (free : (db.rows call.runId).length ≤ sequence) (room : sequence < eventCountMax) :
      Attempts db call (db.insertEvent call.runId sequence call.event)
        { call with intendedSequence := some sequence } .inserted

theorem AppendCall.attempts (ordered : db.Ordered) (call : AppendCall) :
    call.Attempts db (call.attempt db).1 (call.attempt db).2.1 (call.attempt db).2.2 := by
  have hk : (∃ row ∈ db.events, row.runId = call.runId ∧ row.event.json = call.event.json) ↔
      ∃ row ∈ db.rows call.runId, row.event.json = call.event.json := by
    simp [Database.rows, and_assoc]
  rw [AppendCall.attempt]
  split
  next none => exact .missing _ none
  next run hf =>
    split
    next skips => exact .skipped hf skips.1 skips.2
    next live =>
      split
      next repeated => exact .duplicate hf repeated.1 (hk.mp repeated.2)
      next fresh =>
        rw [ordered.nextSequence]
        dsimp only
        split
        · exact .rejected _ hf rfl
        next room =>
          rw [ordered.eventAt]
          split
          next hst isStored =>
            split
            · exact .rejected _ hf rfl
            next hs =>
              obtain ⟨_, hl, hr⟩ := map_eq_some_iff.mp isStored
              exact .stored hf rfl hl (hr ▸ not_not.mp hs)
          next free =>
            exact .inserted hf (fun hg past => live ⟨hg, past⟩)
              (fun deduplicate old => fresh ⟨deduplicate, hk.mpr old⟩) rfl
              (List.getElem?_eq_none_iff.mp (map_eq_none_iff.mp free)) (Nat.not_le.mp room)

structure Holding where
  call : AppendCall
  since : Nat

structure Returned extends Holding where
  upto : Nat
  outcome : AppendOutcome

structure Reader where
  sessionId : Text
  runId : Text
  cursor : Nat := 0
  received : List Event := []

/-- The database, the locks of the runs, the appends that returned and one reader. -/
structure Journaling where
  db : Database
  holding : Text → Option Holding
  returned : List Returned
  reader : Reader

def Journaling.initial (db : Database) (sessionId runId : Text) : Journaling :=
  ⟨db, fun _ => none, [], { sessionId := sessionId, runId := runId }⟩

def Journaling.hold (s : Journaling) (runId : Text) (holding : Option Holding) : Text → Option Holding :=
  Function.update s.holding runId holding

/-- One step of the journal. A storage failure may hide whether the transaction of an
attempt was committed; the closure then runs again with the sequence it remembers. -/
inductive JournalStep : Journaling → Journaling → Prop
  | acquire {s : Journaling} {call : AppendCall} (valid : validateEvent call.event = .ok ())
      (fresh : call.intendedSequence = none) (free : s.holding call.runId = none) :
      JournalStep s { s with
        holding := s.hold call.runId (some ⟨call, (s.db.rows call.runId).length⟩) }
  | returns {s : Journaling} {runId : Text} {held : Holding} {db : Database} {call : AppendCall}
      {outcome : AppendOutcome} (holds : s.holding runId = some held)
      (ran : held.call.attempt s.db = (db, call, outcome))
      (normal : ∀ error, outcome ≠ .raised error) :
      JournalStep s { s with
        db := db, holding := s.hold runId none,
        returned := s.returned ++ [⟨⟨call, held.since⟩, (db.rows runId).length, outcome⟩] }
  | uncommitted {s : Journaling} {runId : Text} {held : Holding} {db : Database} {call : AppendCall}
      {outcome : AppendOutcome} (holds : s.holding runId = some held)
      (ran : held.call.attempt s.db = (db, call, outcome)) :
      JournalStep s { s with holding := s.hold runId (some ⟨call, held.since⟩) }
  | unreported {s : Journaling} {runId : Text} {held : Holding} {db : Database} {call : AppendCall}
      {outcome : AppendOutcome} (holds : s.holding runId = some held)
      (ran : held.call.attempt s.db = (db, call, outcome)) :
      JournalStep s { s with db := db, holding := s.hold runId (some ⟨call, held.since⟩) }
  | raises {s : Journaling} {runId : Text} {held : Holding} (holds : s.holding runId = some held) :
      JournalStep s { s with holding := s.hold runId none }
  | recover {s : Journaling} : JournalStep s { s with db := s.db.recoverPromptDatabase }
  -- `start`, `cancel` and the status writes leave the events alone
  | write {s : Journaling} {db : Database} (same : db.events = s.db.events) :
      JournalStep s { s with db := db }
  | read {s : Journaling} {batch : PromptEventBatch}
      (reads : s.db.readEvents s.reader.sessionId s.reader.runId s.reader.cursor = .ok batch) :
      JournalStep s { s with reader := { s.reader with
        cursor := batch.nextSequence, received := s.reader.received ++ batch.events } }

/-- The rows since an append took the lock are its own, at the sequence it remembers,
or those of recovery. -/
structure Pending (rows : List EventRow) (held : Holding) : Prop where
  since : held.since ≤ rows.length
  intended : ∀ sequence, held.call.intendedSequence = some sequence →
    held.since ≤ sequence ∧ sequence ≤ rows.length
  added : ∀ i row, held.since ≤ i → rows[i]? = some row → row.event = interruptedEvent ∨
    held.call.intendedSequence = some i ∧ row.event.json = held.call.event.json

/-- Exactly one row from an append; all others of its time are recovery's. -/
def AddedOnce (rows : List EventRow) (call : Returned) : Prop :=
  ∃ i row, call.since ≤ i ∧ i < call.upto ∧ rows[i]? = some row ∧
    row.event.json = call.call.event.json ∧
    ∀ j other, call.since ≤ j → j < call.upto → j ≠ i → rows[j]? = some other →
      other.event = interruptedEvent

structure Journaling.Sound (s : Journaling) : Prop where
  ordered : s.db.Ordered
  holding : ∀ runId held, s.holding runId = some held →
    held.call.runId = runId ∧ Pending (s.db.rows runId) held
  returned : ∀ call ∈ s.returned, call.upto ≤ (s.db.rows call.call.runId).length ∧
    (call.call.deduplicate = false → call.outcome ≠ .skipped →
      AddedOnce (s.db.rows call.call.runId) call)
  reader : s.reader.cursor ≤ (s.db.rows s.reader.runId).length ∧
    s.reader.received = ((s.db.rows s.reader.runId).map (·.event)).take s.reader.cursor

section Growth
variable {rows added : List EventRow} {held : Holding} {call : Returned}

theorem Pending.grow (pending : Pending rows held)
    (hr : ∀ row ∈ added, row.event = interruptedEvent) : Pending (rows ++ added) held := by
  refine ⟨?_, fun sequence remembered => ?_, fun i row hb hl => ?_⟩
  · rw [length_append]
    exact Nat.le_add_right_of_le pending.since
  · rw [length_append]
    have := pending.intended sequence remembered
    omega
  · rcases Nat.lt_or_ge i rows.length with old | new
    · rw [getElem?_append_left old] at hl
      exact pending.added i row hb hl
    · rw [getElem?_append_right new] at hl
      exact .inl (hr row (mem_of_getElem? hl))

theorem AddedOnce.grow (once : AddedOnce rows call) (upto : call.upto ≤ rows.length) :
    AddedOnce (rows ++ added) call := by
  have hs : ∀ i, i < call.upto → (rows ++ added)[i]? = rows[i]? := fun i hb => getElem?_append_left (by omega)
  obtain ⟨i, row, after, before, hl, he, others⟩ := once
  refine ⟨i, row, after, before, by rw [hs i before, hl], he, ?_⟩
  intro j other afterwards hw ha hf
  rw [hs j hw] at hf
  exact others j other afterwards hw ha hf

theorem Pending.addedOnce {sequence : Nat} {row : EventRow} {outcome : AppendOutcome}
    (pending : Pending rows held) (settled : held.call.intendedSequence = some sequence)
    (hl : rows[sequence]? = some row) (own : row.event.json = held.call.event.json) :
    AddedOnce rows ⟨held, rows.length, outcome⟩ := by
  refine ⟨sequence, row, (pending.intended sequence settled).1, (List.getElem?_eq_some_iff.mp hl).1,
    hl, own, ?_⟩
  intro j other after _ ha hf
  rcases pending.added j other after hf with hr | ⟨hs, -⟩
  · exact hr
  · exact absurd (some.inj (hs.symm.trans settled)) ha

theorem Pending.settle {sequence : Nat} (pending : Pending rows held)
    (hn : sequence = held.call.intendedSequence.getD rows.length) :
    (held.since ≤ sequence ∧ sequence ≤ rows.length) ∧
    Pending rows ⟨{ held.call with intendedSequence := some sequence }, held.since⟩ := by
  have hb : held.since ≤ sequence ∧ sequence ≤ rows.length := by
    cases remembered : held.call.intendedSequence with
    | none =>
      rw [remembered, getD_none] at hn
      exact ⟨hn ▸ pending.since, hn.le⟩
    | some old =>
      rw [remembered, getD_some] at hn
      exact hn ▸ pending.intended old remembered
  refine ⟨hb, pending.since, fun i hs => some.inj hs ▸ hb, ?_⟩
  intro i row after hl
  rcases pending.added i row after hl with hr | ⟨remembered, own⟩
  · exact .inl hr
  · rw [remembered, getD_some] at hn
    exact .inr ⟨congrArg some hn, own⟩

end Growth

structure Attempted (db : Database) (held : Holding) (db' : Database) (call : AppendCall)
    (outcome : AppendOutcome) : Prop where
  ordered : db'.Ordered
  run : call.runId = held.call.runId
  others : ∀ other, other ≠ held.call.runId → db'.rows other = db.rows other
  grows : db.rows held.call.runId <+: db'.rows held.call.runId
  remembers : Pending (db.rows held.call.runId) ⟨call, held.since⟩
  pending : Pending (db'.rows held.call.runId) ⟨call, held.since⟩
  once : (∀ error, outcome ≠ .raised error) → call.deduplicate = false → outcome ≠ .skipped →
    AddedOnce (db'.rows held.call.runId)
      ⟨⟨call, held.since⟩, (db'.rows held.call.runId).length, outcome⟩

theorem Pending.attempt {db' : Database} {held : Holding} {call : AppendCall}
    {outcome : AppendOutcome} (ordered : db.Ordered)
    (pending : Pending (db.rows held.call.runId) held)
    (ran : held.call.attempt db = (db', call, outcome)) : Attempted db held db' call outcome := by
  have does := held.call.attempts ordered
  rw [ran] at does
  dsimp only at does
  cases does with
  | missing message _ =>
    refine ⟨ordered, rfl, fun _ _ => rfl, prefix_refl _, pending, pending, ?_⟩
    exact fun normal => absurd rfl (normal _)
  | skipped hf _ _ =>
    refine ⟨ordered, rfl, fun _ _ => rfl, prefix_refl _, pending, pending, ?_⟩
    exact fun _ _ unskipped => absurd rfl unskipped
  | duplicate hf deduplicate _ =>
    refine ⟨ordered, rfl, fun _ _ => rfl, prefix_refl _, pending, pending, ?_⟩
    exact fun _ hp => absurd deduplicate (by simp [hp])
  | rejected _ hf hn =>
    obtain ⟨hb, hs⟩ := pending.settle hn
    refine ⟨ordered, rfl, fun _ _ => rfl, prefix_refl _, hs, hs, ?_⟩
    exact fun normal => absurd rfl (normal _)
  | stored hf hn hl own =>
    obtain ⟨hb, hs⟩ := pending.settle hn
    refine ⟨ordered, rfl, fun _ _ => rfl, prefix_refl _, hs, hs, fun _ _ _ => ?_⟩
    exact hs.addedOnce rfl hl own
  | @inserted _ hf sequence _ _ hn atEnd _ =>
    obtain ⟨hb, hs⟩ := pending.settle hn
    have last : sequence = (db.rows held.call.runId).length := le_antisymm hb.2 atEnd
    have longer := @Database.rows_insertEvent db held.call.runId held.call.runId held.call.event sequence
    rw [if_pos rfl] at longer
    have hl : (db.rows held.call.runId ++ [⟨held.call.runId, sequence, held.call.event⟩])[sequence]? =
        some ⟨held.call.runId, sequence, held.call.event⟩ := by
      rw [last]
      exact getElem?_concat_length
    have grown : Pending ((db.insertEvent held.call.runId sequence held.call.event).rows
        held.call.runId) ⟨{ held.call with intendedSequence := some sequence }, held.since⟩ := by
      rw [longer]
      refine ⟨?_, fun i same => ?_, fun i row after hf => ?_⟩
      · rw [length_append]
        exact Nat.le_add_right_of_le pending.since
      · cases same
        rw [length_append]
        exact ⟨hb.1, Nat.le_add_right_of_le hb.2⟩
      · rcases Nat.lt_or_ge i (db.rows held.call.runId).length with old | _
        · rw [getElem?_append_left old] at hf
          exact hs.added i row after hf
        · have isLast : i = sequence := by
            have := (List.getElem?_eq_some_iff.mp hf).1
            simp only [length_append, length_singleton] at this
            omega
          subst isLast
          rw [hl] at hf
          exact .inr ⟨rfl, by rw [← some.inj hf]⟩
    refine ⟨?_, rfl, fun other ha => ?_, ?_, hs, grown, fun _ _ _ => ?_⟩
    · rw [last]
      exact ordered.insertEvent
    · rw [Database.rows_insertEvent, if_neg (Ne.symm ha), append_nil]
    · rw [longer]
      exact prefix_append _ _
    · have hf := longer ▸ hl
      exact grown.addedOnce rfl hf rfl

namespace Database
variable {db : Database}

theorem rows_recoverRun (ordered : db.Ordered) (row : PromptRun) :
    (db.recoverRun row).Ordered ∧
    ∀ runId, ∃ added,
      (db.recoverRun row).rows runId = db.rows runId ++ added ∧
      ∀ row ∈ added, row.event = interruptedEvent := by
  rw [recoverRun]
  split
  · dsimp only
    split
    · refine ⟨?_, fun runId => ?_⟩
      · rw [ordered.nextSequence]
        exact ordered_of_events rfl ordered.insertEvent
      · refine ⟨_, rows_insertEvent _, fun other hm => ?_⟩
        split at hm
        · rw [mem_singleton.mp hm]
        · simp at hm
    · exact ⟨ordered_of_events rfl ordered, fun runId => ⟨[], (append_nil _).symm, by simp⟩⟩
  · exact ⟨ordered_of_events rfl ordered, fun runId => ⟨[], (append_nil _).symm, by simp⟩⟩

theorem rows_foldl (runs : List PromptRun) (ordered : db.Ordered) :
    (runs.foldl recoverRun db).Ordered ∧
    ∀ runId, ∃ added,
      (runs.foldl recoverRun db).rows runId = db.rows runId ++ added ∧
      ∀ row ∈ added, row.event = interruptedEvent := by
  induction runs generalizing db with
  | nil => exact ⟨ordered, fun runId => ⟨[], (append_nil _).symm, by simp⟩⟩
  | cons row _ ih =>
    obtain ⟨hk, first⟩ := rows_recoverRun ordered row
    obtain ⟨final, rest⟩ := ih hk
    refine ⟨final, fun runId => ?_⟩
    obtain ⟨some, grown, own⟩ := first runId
    obtain ⟨more, longer, ho⟩ := rest runId
    refine ⟨some ++ more, by rw [foldl_cons, longer, grown, append_assoc], ?_⟩
    intro other hm
    rcases mem_append.mp hm with left | hr
    · exact own other left
    · exact ho other hr

end Database

namespace Journaling
variable {s : Journaling} {runId : Text} {held : Holding}

theorem Sound.release (sound : s.Sound) : Sound { s with holding := s.hold runId none } := by
  refine ⟨sound.ordered, fun other owner hh => ?_, sound.returned, sound.reader⟩
  by_cases hs : other = runId
  · subst hs
    simp [hold] at hh
  · simp only [hold, Function.update_of_ne hs] at hh
    exact sound.holding other owner hh

theorem Sound.take (sound : s.Sound) (own : held.call.runId = runId)
    (pending : Pending (s.db.rows runId) held) :
    Sound { s with holding := s.hold runId (some held) } := by
  refine ⟨sound.ordered, fun other owner hh => ?_, sound.returned, sound.reader⟩
  by_cases hs : other = runId
  · subst hs
    simp only [hold, Function.update_self, some.injEq] at hh
    exact hh ▸ ⟨own, pending⟩
  · simp only [hold, Function.update_of_ne hs] at hh
    exact sound.holding other owner hh

theorem Sound.grow {db : Database} (sound : s.Sound) (ordered : db.Ordered)
    (grows : ∀ runId, ∃ added, db.rows runId = s.db.rows runId ++ added ∧
        (s.holding runId ≠ none → ∀ row ∈ added, row.event = interruptedEvent)) :
    Sound { s with db := db } := by
  refine ⟨ordered, fun other owner hh => ?_, fun call hm => ?_, ?_⟩
  · obtain ⟨own, pending⟩ := sound.holding other owner hh
    obtain ⟨added, hs, hr⟩ := grows other
    refine ⟨own, ?_⟩
    rw [hs]
    exact pending.grow (hr (ne_none_iff_exists'.mpr ⟨owner, hh⟩))
  · obtain ⟨upto, once⟩ := sound.returned call hm
    obtain ⟨added, hs, -⟩ := grows call.call.runId
    rw [hs, length_append]
    exact ⟨Nat.le_add_right_of_le upto, fun hp unskipped => (once hp unskipped).grow upto⟩
  · obtain ⟨hw, received⟩ := sound.reader
    obtain ⟨_, hs, -⟩ := grows s.reader.runId
    rw [hs, length_append, map_append, take_append_of_le_length (by simpa)]
    exact ⟨Nat.le_add_right_of_le hw, received⟩

theorem Sound.attempted {db : Database} {call : AppendCall} {outcome : AppendOutcome}
    (sound : s.Sound) (own : held.call.runId = runId) (hd : Attempted s.db held db call outcome) :
    Sound { s with db := db, holding := s.hold runId none } := by
  refine (@Sound.release s runId sound).grow hd.ordered fun other => ?_
  by_cases hs : other = runId
  · subst hs
    obtain ⟨added, longer⟩ := own ▸ hd.grows
    exact ⟨added, longer.symm, fun hh => absurd (by simp [hold]) hh⟩
  · exact ⟨[], by rw [hd.others other (own ▸ hs), append_nil], by simp⟩

theorem Sound.read {batch : PromptEventBatch} (hs : s.Sound)
    (reads : s.db.readEvents s.reader.sessionId s.reader.runId s.reader.cursor = .ok batch) :
    Sound { s with reader := { s.reader with
        cursor := batch.nextSequence, received := s.reader.received ++ batch.events } } := by
  refine ⟨hs.ordered, hs.holding, hs.returned, ?_⟩
  obtain ⟨within, received⟩ := hs.reader
  cases hk : s.db.runOf s.reader.runId s.reader.sessionId with
  | none => simp [Database.readEvents, hk] at reads
  | some _ =>
    rw [hs.ordered.readEvents hk] at reads
    obtain ⟨rest, isRest⟩ := @page_start _ EventRow.size ((s.db.rows s.reader.runId).drop s.reader.cursor)
    cases reads
    dsimp only
    generalize page EventRow.size ((s.db.rows s.reader.runId).drop s.reader.cursor) = taken at *
    have hw : s.db.rows s.reader.runId = (s.db.rows s.reader.runId).take s.reader.cursor ++ (taken ++ rest) := by
      rw [isRest, take_append_drop]
    have before : ((s.db.rows s.reader.runId).take s.reader.cursor).length = s.reader.cursor :=
      length_take_of_le within
    have count := congrArg length hw
    simp only [length_append, before] at count
    refine ⟨by omega, ?_⟩
    rw [received, ← map_take, ← map_take, ← map_append]
    congr 1
    conv_rhs => rw [hw]
    rw [← append_assoc, take_left' (by simp [before])]

end Journaling

theorem JournalStep.sound (s next : Journaling) (step : JournalStep s next) (hso : s.Sound) :
    next.Sound := by
  cases step with
  | acquire _ hf _ =>
    refine hso.take rfl ⟨le_refl _, fun sequence remembered => ?_, fun i row after hl => ?_⟩
    · simp [hf] at remembered
    · have := (List.getElem?_eq_some_iff.mp hl).1
      exact absurd after (by dsimp only; omega)
  | @returns runId held db call outcome hh ran normal =>
    obtain ⟨rfl, pending⟩ := hso.holding runId held hh
    have hd := pending.attempt hso.ordered ran
    have hs := hso.attempted rfl hd
    refine ⟨hs.ordered, hs.holding, fun other hm => ?_, hs.reader⟩
    rcases mem_append.mp hm with old | new
    · exact hs.returned other old
    · rw [mem_singleton.mp new]
      rw [hd.run]
      exact ⟨le_refl _, hd.once normal⟩
  | @uncommitted runId held db call outcome hh ran =>
    obtain ⟨rfl, pending⟩ := hso.holding runId held hh
    have hd := pending.attempt hso.ordered ran
    exact hso.take hd.run hd.remembers
  | @unreported runId held db _ _ hh ran =>
    obtain ⟨rfl, pending⟩ := hso.holding runId held hh
    have hd := pending.attempt hso.ordered ran
    have taken := (hso.attempted rfl hd).take hd.run hd.pending
    simpa [Journaling.hold] using taken
  | raises _ => exact hso.release
  | recover =>
    obtain ⟨ordered, grows⟩ := Database.rows_foldl _ hso.ordered
    refine hso.grow ordered fun runId => ?_
    obtain ⟨added, same, hr⟩ := grows runId
    exact ⟨added, same, fun _ => hr⟩
  | @write _ same =>
    refine hso.grow (Database.ordered_of_events same hso.ordered) fun runId => ⟨[], ?_, by simp⟩
    rw [append_nil, Database.rows, same, Database.rows]
  | read reads => exact hso.read reads

attribute [local simp] Journaling.initial

theorem sound_initial (ordered : db.Ordered) (sessionId runId : Text) :
    (Journaling.initial db sessionId runId).Sound :=
  ⟨ordered, fun _ _ hh => by simp at hh,
    fun _ hm => by simp at hm, by simp⟩

theorem JournalStep.grows (s next : Journaling) (step : JournalStep s next) (sound : s.Sound)
    (runId : Text) : s.db.rows runId <+: next.db.rows runId := by
  have attempted : ∀ {owner hh db call outcome}, s.holding owner = some hh →
      hh.call.attempt s.db = (db, call, outcome) → s.db.rows runId <+: db.rows runId := by
    intro owner hh _ _ _ holds ran
    obtain ⟨rfl, pending⟩ := sound.holding owner hh holds
    have hd := pending.attempt sound.ordered ran
    by_cases hs : runId = hh.call.runId
    · exact hs ▸ hd.grows
    · rw [hd.others runId hs]
  cases step with
  | acquire | uncommitted | raises | read => exact prefix_refl _
  | returns holds ran normal | unreported holds ran => exact attempted holds ran
  | recover =>
    obtain ⟨added, hs, -⟩ := (Database.rows_foldl _ sound.ordered).2 runId
    exact ⟨added, hs.symm⟩
  | write hs =>
    simp only [Database.rows, hs]
    exact prefix_refl _

theorem journal_run {s last : Journaling} (run : ReflTransGen JournalStep s last) (hs : s.Sound) :
    (∀ runId, s.db.rows runId <+: last.db.rows runId) ∧ last.Sound := by
  refine run_keeps (fun state => (∀ runId, s.db.rows runId <+: state.db.rows runId) ∧ state.Sound)
    (fun state next step hh => ?_) run ⟨fun _ => prefix_refl _, hs⟩
  exact ⟨fun runId => (hh.1 runId).trans (JournalStep.grows state next step hh.2 runId),
    JournalStep.sound state next step hh.2⟩

theorem reads_to_end {s : Journaling} (hso : s.Sound) {run : PromptRun}
    (hk : s.db.runOf s.reader.runId s.reader.sessionId = some run) :
    ∃ final, ReflTransGen JournalStep s final ∧ final.db = s.db ∧
      final.reader.received = (s.db.rows s.reader.runId).map (·.event) := by
  obtain ⟨n, _⟩ : ∃ n, n = (s.db.rows s.reader.runId).length - s.reader.cursor := ⟨_, rfl⟩
  induction n using Nat.strong_induction_on generalizing s with
  | _ _ ih =>
    by_cases atEnd : (s.db.rows s.reader.runId).length ≤ s.reader.cursor
    · refine ⟨s, .refl, rfl, ?_⟩
      rw [hso.reader.2, take_of_length_le (by simpa using atEnd)]
    · have reads := hso.ordered.readEvents hk s.reader.cursor
      have step := JournalStep.read reads
      have some : page EventRow.size ((s.db.rows s.reader.runId).drop s.reader.cursor) ≠ [] := by
        simpa [page_eq_nil] using atEnd
      have progress := length_pos_iff.mpr some
      obtain ⟨final, run, hs, received⟩ := ih _ (by dsimp only; omega) (JournalStep.sound _ _ step hso) hk rfl
      exact ⟨final, .head step run, hs, received⟩

structure JournalKept (middle last : Journaling) : Prop where
  contiguous : ∀ runId, From (·.sequence) 0 (last.db.journal runId)
  kept : ∀ runId, middle.db.journal runId <+: last.db.journal runId
  once : ∀ call ∈ last.returned, call.call.deduplicate = false → call.outcome ≠ .skipped →
    AddedOnce (last.db.journal call.call.runId) call
  reader : last.reader.cursor ≤ (last.db.journal last.reader.runId).length ∧
    last.reader.received =
      ((last.db.journal last.reader.runId).map (·.event)).take last.reader.cursor
  pages : ∀ sessionId runId cursor, (last.db.runOf runId sessionId).isSome →
    ∃ batch, last.db.readEvents sessionId runId cursor = .ok batch ∧
      batch.events <+: ((last.db.journal runId).map (·.event)).drop cursor ∧
      batch.nextSequence = cursor + batch.events.length ∧
      (cursor < (last.db.journal runId).length → batch.events ≠ [])
  ends : (last.db.runOf last.reader.runId last.reader.sessionId).isSome →
    ∃ final, ReflTransGen JournalStep last final ∧ final.db = last.db ∧
      final.reader.received = (last.db.journal last.reader.runId).map (·.event)

/-- In every interleaving of appends with retries, recovery and reads: sequence numbers are
contiguous, stored events stay, a plain append that returns without being skipped is stored
once, and a reader that follows its cursor has read exactly the journal before it, with a
nonempty page whenever something remains, until it has read all of it. -/
theorem journal_contiguous_and_read {db : Database} {sessionId runId : Text}
    {middle last : Journaling} (ordered : db.Ordered)
    (run : ReflTransGen JournalStep (.initial db sessionId runId) middle)
    (more : ReflTransGen JournalStep middle last) : JournalKept middle last := by
  obtain ⟨-, reached⟩ := journal_run run (sound_initial ordered sessionId runId)
  obtain ⟨kept, hs⟩ := journal_run more reached
  constructor <;> simp only [hs.ordered.journal, reached.ordered.journal]
  · exact hs.ordered
  · exact kept
  · exact fun call hm => (hs.returned call hm).2
  · exact hs.reader
  · intro sessionId runId cursor hk
    obtain ⟨run, hr⟩ := isSome_iff_exists.mp hk
    refine ⟨_, hs.ordered.readEvents hr cursor, ?_, by simp, fun remains => ?_⟩
    · rw [← map_drop]
      exact page_start.map _
    · simpa [page_eq_nil] using remains
  · intro hk
    obtain ⟨_, hr⟩ := isSome_iff_exists.mp hk
    exact reads_to_end hs hr

theorem ordered_of_no_events (none : db.events = []) : db.Ordered := by
  intro _
  rw [Database.rows, none]
  exact from_nil

def failureCall : AppendCall :=
  { runId := text "run", event := executionFailedEvent, unlessTerminal := true }

theorem failure_returns {db' : Database} {call : AppendCall} {outcome : AppendOutcome}
    (none : db.events = []) (ran : failureCall.attempt db = (db', call, outcome))
    (normal : ∀ error, outcome ≠ .raised error) :
    ReflTransGen JournalStep (.initial db (text "session") (text "run"))
      { Journaling.initial db' (text "session") (text "run") with
        returned := [⟨⟨call, 0⟩, (db'.rows (text "run")).length, outcome⟩] } := by
  let held : Journaling := { Journaling.initial db (text "session") (text "run") with
    holding := Function.update (fun _ => Option.none) (text "run") (some ⟨failureCall, 0⟩) }
  have first := @JournalStep.acquire (.initial db (text "session") (text "run")) failureCall rfl rfl rfl
  have second := @JournalStep.returns held (text "run") ⟨failureCall, 0⟩ db' call outcome
      (by simp [held]) ran normal
  refine .tail (.single first) ?_
  simpa [held, Journaling.hold, Database.rows, none, failureCall] using second

theorem journal_contiguous_and_read_sampleDatabase :
    ∃ last : Journaling, From (·.sequence) 0 (last.db.journal (text "run")) ∧
      ∃ call ∈ last.returned, AddedOnce (last.db.journal (text "run")) call := by
  have run := @failure_returns sampleDatabase _ _ _ rfl rfl (by simp)
  obtain ⟨contiguous, -, once, -⟩ :=
    journal_contiguous_and_read (@ordered_of_no_events sampleDatabase rfl) run .refl
  refine ⟨_, contiguous (text "run"), _, mem_singleton.mpr rfl, ?_⟩
  exact once _ (mem_singleton.mpr rfl) rfl (by decide)

/-- An append that is skipped returns normally and stores nothing. -/
theorem skipped_append_stores_nothing :
    ∃ last : Journaling, ReflTransGen JournalStep
          (.initial stoppedDatabase (text "session") (text "run")) last ∧
      ∃ call ∈ last.returned, call.call.deduplicate = false ∧
          ¬ ∃ row ∈ last.db.journal (text "run"), row.event.json = call.call.event.json := by
  refine ⟨_, @failure_returns stoppedDatabase _ _ .skipped rfl rfl (by simp), _,
    mem_singleton.mpr rfl, rfl, ?_⟩
  rintro ⟨_, hl, -⟩
  exact absurd hl (by simp [Database.journal, stoppedDatabase])

end Yinshi.Prompt
