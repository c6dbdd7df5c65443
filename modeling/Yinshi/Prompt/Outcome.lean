import Yinshi.Prompt.Journal

/-! The outcome of a run: the status `_consume` persists for the events of its executor,
and the one recovery derives from the events it finds in the journal. -/

namespace Yinshi.Prompt
open ByteText Keyed Numbered List

def appendEvent (db : Database) (call : AppendCall) : Except PromptError Database := do
  validateEvent call.event
  match call.attempt db with
  | (_, _, .raised error) => .error error
  | (db, _, _) => .ok db

def consumerCall (runId : Text) (event : Event) (unlessTerminal : Bool) : AppendCall where
  runId := runId
  event := event
  unlessTerminal := unlessTerminal
  deduplicate := event.type = some cancelledType

def appendTerminalEventSafely (db : Database) (runId : Text) (event : Event) : Database :=
  match appendEvent db (consumerCall runId event true) with
  | .ok db => db
  | .error _ => db

/-- The status an event of the executor stands for while the run is live. -/
def Event.failureStatus (event : Event) : Option Status :=
  if event.type = some cancelledType then some .cancelled
  else if event.type = some errorType then some .failed
  else none

def consumeEvents (runId : Text) : Database → Status → List Event → Database × Except PromptError Status
  | db, finalStatus, [] => (db, .ok finalStatus)
  | db, finalStatus, event :: events =>
    match appendEvent db (consumerCall runId event false) with
    | .error error => (db, .error error)
    | .ok db => consumeEvents runId db (event.failureStatus.getD finalStatus) events

/-- `_consume` between the write of `running` and the terminal write. -/
def consume (runId : Text) (db : Database) (events : List Event) : Database × Status :=
  match consumeEvents runId db .completed events with
  | (db, .ok finalStatus) => (db, finalStatus)
  | (db, .error _) => (appendTerminalEventSafely db runId executionFailedEvent, .failed)

def Event.Repeats (earlier : List Event) (event : Event) : Prop :=
  event.type = some cancelledType ∧ ∃ old ∈ earlier, old.json = event.json

instance (earlier : List Event) (event : Event) : Decidable (event.Repeats earlier) :=
  inferInstanceAs (Decidable (_ ∧ _))

def journaled (stored : List Event) (event : Event) : List Event :=
  if event.Repeats stored then stored else stored ++ [event]

section Stored
variable {stored events : List Event} {event : Event}

theorem mem_journal_json (json : Bytes) :
    (∃ old ∈ events.foldl journaled stored, old.json = json) ↔
    (∃ old ∈ stored, old.json = json) ∨ ∃ old ∈ events, old.json = json := by
  induction events generalizing stored with
  | nil => simp
  | cons event _ ih =>
    rw [foldl_cons, ih]
    have first : (∃ old ∈ journaled stored event, old.json = json) ↔
        (∃ old ∈ stored, old.json = json) ∨ event.json = json := by
      rw [journaled]
      split
      next repeated =>
        refine ⟨.inl, fun hk => hk.elim id fun hs => ?_⟩
        obtain ⟨old, hm, equal⟩ := repeated.2
        exact ⟨old, hm, equal.trans hs⟩
      next => simp [or_and_right, exists_or]
    rw [first, or_assoc]
    simp [or_and_right, exists_or]

theorem repeats_journal : event.Repeats (events.foldl journaled []) ↔ event.Repeats events := by
  rw [Event.Repeats, mem_journal_json]
  simp [Event.Repeats]

end Stored

section Consuming
variable {db db' : Database} {runId : Text} {event : Event} {events : List Event}

def Database.eventsOf (db : Database) (runId : Text) : List Event := (db.rows runId).map (·.event)

theorem appendEvent_journaled (ordered : db.Ordered)
    (ran : appendEvent db (consumerCall runId event false) = .ok db') :
    db'.Ordered ∧ db'.runs = db.runs ∧
    db'.eventsOf runId = journaled (db.eventsOf runId) event := by
  have does := (consumerCall runId event false).attempts ordered
  have sameRuns := @AppendCall.attempt_runs db (consumerCall runId event false)
  rw [appendEvent] at ran
  cases hv : validateEvent (consumerCall runId event false).event with
  | error error =>
    rw [hv] at ran
    cases ran
  | ok =>
    simp only [hv] at ran
    change (match (consumerCall runId event false).attempt db with
      | (_, _, .raised error) => Except.error error
      | (db, _, _) => .ok db) = .ok db' at ran
    have repeats : event.Repeats (db.eventsOf runId) ↔ event.type = some cancelledType ∧
        ∃ row ∈ db.rows runId, row.event.json = event.json := by
      simp [Event.Repeats, Database.eventsOf]
    generalize (consumerCall runId event false).attempt db = result at does ran sameRuns
    obtain ⟨_, _, _⟩ := result
    dsimp only at does sameRuns
    cases does with
    | missing message none | rejected message hf next => simp at ran
    | skipped hf hg _ => simp [consumerCall] at hg
    | duplicate hf deduplicate hk =>
      obtain rfl : db = db' := by simpa using ran
      refine ⟨ordered, rfl, ?_⟩
      rw [journaled, if_pos (repeats.mpr ⟨by simpa [consumerCall] using deduplicate, hk⟩)]
    | stored hf next hl _ =>
      have atEnd := (List.getElem?_eq_some_iff.mp hl).1
      simp [next, consumerCall] at atEnd
    | @inserted _ _ sequence _ fresh next _ _ =>
      obtain rfl : db.insertEvent runId sequence event = db' := Except.ok.inj ran
      have hn : sequence = (db.rows runId).length := next
      have new : ¬ event.Repeats (db.eventsOf runId) := fun old =>
        fresh (by simpa [consumerCall] using (repeats.mp old).1) (repeats.mp old).2
      refine ⟨hn ▸ ordered.insertEvent, rfl, ?_⟩
      rw [journaled, if_neg new, Database.eventsOf, Database.rows_insertEvent, if_pos rfl, map_append]
      rfl

theorem consumeEvents_journaled {first last : Status} (ordered : db.Ordered)
    (ran : consumeEvents runId db first events = (db', .ok last)) :
    db'.Ordered ∧ db'.runs = db.runs ∧
    db'.eventsOf runId = events.foldl journaled (db.eventsOf runId) ∧
    last = events.foldl (fun status event => event.failureStatus.getD status) first := by
  induction events generalizing db first with
  | nil =>
    obtain ⟨rfl, rfl⟩ : db = db' ∧ first = last := by simpa [consumeEvents] using ran
    exact ⟨ordered, rfl, rfl, rfl⟩
  | cons event _ ih =>
    rw [consumeEvents] at ran
    cases appended : appendEvent db (consumerCall runId event false) with
    | error _ => simp [appended] at ran
    | ok _ =>
      simp only [appended] at ran
      obtain ⟨hk, sameRuns, hs⟩ := appendEvent_journaled ordered appended
      obtain ⟨final, finalRuns, rows, status⟩ := ih hk ran
      exact ⟨final, finalRuns.trans sameRuns, by rw [rows, hs, foldl_cons], status⟩

theorem consumeEvents_append {first : Status} {more : List Event} :
    consumeEvents runId db first (events ++ more) =
      match consumeEvents runId db first events with
      | (db, .ok status) => consumeEvents runId db status more
      | (db, .error error) => (db, .error error) := by
  induction events generalizing db first with
  | nil => rfl
  | cons event _ ih =>
    rw [cons_append, consumeEvents, consumeEvents]
    cases appendEvent db (consumerCall runId event false) with
    | error _ => rfl
    | ok _ => exact ih

end Consuming

namespace Database
variable {db db' : Database} {runId : Text} {run : PromptRun}

def recoveredStatus (db : Database) (run : PromptRun) : Status :=
  match db.deriveTerminalStatusFromEvents run.id with
  | none => .interrupted
  | some derived => if run.status = .stopping then .cancelled else derived

theorem derive_of_rows (hs : db'.rows runId = db.rows runId) :
    db'.deriveTerminalStatusFromEvents runId = db.deriveTerminalStatusFromEvents runId := by
  rw [rows, rows] at hs
  rw [deriveTerminalStatusFromEvents, journal, hs]
  rfl

theorem recoverRun_other {row : PromptRun} (ha : row.id ≠ runId) :
    (db.recoverRun row).statusOf runId = db.statusOf runId ∧
    (db.recoverRun row).rows runId = db.rows runId := by
  constructor
  · obtain ⟨_, hs, -⟩ := @statusOf_recoverRun db row runId
    rw [hs]
    simp [Ne.symm ha]
  · rw [recoverRun]
    split
    · dsimp only
      split
      · exact (rows_insertEvent _).trans (by rw [if_neg ha, append_nil])
      · rfl
    · rfl

theorem foldl_recover_other {active : List PromptRun} (ha : ∀ row ∈ active, row.id ≠ runId) :
    (active.foldl recoverRun db).statusOf runId = db.statusOf runId ∧
    (active.foldl recoverRun db).rows runId = db.rows runId := by
  induction active generalizing db with
  | nil => exact ⟨rfl, rfl⟩
  | cons row _ ih =>
    obtain ⟨status, events⟩ := @ih (db.recoverRun row) fun other hm => ha other (by simp [hm])
    obtain ⟨sameStatus, sameEvents⟩ := @recoverRun_other db runId row (ha row (by simp))
    exact ⟨status.trans sameStatus, events.trans sameEvents⟩

theorem recoverRun_own (active : run.status ∈ activeStatuses)
    (hr : db.statusOf run.id = some run.status) :
    (db.recoverRun run).statusOf run.id = some (db.recoveredStatus run) := by
  rw [recoverRun, recoveredStatus]
  cases db.deriveTerminalStatusFromEvents run.id with
  | none =>
    have hs : ∀ other : Database, other.runs = db.runs → other.statusOf run.id = some run.status := by
      intro _ runs
      rw [← hr, statusOf, statusOf, runById, runById, runs]
    dsimp only
    rw [statusOf_updateStatus, hs _ (by split <;> rfl)]
    simp [active]
  | some derived =>
    dsimp only
    rw [statusOf_updateStatus, hr]
    simp [active]

theorem statusOf_recover (hi : db.Indexed) (hf : db.runById runId = some run)
    (active : run.status ∈ activeStatuses) :
    db.recoverPromptDatabase.statusOf runId = some (db.recoveredStatus run) := by
  obtain ⟨hm, rfl⟩ := (find?_eq_some_iff (fun run : PromptRun => run.id) hi.ids).mp hf
  have hr : db.statusOf run.id = some run.status := by rw [statusOf, hf, Option.map_some]
  have ids : ((db.runs.filter (·.status ∈ activeStatuses)).map (·.id)).Nodup :=
    hi.ids.sublist (filter_sublist.map _)
  have hl : run ∈ db.runs.filter (·.status ∈ activeStatuses) :=
    mem_filter.mpr ⟨hm, decide_eq_true active⟩
  obtain ⟨before, after, split⟩ := append_of_mem hl
  rw [split, map_append, map_cons, nodup_middle, nodup_cons, ← map_append] at ids
  have ha : ∀ row ∈ before ++ after, row.id ≠ run.id := fun row hl hs => ids.1 (mem_map.mpr ⟨row, hl, hs⟩)
  rw [recoverPromptDatabase, split, foldl_append, foldl_cons]
  obtain ⟨earlier, sameRows⟩ := @foldl_recover_other db run.id before fun row hl =>
    ha row (mem_append_left _ hl)
  obtain ⟨later, -⟩ := @foldl_recover_other ((before.foldl recoverRun db).recoverRun run) run.id after
    fun row hl => ha row (mem_append_right _ hl)
  rw [later, recoverRun_own active (earlier.trans hr), recoveredStatus, recoveredStatus,
    derive_of_rows sameRows]

theorem Ordered.derive (ordered : db.Ordered) (runId : Text) :
    db.deriveTerminalStatusFromEvents runId =
      (db.eventsOf runId).reverse.findSome? Event.finalStatus := by
  rw [deriveTerminalStatusFromEvents, ordered.journal, eventsOf, ← map_reverse, findSome?_map]
  rfl

end Database

def liveStatus (events : List Event) : Status :=
  events.foldl (fun status event => event.failureStatus.getD status) .completed

def storedStatus (events : List Event) : Option Status :=
  (events.foldl journaled []).reverse.findSome? Event.finalStatus

/-- The sequences whose live outcome recovery finds again: nothing fails, or some error has
no result or cancellation after it, or some new cancellation has no result or error after it. -/
def Settled (events : List Event) : Prop :=
  (∀ event ∈ events, event.failureStatus = none) ∨
  (∃ before event after, events = before ++ event :: after ∧ event.type = some errorType ∧
    ∀ later ∈ after, later.type ≠ some resultType ∧ later.type ≠ some cancelledType) ∨
  ∃ before event after, events = before ++ event :: after ∧ event.type = some cancelledType ∧
    ¬ event.Repeats before ∧
    ∀ later ∈ after, later.type ≠ some resultType ∧ later.type ≠ some errorType

section Outcomes
variable {events before after : List Event} {event : Event} {status : Status}

theorem finalStatus_cases (event : Event) :
    (event.type = some resultType ∧ event.finalStatus = some .completed ∧
        event.failureStatus = none) ∨
    (event.type = some cancelledType ∧ event.finalStatus = some .cancelled ∧
      event.failureStatus = some .cancelled) ∨
    (event.type = some errorType ∧ event.finalStatus = some .failed ∧
      event.failureStatus = some .failed) ∨
    (event.type ≠ some resultType ∧ event.type ≠ some cancelledType ∧ event.type ≠ some errorType ∧
      event.finalStatus = none ∧ event.failureStatus = none) := by
  obtain ⟨type, _⟩ := event
  cases type with
  | none => exact .inr (.inr (.inr ⟨by simp, by simp, by simp, rfl, rfl⟩))
  | some type =>
    by_cases isResult : type = resultType
    · subst isResult
      exact .inl ⟨rfl, by rfl, by rfl⟩
    by_cases hc : type = cancelledType
    · subst hc
      exact .inr (.inl ⟨rfl, by rfl, by rfl⟩)
    by_cases isError : type = errorType
    · subst isError
      exact .inr (.inr (.inl ⟨rfl, by rfl, by rfl⟩))
    refine .inr (.inr (.inr ⟨by simpa, by simpa, by simpa, ?_, ?_⟩))
    · simp [Event.finalStatus, terminalEventFinalStatuses, lookup_cons, lookup_nil, isResult, hc,
        isError, beq_eq_false_iff_ne.mpr]
    · simp [Event.failureStatus, hc, isError]

theorem quiet_of_finalStatus (hq : event.finalStatus = none) : event.type ≠ some resultType ∧
    event.type ≠ some cancelledType ∧ event.type ≠ some errorType ∧ event.failureStatus = none := by
  rcases finalStatus_cases event with h | h | h | h
  · simp [h] at hq
  · simp [h] at hq
  · simp [h] at hq
  · exact ⟨h.1, h.2.1, h.2.2.1, h.2.2.2.2⟩

theorem liveStatus_snoc : liveStatus (events ++ [event]) = event.failureStatus.getD (liveStatus events) := by
  rw [liveStatus, foldl_append, foldl_cons, foldl_nil, liveStatus]

theorem storedStatus_snoc : storedStatus (events ++ [event]) =
    if event.Repeats events then storedStatus events
    else event.finalStatus.or (storedStatus events) := by
  rw [storedStatus, foldl_append, foldl_cons, foldl_nil, journaled, storedStatus]
  simp only [repeats_journal]
  split
  · rfl
  · rw [reverse_append, reverse_singleton, singleton_append, findSome?_cons]
    cases event.finalStatus <;> rfl

theorem outcomes_kept (live : liveStatus before = status)
    (stored : storedStatus before = some status)
    (hs : ∀ later ∈ after, later.failureStatus = none ∧ later.finalStatus = none ∨
        later.failureStatus = some status ∧ later.finalStatus = some status) :
    liveStatus (before ++ after) = status ∧ storedStatus (before ++ after) = some status := by
  induction after generalizing before with
  | nil => simpa using ⟨live, stored⟩
  | cons event _ ih =>
    rw [append_cons]
    refine ih ?_ ?_ fun later hm => hs later (by simp [hm])
    · rw [liveStatus_snoc]
      rcases hs event (by simp) with ⟨hq, -⟩ | ⟨again, -⟩
      · rw [hq, Option.getD_none, live]
      · rw [again, Option.getD_some]
    · rw [storedStatus_snoc]
      split
      · exact stored
      · rcases hs event (by simp) with ⟨-, hq⟩ | ⟨-, again⟩
        · rw [hq, Option.none_or, stored]
        · rw [again, Option.some_or]

theorem quiet_of_live (live : liveStatus (before ++ after) = status)
    (others : ∀ later ∈ after, later.failureStatus ≠ some status) :
    ∀ later ∈ after, later.failureStatus = none := by
  induction after using reverseRecOn with
  | nil => simp
  | append_singleton after event ih =>
    rw [← append_assoc, liveStatus_snoc] at live
    have hq : event.failureStatus = none := by
      cases failure : event.failureStatus with
      | none => rfl
      | some other =>
        rw [failure, Option.getD_some] at live
        exact absurd (live ▸ failure) (others event (by simp))
    rw [hq, Option.getD_none] at live
    intro later hm
    rcases mem_append.mp hm with old | last
    · exact ih live (fun other hl => others other (by simp [hl])) later old
    · rw [mem_singleton.mp last, hq]

theorem storedStatus_event (hs : storedStatus events = some status) :
    ∃ before event after, events = before ++ event :: after ∧ event.finalStatus = some status ∧
      ¬ event.Repeats before ∧
      ∀ later ∈ after, later.finalStatus = none ∨ later.type = some cancelledType := by
  induction events using reverseRecOn with
  | nil => simp [storedStatus] at hs
  | append_singleton events event ih =>
    rw [storedStatus_snoc] at hs
    have extend : storedStatus events = some status →
        (event.finalStatus = none ∨ event.type = some cancelledType) →
        ∃ before first after, events ++ [event] = before ++ first :: after ∧
          first.finalStatus = some status ∧ ¬ first.Repeats before ∧
          ∀ later ∈ after, later.finalStatus = none ∨ later.type = some cancelledType := by
      intro old _
      obtain ⟨before, first, after, rfl, isFinal, new, rest⟩ := ih old
      refine ⟨before, first, after ++ [event], by simp, isFinal, new, fun later hm => ?_⟩
      rcases mem_append.mp hm with hi | last
      · exact rest later hi
      · rwa [mem_singleton.mp last]
    split at hs
    next repeated => exact extend hs (.inr repeated.1)
    next new =>
      cases final : event.finalStatus with
      | none =>
        rw [final, Option.none_or] at hs
        exact extend hs (.inl final)
      | some _ =>
        rw [final, Option.some_or] at hs
        exact ⟨events, event, [], rfl, final.trans hs, new, by simp⟩

theorem stored_of_no_failure (hq : ∀ event ∈ events, event.failureStatus = none) :
    liveStatus events = .completed ∧
    ((∃ event ∈ events, event.finalStatus.isSome) → storedStatus events = some .completed) := by
  induction events using reverseRecOn with
  | nil => exact ⟨rfl, by simp⟩
  | append_singleton events event ih =>
    obtain ⟨live, hs⟩ := ih fun other hm => hq other (by simp [hm])
    have own := hq event (by simp)
    refine ⟨by rw [liveStatus_snoc, own, Option.getD_none, live], fun terminal => ?_⟩
    have new : ¬ event.Repeats events := by
      intro repeated
      simp [Event.failureStatus, repeated.1] at own
    rw [storedStatus_snoc, if_neg new]
    rcases finalStatus_cases event with ⟨-, isFinal, -⟩ | ⟨-, -, failure⟩ | ⟨-, -, failure⟩ |
      ⟨-, -, -, isFinal, -⟩
    · rw [isFinal, Option.some_or]
    · simp [failure] at own
    · simp [failure] at own
    · rw [isFinal, Option.none_or]
      obtain ⟨other, hm, isSome⟩ := terminal
      rcases mem_append.mp hm with old | last
      · exact hs ⟨other, old, isSome⟩
      · rw [mem_singleton.mp last, isFinal] at isSome
        simp at isSome

theorem agree_of_event (final : event.finalStatus = some status)
    (failure : event.failureStatus = some status) (new : ¬ event.Repeats before)
    (same : ∀ later ∈ after, later.failureStatus = none ∧ later.finalStatus = none ∨
        later.failureStatus = some status ∧ later.finalStatus = some status) :
    storedStatus (before ++ event :: after) = some (liveStatus (before ++ event :: after)) := by
  have live : liveStatus (before ++ [event]) = status := by rw [liveStatus_snoc, failure, Option.getD_some]
  have hs : storedStatus (before ++ [event]) = some status := by
    rw [storedStatus_snoc, if_neg new, final, Option.some_or]
  rw [append_cons]
  obtain ⟨sameLive, sameStored⟩ := outcomes_kept live hs same
  rw [sameLive, sameStored]

theorem settled_of_agree (agree : storedStatus events = some (liveStatus events)) : Settled events := by
  obtain ⟨before, event, after, rfl, isFinal, new, rest⟩ := storedStatus_event agree
  generalize isLive : liveStatus (before ++ event :: after) = status at isFinal
  rcases finalStatus_cases event with ⟨-, final, -⟩ | ⟨type, final, -⟩ | ⟨type, final, -⟩ |
    ⟨-, -, -, final, -⟩
  · rw [final] at isFinal
    rw [← Option.some.inj isFinal] at isLive
    refine .inl (@quiet_of_live [] _ _ isLive fun later _ => ?_)
    rcases finalStatus_cases later with h | h | h | h <;> simp [h]
  · refine .inr (.inr ⟨before, event, after, rfl, type, new, fun later hm => ?_⟩)
    rcases rest later hm with final | hc
    · exact ⟨(quiet_of_finalStatus final).1, (quiet_of_finalStatus final).2.2.1⟩
    · rw [hc]
      decide
  · rw [final] at isFinal
    rw [← Option.some.inj isFinal, append_cons] at isLive
    have hq : ∀ later ∈ after, later.failureStatus = none := by
      refine quiet_of_live isLive fun later hm => ?_
      rcases rest later hm with final | hc
      · simp [(quiet_of_finalStatus final).2.2.2]
      · simp [Event.failureStatus, hc]
    refine .inr (.inl ⟨before, event, after, rfl, type, fun later hm => ?_⟩)
    rcases rest later hm with final | hc
    · exact ⟨(quiet_of_finalStatus final).1, (quiet_of_finalStatus final).2.1⟩
    · have := hq later hm
      simp [Event.failureStatus, hc] at this
  · simp [final] at isFinal

theorem storedStatus_eq_live_iff (terminal : ∃ event ∈ events, event.finalStatus.isSome) :
    storedStatus events = some (liveStatus events) ↔ Settled events := by
  refine ⟨settled_of_agree, ?_⟩
  rintro (hq | ⟨before, event, after, rfl, type, rest⟩ | ⟨before, event, after, rfl, type, new, rest⟩)
  · obtain ⟨live, hs⟩ := stored_of_no_failure hq
    rw [live, hs terminal]
  · have new : ¬ event.Repeats before := by
      rw [Event.Repeats, type]
      exact fun repeated => absurd repeated.1 (by decide)
    refine @agree_of_event before after event .failed ?_ ?_ new fun later hm => ?_
    · simp [Event.finalStatus, type]
      rfl
    · rw [Event.failureStatus, type]
      rfl
    · have := rest later hm
      rcases finalStatus_cases later with h | h | h | h
      · exact absurd h.1 this.1
      · exact absurd h.1 this.2
      · exact .inr ⟨h.2.2, h.2.1⟩
      · exact .inl ⟨h.2.2.2.2, h.2.2.2.1⟩
  · refine @agree_of_event before after event .cancelled ?_ ?_ new fun later hm => ?_
    · simp [Event.finalStatus, type]
      rfl
    · rw [Event.failureStatus, type]
      rfl
    · have := rest later hm
      rcases finalStatus_cases later with h | h | h | h
      · exact absurd h.1 this.1
      · exact .inr ⟨h.2.2, h.2.1⟩
      · exact absurd h.1 this.2
      · exact .inl ⟨h.2.2.2.2, h.2.2.2.1⟩

end Outcomes

structure Database.Fresh (db : Database) (runId : Text) : Prop where
  indexed : db.Indexed
  ordered : db.Ordered
  running : db.statusOf runId = some .running
  empty : db.eventsOf runId = []

theorem liveStatus_ne_interrupted (events : List Event) : liveStatus events ≠ .interrupted := by
  induction events using reverseRecOn with
  | nil => decide
  | append_singleton _ event ih =>
    rw [liveStatus_snoc]
    rcases finalStatus_cases event with h | h | h | h <;> simp [h, ih]

theorem foldl_quiet {events : List Event} {status : Status}
    (hq : ∀ event ∈ events, event.failureStatus = none) :
    events.foldl (fun status event => event.failureStatus.getD status) status = status := by
  induction events with
  | nil => rfl
  | cons event _ ih =>
    rw [foldl_cons, hq event (by simp), Option.getD_none]
    exact ih fun other hm => hq other (by simp [hm])

theorem recovered_of_stored {db crashed : Database} {runId : Text} {events : List Event}
    (fresh : db.Fresh runId) (ordered : crashed.Ordered) (runs : crashed.runs = db.runs)
    (hs : crashed.eventsOf runId = events.foldl journaled (db.eventsOf runId)) :
    crashed.recoverPromptDatabase.statusOf runId =
      some ((storedStatus events).getD .interrupted) := by
  have hi := (Database.follows_of_runs runs).indexed fresh.indexed
  have hr : crashed.statusOf runId = some .running := by
    rw [← fresh.running, Database.statusOf, Database.statusOf, Database.runById, Database.runById, runs]
  obtain ⟨run, hf, isRunning⟩ := Option.map_eq_some_iff.mp hr
  have isRun : run.id = runId := by simpa using find?_some hf
  rw [Database.statusOf_recover hi hf (by rw [isRunning]; decide), Database.recoveredStatus,
    isRun, ordered.derive, hs, fresh.empty, ← storedStatus]
  cases storedStatus events with
  | none => rfl
  | some status => simp [isRunning]

/-- The process stops after the last terminal event was appended: recovery assigns the
status the consumer would have written exactly for the settled sequences. -/
theorem recovered_outcome_iff {db : Database} {runId : Text} {sent rest : List Event}
    (fresh : db.Fresh runId) (terminal : ∃ event ∈ sent, event.finalStatus.isSome)
    (quiet : ∀ event ∈ rest, event.finalStatus = none)
    (appended : ∃ status, (consumeEvents runId db .completed (sent ++ rest)).2 = .ok status) :
    (consumeEvents runId db .completed sent).1.recoverPromptDatabase.statusOf runId =
        some (consume runId db (sent ++ rest)).2 ↔ Settled sent := by
  obtain ⟨status, isStatus⟩ := appended
  rw [consumeEvents_append] at isStatus
  rw [consume, consumeEvents_append]
  cases first : consumeEvents runId db .completed sent with
  | mk crashed outcome =>
  cases outcome with
  | error _ => simp [first] at isStatus
  | ok live =>
    simp only [first] at isStatus ⊢
    obtain ⟨ordered, runs, stored, isLive⟩ := consumeEvents_journaled fresh.ordered first
    cases second : consumeEvents runId crashed live rest with
    | mk _ outcome =>
    rw [second] at isStatus
    obtain rfl : outcome = .ok status := isStatus
    obtain ⟨-, -, -, isFinal⟩ := consumeEvents_journaled ordered second
    have hs : status = liveStatus sent := by
      rw [isFinal, isLive]
      exact foldl_quiet fun event hm => (quiet_of_finalStatus (quiet event hm)).2.2.2
    rw [recovered_of_stored fresh ordered runs stored, hs, ← storedStatus_eq_live_iff terminal]
    have ha := liveStatus_ne_interrupted sent
    cases storedStatus sent with
    | none => simpa using Ne.symm ha
    | some _ => simp

theorem sampleDatabase_fresh : sampleDatabase.Fresh (text "run") :=
  ⟨sampleDatabase_indexed, ordered_of_no_events rfl, by decide, by decide⟩

def usageEvent : Event := ⟨some resultType, bytes "\x7b\"type\":\"result\",\"usage\":\x7b\x7d\x7d"⟩

theorem recovered_outcome_iff_result :
    (consumeEvents (text "run") sampleDatabase .completed
        [usageEvent, executionFailedEvent]).1.recoverPromptDatabase.statusOf (text "run") =
      some (consume (text "run") sampleDatabase ([usageEvent, executionFailedEvent] ++ [])).2 :=
  (recovered_outcome_iff sampleDatabase_fresh (by decide) (by decide) ⟨_, by rfl⟩).mpr
    (.inr (.inl ⟨[usageEvent], _, [], rfl, rfl, by decide⟩))

/-- An error event followed by a result: the run fails live and is recovered as completed. -/
theorem outcomes_disagree :
    (∃ event ∈ [executionFailedEvent, usageEvent], event.finalStatus.isSome) ∧
    (consumeEvents (text "run") sampleDatabase .completed
        [executionFailedEvent, usageEvent]).1.recoverPromptDatabase.statusOf (text "run") =
      some .completed ∧
    (consume (text "run") sampleDatabase [executionFailedEvent, usageEvent]).2 = .failed :=
  ⟨by decide, by rfl, by rfl⟩

end Yinshi.Prompt
