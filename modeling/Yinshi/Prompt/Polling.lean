import Mathlib.Data.Rat.Defs
import Yinshi.Prompt.Journal

/-! The polling client of a prompt run, `attachRuntimePrompt(...).events()`, against a final
journal that `PromptJournal.events` serves page by page. -/

namespace Yinshi.Prompt
open ByteText List

inductive FieldValue
  | null
  | bool (value : Bool)
  | number (value : Rat)
  | string (value : Text)
  | compound (json : Bytes)
  deriving DecidableEq

def FieldValue.truthy : FieldValue → Bool
  | .null => false
  | .bool value => value
  | .number value => value ≠ 0
  | .string value => value ≠ []
  | .compound _ => true

/-- A stored event: its type is a string, `bytes` is the length of its JSON. -/
structure JournalEvent where
  type : Text
  fields : List (Text × FieldValue)
  bytes : Nat

def JournalEvent.get (event : JournalEvent) (name : String) : Option FieldValue :=
  event.fields.lookup (text name)

inductive SseEvent
  | toolUse (name : FieldValue) (id input : Option FieldValue)
  | event (type : Text) (fields : List (Text × FieldValue))
  deriving DecidableEq

/-- The first operand that is truthy, as `a || b || "unknown"`. -/
def firstTruthy (operands : List (Option FieldValue)) (otherwise : FieldValue) : FieldValue :=
  (operands.findSome? fun operand => operand.filter FieldValue.truthy).getD otherwise

def nullishOr (first second : Option FieldValue) : Option FieldValue :=
  match first with
  | none | some .null => second
  | some value => some value

def normalizeEvent (raw : JournalEvent) : SseEvent :=
  if raw.type = text "tool_use" then
    .toolUse (firstTruthy [raw.get "toolName", raw.get "name", raw.get "tool_name"]
        (.string (text "unknown")))
      (raw.get "id") (nullishOr (raw.get "toolInput") (raw.get "input"))
  else .event raw.type raw.fields

def SseEvent.type : SseEvent → Text
  | .toolUse _ _ _ => text "tool_use"
  | .event type _ => type

def terminalTypes : List Text := [errorType, cancelledType, resultType]

def JournalEvent.isTerminal (event : JournalEvent) : Prop := event.type ∈ terminalTypes

instance (event : JournalEvent) : Decidable event.isTerminal := inferInstanceAs (Decidable (_ ∈ _))

def Status.name : Status → String
  | .starting => "starting"
  | .running => "running"
  | .stopping => "stopping"
  | .completed => "completed"
  | .failed => "failed"
  | .cancelled => "cancelled"
  | .interrupted => "interrupted"

def endedEvent (status : Status) : SseEvent :=
  .event errorType [(text "error", .string (text (if status = .interrupted then
    "Prompt run was interrupted" else "Prompt run ended with status " ++ status.name)))]

structure BatchResponse where
  runId : Text
  status : Status
  events : List JournalEvent
  nextSequence : Nat

def serveEvents (runId : Text) (status : Status) (journal : List JournalEvent) (cursor : Nat) :
    BatchResponse :=
  let events := page JournalEvent.bytes (journal.drop cursor)
  ⟨runId, status, events, cursor + events.length⟩

def maxSafeInteger : Nat := 9007199254740991

def validateBatch (batch : BatchResponse) (runId : Text) (expectedSequence : Nat) :
    Except String (Status × List SseEvent × Nat) :=
  if batch.runId ≠ runId ∨ maxSafeInteger < batch.nextSequence then
    .error "Prompt event batch did not match the run"
  else if ∃ event ∈ batch.events, event.type = [] then .error "Prompt journal event type is invalid"
  else if batch.nextSequence ≠ expectedSequence + batch.events.length then
    .error "Prompt event sequence is not contiguous"
  else .ok (batch.status, batch.events.map normalizeEvent, batch.nextSequence)

structure Polling where
  nextSequence : Nat := 0
  consecutiveTransientFailures : Nat := 0
  emittedTerminalEvent : Bool := false
  yielded : List SseEvent := []
  deriving DecidableEq

inductive Progress
  | polling (state : Polling)
  | returned (yielded : List SseEvent)
  | threw (yielded : List SseEvent) (message : String)
  deriving DecidableEq

/-- One turn of the loop; `fails` when its request fails transiently. -/
def poll (runId : Text) (status : Status) (journal : List JournalEvent) (pollRetryLimit : Nat)
    (fails : Bool) (state : Polling) : Progress :=
  if fails then
    if pollRetryLimit ≤ state.consecutiveTransientFailures + 1 then
      .threw state.yielded "transient failure"
    else .polling { state with
      consecutiveTransientFailures := state.consecutiveTransientFailures + 1 }
  else
    match validateBatch (serveEvents runId status journal state.nextSequence) runId
        state.nextSequence with
    | .error message => .threw state.yielded message
    | .ok (status, events, nextSequence) =>
      let emitted := state.emittedTerminalEvent || events.any (·.type ∈ terminalTypes)
      let yielded := state.yielded ++ events
      if status ∈ terminalStatuses then
        if emitted then .returned yielded
        else if events ≠ [] then .polling ⟨nextSequence, 0, emitted, yielded⟩
        else if status ≠ .completed then .returned (yielded ++ [endedEvent status])
        else .returned yielded
      else .polling ⟨nextSequence, 0, emitted, yielded⟩

/-- At most `fuel` turns, from the request with number `request` on. -/
def pollEvents (runId : Text) (status : Status) (journal : List JournalEvent) (pollRetryLimit : Nat)
    (fails : Nat → Bool) : Nat → Nat → Polling → Progress
  | 0, _, state => .polling state
  | fuel + 1, request, state =>
    match poll runId status journal pollRetryLimit (fails request) state with
    | .polling state => pollEvents runId status journal pollRetryLimit fails fuel (request + 1) state
    | ended => ended

/-- The property of the client: all events, each once and in order, and an error event after
them only for a run that ended without one. -/
def Complete (journal : List JournalEvent) (status : Status) : Progress → Prop
  | .returned yielded => yielded = journal.map normalizeEvent ∨
      yielded = journal.map normalizeEvent ++ [endedEvent status] ∧
        (∀ event ∈ journal, ¬ event.isTerminal) ∧ status ≠ .completed
  | _ => False

def pages (events : List JournalEvent) : List (List JournalEvent) :=
  if events = [] then []
  else page JournalEvent.bytes events ::
    pages (events.drop (page JournalEvent.bytes events).length)
termination_by events.length
decreasing_by
  rename_i some
  have first : page JournalEvent.bytes events ≠ [] := fun none => some (page_eq_nil.mp none)
  have := List.length_pos_iff.mpr first
  have := List.length_pos_iff.mpr some
  rw [List.length_drop]
  omega

variable {events : List JournalEvent}

theorem pages_eq_nil (none : pages events = []) : events = [] := by
  rw [pages] at none
  split at none
  next isNil => exact isNil
  next => simp at none

variable {ps : List (List JournalEvent)}

theorem pages_eq_cons {p : List JournalEvent} (some : pages events = p :: ps) :
    p = page JournalEvent.bytes events ∧ p ≠ [] ∧ ps = pages (events.drop p.length) := by
  rw [pages] at some
  split at some
  next => simp at some
  next hn =>
    cases some
    exact ⟨rfl, fun none => hn (page_eq_nil.mp none), rfl⟩

theorem flatten_pages (cut : pages events = ps) : ps.flatten = events ∧ ∀ p ∈ ps, p ≠ [] := by
  induction ps generalizing events with
  | nil => simp [pages_eq_nil cut]
  | cons _ _ ih =>
    obtain ⟨isPage, hn, rest⟩ := pages_eq_cons cut
    obtain ⟨flat, others⟩ := ih rest.symm
    obtain ⟨_, hw⟩ := isPage ▸ @page_start _ JournalEvent.bytes events
    refine ⟨?_, fun q hm => ?_⟩
    · rw [flatten_cons, flat, ← hw, drop_left]
    · rcases mem_cons.mp hm with rfl | later
      · exact hn
      · exact others q later

section Loop
variable {runId : Text} {status : Status} {journal : List JournalEvent} {limit : Nat}
  {fails : Nat → Bool}

variable {request : Nat} {state : Polling}

theorem pollEvents_more {fuel : Nat} {ended : Progress} (more : Nat)
    (ran : pollEvents runId status journal limit fails fuel request state = ended)
    (hd : ∀ state, ended ≠ .polling state) :
    pollEvents runId status journal limit fails (fuel + more) request state = ended := by
  induction fuel generalizing request state with
  | zero => exact absurd ran.symm (hd state)
  | succ _ ih =>
    rw [Nat.add_right_comm, pollEvents]
    rw [pollEvents] at ran
    cases turn : poll runId status journal limit (fails request) state with
    | polling _ =>
      rw [turn] at ran
      exact ih ran
    | returned yielded | threw yielded message =>
      rw [turn] at ran
      exact ran

theorem pollEvents_unique {fuel fuel' : Nat}
    (hd : ∀ next, pollEvents runId status journal limit fails fuel request state ≠ .polling next)
    (hd' :
      ∀ next, pollEvents runId status journal limit fails fuel' request state ≠ .polling next) :
    pollEvents runId status journal limit fails fuel request state =
      pollEvents runId status journal limit fails fuel' request state := by
  rw [← pollEvents_more fuel' rfl hd, ← pollEvents_more fuel rfl hd', Nat.add_comm]

theorem pollEvents_retries (tries fuel : Nat) (failed : ∀ k < tries, fails (request + k) = true)
    (below : state.consecutiveTransientFailures + tries < limit) :
    pollEvents runId status journal limit fails (fuel + tries) request state =
      pollEvents runId status journal limit fails fuel (request + tries)
        { state with
          consecutiveTransientFailures := state.consecutiveTransientFailures + tries } := by
  induction tries generalizing request state with
  | zero => rfl
  | succ _ ih =>
    rw [← Nat.add_assoc, pollEvents, poll, if_pos (by simpa using failed 0 (by omega)), if_neg (by omega)]
    dsimp only
    rw [ih (fun k hb => ?_) (by dsimp only; omega)]
    · simp only [Nat.add_assoc, Nat.add_comm 1]
    · rw [Nat.add_assoc, Nat.add_comm 1]
      exact failed (k + 1) (by omega)

theorem pollEvents_turn (retried : ∀ request, ∃ tries < limit, fails (request + tries) = false)
    (request cursor : Nat) (yielded : List SseEvent) : ∃ tries, ∀ fuel,
    pollEvents runId status journal limit fails (fuel + 1 + tries) request
        ⟨cursor, 0, false, yielded⟩ =
      match poll runId status journal limit false ⟨cursor, tries, false, yielded⟩ with
      | .polling next => pollEvents runId status journal limit fails fuel (request + tries + 1) next
      | ended => ended := by
  have ha : ∃ tries, fails (request + tries) = false := by
    obtain ⟨tries, -, isAnswered⟩ := retried request
    exact ⟨tries, isAnswered⟩
  refine ⟨Nat.find ha, fun fuel => ?_⟩
  have failed : ∀ k < Nat.find ha, fails (request + k) = true := fun k before => by
    simpa using Nat.find_min ha before
  have hb : 0 + Nat.find ha < limit := by
    obtain ⟨_, _, isAnswered⟩ := retried request
    have := Nat.find_min' ha isAnswered
    omega
  rw [pollEvents_retries _ _ failed hb, pollEvents, Nat.find_spec ha]
  simp only [Nat.zero_add]

theorem normalizeEvent_type (event : JournalEvent) : (normalizeEvent event).type = event.type := by
  rw [normalizeEvent]
  split
  next isTool => exact isTool.symm
  next => rfl

def consumePages (status : Status) : List (List JournalEvent) → Nat → List SseEvent → Progress
  | [], _, yielded =>
    if status ≠ .completed then .returned (yielded ++ [endedEvent status]) else .returned yielded
  | events :: rest, cursor, yielded =>
    if maxSafeInteger < cursor + events.length then
      .threw yielded "Prompt event batch did not match the run"
    else if ∃ event ∈ events, event.type = [] then
      .threw yielded "Prompt journal event type is invalid"
    else if ∃ event ∈ events, event.isTerminal then
      .returned (yielded ++ events.map normalizeEvent)
    else consumePages status rest (cursor + events.length) (yielded ++ events.map normalizeEvent)

theorem any_terminal (events : List JournalEvent) :
    (events.map normalizeEvent).any (·.type ∈ terminalTypes) =
      decide (∃ event ∈ events, event.isTerminal) := by
  rw [Bool.eq_iff_iff, decide_eq_true_eq]
  simp [any_map, normalizeEvent_type, JournalEvent.isTerminal]

variable {yielded : List SseEvent}

theorem poll_events (he : status ∈ terminalStatuses) {cursor tries : Nat} (some : events ≠ [])
    (hs : page JournalEvent.bytes (journal.drop cursor) = events) :
    poll runId status journal limit false ⟨cursor, tries, false, yielded⟩ =
      if maxSafeInteger < cursor + events.length then
        .threw yielded "Prompt event batch did not match the run"
      else if ∃ event ∈ events, event.type = [] then
        .threw yielded "Prompt journal event type is invalid"
      else if ∃ event ∈ events, event.isTerminal then
        .returned (yielded ++ events.map normalizeEvent)
      else .polling ⟨cursor + events.length, 0, false, yielded ++ events.map normalizeEvent⟩ := by
  rw [poll, if_neg (by decide), validateBatch]
  simp only [serveEvents, hs, ne_eq, not_true_eq_false, false_or]
  by_cases beyond : maxSafeInteger < cursor + events.length
  · rw [if_pos beyond, if_pos beyond]
  by_cases invalid : ∃ event ∈ events, event.type = []
  · rw [if_neg beyond, if_pos invalid, if_neg beyond, if_pos invalid]
  rw [if_neg beyond, if_neg invalid, if_neg beyond, if_neg invalid]
  by_cases last : ∃ event ∈ events, event.isTerminal
  · simp only [reduceIte, if_pos he, any_terminal, Bool.false_or, decide_eq_true_eq, last]
  · simp only [reduceIte, if_pos he, any_terminal, Bool.false_or, last, map_eq_nil_iff, some,
      not_false_eq_true, decide_false, Bool.false_eq_true]

theorem poll_end (he : status ∈ terminalStatuses) {cursor tries : Nat}
    (hs : page JournalEvent.bytes (journal.drop cursor) = []) (safe : cursor ≤ maxSafeInteger) :
    poll runId status journal limit false ⟨cursor, tries, false, yielded⟩ =
      if status ≠ .completed then .returned (yielded ++ [endedEvent status]) else
      .returned yielded := by
  rw [poll, if_neg (by decide), validateBatch]
  simp [serveEvents, hs, Nat.not_lt.mpr safe, he]

theorem pollEvents_pages (retried : ∀ request, ∃ tries < limit, fails (request + tries) = false)
    (he : status ∈ terminalStatuses) {ps : List (List JournalEvent)} {cursor request : Nat}
    {yielded : List SseEvent} (cut : pages (journal.drop cursor) = ps)
    (safe : cursor ≤ maxSafeInteger) :
    ∃ fuel, pollEvents runId status journal limit fails fuel request ⟨cursor, 0, false, yielded⟩ =
        consumePages status ps cursor yielded := by
  induction ps generalizing cursor request yielded with
  | nil =>
    have hs : page JournalEvent.bytes (journal.drop cursor) = [] := by
      rw [pages_eq_nil cut]
      rfl
    obtain ⟨tries, turn⟩ := @pollEvents_turn runId status journal limit fails retried request cursor yielded
    refine ⟨0 + 1 + tries, (turn 0).trans ?_⟩
    rw [poll_end he hs safe, consumePages]
    by_cases isCompleted : status = .completed <;> simp [isCompleted]
  | cons events _ ih =>
    obtain ⟨isPage, some, rest⟩ := pages_eq_cons cut
    obtain ⟨tries, turn⟩ := @pollEvents_turn runId status journal limit fails retried request cursor yielded
    rw [poll_events he some isPage.symm] at turn
    rw [consumePages]
    split
    next beyond => exact ⟨0 + 1 + tries, (turn 0).trans (by rw [if_pos beyond])⟩
    next isSafe =>
      split
      next invalid => exact ⟨0 + 1 + tries, (turn 0).trans (by rw [if_neg isSafe, if_pos invalid])⟩
      next hv =>
        split
        next last => exact ⟨0 + 1 + tries, (turn 0).trans (by rw [if_neg isSafe, if_neg hv, if_pos last])⟩
        next hq =>
          rw [drop_drop] at rest
          obtain ⟨fuel, ran⟩ := @ih (cursor + events.length) (request + tries + 1)
            (yielded ++ events.map normalizeEvent) rest.symm (by omega)
          refine ⟨fuel + 1 + tries, (turn fuel).trans ?_⟩
          rw [if_neg isSafe, if_neg hv, if_neg hq]
          exact ran

variable {cursor : Nat}

theorem consumePages_ends (state : Polling) : consumePages status ps cursor yielded ≠ .polling state := by
  induction ps generalizing cursor yielded with
  | nil =>
    rw [consumePages]
    split <;> simp
  | cons _ _ ih =>
    rw [consumePages]
    split
    · simp
    · split
      · simp
      · split
        · simp
        · exact ih

structure Drained (ps : List (List JournalEvent)) (cursor : Nat) : Prop where
  types : ∀ event ∈ ps.flatten, event.type ≠ []
  safe : cursor + ps.flatten.length ≤ maxSafeInteger
  last : ∀ before events after, ps = before ++ events :: after →
    (∃ event ∈ events, event.isTerminal) → after = []

theorem drained_cons :
    Drained (events :: ps) cursor ↔
    (∀ event ∈ events, event.type ≠ []) ∧ ((∃ event ∈ events, event.isTerminal) → ps = []) ∧
    Drained ps (cursor + events.length) := by
  constructor
  · intro drained
    refine ⟨fun event hm => drained.types event (by simp [hm]),
      drained.last [] events ps rfl, fun event hm => drained.types event ?_, ?_, ?_⟩
    · exact mem_append_right _ hm
    · have := drained.safe
      rw [flatten_cons, length_append] at this
      omega
    · intro before others after cut
      exact drained.last (events :: before) others after (by rw [cut, cons_append])
  · rintro ⟨types, last, rest⟩
    refine ⟨fun event hm => ?_, ?_, fun before others after cut terminal => ?_⟩
    · rcases mem_append.mp hm with own | later
      · exact types event own
      · exact rest.types event later
    · have := rest.safe
      rw [flatten_cons, length_append]
      omega
    · cases before with
      | nil =>
        cases cut
        exact last terminal
      | cons _ before =>
        cases cut
        exact rest.last before others after rfl terminal

theorem consumePages_drained (drained : Drained ps cursor) :
    consumePages status ps cursor yielded =
      .returned (yielded ++ ps.flatten.map normalizeEvent ++
          if (∃ event ∈ ps.flatten, event.isTerminal) ∨ status = .completed then [] else
          [endedEvent status]) := by
  induction ps generalizing cursor yielded with
  | nil =>
    rw [consumePages]
    by_cases isCompleted : status = .completed <;> simp [isCompleted]
  | cons events ps ih =>
    obtain ⟨types, last, rest⟩ := drained_cons.1 drained
    have safe := rest.safe
    have hv : ¬ ∃ event ∈ events, event.type = [] := by
      rintro ⟨event, hm, empty⟩
      exact types event hm empty
    rw [consumePages, if_neg (by omega), if_neg hv]
    by_cases terminal : ∃ event ∈ events, event.isTerminal
    · rw [if_pos terminal, last terminal, if_pos (.inl (by simpa using terminal))]
      simp
    · have hs : (∃ event ∈ events ++ ps.flatten, event.isTerminal) ↔ ∃ event ∈ ps.flatten, event.isTerminal := by
        simp only [mem_append, or_and_right, exists_or, terminal, false_or]
      rw [if_neg terminal, ih rest]
      simp only [flatten_cons, hs, map_append, append_assoc]

theorem drained_of_consumePages {all : List SseEvent} (safe : cursor ≤ maxSafeInteger)
    (hn : ∀ p ∈ ps, p ≠ []) (ran : consumePages status ps cursor yielded = .returned all)
    (enough : yielded.length + ps.flatten.length ≤ all.length) : Drained ps cursor := by
  induction ps generalizing cursor yielded with
  | nil => exact ⟨by simp, by simpa using safe, by simp⟩
  | cons events ps ih =>
    rw [consumePages] at ran
    split at ran
    · simp at ran
    next isSafe =>
      split at ran
      · simp at ran
      next hv =>
        have types : ∀ event ∈ events, event.type ≠ [] := fun event hm empty => hv ⟨event, hm, empty⟩
        rw [flatten_cons, length_append] at enough
        rw [drained_cons]
        split at ran
        next terminal =>
          -- nothing may be left after the page the client stopped at
          cases ran
          rw [length_append, length_map] at enough
          have none : ps = [] := by
            cases ps with
            | nil => rfl
            | cons next _ =>
              have := length_pos_iff.mpr (hn next (by simp))
              rw [flatten_cons, length_append] at enough
              omega
          subst none
          exact ⟨types, fun _ => rfl, by simp, by simpa using Nat.not_lt.mp isSafe, by simp⟩
        next hq =>
          refine ⟨types, fun terminal => absurd terminal hq, ih (Nat.not_lt.mp isSafe)
            (fun p hm => hn p (by simp [hm])) ran ?_⟩
          rw [length_append, length_map]
          omega

end Loop

/-- The client is complete exactly on journals whose events have a type and whose first
page with a terminal event is the last. -/
theorem polling_complete_iff {runId : Text} {status : Status} {journal : List JournalEvent}
    {pollRetryLimit : Nat} {fails : Nat → Bool} (ended : status ∈ terminalStatuses)
    (retried : ∀ request, ∃ tries < pollRetryLimit, fails (request + tries) = false) :
    (∃ fuel,
        Complete journal status (pollEvents runId status journal pollRetryLimit fails fuel 0 {})) ↔
    (∀ event ∈ journal, event.type ≠ []) ∧ journal.length ≤ maxSafeInteger ∧
    ∀ before events after, pages journal = before ++ events :: after →
      (∃ event ∈ events, event.isTerminal) → after = [] := by
  obtain ⟨flat, hn⟩ := flatten_pages (rfl : pages journal = pages journal)
  obtain ⟨enough, final⟩ := @pollEvents_pages runId status journal pollRetryLimit fails retried ended
    (pages journal) 0 0 [] rfl (Nat.zero_le _)
  constructor
  · rintro ⟨fuel, complete⟩
    cases ran : pollEvents runId status journal pollRetryLimit fails fuel 0 {} with
    | polling state | threw yielded message =>
      rw [ran] at complete
      exact complete.elim
    | returned all =>
      have hs := pollEvents_unique (fun next => by rw [ran]; simp)
        (fun next => by rw [final]; exact consumePages_ends next)
      rw [ran, final] at hs
      have enough : journal.length ≤ all.length := by
        rw [ran] at complete
        rcases complete with rfl | ⟨rfl, -⟩ <;> simp
      have drained := drained_of_consumePages (Nat.zero_le _) hn hs.symm (by simpa [flat])
      exact ⟨flat ▸ drained.types, by simpa [flat] using drained.safe, drained.last⟩
  · rintro ⟨_, _, last⟩
    refine ⟨enough, ?_⟩
    have drained : Drained (pages journal) 0 := ⟨by rwa [flat], by rwa [flat, Nat.zero_add], last⟩
    rw [final, consumePages_drained drained, flat, nil_append, Complete]
    split
    · exact .inl (append_nil _)
    next without =>
      rw [not_or] at without
      exact .inr ⟨rfl, fun event hm terminal => without.1 ⟨event, hm, terminal⟩, without.2⟩

def updateEvent : JournalEvent := ⟨text "message_update", [], 30000⟩

def resultEvent : JournalEvent := ⟨resultType, [], 30000⟩

def longJournal : List JournalEvent := [resultEvent, updateEvent]

theorem pages_two : pages [updateEvent, resultEvent] = [[updateEvent], [resultEvent]] := by
  have first : page JournalEvent.bytes [updateEvent, resultEvent] = [updateEvent] := rfl
  have second : page JournalEvent.bytes [resultEvent] = [resultEvent] := rfl
  rw [pages, if_neg (by simp), first]
  simp only [length_singleton, drop_succ_cons, drop_zero]
  rw [pages, if_neg (by simp), second]
  simp [pages]

theorem polling_complete_iff_result :
    ∃ fuel, Complete [updateEvent, resultEvent] .completed (pollEvents (text "run") .completed
          [updateEvent, resultEvent] 5 (fun _ => false) fuel 0 {}) := by
  refine (polling_complete_iff (by decide) fun request => ⟨0, by decide, rfl⟩).mpr
    ⟨by decide, by decide, fun before events after cut terminal => ?_⟩
  rw [pages_two] at cut
  cases before with
  | nil =>
    cases cut
    exact absurd terminal (by decide)
  | cons _ before =>
    cases before with
    | nil => exact (cons.inj (cons.inj cut).2).2.symm
    | cons _ _ => simp at cut

/-- The client returns after the first page; the event of the second one is lost. -/
theorem polling_loses_last_page : ¬ ∃ fuel, Complete longJournal .completed
    (pollEvents (text "run") .completed longJournal 5 (fun _ => false) fuel 0 {}) := by
  have first : pollEvents (text "run") .completed longJournal 5 (fun _ => false) 1 0 {} =
      .returned [.event resultType []] := by decide
  rintro ⟨fuel, complete⟩
  cases fuel with
  | zero => exact complete
  | succ fuel =>
    rw [Nat.add_comm, pollEvents_more fuel first (by simp)] at complete
    exact absurd complete (by unfold Complete; decide)

end Yinshi.Prompt
