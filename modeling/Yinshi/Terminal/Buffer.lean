import Mathlib.Algebra.BigOperators.Group.List.Basic
import Yinshi.Base.ByteText
import Yinshi.Base.Numbered
import Yinshi.Base.Runs

/-! The bounded output buffer of a terminal channel: `_append_event` with its eviction and
the cursor reads of `events`. -/

namespace Yinshi.Terminal
open ByteText Numbered Runs Relation List

inductive TerminalError
  | value (message : String)
  | cursorExpired (message : String)
  | runtime (message : String)
  | index
  | assertion
  deriving DecidableEq

/-- An entry of `_TerminalChannel.events`; the event stands for its JSON. -/
structure RetainedEvent where
  sequence : Nat
  event : Bytes
  eventBytes : Nat
  deriving DecidableEq

structure Buffer where
  events : List RetainedEvent := []
  nextSequence : Nat := 0
  eventBytes : Int := 0
  closed : Bool := false
  deriving DecidableEq

def outputEventBytesMax : Nat := 24000
def outputBufferBytesMax : Nat := 1048576
def outputEventCountMax : Nat := 1000
def eventBatchBytesMax : Nat := 48000
def eventBatchCountMax : Nat := 100

def evict : List RetainedEvent → Int → Except TerminalError (List RetainedEvent × Int)
  | [], eventBytes => if outputBufferBytesMax < eventBytes then .error .index else .ok ([], eventBytes)
  | first :: rest, eventBytes =>
    if outputBufferBytesMax < eventBytes ∨ outputEventCountMax < rest.length + 1 then
      evict rest (eventBytes - first.eventBytes)
    else .ok (first :: rest, eventBytes)

def Buffer.appendEvent (buffer : Buffer) (event : Bytes) : Except TerminalError Buffer :=
  if outputEventBytesMax < event.length then .error (.value "terminal event exceeds the byte limit")
  else do
    let sequence := buffer.nextSequence
    let (events, eventBytes) ←
      evict (buffer.events ++ [⟨sequence, event, event.length⟩]) (buffer.eventBytes + event.length)
    if eventBytes < 0 then .error .assertion
    else .ok { buffer with events, eventBytes, nextSequence := sequence + 1 }

structure TerminalEventBatch where
  events : List Bytes
  nextSequence : Nat
  closed : Bool
  deriving DecidableEq

def selectEvents : List RetainedEvent → List Bytes → Nat → Nat → Except TerminalError (List Bytes × Nat)
  | [], selected, _, cursor => .ok (selected, cursor)
  | entry :: rest, selected, selectedBytes, cursor =>
    if entry.sequence < cursor then selectEvents rest selected selectedBytes cursor
    else if entry.sequence ≠ cursor then
      .error (.runtime "terminal journal sequence is not contiguous")
    else if selected ≠ [] ∧ eventBatchBytesMax < selectedBytes + entry.eventBytes then
      .ok (selected, cursor)
    else if eventBatchCountMax ≤ selected.length + 1 then
      .ok (selected ++ [entry.event], cursor + 1)
    else selectEvents rest (selected ++ [entry.event]) (selectedBytes + entry.eventBytes) (cursor + 1)

def Buffer.readEvents (buffer : Buffer) (nextSequence : Nat) :
    Except TerminalError TerminalEventBatch :=
  let earliestSequence := (buffer.events.head?.map (·.sequence)).getD buffer.nextSequence
  if nextSequence < earliestSequence then .error (.cursorExpired "terminal output cursor expired")
  else if buffer.nextSequence < nextSequence then
    .error (.value "terminal output cursor is ahead of the journal")
  else do
    let (events, cursor) ← selectEvents buffer.events [] 0 nextSequence
    return ⟨events, cursor, buffer.closed⟩

def retainedBytes (events : List RetainedEvent) : Nat := (events.map (·.eventBytes)).sum

def Bounded (events : List RetainedEvent) : Prop :=
  retainedBytes events ≤ outputBufferBytesMax ∧ events.length ≤ outputEventCountMax

/-- The buffer holds the last events of a history, as many as the limits allow. -/
structure Buffer.Retains (buffer : Buffer) (history : List Bytes) : Prop where
  next : buffer.nextSequence = history.length
  bytes : buffer.eventBytes = retainedBytes buffer.events
  bounded : Bounded buffer.events
  sizes : ∀ entry ∈ buffer.events, entry.eventBytes = entry.event.length
  newest : history ≠ [] → buffer.events ≠ []
  /-- Number `evicted` is the first that is retained. -/
  suffix : ∃ evicted, evicted + buffer.events.length = history.length ∧
    From (·.sequence) evicted buffer.events ∧
    buffer.events.map (·.event) = history.drop evicted

theorem evict_spec {older : List RetainedEvent} {newest : RetainedEvent}
    (hs : newest.eventBytes ≤ outputEventBytesMax) :
    ∃ dropped kept, older = dropped ++ kept ∧ Bounded (kept ++ [newest]) ∧
      evict (older ++ [newest]) (retainedBytes (older ++ [newest])) =
        .ok (kept ++ [newest], (retainedBytes (kept ++ [newest]) : Int)) := by
  induction older with
  | nil =>
    have hb : Bounded [newest] := by
      simp only [Bounded, retainedBytes, map_cons, map_nil, sum_cons, sum_nil,
        length_singleton, outputBufferBytesMax, outputEventCountMax, outputEventBytesMax] at *
      omega
    refine ⟨[], [], rfl, hb, ?_⟩
    rw [nil_append, evict, if_neg]
    rw [not_or, Int.not_lt, Nat.not_lt]
    exact ⟨by exact_mod_cast hb.1, hb.2⟩
  | cons first older ih =>
    rw [cons_append, evict]
    split
    next past =>
      obtain ⟨dropped, kept, rfl, hb, ran⟩ := ih
      refine ⟨first :: dropped, kept, rfl, hb, ?_⟩
      have less : ((retainedBytes (first :: (dropped ++ kept ++ [newest])) : Nat) : Int) -
          first.eventBytes = retainedBytes (dropped ++ kept ++ [newest]) := by
        simp [retainedBytes]
      rw [less, ran]
    next hw =>
      rw [not_or, Int.not_lt, Nat.not_lt] at hw
      exact ⟨[], first :: older, rfl, ⟨by exact_mod_cast hw.1, hw.2⟩, rfl⟩

theorem retainedBytes_snoc (events : List RetainedEvent) (entry : RetainedEvent) :
    retainedBytes (events ++ [entry]) = retainedBytes events + entry.eventBytes := by
  simp [retainedBytes]

theorem Buffer.Retains.append {buffer : Buffer} {history : List Bytes} {event : Bytes}
    (retains : buffer.Retains history) (ha : event.length ≤ outputEventBytesMax) :
    ∃ next, buffer.appendEvent event = .ok next ∧ next.Retains (history ++ [event]) ∧
      next.closed = buffer.closed ∧
      next.events.getLast? = some ⟨history.length, event, event.length⟩ := by
  obtain ⟨evicted, count, numbered, hs⟩ := retains.suffix
  obtain ⟨dropped, older, split, hb, ran⟩ :=
    @evict_spec buffer.events ⟨history.length, event, event.length⟩ ha
  have total : buffer.eventBytes + (event.length : Int) =
      retainedBytes (buffer.events ++ [⟨history.length, event, event.length⟩]) := by
    rw [retainedBytes_snoc, retains.bytes]
    rfl
  have grown : From (·.sequence) evicted
      (buffer.events ++ [⟨history.length, event, event.length⟩]) := numbered.snoc count.symm
  have rest : From (·.sequence) (evicted + dropped.length)
        (older ++ [⟨history.length, event, event.length⟩]) := by
    rw [split, append_assoc] at grown
    exact (from_append.mp grown).2
  have lengths := congrArg length split
  rw [length_append] at lengths
  let hk := older ++ [⟨history.length, event, event.length⟩]
  refine ⟨⟨hk, history.length + 1, retainedBytes hk, buffer.closed⟩, ?_,
    ⟨?_, rfl, hb, ?_, by simp [hk], evicted + dropped.length, ?_, rest, ?_⟩, rfl, by simp [hk]⟩
  · rw [appendEvent, if_neg (Nat.not_lt.mpr ha), retains.next, total]
    simp only [ran, bind, Except.bind]
    rw [if_neg (by omega)]
  · simp
  · intro entry hm
    rcases mem_append.mp hm with old | new
    · exact retains.sizes entry (split ▸ mem_append_right _ old)
    · rw [mem_singleton.mp new]
  · simp only [hk, length_append, length_singleton]
    omega
  · rw [drop_append_of_le_length (by omega), ← drop_drop, ← hs, split, map_append, map_append,
      drop_left' (by simp)]
    rfl

theorem selectEvents_skip {skipped rest : List RetainedEvent} {cursor : Nat}
    (before : ∀ entry ∈ skipped, entry.sequence < cursor) :
    selectEvents (skipped ++ rest) [] 0 cursor = selectEvents rest [] 0 cursor := by
  induction skipped with
  | nil => rfl
  | cons entry _ ih =>
    rw [cons_append, selectEvents, if_pos (before entry (by simp))]
    exact ih fun other hm => before other (by simp [hm])

theorem selectEvents_start {rest : List RetainedEvent} {selected : List Bytes}
    {selectedBytes cursor : Nat} (numbered : From (·.sequence) cursor rest) :
    ∃ taken, taken <+: rest ∧ (selected = [] → rest ≠ [] → taken ≠ []) ∧
      selectEvents rest selected selectedBytes cursor =
        .ok (selected ++ taken.map (·.event), cursor + taken.length) := by
  induction rest generalizing selected selectedBytes cursor with
  | nil => exact ⟨[], prefix_refl _, fun _ none => absurd rfl none, by simp [selectEvents]⟩
  | cons entry _ ih =>
    obtain ⟨first, others⟩ := from_cons.mp numbered
    rw [selectEvents, if_neg (by omega), if_neg (by simpa using first)]
    split
    next full => exact ⟨[], nil_prefix, fun none => absurd none full.1, by simp⟩
    next =>
      split
      · exact ⟨[entry], by simp, by simp, by simp⟩
      · obtain ⟨taken, isPrefix, -, ran⟩ := @ih (selected ++ [entry.event])
          (selectedBytes + entry.eventBytes) (cursor + 1) others
        refine ⟨entry :: taken, prefix_cons_inj entry |>.mpr isPrefix, by simp, ?_⟩
        rw [ran]
        simp only [append_assoc, singleton_append, map_cons, length_cons, Except.ok.injEq,
          Prod.mk.injEq, true_and]
        omega

/-- The reads of a buffer that has evicted the first `evicted` events of a history. -/
structure Buffer.Reads (buffer : Buffer) (history : List Bytes) (evicted : Nat) : Prop where
  expired : ∀ cursor, buffer.readEvents cursor =
    .error (.cursorExpired "terminal output cursor expired") ↔ cursor < evicted
  ahead : ∀ cursor, buffer.readEvents cursor =
    .error (.value "terminal output cursor is ahead of the journal") ↔ history.length < cursor
  page : ∀ cursor, evicted ≤ cursor → cursor ≤ history.length → ∃ batch,
    buffer.readEvents cursor = .ok batch ∧ batch.events <+: history.drop cursor ∧
    (cursor < history.length → batch.events ≠ []) ∧
    batch.nextSequence = cursor + batch.events.length

theorem Buffer.Retains.page {buffer : Buffer} {history : List Bytes} {cursor evicted : Nat}
    (count : evicted + buffer.events.length = history.length)
    (numbered : From (·.sequence) evicted buffer.events)
    (same : buffer.events.map (·.event) = history.drop evicted) (hr : evicted ≤ cursor)
    (hw : cursor ≤ history.length) :
    ∃ events, selectEvents buffer.events [] 0 cursor = .ok (events, cursor + events.length) ∧
      events <+: history.drop cursor ∧ (cursor < history.length → events ≠ []) := by
  obtain ⟨gap, rfl⟩ := Nat.exists_eq_add_of_le hr
  have skip : ∀ entry ∈ buffer.events.take gap, entry.sequence < evicted + gap := by
    intro _ hm
    obtain ⟨_, _, hf⟩ := mem_take_iff_getElem.mp hm
    have := numbered.key_getElem? (List.getElem?_eq_some_iff.mpr ⟨by omega, hf⟩)
    omega
  obtain ⟨taken, isPrefix, some, ran⟩ := @selectEvents_start (buffer.events.drop gap) [] 0
    (evicted + gap) (numbered.drop gap)
  have rest : (buffer.events.drop gap).map (·.event) = history.drop (evicted + gap) := by
    rw [map_drop, same, drop_drop]
  refine ⟨taken.map (·.event), ?_, rest ▸ isPrefix.map _, fun remains => ?_⟩
  · rw [← take_append_drop gap buffer.events, selectEvents_skip skip, ran]
    simp
  · have := some rfl (by rw [ne_eq, drop_eq_nil_iff]; omega)
    simpa using this

theorem Buffer.Retains.reads {buffer : Buffer} {history : List Bytes}
    (retains : buffer.Retains history) :
    buffer.Reads history (history.length - buffer.events.length) := by
  obtain ⟨evicted, count, numbered, hs⟩ := retains.suffix
  obtain rfl : evicted = history.length - buffer.events.length := by omega
  have earliest : (buffer.events.head?.map (·.sequence)).getD buffer.nextSequence =
      history.length - buffer.events.length := by
    cases isEvents : buffer.events with
    | nil => simpa using retains.next
    | cons _ _ =>
      rw [isEvents] at numbered
      simpa [isEvents] using (from_cons.mp numbered).1
  have page := fun cursor => @Retains.page buffer history cursor _ count numbered hs
  have read : ∀ cursor, buffer.readEvents cursor =
      if cursor < history.length - buffer.events.length then
        .error (.cursorExpired "terminal output cursor expired")
      else if history.length < cursor then
        .error (.value "terminal output cursor is ahead of the journal")
      else (selectEvents buffer.events [] 0 cursor).map fun selected =>
        ⟨selected.1, selected.2, buffer.closed⟩ := by
    intro cursor
    rw [readEvents, earliest, retains.next]
    cases selectEvents buffer.events [] 0 cursor <;> rfl
  refine ⟨fun cursor => ?_, fun cursor => ?_, fun cursor hr hw => ?_⟩
  · rw [read]
    split
    next early => simp [early]
    next hr =>
      split
      next => simp [hr]
      next hw =>
        obtain ⟨events, ran, -⟩ := page cursor (by omega) (by omega)
        simp [ran, Except.map, hr]
  · rw [read]
    split
    next early => simpa using (by omega : cursor ≤ history.length)
    next hr =>
      split
      next beyond => simp [beyond]
      next hw =>
        obtain ⟨events, ran, -⟩ := page cursor (by omega) (by omega)
        simp [ran, Except.map, hw]
  · obtain ⟨events, ran, isPrefix, some⟩ := page cursor hr hw
    refine ⟨⟨events, cursor + events.length, buffer.closed⟩, ?_, isPrefix, some, rfl⟩
    rw [read, if_neg (by omega), if_neg (by omega), ran]
    rfl

/-- A channel, all events appended to it so far, and a client that follows its cursor. -/
structure Following where
  buffer : Buffer := {}
  history : List Bytes := []
  cursor : Nat := 0
  received : List Bytes := []

inductive FollowStep : Following → Following → Prop
  | append {s : Following} {event : Bytes} {buffer : Buffer}
      (accepted : event.length ≤ outputEventBytesMax)
      (appended : s.buffer.appendEvent event = .ok buffer) :
      FollowStep s { s with buffer := buffer, history := s.history ++ [event] }
  | poll {s : Following} {batch : TerminalEventBatch}
      (polled : s.buffer.readEvents s.cursor = .ok batch) :
      FollowStep s { s with cursor := batch.nextSequence, received := s.received ++ batch.events }
  | close {s : Following} : FollowStep s { s with buffer := { s.buffer with closed := true } }

structure Following.Sound (s : Following) : Prop where
  retains : s.buffer.Retains s.history
  within : s.cursor ≤ s.history.length
  received : s.received = s.history.take s.cursor

theorem following_initial : Following.Sound {} :=
  ⟨⟨rfl, rfl, ⟨Nat.zero_le _, Nat.zero_le _⟩, by simp, by simp, 0, rfl, from_nil, rfl⟩, le_refl _, rfl⟩

theorem FollowStep.sound (s next : Following) (step : FollowStep s next) (hs : s.Sound) : next.Sound := by
  cases step with
  | append ha appended =>
    obtain ⟨buffer, ran, retains, -⟩ := hs.retains.append ha
    rw [ran] at appended
    obtain rfl := Except.ok.inj appended
    refine ⟨retains, by simpa using Nat.le_succ_of_le hs.within, ?_⟩
    rw [take_append_of_le_length hs.within]
    exact hs.received
  | poll polled =>
    have reads := hs.retains.reads
    have hr : s.history.length - s.buffer.events.length ≤ s.cursor := by
      by_contra early
      rw [(reads.expired s.cursor).mpr (by omega)] at polled
      simp at polled
    obtain ⟨batch, ran, ⟨rest, isRest⟩, -, next⟩ := reads.page s.cursor hr hs.within
    rw [ran] at polled
    obtain rfl := Except.ok.inj polled
    have hw : s.history = s.history.take s.cursor ++ (batch.events ++ rest) := by
      rw [isRest, take_append_drop]
    have before : (s.history.take s.cursor).length = s.cursor := length_take_of_le hs.within
    have count := congrArg length hw
    simp only [length_append, before] at count
    refine ⟨hs.retains, by simp only [next]; omega, ?_⟩
    simp only [hs.received, next]
    conv_rhs => rw [hw]
    rw [← append_assoc, take_left' (by simp [before])]
  | close =>
    have retains := hs.retains
    exact ⟨⟨retains.next, retains.bytes, retains.bounded, retains.sizes, retains.newest,
      retains.suffix⟩, hs.within, hs.received⟩

/-- In every run of appends and polls: the buffer retains the newest events under consecutive
numbers within its limits, an accepted append returns, a poll returns the events from its
cursor on, expires iff its event was evicted and is ahead iff it is beyond the last number;
a client that follows its cursor has received every event before it once. -/
theorem buffer_contract {s : Following} (run : ReflTransGen FollowStep {} s) :
    s.buffer.Retains s.history ∧
    (∀ event : Bytes, event.length ≤ outputEventBytesMax →
      ∃ next, s.buffer.appendEvent event = .ok next ∧
        next.events.getLast? = some ⟨s.buffer.nextSequence, event, event.length⟩) ∧
    s.buffer.Reads s.history (s.history.length - s.buffer.events.length) ∧
    s.cursor ≤ s.history.length ∧ s.received = s.history.take s.cursor := by
  have hs := run_keeps Following.Sound FollowStep.sound run following_initial
  refine ⟨hs.retains, fun event ha => ?_, hs.retains.reads, hs.within, hs.received⟩
  obtain ⟨next, ran, -, -, newest⟩ := hs.retains.append ha
  exact ⟨next, ran, hs.retains.next ▸ newest⟩

def disconnectedEvent : Bytes :=
  bytes "\x7b\"error\":\"Terminal runtime disconnected\",\"type\":\"error\"\x7d"

def retained (sequence : Nat) : RetainedEvent := ⟨sequence, disconnectedEvent, disconnectedEvent.length⟩

def onceBuffer : Buffer := ⟨[retained 0], 1, disconnectedEvent.length, false⟩

def disconnectedBuffer : Buffer := ⟨[retained 0, retained 1], 2, 2 * disconnectedEvent.length, false⟩

theorem disconnected_run :
    ReflTransGen FollowStep {} ⟨disconnectedBuffer, [disconnectedEvent, disconnectedEvent], 2,
        [disconnectedEvent, disconnectedEvent]⟩ := by
  have append := @FollowStep.append {} disconnectedEvent onceBuffer (by decide) (by decide)
  have poll := @FollowStep.poll ⟨onceBuffer, [disconnectedEvent], 0, []⟩
      ⟨[disconnectedEvent], 1, false⟩ (by decide)
  have again := @FollowStep.append ⟨onceBuffer, [disconnectedEvent], 1, [disconnectedEvent]⟩ disconnectedEvent
    disconnectedBuffer (by decide) (by decide)
  have last := @FollowStep.poll
    ⟨disconnectedBuffer, [disconnectedEvent, disconnectedEvent], 1, [disconnectedEvent]⟩
    ⟨[disconnectedEvent], 2, false⟩ (by decide)
  exact .tail (.tail (.tail (.single append) poll) again) last

theorem buffer_contract_disconnected :
    disconnectedBuffer.Retains [disconnectedEvent, disconnectedEvent] ∧
    disconnectedBuffer.Reads [disconnectedEvent, disconnectedEvent] 0 :=
  ⟨(buffer_contract disconnected_run).1, (buffer_contract disconnected_run).2.2.1⟩

end Yinshi.Terminal
