import Yinshi.Orchestration.Balance

/-! The limits of the two sides agree as long as the requests outstanding at the client are counted,
not those pending in the channel. -/

namespace Yinshi.Orchestration
open ByteText Function Relation List Option

variable {η : Type}

namespace Flow
variable {flow : Flow η}
variable {frame : Frame} {frameBytes : Nat} {rest : List (Frame × Nat)}

def ReadsOn (flow next : Flow η) : Prop := ∃ now, flow.step (.reads now) = some next

/-- Reading what is on its way, the client comes to a request that it has no room for. -/
def Exhausts (flow : Flow η) : Prop := ∃ later, ReflTransGen ReadsOn flow later ∧ later.Raises

theorem unhandled (hs : flow.Sound) (first : flow.outbound = (frame, frameBytes) :: rest)
    (asking : requests frame) : ∀ id ∈ boundedRequestId frame, flow.client.handlers id = none := by
  intro id isId
  cases handles : flow.client.handlers id with
  | none => rfl
  | some number =>
    obtain ⟨hl, task, hf, about⟩ := hs.client.listed.handled id number handles
    refine absurd ?_ (hs.apart number hl task hf)
    simp [waiting, first, asking, about, mem_def.mp isId]

theorem raises_iff (hs : flow.Sound) (first : flow.outbound = (frame, frameBytes) :: rest)
    (asking : requests frame) :
    flow.client.spawnOrchestrationHandler flow.query frame frameBytes = none ↔
    orchestrationPendingMax ≤ flow.client.orchestrationTasks.length := by
  have hu : ¬ ∃ id ∈ boundedRequestId frame, flow.client.handlers id ≠ none := by
    rintro ⟨id, isId, taken⟩
    exact taken (unhandled hs first asking id isId)
  simp only [Client.spawnOrchestrationHandler, hs.limit, hu, false_or]
  split
  next full => simp [full]
  next room => simp [room]

theorem not_raises (hs : flow.Sound) (hf : flow.Fits) : ¬ flow.Raises := by
  rintro ⟨reading, _, _, _, first, asking, raises⟩
  have full := (raises_iff hs first asking).mp raises
  have hw := hf reading
  simp only [outstanding, waiting, first, asking, filter_cons, decide_true, if_true, map_cons,
    length_cons] at hw
  omega

theorem readsOn_keeps (flow next : Flow η) (reads : ReadsOn flow next)
    (before : flow.Sound ∧ flow.Fits) : next.Sound ∧ next.Fits := by
  obtain ⟨_, hs⟩ := reads
  have move := step_move before.1 hs
  refine ⟨move.sound before.1, move.fits before.1 before.2 ?_⟩
  rintro ⟨-, _, hc, -⟩
  exact nomatch hc

theorem not_exhausts (hs : flow.Sound) (hf : flow.Fits) : ¬ flow.Exhausts := by
  rintro ⟨_, run, raises⟩
  have last := Runs.run_keeps (fun state : Flow η => state.Sound ∧ state.Fits) readsOn_keeps run ⟨hs, hf⟩
  exact not_raises last.1 last.2 raises

theorem read_goes_on (sound : flow.Sound) (reading : flow.reading)
    (first : flow.outbound = (frame, frameBytes) :: rest)
    (room : requests frame → flow.client.orchestrationTasks.length < orchestrationPendingMax)
    (now : Int) :
    ∃ client : Client η, flow.step (.reads now) =
          some { flow with client := client, outbound := rest } ∧
      client.queries = flow.client.queries ∧
      client.orchestrationTasks =
        flow.client.orchestrationTasks ++
          (if requests frame then [flow.client.taskCount] else []) := by
  obtain ⟨query, hf, phase⟩ := reading
  have hs := Client.step_reads hf phase frame frameBytes now
  have read : flow.step (.reads now) = some { flow with
      client := flow.client.dispatch flow.query query frame frameBytes now, outbound := rest } := by
    simp only [step, first, hs, map_some]
  refine ⟨_, read, ?_⟩
  rcases sound.frames _ (first ▸ mem_cons_self) with isCancel | ⟨asking, -⟩
  · have hk := flow.client.cancelOrchestrationHandler_keeps frame frameBytes now
    rw [Client.dispatch_cancel isCancel, if_neg (not_requests_of_cancel isCancel), append_nil]
    exact ⟨hk.2, hk.1⟩
  · have limit := sound.limit ▸ room asking
    obtain ⟨_, dispatched⟩ := @Client.dispatch_requests _ flow.client flow.query frameBytes now frame query
      asking limit (unhandled sound first asking)
    rw [dispatched, if_pos asking]
    exact ⟨rfl, rfl⟩

theorem exhausts_of_overfull (length : Nat) :
    ∀ flow : Flow η, flow.outbound.length = length → flow.Sound → flow.reading →
      orchestrationPendingMax < flow.outstanding → flow.Exhausts := by
  induction length with
  | zero =>
    intro flow few hs _ full
    have none := length_eq_zero_iff.mp few
    have hb := hs.client.listed.bounded
    rw [hs.limit] at hb
    simp only [outstanding, waiting, none, filter_nil, map_nil, length_nil] at full
    omega
  | succ length ih =>
    intro flow few hs reading full
    cases first : flow.outbound with
    | nil => simp [first] at few
    | cons row rest =>
      obtain ⟨frame, frameBytes⟩ := row
      by_cases stuck : requests frame ∧ orchestrationPendingMax ≤ flow.client.orchestrationTasks.length
      · refine ⟨flow, .refl, reading, frame, frameBytes, rest, first, stuck.1, ?_⟩
        exact (raises_iff hs first stuck.1).mpr stuck.2
      have room : requests frame → flow.client.orchestrationTasks.length < orchestrationPendingMax :=
        fun asking => Nat.lt_of_not_le fun ha => stuck ⟨asking, ha⟩
      obtain ⟨client, stepped, queries, hl⟩ := read_goes_on hs reading first room 0
      have remaining : rest.length = length := by simpa [first] using few
      have still : Flow.reading { flow with client := client, outbound := rest } := by
        simpa [Flow.reading, queries] using reading
      have same : Flow.outstanding { flow with client := client, outbound := rest } = flow.outstanding := by
        by_cases asking : requests frame
        · simp only [outstanding, waiting, first, asking, hl, filter_cons, decide_true, if_true,
            map_cons, length_cons, length_append, length_nil]
          omega
        · simp [outstanding, waiting, first, asking, hl]
      obtain ⟨later, run, raises⟩ := ih _ remaining ((step_move hs stepped).sound hs) still (same ▸ full)
      exact ⟨later, .head ⟨0, stepped⟩ run, raises⟩

section Delivery
variable {task : Nat} {frame : Frame} {rest : List (Nat × Frame)} {frameBytes : Option Nat} {next : Flow η}

theorem delivers_settles (sound : flow.Sound) (first : flow.inbound = (task, frame) :: rest)
    {number : Nat}
    (changed :
      (flow.channel.handleFrame frame frameBytes).promises number ≠ flow.channel.promises number) :
    ∃ entry taken, flow.channel.entries number = some entry ∧ entry.settled = false ∧
      flow.client.tasks task = some taken ∧
      boundedRequestId taken.frame = some entry.requestId := by
  obtain ⟨taken, response, hf, isResponse, answers⟩ := sound.responses _ (first ▸ mem_cons_self)
  obtain rfl : frame = response.frame := isResponse
  unfold Channel.handleFrame at changed
  split at changed
  · exact absurd rfl changed
  split at changed
  · exact absurd rfl changed
  next other pending =>
    obtain ⟨entry, he, hn, unsettled⟩ :=
      (sound.channel.pending response.requestId other).mp
        ((Checked.lookup_eq_some_iff_mem sound.channel.keys).mp pending)
    by_cases hs : number = other
    · subst hs
      refine ⟨entry, taken, he, unsettled, hf, ?_⟩
      rcases answers with hu | about
      · have long := sound.channel.ids number entry he
        simp [hn, hu] at long
      · exact about.trans (congrArg some hn.symm)
    · exact absurd (Channel.settle_of_ne _ hs).2 changed

theorem delivers_late (hs : flow.Sound) (first : flow.inbound = (task, frame) :: rest)
    {number : Nat} {entry : Entry} {taken : HandlerTask}
    (he : flow.channel.entries number = some entry) (hse : entry.settled = true)
    (hf : flow.client.tasks task = some taken)
    (about : boundedRequestId taken.frame = some entry.requestId) :
    flow.channel.handleFrame frame frameBytes = flow.channel := by
  obtain ⟨_, response, hf', isResponse, answers⟩ := hs.responses _ (first ▸ mem_cons_self)
  obtain rfl : frame = response.frame := isResponse
  cases hf'.symm.trans hf
  unfold Channel.handleFrame
  split
  · rfl
  split
  · rfl
  next other pending =>
    obtain ⟨entry', he', hn, unsettled⟩ :=
      (hs.channel.pending response.requestId other).mp
        ((Checked.lookup_eq_some_iff_mem hs.channel.keys).mp pending)
    have isSame : entry.requestId = entry'.requestId := by
      rcases answers with hu | alsoAbout
      · have long := hs.channel.ids other entry' he'
        simp [hn, hu] at long
      · exact (some.inj (about.symm.trans alsoAbout)).trans hn.symm
    obtain rfl := hs.channel.distinct number other entry entry' he he' isSame
    cases he.symm.trans he'
    cases hse.symm.trans unsettled

end Delivery

theorem promise_settles (hs : flow.Sound) {number : Nat} (hm : number < flow.channel.calls) :
    (flow.channel.promises number).length ≤ 1 ∧
    (flow.channel.promises number = [] →
      ∃ next,
        flow.step (.expires number) = some next ∧ (next.channel.promises number).length = 1) := by
  by_cases past : ∀ entry, flow.channel.entries number = some entry → entry.settled = true
  · have one := hs.channel.settled number hm past
    refine ⟨Nat.le_of_eq one, fun none => ?_⟩
    simp [none] at one
  · obtain ⟨entry, hf, hu⟩ := by simpa using past
    obtain ⟨timer, none⟩ := hs.channel.unsettled number entry hf hu
    refine ⟨by simp [none], fun _ => ⟨{ flow with
      channel := flow.channel.settle number (.rejected .timeout) }, by simp [step, hf, timer], ?_⟩⟩
    rw [Channel.settle_promises_self hf hu, none]
    rfl

/-- A query reads, a channel is made for it, and nothing has been sent. -/
structure Ready (flow : Flow η) : Prop where
  client : ∃ connectionId registry, ReflTransGen Client.Goes
    (Client.initial connectionId orchestrationPendingMax registry) flow.client
  idle : flow.client.orchestrationTasks = []
  reading : flow.reading
  channel : ∃ sessionId capability protocolVersion allowedOperations,
    createOrchestrationRpc sessionId capability protocolVersion allowedOperations = some flow.channel
  outbound : flow.outbound = []
  inbound : flow.inbound = []

theorem created_sound {sessionId capability : Text} {protocolVersion : Int}
    {allowedOperations : List Text} {channel : Channel}
    (created : createOrchestrationRpc sessionId capability protocolVersion allowedOperations =
        some channel) : channel.Sound := by
  obtain ⟨-, ⟨⟩⟩ := ite_none_left_eq_some.mp created
  refine ⟨fun _ _ => ⟨rfl, rfl⟩, nofun, fun id number => ?_, nodup_nil, nofun, nofun, fun _ => rfl,
    Nat.zero_le _, nofun⟩
  exact ⟨nofun, fun ⟨_, hf, _⟩ => nomatch hf⟩

theorem Ready.sound (ready : flow.Ready) : flow.Sound := by
  obtain ⟨connectionId, registry, run⟩ := ready.client
  obtain ⟨_, _, _, _, created⟩ := ready.channel
  have hs : flow.client.Invariant ∧ flow.client.maxPending = orchestrationPendingMax ∧
      ∀ number task, flow.client.tasks number = some task → Addressed task := by
    refine Runs.run_keeps (fun client : Client η =>
        client.Invariant ∧ client.maxPending = orchestrationPendingMax ∧
        ∀ number task, client.tasks number = some task → Addressed task) ?_ run
      ⟨Client.initial_invariant connectionId orchestrationPendingMax registry, rfl, nofun⟩
    rintro _ _ ⟨_, stepped⟩ ⟨invariant, limit, addressed⟩
    have change := Client.step_change stepped
    exact ⟨change.invariant invariant, change.maxPending.trans limit, change.addressed addressed⟩
  obtain ⟨query, hf, phase⟩ := ready.reading
  refine ⟨hs.1, hs.2.2, created_sound created, hs.2.1, ⟨query, hf, by simp [phase]⟩, ?_, ?_, ?_, ?_, ?_⟩
  · simp [ready.outbound]
  · simp [ready.idle]
  · simp [waiting, ready.outbound]
  · simp [ready.idle]
  · simp [ready.inbound]

theorem Ready.fits (ready : flow.Ready) : flow.Fits := by
  intro _
  simp [outstanding, waiting, ready.outbound, ready.idle]

/-- The states of runs in which no call overfills the registry. -/
inductive Reached : Flow η → Prop
  | ready {flow : Flow η} (ready : flow.Ready) : Reached flow
  | step {flow next : Flow η} {event : FlowEvent η} (reached : Reached flow)
      (stepped : flow.step event = some next) (within : ¬ flow.Overfills event) : Reached next

theorem Reached.holds (hr : Reached flow) : flow.Sound ∧ flow.Fits := by
  induction hr with
  | ready ready => exact ⟨ready.sound, ready.fits⟩
  | step _ hs hw ih =>
    have move := step_move ih.1 hs
    exact ⟨move.sound ih.1, move.fits ih.1 ih.2 hw⟩

structure Balanced (flow : Flow η) : Prop where
  accepted : ¬ flow.Raises
  pending : flow.channel.pending.length ≤ orchestrationPendingMax
  readsOn : flow.reading → ∀ now next, flow.step (.reads now) = some next → next.reading
  promises : ∀ number < flow.channel.calls, (flow.channel.promises number).length ≤ 1 ∧
    (flow.channel.promises number = [] →
      ∃ next, flow.step (.expires number) = some next ∧ (next.channel.promises number).length = 1)
  own : ∀ task frame rest frameBytes next, flow.inbound = (task, frame) :: rest →
    flow.step (.delivers frameBytes) = some next →
    ∀ number, next.channel.promises number ≠ flow.channel.promises number → ∃ entry taken,
      flow.channel.entries number = some entry ∧ entry.settled = false ∧
      flow.client.tasks task = some taken ∧ boundedRequestId taken.frame = some entry.requestId
  late : ∀ task frame rest frameBytes next, flow.inbound = (task, frame) :: rest →
    flow.step (.delivers frameBytes) = some next →
    ∀ number entry taken, flow.channel.entries number = some entry → entry.settled = true →
      flow.client.tasks task = some taken → boundedRequestId taken.frame = some entry.requestId →
      next.channel = flow.channel

/-- Counting what is outstanding at the client keeps its registry from overflowing; and a call that
is sent with too many outstanding is one that the reader can then fail on. -/
theorem flow_control_agrees (reached : Reached flow) : flow.Balanced ∧
    ∀ event next, flow.step event = some next → (next.Exhausts ↔ flow.Overfills event) := by
  obtain ⟨hs, hf⟩ := reached.holds
  refine ⟨⟨not_raises hs hf, hs.channel.bounded, ?_, fun number => promise_settles hs, ?_, ?_⟩, ?_⟩
  · intro reading now next stepped
    cases first : flow.outbound with
    | nil => simp [step, first] at stepped
    | cons row rest =>
      obtain ⟨frame, frameBytes⟩ := row
      have room : requests frame → flow.client.orchestrationTasks.length < orchestrationPendingMax := by
        intro asking
        by_contra full
        exact not_raises hs hf ⟨reading, frame, frameBytes, rest, first, asking,
          (raises_iff hs first asking).mpr (Nat.le_of_not_lt full)⟩
      obtain ⟨_, read, queries, -⟩ := read_goes_on hs reading first room now
      cases read.symm.trans stepped
      simpa [Flow.reading, queries] using reading
  · intro task frame rest frameBytes next first stepped number hc
    simp only [step, first, some.injEq] at stepped
    subst stepped
    exact delivers_settles hs first hc
  · intro _ _ _ _ next first stepped _ _ _ he settled found about
    simp only [step, first, some.injEq] at stepped
    subst stepped
    exact delivers_late hs first he settled found about
  · intro _ _ stepped
    constructor
    · intro exhausts
      by_contra within
      have move := step_move hs stepped
      exact not_exhausts (move.sound hs) (move.fits hs hf within) exhausts
    · rintro ⟨reading, call, rfl, ha, sends, full⟩
      have after := (step_move hs stepped).sound hs
      obtain ⟨_, ⟨⟩⟩ := ite_none_right_eq_some.mp stepped
      rcases flow.channel.request_cases call with ⟨_, hr, -⟩ | ⟨-, ⟨-, hm⟩ | ⟨unsent, -⟩⟩
      · cases hr.symm.trans ha
      · rw [hm] at after ⊢
        refine exhausts_of_overfull _ _ rfl after reading ?_
        have asking := requests_requestFrame flow.channel call
        simp only [outstanding, waiting, length_map] at full ⊢
        simp [filter_append, asking]
        omega
      · cases unsent.symm.trans sends

def isCall : FlowEvent η → Bool
  | .calls _ => true
  | _ => false

def Goes (flow next : Flow η) : Prop := ∃ event, flow.step event = some next

def waitCapability : OrchestrationCapability where
  token := text "secret"
  sessionId := text "session"
  runId := some (text "run")
  tenantId := none
  runtimeId := none
  connectionId := []
  expiresAt := 100
  allowedOperations := threadOperations
  databasePath := some (text "tenant.db")

def waitFlow : Option (Flow Unit) :=
  (Runs.replay Client.step (fun _ _ => true)
    (Client.initial (text "connection") orchestrationPendingMax fun _ => some ())
    [.generates 0 waitCapability, .begins (text "session") (some 0) none 0, .issues 0]).bind fun client =>
      (createOrchestrationRpc (text "session") (text "secret") 2 threadOperations).map fun channel =>
        ⟨client, 0, channel, [], []⟩

theorem waitFlow_ready {start : Flow Unit} (hm : waitFlow = some start) : start.Ready := by
  have hs : waitFlow.all (fun flow => flow.client.orchestrationTasks = [] ∧ flow.reading) = true := by
    decide +kernel
  rw [hm, all_some, decide_eq_true_eq] at hs
  obtain ⟨_, replayed, hm⟩ := bind_eq_some_iff.mp hm
  obtain ⟨_, created, rfl⟩ := map_eq_some_iff.mp hm
  exact ⟨⟨_, _, Runs.run_of_replay replayed⟩, hs.1, hs.2, ⟨_, _, _, _, created⟩, rfl, rfl⟩

def waitCall (number : Nat) : Call where
  operation := text "wait_for_threads"
  isObject := true
  signal := some false
  toolCallId := some (text "tool")
  requestId := List.replicate 36 number
  frameBytes := some 300
  sends := true

def crossedEvents : List (FlowEvent Unit) :=
  [.calls (waitCall 1), .calls (waitCall 2), .reads 1, .reads 1] ++ [1, 0].flatMap fun task =>
    [.acts (.runs task 2), .acts (.finishes task (.returned true (some 100))), .acts (.writes task),
      .delivers (some 100)]

theorem flow_control_agrees_sample :
    ∃ flow : Flow Unit, Reached flow ∧ flow.channel.promises 0 = [.resolved] ∧
      flow.channel.promises 1 = [.resolved] ∧ flow.Balanced := by
  have ends : waitFlow.any (fun flow => (Runs.replay step (fun flow event =>
      flow.outstanding < orchestrationPendingMax ∨ isCall event = false) flow crossedEvents).any fun last =>
      last.channel.promises 0 = [.resolved] ∧ last.channel.promises 1 = [.resolved]) = true := by
    decide +kernel
  simp only [Option.any_eq_true, decide_eq_true_eq] at ends
  obtain ⟨_, hm, last, replayed, first, second⟩ := ends
  have hr : Reached last := by
    refine Runs.replay_keeps Reached (fun s event t before hw hs => before.step hs ?_)
      (.ready (waitFlow_ready hm)) replayed
    rintro ⟨-, _, rfl, -, -, full⟩
    rcases of_decide_eq_true hw with room | noCall
    · exact Nat.not_lt_of_le full room
    · simp [isCall] at noCall
  exact ⟨last, hr, first, second, (flow_control_agrees hr).1⟩

def crowdedEvents : List (FlowEvent Unit) :=
  (List.range 16).map (fun number => .calls (waitCall number)) ++ List.replicate 16 (.reads 1) ++
    [.aborts 0 true 200, .calls (waitCall 16), .reads 1]

/-- The cancelled task is registered still, and the last request of the sixteen pending ones
makes the client give up the query. -/
theorem aborted_call_overfills :
    ∃ start flow : Flow Unit, start.Ready ∧ ReflTransGen Goes start flow ∧
      flow.channel.pending.length = 16 ∧ flow.Raises := by
  have ends : waitFlow.any (fun flow => (Runs.replay step (fun _ _ => true) flow crowdedEvents).any fun last =>
      last.channel.pending.length = 16 ∧ last.reading ∧ last.outbound.head?.any fun row =>
        requests row.1 ∧ (last.client.spawnOrchestrationHandler last.query row.1 row.2).isNone) = true := by
    decide +kernel
  obtain ⟨start, hm, hs⟩ := any_eq_true _ _ |>.mp ends
  obtain ⟨last, replayed, hs⟩ := any_eq_true _ _ |>.mp hs
  obtain ⟨pending, reading, hs⟩ := of_decide_eq_true hs
  obtain ⟨row, hf, hs⟩ := any_eq_true _ _ |>.mp hs
  obtain ⟨asking, raises⟩ := of_decide_eq_true hs
  obtain ⟨rest, first⟩ := head?_eq_some_iff.mp hf
  exact ⟨start, last, waitFlow_ready hm, Runs.run_of_replay replayed, pending, reading, row.1,
    row.2, rest, first, asking, isNone_iff_eq_none.mp raises⟩

end Flow

end Yinshi.Orchestration
