import Yinshi.Orchestration.Agreement

/-! The invariant of a channel with its client, and the count of outstanding requests. -/

namespace Yinshi.Orchestration
open ByteText Function List Option

variable {η : Type}

def Channel.Knows (channel : Channel) (id : Option Text) : Prop :=
  ∃ number entry, channel.entries number = some entry ∧ id = some entry.requestId

theorem Channel.Knows.later {channel next : Channel} {id : Option Text} (knows : channel.Knows id)
    (later : channel.Later next) : next.Knows id := by
  obtain ⟨number, entry, hf, rfl⟩ := knows
  obtain ⟨left, hh, hs⟩ := later number entry hf
  exact ⟨number, left, hh, congrArg some hs.symm⟩

namespace Flow
variable {event : FlowEvent η} {next : Flow η}

structure Sound (flow : Flow η) : Prop where
  client : flow.client.Invariant
  addressed : ∀ number task, flow.client.tasks number = some task → Addressed task
  channel : flow.channel.Sound
  limit : flow.client.maxPending = orchestrationPendingMax
  begun : ∃ query, flow.client.queries flow.query = some query ∧ query.phase ≠ .starting
  frames : ∀ row ∈ flow.outbound, row.1.get "type" = some (.str cancelType) ∨
    requests row.1 ∧ flow.channel.Knows (boundedRequestId row.1)
  registered : ∀ number ∈ flow.client.orchestrationTasks, ∀ task,
    flow.client.tasks number = some task → flow.channel.Knows (boundedRequestId task.frame)
  distinct : flow.waiting.Nodup
  apart : ∀ number ∈ flow.client.orchestrationTasks, ∀ task, flow.client.tasks number = some task →
    boundedRequestId task.frame ∉ flow.waiting
  responses : ∀ row ∈ flow.inbound, ∃ task response, flow.client.tasks row.1 = some task ∧
    row.2 = response.frame ∧ Answers task.frame response

variable {flow : Flow η}

theorem waiting_append_of_cancel {rows : List (Frame × Nat)} {client : Client η} {channel : Channel}
    {query : Nat} {inbound : List (Nat × Frame)}
    (cancels : ∀ row ∈ rows, row.1.get "type" = some (.str cancelType)) :
    waiting ⟨client, query, channel, flow.outbound ++ rows, inbound⟩ = flow.waiting := by
  have none : rows.filter (fun row => requests row.1) = [] := by
    refine filter_eq_nil_iff.mpr fun row hl => ?_
    simpa using not_requests_of_cancel (cancels row hl)
  rw [waiting, filter_append, none, append_nil]
  rfl

namespace Sound

theorem of_channel (hs : flow.Sound) {channel : Channel} (isSound : channel.Sound)
    (later : flow.channel.Later channel) {rows : List (Frame × Nat)} {inbound : List (Nat × Frame)}
    (cancels : ∀ row ∈ rows, row.1.get "type" = some (.str cancelType))
    (fewer : ∀ row ∈ inbound, row ∈ flow.inbound) :
    Sound
      { flow with channel := channel, outbound := flow.outbound ++ rows, inbound := inbound } := by
  have waiting := @waiting_append_of_cancel _ flow rows flow.client channel flow.query inbound cancels
  refine ⟨hs.client, hs.addressed, isSound, hs.limit, hs.begun, ?_, ?_, ?_, ?_, ?_⟩
  · intro row hl
    rcases mem_append.mp hl with old | hn
    · exact (hs.frames row old).imp_right fun ⟨asking, knows⟩ => ⟨asking, knows.later later⟩
    · exact .inl (cancels row hn)
  · exact fun number hl task hf => (hs.registered number hl task hf).later later
  · rw [waiting]
    exact hs.distinct
  · rw [waiting]
    exact hs.apart
  · exact fun row hl => hs.responses row (fewer row hl)

theorem knows_of_waiting (hs : flow.Sound) {id : Option Text} (hw : id ∈ flow.waiting) :
    flow.channel.Knows id := by
  obtain ⟨row, hl, rfl⟩ := mem_map.mp hw
  obtain ⟨hl, asking⟩ := mem_filter.mp hl
  rcases hs.frames row hl with isCancel | ⟨-, knows⟩
  · exact absurd (of_decide_eq_true asking) (not_requests_of_cancel isCancel)
  · exact knows

theorem unknown (hs : flow.Sound) {call : Call} (isFresh : flow.fresh call) :
    ∀ number entry, flow.channel.entries number = some entry → entry.requestId ≠ call.requestId :=
  fun number entry hf => isFresh.2 number (hs.channel.lt_calls hf) entry hf

theorem sent (sound : flow.Sound) {call : Call} (isFresh : flow.fresh call)
    (ha : flow.channel.refusal call = none) (frameBytes : Nat) :
    Sound { flow with
        channel := flow.channel.enter call,
        outbound := flow.outbound ++ [(flow.channel.requestFrame call, frameBytes)] } := by
  have later := @Channel.later_enter _ call sound.channel
  have asking := requests_requestFrame flow.channel call
  have isId := boundedRequestId_requestFrame flow.channel isFresh.1
  have hn : ¬ flow.channel.Knows (some call.requestId) := by
    rintro ⟨number, entry, hf, hs⟩
    exact sound.unknown isFresh number entry hf (some.inj hs).symm
  have waiting : Flow.waiting { flow with
      channel := flow.channel.enter call
      outbound := flow.outbound ++ [(flow.channel.requestFrame call, frameBytes)] } =
        flow.waiting ++ [some call.requestId] := by
    simp [Flow.waiting, filter_append, asking, isId]
  refine ⟨sound.client, sound.addressed, sound.channel.enter ha isFresh.1 (sound.unknown isFresh),
    sound.limit, sound.begun, ?_, ?_, ?_, ?_, sound.responses⟩
  · intro row hl
    rcases mem_append.mp hl with old | added
    · exact (sound.frames row old).imp_right fun ⟨asking, knows⟩ => ⟨asking, knows.later later⟩
    · obtain rfl := mem_singleton.mp added
      exact .inr ⟨asking, flow.channel.calls, _, update_self .., isId⟩
  · exact fun number hl task hf => (sound.registered number hl task hf).later later
  · rw [waiting]
    refine nodup_append.mpr ⟨sound.distinct, nodup_singleton _, ?_⟩
    rintro _ hw _ added rfl
    exact hn (mem_singleton.mp added ▸ sound.knows_of_waiting hw)
  · rw [waiting]
    intro number hl task hf among
    rcases mem_append.mp among with old | added
    · exact sound.apart number hl task hf old
    · exact hn (mem_singleton.mp added ▸ sound.registered number hl task hf)

section Client
variable {event : Event η} {next : Client η}

section
variable (hs : flow.Sound) (change : Change flow.client event next)
include hs change

theorem tasks_stay {number : Nat} (hl : number ∈ flow.client.orchestrationTasks)
    {left : HandlerTask} (hf : next.tasks number = some left) :
    ∃ task, flow.client.tasks number = some task ∧ left.frame = task.frame := by
  obtain ⟨task, hk⟩ := hs.client.listed.known number hl
  obtain ⟨_, hh, later⟩ := change.tasks_kept hs.client.sound hk
  cases hh.symm.trans hf
  exact ⟨task, hk, later.frame⟩

theorem responses_stay {row : Nat × Frame}
    (written : ∃ task response, flow.client.tasks row.1 = some task ∧ row.2 = response.frame ∧
        Answers task.frame response) :
    ∃ task response,
      next.tasks row.1 = some task ∧ row.2 = response.frame ∧ Answers task.frame response := by
  obtain ⟨_, response, hf, isResponse, answers⟩ := written
  obtain ⟨left, hh, later⟩ := change.tasks_kept hs.client.sound hf
  exact ⟨left, response, hh, isResponse, later.frame ▸ answers⟩

theorem begun_stays : ∃ query, next.queries flow.query = some query ∧ query.phase ≠ .starting := by
  obtain ⟨_, hf, begun⟩ := hs.begun
  obtain ⟨left, hh, later⟩ := change.queries_kept hs.client.sound hf
  exact ⟨left, hh, later.begun begun⟩

end

theorem of_client (sound : flow.Sound) (change : Change flow.client event next)
    (fewer : ∀ number ∈ next.orchestrationTasks, number ∈ flow.client.orchestrationTasks)
    {outbound : List (Frame × Nat)} (remains : outbound.Sublist flow.outbound)
    {rows : List (Nat × Frame)}
    (written : ∀ row ∈ rows, ∃ task response, flow.client.tasks row.1 = some task ∧
        row.2 = response.frame ∧ Answers task.frame response) :
    Sound { flow with client := next, outbound := outbound, inbound := flow.inbound ++ rows } := by
  have waiting : (Flow.waiting { flow with
      client := next, outbound := outbound, inbound := flow.inbound ++ rows }).Sublist flow.waiting :=
    (remains.filter _).map _
  refine ⟨change.invariant sound.client, change.addressed sound.addressed, sound.channel,
    change.maxPending.trans sound.limit, sound.begun_stays change, ?_, ?_,
      sound.distinct.sublist waiting, ?_, ?_⟩
  · exact fun row hl => sound.frames row (remains.subset hl)
  · intro number hl left hf
    obtain ⟨task, hh, hs⟩ := sound.tasks_stay change (fewer number hl) hf
    exact hs ▸ sound.registered number (fewer number hl) task hh
  · intro number hl _ hf hw
    obtain ⟨task, hh, hs⟩ := sound.tasks_stay change (fewer number hl) hf
    exact sound.apart number (fewer number hl) task hh (waiting.subset (hs ▸ hw))
  · intro row hl
    refine sound.responses_stay change ?_
    rcases mem_append.mp hl with old | hn
    · exact sound.responses row old
    · exact written row hn

theorem taken (sound : flow.Sound) (change : Change flow.client event next) {frame : Frame}
    {frameBytes : Nat} {rest : List (Frame × Nat)}
    (first : flow.outbound = (frame, frameBytes) :: rest) (asking : requests frame)
    (listed : next.orchestrationTasks = flow.client.orchestrationTasks ++ [flow.client.taskCount])
    (tasks : next.tasks =
        update flow.client.tasks flow.client.taskCount
          (some { frame := frame, frameBytes := frameBytes, query := flow.query })) :
    Sound { flow with client := next, outbound := rest } := by
  have waiting : flow.waiting = boundedRequestId frame ::
      Flow.waiting { flow with client := next, outbound := rest } := by
    simp [Flow.waiting, first, asking]
  have hd := sound.distinct
  rw [waiting, nodup_cons] at hd
  have cases : ∀ number ∈ next.orchestrationTasks, ∀ left, next.tasks number = some left →
      number ∈ flow.client.orchestrationTasks ∧ (∃ task, flow.client.tasks number = some task ∧
        left.frame = task.frame) ∨ left.frame = frame := by
    intro number among left hf
    rcases mem_append.mp (listed ▸ among) with old | hn
    · exact .inl ⟨old, sound.tasks_stay change old hf⟩
    · obtain rfl := mem_singleton.mp hn
      rw [tasks] at hf
      exact .inr (Runs.eq_of_update hf ▸ rfl)
  refine ⟨change.invariant sound.client, change.addressed sound.addressed, sound.channel,
    change.maxPending.trans sound.limit, sound.begun_stays change, ?_, ?_, hd.2, ?_, ?_⟩
  · exact fun row among => sound.frames row (first ▸ mem_cons_of_mem _ among)
  · intro number among left hf
    rcases cases number among left hf with ⟨old, task, hh, hs⟩ | hs
    · exact hs ▸ sound.registered number old task hh
    · rw [hs]
      exact sound.knows_of_waiting (waiting ▸ mem_cons_self)
  · intro number among left hf hw
    rcases cases number among left hf with ⟨old, task, hh, hs⟩ | hs
    · refine sound.apart number old task hh ?_
      rw [waiting, ← hs]
      exact mem_cons_of_mem _ hw
    · exact hd.1 (hs ▸ hw)
  · exact fun row among => sound.responses_stay change (sound.responses row among)

end Client

end Sound

inductive Move (flow : Flow η) (event : FlowEvent η) : Flow η → Prop
  | channel {channel : Channel} {rows : List (Frame × Nat)} {inbound : List (Nat × Frame)}
      (isSound : channel.Sound) (later : flow.channel.Later channel)
      (cancels : ∀ row ∈ rows, row.1.get "type" = some (.str cancelType))
      (fewer : ∀ row ∈ inbound, row ∈ flow.inbound) :
      Move flow event { flow with channel := channel, outbound := flow.outbound ++ rows, inbound := inbound }
  | sent {call : Call} (isEvent : event = .calls call) (isFresh : flow.fresh call)
      (accepted : flow.channel.refusal call = none) (sends : call.sends = true) (frameBytes : Nat) :
      Move flow event { flow with
        channel := flow.channel.enter call
        outbound := flow.outbound ++ [(flow.channel.requestFrame call, frameBytes)] }
  | client {act : Event η} {next : Client η} {outbound : List (Frame × Nat)}
      {rows : List (Nat × Frame)} (change : Change flow.client act next)
      (fewer : ∀ number ∈ next.orchestrationTasks, number ∈ flow.client.orchestrationTasks)
      (bounded : next.orchestrationTasks.length ≤ flow.client.orchestrationTasks.length)
      (remains : outbound.Sublist flow.outbound)
      (written : ∀ row ∈ rows, ∃ task response, flow.client.tasks row.1 = some task ∧
        row.2 = response.frame ∧ Answers task.frame response) :
      Move flow event { flow with client := next, outbound := outbound, inbound := flow.inbound ++ rows }
  | taken {act : Event η} {next : Client η} {frame : Frame} {frameBytes : Nat} {rest : List (Frame × Nat)}
      (change : Change flow.client act next) (first : flow.outbound = (frame, frameBytes) :: rest)
      (asking : requests frame)
      (listed : next.orchestrationTasks = flow.client.orchestrationTasks ++ [flow.client.taskCount])
      (tasks : next.tasks = update flow.client.tasks flow.client.taskCount
        (some { frame := frame, frameBytes := frameBytes, query := flow.query })) :
      Move flow event { flow with client := next, outbound := rest }

theorem Move.sound (move : Move flow event next) (hs : flow.Sound) :
    next.Sound := by
  cases move with
  | channel isSound later cancels hf => exact hs.of_channel isSound later cancels hf
  | sent _ isFresh ha _ frameBytes => exact hs.sent isFresh ha frameBytes
  | client change hf _ remains written => exact hs.of_client change hf remains written
  | taken change first asking hl tasks => exact hs.taken change first asking hl tasks

theorem sent_answers (hs : flow.Sound) {event : Event η} {row : Nat × Frame}
    (written : row ∈ (flow.client.sent event).toList) :
    ∃ task response, flow.client.tasks row.1 = some task ∧ row.2 = response.frame ∧
      Answers task.frame response := by
  have isSent := mem_toList.mp written
  unfold Client.sent at isSent
  split at isSent
  swap
  · exact nomatch isSent
  obtain ⟨task, hf, isSent⟩ := bind_eq_some_iff.mp isSent
  split at isSent
  next response sending =>
    obtain ⟨-, ⟨⟩⟩ := ite_none_right_eq_some.mp isSent
    exact ⟨task, response, hf, rfl, (hs.addressed _ task hf).2 response sending⟩
  · exact nomatch isSent

theorem step_move (sound : flow.Sound) (hs : flow.step event = some next) : Move flow event next := by
  have hq : ∀ {channel : Channel} {inbound : List (Nat × Frame)}, channel.Sound →
      flow.channel.Later channel → (∀ row ∈ inbound, row ∈ flow.inbound) →
      Move flow event { flow with channel := channel, inbound := inbound } := by
    intro channel inbound isSound later hf
    have move := @Move.channel _ flow event channel [] inbound isSound later nofun hf
    rwa [append_nil] at move
  cases event with
  | calls call =>
    obtain ⟨isFresh, ⟨⟩⟩ := ite_none_right_eq_some.mp hs
    have isSound := sound.channel.request isFresh.1 (sound.unknown isFresh)
    have later := Channel.later_request sound.channel call
    rcases flow.channel.request_cases call with ⟨_, -, hm⟩ | ⟨ha, ⟨sends, hm⟩ | ⟨-, hm⟩⟩
    · rw [hm] at isSound later ⊢
      simpa using hq isSound later fun _ => id
    · rw [hm]
      exact .sent rfl isFresh ha sends _
    · rw [hm] at isSound later ⊢
      simpa using hq isSound later fun _ => id
  | aborts number _ frameBytes =>
    obtain ⟨entry, found, hs⟩ := bind_eq_some_iff.mp hs
    obtain ⟨-, ⟨⟩⟩ := ite_none_right_eq_some.mp hs
    refine .channel (sound.channel.settle number _) (flow.channel.later_settle number _) ?_ fun _ => id
    intro row hl
    obtain ⟨frame, isFrame, rfl⟩ := mem_map.mp hl
    obtain ⟨-, ⟨⟩⟩ := ite_none_right_eq_some.mp (mem_toList.mp isFrame)
    exact rfl
  | expires number =>
    obtain ⟨_, _, hs⟩ := bind_eq_some_iff.mp hs
    obtain ⟨-, ⟨⟩⟩ := ite_none_right_eq_some.mp hs
    exact hq (sound.channel.settle number _) (flow.channel.later_settle number _) fun _ => id
  | delivers frameBytes =>
    simp only [step] at hs
    split at hs
    next => exact nomatch hs
    next task frame rest first =>
      cases hs
      refine hq (sound.channel.handleFrame frame frameBytes)
        (flow.channel.later_handleFrame frame frameBytes) fun row hl => ?_
      exact first ▸ mem_cons_of_mem _ hl
  | disposes =>
    cases hs
    exact hq sound.channel.dispose flow.channel.later_dispose fun _ => id
  | reads now =>
    simp only [step] at hs
    split at hs
    next => exact nomatch hs
    next frame frameBytes rest first =>
      obtain ⟨client, read, rfl⟩ := map_eq_some_iff.mp hs
      have change := Client.step_change read
      rcases change.registered with ⟨hf, hb⟩ | ⟨query, _, _, _, ⟨⟩, asking, hl, tasks⟩
      · have remains : rest.Sublist flow.outbound := first ▸ sublist_cons_self _ _
        have move := @Move.client _ flow (.reads now) _ client rest [] change hf hb remains nofun
        rwa [append_nil] at move
      · exact .taken change first asking hl tasks
  | acts _ =>
    obtain ⟨serves, hs⟩ := ite_none_right_eq_some.mp hs
    obtain ⟨client, acted, rfl⟩ := map_eq_some_iff.mp hs
    have change := Client.step_change acted
    rcases change.registered with ⟨hf, hb⟩ | ⟨_, _, _, _, isRead, -⟩
    · exact .client change hf hb (Sublist.refl _) fun row hl => sent_answers sound hl
    · subst isRead
      exact nomatch serves

/-- A request is sent while as many as the client admits are outstanding there. -/
def Overfills (flow : Flow η) (event : FlowEvent η) : Prop :=
  flow.reading ∧ ∃ call, event = .calls call ∧ flow.channel.refusal call = none ∧
    call.sends = true ∧ orchestrationPendingMax ≤ flow.outstanding

def Fits (flow : Flow η) : Prop := flow.reading → flow.outstanding ≤ orchestrationPendingMax

theorem reading_back (hs : flow.Sound) {event : Event η} {next : Client η}
    (change : Change flow.client event next) {query : Query η}
    (hf : next.queries flow.query = some query) (reading : query.phase = .reading) :
    flow.reading := by
  obtain ⟨before, hk, begun⟩ := hs.begun
  obtain ⟨_, hh, later⟩ := change.queries_kept hs.client.sound hk
  cases hh.symm.trans hf
  have goes := later.goes (by rw [reading]; rfl)
  refine ⟨before, hk, ?_⟩
  cases phase : before.phase with
  | reading => rfl
  | starting => exact absurd phase begun
  | failing | closing | finished => simp [phase, QueryPhase.waits] at goes

theorem Move.fits (move : Move flow event next) (sound : flow.Sound)
    (hfi : flow.Fits) (hw : ¬ flow.Overfills event) : next.Fits := by
  intro reading
  cases move with
  | channel _ _ cancels =>
    have hs := hfi reading
    rwa [outstanding, waiting_append_of_cancel cancels]
  | @sent call he _ ha sends _ =>
    have room : flow.outstanding < orchestrationPendingMax := by
      by_contra full
      exact hw ⟨reading, call, he, ha, sends, Nat.le_of_not_lt full⟩
    have asking := requests_requestFrame flow.channel call
    simp only [outstanding, waiting, filter_append, map_append, length_append] at room ⊢
    simp only [length_map] at room ⊢
    simp [asking]
    omega
  | client change _ _ remains =>
    obtain ⟨query, hf, phase⟩ := reading
    have before := hfi (reading_back sound change hf phase)
    have shorter := (remains.filter fun row => decide (requests row.1)).length_le
    simp only [outstanding, waiting, length_map] at before ⊢
    omega
  | taken change first asking hl =>
    obtain ⟨_, hf, phase⟩ := reading
    have before := hfi (reading_back sound change hf phase)
    simp only [outstanding, waiting, first, asking, hl, length_map, length_append,
      length_nil, filter_cons, decide_true, if_true, length_cons] at before ⊢
    omega

end Flow

end Yinshi.Orchestration
