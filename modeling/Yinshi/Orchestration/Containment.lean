import Yinshi.Orchestration.Invariants

/-! The registry of the handler tasks, the calls of handlers and the calls of `disconnect`. -/

namespace Yinshi.Orchestration
open ByteText Function List Option

variable {η : Type} {client next : Client η} {event : Event η}

namespace Change

theorem tasks_kept (change : Change client event next) (sound : Sound client) {number : Nat}
    {task : HandlerTask} (found : client.tasks number = some task) :
    ∃ left, next.tasks number = some left ∧ task.Later left := by
  cases change with
  | ignored | generated | returned | broke | completed | begun | claimed | moved =>
    exact ⟨task, found, .refl task⟩
  | @task moved _ left hh move =>
    by_cases hs : number = moved
    · subst hs
      cases hh.symm.trans found
      exact ⟨left, update_self .., move.later⟩
    · exact ⟨task, (update_of_ne hs ..).trans found, .refl task⟩
  | @invoked started _ _ _ _ _ _ _ hh hf =>
    by_cases hs : number = started
    · subst hs
      cases hh.symm.trans found
      exact ⟨_, update_self .., rfl, rfl, rfl, id, by simp [hf], by simp⟩
    · exact ⟨task, (update_of_ne hs ..).trans found, .refl task⟩
  | spawned => exact ⟨task, (update_of_ne (sound.ne_taskCount found) ..).trans found, .refl task⟩
  | torn | disconnected =>
    obtain ⟨left, hh, ⟨-, -, rfl⟩ | ⟨-, rfl⟩⟩ := Client.teardown_tasks found
    · exact ⟨_, hh, task.later_cancel⟩
    · exact ⟨left, hh, .refl left⟩

theorem running (change : Change client event next) {number : Nat} {left : HandlerTask}
    {request : OrchestrationRequest} (found : next.tasks number = some left)
    (runs : left.phase = .running request) :
    ∃ task, client.tasks number = some task ∧ left.query = task.query ∧
      (task.phase = .running request ∨
        task.phase = .created ∧ task.cancelling = false ∧
        ∃ object, client.capability = some object) := by
  cases change with
  | ignored | generated | returned | broke | completed | begun | claimed | moved =>
    exact ⟨left, found, rfl, .inl runs⟩
  | @task moved before _ hh move =>
    by_cases hs : number = moved
    · subst hs
      obtain rfl := Runs.eq_of_update found
      exact ⟨before, hh, move.later.query, .inl (move.running runs)⟩
    · exact ⟨left, (update_of_ne hs ..).symm.trans found, rfl, .inl runs⟩
  | @invoked started object before _ _ _ _ _ hh hf hu _ holds =>
    by_cases hs : number = started
    · subst hs
      obtain rfl := Runs.eq_of_update found
      exact ⟨before, hh, rfl, .inr ⟨hf, hu, object, holds⟩⟩
    · exact ⟨left, (update_of_ne hs ..).symm.trans found, rfl, .inl runs⟩
  | spawned =>
    by_cases hn : number = client.taskCount
    · subst hn
      obtain rfl := Runs.eq_of_update found
      simp at runs
    · exact ⟨left, (update_of_ne hn ..).symm.trans found, rfl, .inl runs⟩
  | torn | disconnected =>
    cases before : client.tasks number with
    | none => cases (Client.teardown_tasks_none before).symm.trans found
    | some task =>
      obtain ⟨left', hh, ⟨-, -, rfl⟩ | ⟨-, rfl⟩⟩ := Client.teardown_tasks before
      · cases hh.symm.trans found
        exact ⟨task, rfl, task.later_cancel.query, .inl (by simpa using runs)⟩
      · obtain rfl := some.inj (hh.symm.trans found)
        exact ⟨left', rfl, rfl, .inl runs⟩

end Change

structure Listed (client : Client η) : Prop where
  distinct : client.orchestrationTasks.Nodup
  known : ∀ number ∈ client.orchestrationTasks, ∃ task, client.tasks number = some task
  bounded : client.orchestrationTasks.length ≤ client.maxPending
  handled : ∀ id number, client.handlers id = some number → number ∈ client.orchestrationTasks ∧
    ∃ task, client.tasks number = some task ∧ boundedRequestId task.frame = some id

namespace Listed

theorem of_same (hl : Listed client) (lists : next.orchestrationTasks = client.orchestrationTasks)
    (handlers : next.handlers = client.handlers ∨ next.handlers = fun _ => none)
    (limit : next.maxPending = client.maxPending)
    (tasks : ∀ number task,
        client.tasks number = some task → ∃ left, next.tasks number = some left ∧ task.Later left) :
    Listed next := by
  refine ⟨lists ▸ hl.distinct, ?_, by rw [lists, limit]; exact hl.bounded, ?_⟩
  · rw [lists]
    intro number isListed
    obtain ⟨task, hf⟩ := hl.known number isListed
    obtain ⟨left, hh, -⟩ := tasks number task hf
    exact ⟨left, hh⟩
  · intro id number hh
    rcases handlers with hs | cleared
    · obtain ⟨isListed, task, hf, about⟩ := hl.handled id number (hs ▸ hh)
      obtain ⟨left, foundLeft, later⟩ := tasks number task hf
      exact ⟨lists ▸ isListed, left, foundLeft, later.frame ▸ about⟩
    · simp [cleared] at hh

end Listed

namespace Change

theorem listed (change : Change client event next) (sound : Sound client) (before : Listed client) :
    Listed next := by
  have hk : ∀ number task, client.tasks number = some task →
      ∃ left, next.tasks number = some left ∧ task.Later left := fun number task => change.tasks_kept sound
  cases change with
  | ignored => exact before
  | generated | returned | broke | begun | claimed | moved | task | invoked =>
    exact before.of_same rfl (.inl rfl) rfl hk
  | torn | disconnected => exact before.of_same rfl (.inr rfl) rfl hk
  | @spawned number query frame frameBytes _ _ _ _ _ room _ =>
    have fresh : client.taskCount ∉ client.orchestrationTasks := fun isListed =>
      have ⟨_, hf⟩ := before.known _ isListed
      sound.ne_taskCount hf rfl
    refine ⟨?_, ?_, ?_, ?_⟩
    · refine nodup_append.mpr ⟨before.distinct, nodup_singleton _, ?_⟩
      rintro _ isListed _ hn rfl
      exact fresh (mem_singleton.mp hn ▸ isListed)
    · intro other among
      rcases mem_append.mp among with old | hn
      · obtain ⟨task, hf⟩ := before.known other old
        exact ⟨task, (update_of_ne (sound.ne_taskCount hf) ..).trans hf⟩
      · obtain rfl := mem_singleton.mp hn
        exact ⟨_, update_self ..⟩
    · rw [length_append]
      exact room
    · intro id other hh
      have old : client.handlers id = some other → other ∈ client.orchestrationTasks ++ [client.taskCount] ∧
          ∃ task, update client.tasks client.taskCount
            (some { frame := frame, frameBytes := frameBytes, query := number }) other = some task ∧
            boundedRequestId task.frame = some id := by
        intro handles
        obtain ⟨isListed, task, hf, about⟩ := before.handled id other handles
        exact ⟨mem_append_left _ isListed, task, (update_of_ne (sound.ne_taskCount hf) ..).trans hf, about⟩
      cases isOwn : boundedRequestId frame with
      | none =>
        simp only [isOwn] at hh
        exact old hh
      | some own =>
        simp only [isOwn] at hh
        by_cases hs : id = own
        · subst hs
          rw [update_self, some.injEq] at hh
          subst hh
          exact ⟨mem_append_right _ (mem_singleton_self _), _, update_self .., isOwn⟩
        · rw [update_of_ne hs] at hh
          exact old hh
  | @completed _ before' hf _ among =>
    refine ⟨before.distinct.filter _, ?_, ?_, ?_⟩
    · intro other among
      exact before.known other (mem_of_mem_filter among)
    · exact Nat.le_trans (length_filter_le _ _) before.bounded
    · intro id other hh
      have old : client.handlers id = some other := by
        cases isOwn : boundedRequestId before'.frame with
        | none =>
          simp only [Client.completed, isOwn] at hh
          exact hh
        | some own =>
          simp only [Client.completed, isOwn] at hh
          split at hh
          · by_cases hs : id = own
            · simp [hs] at hh
            · rwa [update_of_ne hs] at hh
          · exact hh
      obtain ⟨isListed, task, foundTask, about⟩ := before.handled id other old
      refine ⟨mem_filter.mpr ⟨isListed, ?_⟩, task, foundTask, about⟩
      simp only [decide_eq_true_eq]
      rintro rfl
      cases hf.symm.trans foundTask
      simp [Client.completed, about, old] at hh

end Change

namespace Change

theorem maxPending (change : Change client event next) : next.maxPending = client.maxPending := by
  cases change <;> rfl

theorem registered (change : Change client event next) :
    (∀ number ∈ next.orchestrationTasks, number ∈ client.orchestrationTasks) ∧
      next.orchestrationTasks.length ≤ client.orchestrationTasks.length ∨
    ∃ query frame frameBytes now, event = .reads query frame frameBytes now ∧ requests frame ∧
      next.orchestrationTasks = client.orchestrationTasks ++ [client.taskCount] ∧
      next.tasks = update client.tasks client.taskCount
        (some { frame := frame, frameBytes := frameBytes, query := query }) := by
  cases change with
  | ignored | generated | returned | broke | begun | claimed | moved | task | invoked | torn | disconnected =>
    exact .inl ⟨fun _ => id, Nat.le_refl _⟩
  | completed => exact .inl ⟨fun _ => mem_of_mem_filter, length_filter_le _ _⟩
  | spawned he _ _ asking => exact .inr ⟨_, _, _, _, he, asking, rfl, rfl⟩

end Change

/-- A call of `disconnect` has put an end to the queries before it. -/
structure Severed (client : Client η) (entry : Disconnect) : Prop where
  before : entry.queries ≤ client.queryCount
  revoked : ∀ object, client.capability = some object → ∀ number query,
    client.queries number = some query → query.phase.active = true → entry.queries ≤ number
  waited : ∀ number task request, client.tasks number = some task → task.phase = .running request →
    task.query < entry.queries → number ∈ entry.waits ∧ entry.returned = false

namespace Change

theorem capability (change : Change client event next) {object : Nat}
    (hh : next.capability = some object) : client.capability = some object ∨ client.idle := by
  cases change with
  | ignored | generated | returned | broke | completed | task | invoked | spawned | begun | moved =>
    exact .inl hh
  | claimed hi => exact .inr hi
  | torn | disconnected => exact nomatch hh

theorem queryCount_le (change : Change client event next) : client.queryCount ≤ next.queryCount := by
  cases change with
  | begun | claimed => exact Nat.le_succ _
  | ignored | generated | returned | broke | completed | task | invoked | spawned | moved | torn
  | disconnected =>
    exact Nat.le_refl _

theorem severed_of_same (change : Change client event next) (hs : Sound client) {entry : Disconnect}
    (severed : Severed client entry) : Severed next entry := by
  refine ⟨Nat.le_trans severed.before change.queryCount_le, ?_, ?_⟩
  · intro object holds number left hf active
    rcases change.queries hf with ⟨query, hh, later⟩ | ⟨hn, -⟩
    · rcases change.capability holds with held | hi
      · exact severed.revoked object held number query hh (later.active active)
      · exact absurd (later.active active) (by simp [hs.idle hi hh])
    · exact hn ▸ severed.before
  · intro number _ request hf runs earlier
    obtain ⟨task, hh, query, ran | ⟨fresh, hu, object, holds⟩⟩ := change.running hf runs
    · exact severed.waited number task request hh ran (query ▸ earlier)
    · obtain ⟨owner, foundOwner, goes, -⟩ := (hs.served number task hh).owned
      have active := QueryPhase.active_of_waits (goes (by simp [fresh]) hu)
      have later := severed.revoked object holds task.query owner foundOwner active
      rw [query] at earlier
      exact absurd later (Nat.not_le_of_lt earlier)

theorem severed_disconnect (hs : Sound client) :
    Severed client.disconnect ⟨client.queryCount, client.teardown.2, false⟩ := by
  refine ⟨Nat.le_refl _, fun object hh => (nomatch hh), ?_⟩
  intro _ _ _ hf runs _
  obtain ⟨_, -, -, -, cancelled⟩ := hs.teardown_served hf
  exact ⟨(cancelled (by simp [runs])).1, rfl⟩

theorem severed (change : Change client event next) (sound : Sound client)
    (before : ∀ number entry, client.disconnects number = some entry → Severed client entry) :
    ∀ number entry, next.disconnects number = some entry → Severed next entry := by
  have hs : ∀ number entry, client.disconnects number = some entry → Severed next entry :=
    fun number entry hf => change.severed_of_same sound (before number entry hf)
  cases change with
  | ignored | generated | broke | completed | begun | claimed | moved | task | invoked | torn | spawned =>
    exact hs
  | disconnected =>
    refine Runs.forall_update (fun number _ => hs number) fun entry hh => ?_
    exact some.inj hh ▸ severed_disconnect sound
  | @returned number entry hf drained =>
    refine Runs.forall_update (fun number _ => hs number) fun other hh => ?_
    cases hh
    have severed := hs number entry hf
    refine ⟨severed.before, severed.revoked, fun number' task request hh runs earlier => ?_⟩
    obtain ⟨hw, -⟩ := severed.waited number' task request hh runs earlier
    have hd : task.phase = .done := (Client.isDone_of_some hh).mp (drained number' hw)
    simp [runs] at hd

end Change

/-- What allows the call of a handler: the task belongs to the active query, and its request is
authorized by the capability of that query. -/
structure Allowed (client : Client η) (call : Invocation η) : Prop where
  active : client.activeQuery = some call.query
  query : ∃ query, client.queries call.query = some query ∧ query.capability = some call.object
  holds : client.capability = some call.object
  capability : client.capabilities call.object = some call.capability
  task : ∃ task, client.tasks call.task = some task ∧ task.query = call.query ∧ task.phase = .created ∧
    task.cancelling = false ∧ parseOrchestrationRequest task.frame task.frameBytes = .ok call.request
  authorized : Authorized call.capability call.request client.connectionId call.now

namespace Sound

theorem activeQuery_eq (hs : Sound client) {number : Nat} {query : Query η}
    (hf : client.queries number = some query) (active : query.phase.active = true) :
    client.activeQuery = some number := by
  have isActive : (client.queries number).any (·.phase.active) = true := by simpa [hf] using active
  have hw : number < client.queryCount := by
    by_contra above
    simp [hs.unbegun number (Nat.le_of_not_lt above)] at hf
  cases search : client.activeQuery with
  | none =>
    have silent := find?_eq_none.mp search number (mem_range.mpr hw)
    exact absurd isActive silent
  | some other =>
    have also := find?_some search
    obtain ⟨query', hf', active'⟩ := any_eq_true _ _ |>.mp also
    exact congrArg some (hs.single other number query' query hf' hf active' active)

end Sound

namespace Change

theorem invocations (change : Change client event next) (hs : Sound client) :
    next.invocations = client.invocations ∨
    ∃ call, next.invocations = client.invocations ++ [call] ∧ Allowed client call ∧
      ∃ task, next.tasks call.task = some task ∧ task.phase ≠ .created := by
  cases change with
  | ignored | generated | returned | broke | completed | begun | claimed | moved | task | spawned | torn
  | disconnected => exact .inl rfl
  | @invoked number object task capability request caller handler now found fresh uncancelled parsed holds
      isCapability verified =>
      obtain ⟨owner, foundOwner, goes, -⟩ := (hs.served number task found).owned
      have going := goes (by simp [fresh]) uncancelled
      have active := QueryPhase.active_of_waits going
      obtain ⟨holder, query, foundQuery, going', capability'⟩ := hs.held object holds
      obtain rfl := hs.single holder task.query query owner foundQuery foundOwner
        (QueryPhase.active_of_waits going') active
      obtain rfl := some.inj (foundQuery.symm.trans foundOwner)
      have isActive := hs.activeQuery_eq foundOwner active
      have hh : client.activeQuery.getD client.queryCount = task.query := by simp [isActive]
      refine .inr ⟨_, rfl, ?_, _, update_self .., by simp⟩
      simp only [hh]
      exact ⟨isActive, ⟨query, foundOwner, capability'⟩, holds, isCapability,
        ⟨task, found, rfl, fresh, uncancelled, parsed⟩, verifyOrchestrationRequest_authorized verified⟩

end Change

end Yinshi.Orchestration
