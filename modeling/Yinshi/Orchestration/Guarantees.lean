import Yinshi.Orchestration.Containment

/-! Handlers stay within the query that they were requested by. -/

namespace Yinshi.Orchestration
open ByteText Function Relation List Option

variable {η : Type} {client next : Client η} {event : Event η}

namespace Client

def Distinct (client : Client η) : Prop :=
  ∀ first ∈ client.orchestrationTasks, ∀ second ∈ client.orchestrationTasks, ∀ one two id,
    client.tasks first = some one → client.tasks second = some two → boundedRequestId one.frame = some id →
    boundedRequestId two.frame = some id → first = second

/-- A request is read whose id is that of a registered task which is not among the handlers: a
teardown has cut it loose, and it is not over. -/
def Resends (client : Client η) (event : Event η) : Prop :=
  ∃ query frame frameBytes now, event = .reads query frame frameBytes now ∧ requests frame ∧
    client.orchestrationTasks.length < client.maxPending ∧
    ∃ id, boundedRequestId frame = some id ∧ client.handlers id = none ∧
      ∃ number ∈ client.orchestrationTasks, ∃ task, client.tasks number = some task ∧
        boundedRequestId task.frame = some id

structure Invariant (client : Client η) : Prop where
  sound : Sound client
  listed : Listed client
  unopened : ∀ number, client.disconnectCount ≤ number → client.disconnects number = none
  severed : ∀ number entry, client.disconnects number = some entry → Severed client entry
  called : ∀ call ∈ client.invocations, ∃ task, client.tasks call.task = some task ∧ task.phase ≠ .created
  once : (client.invocations.map Invocation.task).Nodup

theorem initial_invariant (connectionId : Text) (maxPending : Nat) (registry : Text → Option η) :
    Invariant (initial connectionId maxPending registry) := by
  refine ⟨⟨fun _ _ => rfl, fun _ _ => rfl, ?_, ?_, ?_⟩, ⟨nodup_nil, ?_, Nat.zero_le _, ?_⟩,
    fun _ _ => rfl, ?_, ?_, nodup_nil⟩
  all_goals simp [initial]

end Client

namespace Change

section
variable (change : Change client event next) (before : client.Invariant)
include change before

theorem unopened : ∀ number, next.disconnectCount ≤ number → next.disconnects number = none := by
  have old := before.unopened
  intro number ha
  cases change with
  | ignored | generated | broke | completed | begun | claimed | moved | task | invoked | spawned | torn =>
    exact old number ha
  | disconnected => exact (update_of_ne (Nat.ne_of_gt ha) ..).trans (old number (Nat.le_of_succ_le ha))
  | @returned _ _ hf =>
    refine (update_of_ne ?_ ..).trans (old number ha)
    rintro rfl
    simp [old number ha] at hf

theorem called :
    (∀ call ∈ next.invocations, ∃ task, next.tasks call.task = some task ∧ task.phase ≠ .created) ∧
    (next.invocations.map Invocation.task).Nodup := by
  have hk : ∀ call ∈ client.invocations, ∃ task, next.tasks call.task = some task ∧ task.phase ≠ .created := by
    intro call hl
    obtain ⟨task, hf, begun⟩ := before.called call hl
    obtain ⟨left, hh, later⟩ := change.tasks_kept before.sound hf
    exact ⟨left, hh, fun hfr => begun (later.fresh hfr)⟩
  rcases change.invocations before.sound with hs | ⟨_, added, allowed, begun⟩
  · rw [hs]
    exact ⟨hk, before.once⟩
  · rw [added, map_append]
    constructor
    · intro other hl
      rcases mem_append.mp hl with old | hn
      · exact hk other old
      · exact mem_singleton.mp hn ▸ begun
    · refine nodup_append.mpr ⟨before.once, nodup_singleton _, ?_⟩
      rintro _ hl _ hn rfl
      obtain ⟨other, old, hs⟩ := mem_map.mp hl
      obtain ⟨_, hf, -, hfr, -⟩ := allowed.task
      obtain ⟨_, hf', begun'⟩ := before.called other old
      rw [hs.trans (mem_singleton.mp hn), hf] at hf'
      exact begun' (some.inj hf' ▸ hfr)

theorem invariant : next.Invariant where
  sound := change.sound before.sound
  listed := change.listed before.sound before.listed
  unopened := change.unopened before
  severed := change.severed before.sound before.severed
  called := (change.called before).1
  once := (change.called before).2

theorem distinct (distinct : client.Distinct) (fresh : ¬ client.Resends event) : next.Distinct := by
  have kept : (∀ number ∈ next.orchestrationTasks, number ∈ client.orchestrationTasks) → next.Distinct := by
    intro hf first isFirst second isSecond one two id isOne isTwo about alsoAbout
    obtain ⟨one', isOne'⟩ := before.listed.known first (hf first isFirst)
    obtain ⟨two', isTwo'⟩ := before.listed.known second (hf second isSecond)
    obtain ⟨_, hh, later⟩ := change.tasks_kept before.sound isOne'
    obtain ⟨_, hh', later'⟩ := change.tasks_kept before.sound isTwo'
    cases hh.symm.trans isOne
    cases hh'.symm.trans isTwo
    exact distinct first (hf first isFirst) second (hf second isSecond) one' two' id isOne' isTwo'
      (later.frame ▸ about) (later'.frame ▸ alsoAbout)
  cases change with
  | ignored | generated | returned | broke | begun | claimed | moved | task | invoked | torn | disconnected =>
    exact kept fun _ => id
  | completed => exact kept fun _ => mem_of_mem_filter
  | @spawned number query frame frameBytes now he _ _ asking room unknown =>
    have ha : ∀ other ∈ client.orchestrationTasks, ∀ task id, client.tasks other = some task →
        boundedRequestId task.frame = some id → boundedRequestId frame = some id → False := by
      intro other isListed task id hh about hk
      exact fresh ⟨number, frame, frameBytes, now, he, asking, room, id, hk, unknown id hk, other,
        isListed, task, hh, about⟩
    have old : ∀ {other task}, other ∈ client.orchestrationTasks →
        update client.tasks client.taskCount
          (some { frame := frame, frameBytes := frameBytes, query := number })
          other = some task → client.tasks other = some task := by
      intro other _ isListed hh
      obtain ⟨_, hk⟩ := before.listed.known other isListed
      rwa [update_of_ne (before.sound.ne_taskCount hk)] at hh
    intro first isFirst second isSecond one two id isOne isTwo about alsoAbout
    rcases mem_append.mp isFirst with first' | first' <;>
      rcases mem_append.mp isSecond with second' | second'
    · exact distinct first first' second second' one two id (old first' isOne) (old second' isTwo)
        about alsoAbout
    · obtain rfl := mem_singleton.mp second'
      obtain rfl := Runs.eq_of_update isTwo
      exact (ha first first' one id (old first' isOne) about alsoAbout).elim
    · obtain rfl := mem_singleton.mp first'
      obtain rfl := Runs.eq_of_update isOne
      exact (ha second second' two id (old second' isTwo) alsoAbout about).elim
    · rw [mem_singleton.mp first', mem_singleton.mp second']

end

end Change

namespace Client

end Client

namespace Client

/-- A query is finished, its own `disconnect` has drained the tasks, or a `disconnect` from outside
has returned. -/
def Ended (client : Client η) (number : Nat) : Prop :=
  (∃ query, client.queries number = some query ∧
    (query.phase = .finished ∨ ∃ waits, query.phase = .failing waits ∧ client.drained waits)) ∨
  ∃ call entry, client.disconnects call = some entry ∧ entry.returned = true ∧ number < entry.queries

/-- No task of a query is left, or a `disconnect` has cut it off. -/
def Silent (client : Client η) (number : Nat) : Prop :=
  (∃ query, client.queries number = some query ∧ query.phase.waits ≠ none ∧
    ∀ other task, client.tasks other = some task → task.query = number → task.phase = .done) ∨
  ∃ call entry, client.disconnects call = some entry ∧ entry.returned = true ∧ number < entry.queries

theorem Ended.silent {number : Nat} (ended : client.Ended number) (before : client.Invariant) :
    client.Silent number := by
  refine ended.imp_left ?_
  rintro ⟨query, hf, phase⟩
  have isOver : ∃ hw, query.phase.waits = some hw ∧ client.drained hw := by
    rcases phase with finished | ⟨hw, failing, drained⟩
    · exact ⟨[], by rw [finished]; rfl, by simp [drained]⟩
    · exact ⟨hw, by rw [failing]; rfl, drained⟩
  obtain ⟨hw, isWaits, drained⟩ := isOver
  refine ⟨query, hf, by simp [isWaits], fun other task hh own => ?_⟩
  obtain ⟨_, foundOwner, -, waiting⟩ := (before.sound.served other task hh).owned
  subst own
  cases hf.symm.trans foundOwner
  by_contra undone
  exact undone ((isDone_of_some hh).mp (drained other (waiting hw isWaits undone)))

end Client

namespace Change

theorem tasks (change : Change client event next) (sound : Sound client) {number : Nat}
    {left : HandlerTask} (found : next.tasks number = some left) :
    (∃ task, client.tasks number = some task ∧ task.Later left) ∨
    ∃ query, client.queries left.query = some query ∧ query.phase = .reading := by
  cases before : client.tasks number with
  | some task =>
    obtain ⟨_, hh, later⟩ := change.tasks_kept sound before
    cases hh.symm.trans found
    exact .inl ⟨task, rfl, later⟩
  | none =>
    refine .inr ?_
    cases change with
    | ignored | generated | returned | broke | completed | begun | claimed | moved =>
      cases before.symm.trans found
    | @task moved _ _ hh | @invoked hs _ _ _ _ _ _ _ hh =>
      refine absurd ((update_of_ne ?_ ..).symm.trans found) (by simp [before])
      rintro rfl
      simp [before] at hh
    | @spawned _ query _ _ _ _ hh reading =>
      by_cases hn : number = client.taskCount
      · subst hn
        obtain rfl := Runs.eq_of_update found
        exact ⟨query, hh, reading⟩
      · exact absurd ((update_of_ne hn ..).symm.trans found) (by simp [before])
    | torn | disconnected => cases (Client.teardown_tasks_none before).symm.trans found

theorem silent (change : Change client event next) (before : client.Invariant) {number : Nat}
    (silent : client.Silent number) : next.Silent number := by
  rcases silent with ⟨_, hf, hw, past⟩ | ⟨call, entry, hf, hr, earlier⟩
  · obtain ⟨left, hh, later⟩ := change.queries_kept before.sound hf
    refine .inl ⟨left, hh, fun goes => hw (later.goes goes), fun other task foundTask own => ?_⟩
    rcases change.tasks before.sound foundTask with ⟨old, foundOld, laterTask⟩ | ⟨_, isReader, reading⟩
    · by_contra hu
      exact laterTask.undone hu (past other old foundOld (laterTask.query ▸ own))
    · rw [own, hf] at isReader
      cases isReader
      simp [reading, QueryPhase.waits] at hw
  · refine .inr ?_
    cases change with
    | ignored | generated | broke | completed | begun | claimed | moved | task | invoked | spawned | torn =>
      exact ⟨call, entry, hf, hr, earlier⟩
    | disconnected =>
      refine ⟨call, entry, (update_of_ne ?_ ..).trans hf, hr, earlier⟩
      rintro rfl
      simp [before.unopened _ (Nat.le_refl _)] at hf
    | @returned other _ hf' =>
      by_cases hs : call = other
      · subst hs
        cases hf.symm.trans hf'
        exact ⟨call, _, update_self .., rfl, earlier⟩
      · exact ⟨call, entry, (update_of_ne hs ..).trans hf, hr, earlier⟩

end Change

namespace Client
variable {number : Nat}

theorem Silent.rests (silent : client.Silent number) (invariant : client.Invariant) {other : Nat}
    {task : HandlerTask} {request : OrchestrationRequest} (found : client.tasks other = some task)
    (own : task.query = number) : task.phase ≠ .running request := by
  intro runs
  rcases silent with ⟨_, -, -, past⟩ | ⟨call, entry, he, hr, earlier⟩
  · simp [past other task found own] at runs
  · have hw := (invariant.severed call entry he).waited other task request found runs (own ▸ earlier)
    simp [hr] at hw

theorem Silent.uncalled (silent : client.Silent number) (invariant : client.Invariant)
    {call : Invocation η} (allowed : Allowed client call) : call.query ≠ number := by
  rintro rfl
  rcases silent with ⟨query, -, -, past⟩ | ⟨index, entry, he, -, earlier⟩
  · obtain ⟨task, hf, own, fresh, -⟩ := allowed.task
    simp [past call.task task hf own] at fresh
  · obtain ⟨holder, query, hf, goes, _⟩ := invariant.sound.held call.object allowed.holds
    have active := QueryPhase.active_of_waits goes
    have later := (invariant.severed index entry he).revoked call.object allowed.holds holder query hf active
    have isHolder := (invariant.sound.activeQuery_eq hf active).symm.trans allowed.active
    cases isHolder
    exact Nat.not_le_of_lt earlier later

def Goes (client next : Client η) : Prop := ∃ event, client.step event = some next

inductive Reached (connectionId : Text) (maxPending : Nat) (registry : Text → Option η) : Client η → Prop
  | initial : Reached connectionId maxPending registry (initial connectionId maxPending registry)
  | step {client next : Client η} {event : Event η}
    (reached : Reached connectionId maxPending registry client)
      (stepped : client.step event = some next) (fresh : ¬ client.Resends event) :
      Reached connectionId maxPending registry next

variable {connectionId : Text} {maxPending : Nat} {registry : Text → Option η}

theorem Reached.holds (reached : Reached connectionId maxPending registry client) :
    client.Invariant ∧ client.Distinct := by
  induction reached with
  | initial =>
    refine ⟨initial_invariant connectionId maxPending registry, fun first hl => ?_⟩
    exact absurd hl not_mem_nil
  | step _ hs hf ih =>
    have change := step_change hs
    exact ⟨change.invariant ih.1, change.distinct ih.1 ih.2 hf⟩

def Forged (client : Client η) (frame : Frame) (frameBytes : Nat) (now : Int) : Prop :=
  ∀ object capability, client.capability = some object → client.capabilities object = some capability →
    ∀ requestId, verifyOrchestrationCancel capability frame client.connectionId frameBytes now ≠ .ok requestId

theorem Forged.ignored {frame : Frame} {frameBytes : Nat} {now : Int}
    (forged : client.Forged frame frameBytes now) :
    client.cancelOrchestrationHandler frame frameBytes now = client := by
  unfold cancelOrchestrationHandler
  split
  next => rfl
  next capability hh =>
    obtain ⟨object, isObject, isCapability⟩ := bind_eq_some_iff.mp hh
    split
    next => rfl
    next requestId hv => exact absurd hv (forged object capability isObject isCapability requestId)

end Client

def Event.isRead : Event η → Bool
  | .reads .. => true
  | _ => false

namespace Client

end Client

end Yinshi.Orchestration
