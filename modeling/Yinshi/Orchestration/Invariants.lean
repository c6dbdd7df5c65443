import Yinshi.Base.Runs
import Yinshi.Orchestration.Changes

/-! What holds of a client after any events: its tasks, its queries, and who waits for whom. -/

namespace Yinshi.Orchestration
open ByteText Function
variable {phase : QueryPhase} {client : Client η}

variable {η : Type}

structure HandlerTask.Later (task next : HandlerTask) : Prop where
  frame : next.frame = task.frame
  frameBytes : next.frameBytes = task.frameBytes
  query : next.query = task.query
  cancelling : task.cancelling = true → next.cancelling = true
  undone : next.phase ≠ .done → task.phase ≠ .done
  fresh : next.phase = .created → task.phase = .created

def HandlerTask.Paid (task : HandlerTask) (cut : Prop) : Prop :=
  match task.phase with
  | .created | .running _ | .sending _ => task.responses = 0
  | .draining => task.responses = 1
  | .done => task.responses = 1 ∨ task.responses = 0 ∧ (task.cancelling = true ∨ cut)

namespace HandlerTask
variable {task : HandlerTask} {cut : Prop}

theorem Later.refl (task : HandlerTask) : task.Later task := ⟨rfl, rfl, rfl, id, id, id⟩

@[simp] theorem cancel_phase (task : HandlerTask) : task.cancel.phase = task.phase := by
  unfold cancel
  split <;> rfl

theorem cancel_cancelling (undone : task.phase ≠ .done) : task.cancel.cancelling = true := by
  rw [cancel, if_neg undone]

theorem later_cancel (task : HandlerTask) : task.Later task.cancel := by
  unfold cancel
  split
  · exact .refl task
  · exact ⟨rfl, rfl, rfl, fun _ => rfl, id, id⟩

theorem Paid.mono {later : Prop} (implies : cut → later) (paid : task.Paid cut) : task.Paid later := by
  cases hh : task.phase with
  | created | running | sending | draining =>
    simp only [Paid, hh] at paid ⊢
    exact paid
  | done =>
    simp only [Paid, hh] at paid ⊢
    exact paid.imp_right fun ⟨silent, why⟩ => ⟨silent, why.imp_right implies⟩

theorem Paid.cancel (paid : task.Paid cut) : task.cancel.Paid cut := by
  unfold HandlerTask.cancel
  split
  · exact paid
  · unfold Paid at paid ⊢
    split at paid <;> simp_all

theorem Paid.le_one (paid : task.Paid cut) : task.responses ≤ 1 := by
  unfold Paid at paid
  split at paid <;> omega

end HandlerTask

namespace Client

def cut (client : Client η) : Prop := client.connected = false ∨ client.broken = true

end Client

namespace TaskMove
variable {client : Client η} {task next : HandlerTask}

section
variable (move : TaskMove client task next)
include move

theorem later : task.Later next := by
  cases move with
  | cancelled => exact task.later_cancel
  | refused response hf | answered response hf | written hf | unsent hf | drained hf =>
    exact ⟨rfl, rfl, rfl, id, by simp [hf], by simp⟩
  | interrupted _ => exact ⟨rfl, rfl, rfl, id, by simp, by simp⟩

theorem running {request : OrchestrationRequest}
    (running : next.phase = .running request) : task.phase = .running request := by
  cases move with
  | cancelled => simpa using running
  | refused | answered | written | unsent | drained | interrupted => simp at running

theorem uncancelled (uncancelled : next.cancelling = false) : task.cancelling = false := by
  by_contra cancelling
  rw [move.later.cancelling (by simpa using cancelling)] at uncancelled
  exact Bool.noConfusion uncancelled

theorem paid (paid : task.Paid client.cut) : next.Paid client.cut := by
  cases move with
  | refused response hf => simpa [HandlerTask.Paid, hf] using paid
  | answered _ hr => simpa [HandlerTask.Paid, hr] using paid
  | written sending => simpa [HandlerTask.Paid, sending] using paid
  | unsent sending cut =>
    simp only [HandlerTask.Paid, sending] at paid ⊢
    refine .inr ⟨paid, .inr ?_⟩
    by_cases connected : client.connected = true
    · exact .inr (by simpa [connected] using cut)
    · exact .inl (by simpa using connected)
  | drained draining =>
    simp only [HandlerTask.Paid, draining] at paid ⊢
    exact .inl paid
  | interrupted _ cancelling =>
    have few := paid.le_one
    rcases Nat.le_one_iff_eq_zero_or_eq_one.mp few with none | one
    · exact .inr ⟨none, .inl cancelling⟩
    · exact .inl one
  | cancelled => exact paid.cancel

end

end TaskMove

namespace Client
variable {client next : Client η} {event : Event η} {number : Nat}

theorem mem_teardown {number : Nat} :
    number ∈ client.teardown.2 ↔
    number ∈ client.orchestrationTasks ∧ client.isDone number = false := by
  simp [teardown]

theorem isDone_of_some {task : HandlerTask} (found : client.tasks number = some task) :
    client.isDone number = true ↔ task.phase = .done := by
  simp [isDone, found]

theorem teardown_tasks {task : HandlerTask} (found : client.tasks number = some task) :
    ∃ left, client.teardown.1.tasks number = some left ∧
      (number ∈ client.teardown.2 ∧ task.phase ≠ .done ∧ left = task.cancel ∨
        (number ∈ client.orchestrationTasks → task.phase = .done) ∧ left = task) := by
  by_cases hw : number ∈ client.teardown.2
  · refine ⟨task.cancel, ?_, .inl ⟨hw, ?_, rfl⟩⟩
    · show (if number ∈ client.teardown.2 then _ else _) = _
      rw [if_pos hw, found, Option.map_some]
    · intro done
      rw [mem_teardown, (isDone_of_some found).mpr done] at hw
      exact Bool.noConfusion hw.2
  · refine ⟨task, ?_, .inr ⟨fun hl => ?_, rfl⟩⟩
    · show (if number ∈ client.teardown.2 then _ else _) = _
      rw [if_neg hw, found]
    · by_contra undone
      refine hw (mem_teardown.2 ⟨hl, ?_⟩)
      rw [Bool.eq_false_iff, Ne, isDone_of_some found]
      exact undone

theorem teardown_tasks_none (missing : client.tasks number = none) :
    client.teardown.1.tasks number = none := by
  show (if number ∈ client.teardown.2 then _ else _) = _
  rw [missing, Option.map_none, ite_self]

end Client

def QueryPhase.waits : QueryPhase → Option (List Nat)
  | .starting | .reading => none
  | .failing waits | .closing waits => some waits
  | .finished => some []

structure Served (client : Client η) (number : Nat) (task : HandlerTask) : Prop where
  listed : task.phase ≠ .done → number ∈ client.orchestrationTasks
  owned : ∃ query, client.queries task.query = some query ∧
    (task.phase ≠ .done → task.cancelling = false → query.phase.waits = none) ∧
    ∀ waits ∈ query.phase.waits, task.phase ≠ .done → number ∈ waits
  paid : task.Paid client.cut

namespace Served
variable {client next : Client η} {number : Nat} {task left : HandlerTask}

theorem of_same (served : Served client number task)
    (listed : task.phase ≠ .done → number ∈ client.orchestrationTasks →
      number ∈ next.orchestrationTasks)
    (queries : ∀ query, client.queries task.query = some query →
        ∃ left, next.queries task.query = some left ∧ left.phase.waits = query.phase.waits)
    (cut : client.cut → next.cut) : Served next number task := by
  obtain ⟨query, hf, goes, waiting⟩ := served.owned
  obtain ⟨left, foundLeft, hs⟩ := queries query hf
  refine ⟨fun hu => listed hu (served.listed hu), ⟨left, foundLeft, ?_⟩, served.paid.mono cut⟩
  rw [hs]
  exact ⟨goes, waiting⟩

theorem move (served : Served client number task) (moves : TaskMove client task left) :
    Served client number left := by
  have later := moves.later
  obtain ⟨query, hf, goes, waiting⟩ := served.owned
  refine ⟨fun hu => served.listed (later.undone hu), ⟨query, later.query ▸ hf, ?_, ?_⟩,
    moves.paid served.paid⟩
  · intro hu hun
    exact goes (later.undone hu) (moves.uncancelled hun)
  · intro hw among hu
    exact waiting hw among (later.undone hu)

theorem start (served : Served client number task) (fresh : task.phase = .created)
    (request : OrchestrationRequest) :
    Served client number { task with phase := .running request } := by
  have hu : task.phase ≠ .done := by simp [fresh]
  obtain ⟨query, hf, goes, waiting⟩ := served.owned
  have paid := served.paid
  simp only [HandlerTask.Paid, fresh] at paid
  exact ⟨fun _ => served.listed hu,
    ⟨query, hf, fun _ => goes hu, fun hw among _ => waiting hw among hu⟩, paid⟩

end Served

structure Sound (client : Client η) : Prop where
  unborn : ∀ number, client.taskCount ≤ number → client.tasks number = none
  unbegun : ∀ number, client.queryCount ≤ number → client.queries number = none
  single : ∀ first second one two, client.queries first = some one → client.queries second = some two →
    one.phase.active = true → two.phase.active = true → first = second
  held : ∀ object, client.capability = some object → ∃ number query,
    client.queries number = some query ∧ query.phase.waits = none ∧ query.capability = some object
  served : ∀ number task, client.tasks number = some task → Served client number task

theorem QueryPhase.active_of_waits (goes : phase.waits = none) : phase.active = true := by
  cases phase with
  | starting | reading => rfl
  | failing | closing | finished => simp [waits] at goes

structure Query.Later (query next : Query η) : Prop where
  capability : next.capability = query.capability
  active : next.phase.active = true → query.phase.active = true
  goes : next.phase.waits = none → query.phase.waits = none
  begun : query.phase ≠ .starting → next.phase ≠ .starting

theorem Query.Later.refl (query : Query η) : query.Later query := ⟨rfl, id, id, id⟩

theorem QueryMove.later {query : Query η} {next : QueryPhase} (move : QueryMove client phase next)
    (here : query.phase = phase) : query.Later { query with phase := next } := by
  cases move with
  | issued | closed =>
    exact ⟨rfl, by simp [here, QueryPhase.active], by simp [here, QueryPhase.waits], by simp [here]⟩

theorem Ending.later {query : Query η} {next : List Nat → QueryPhase} {waits : List Nat}
    (ending : Ending client phase next) (here : query.phase = phase) :
    query.Later { query with phase := next waits } := by
  cases ending with
  | failed | startless | ended | closed =>
    exact ⟨rfl, by simp [here, QueryPhase.active], by simp [QueryPhase.waits], by simp [here]⟩

theorem QueryMove.waits {next : QueryPhase} (move : QueryMove client phase next) :
    phase.waits = none ∧ next.waits = none ∨
    ∃ pending, phase.waits = some pending ∧ client.drained pending ∧ next = .finished := by
  cases move with
  | issued => exact .inl ⟨rfl, rfl⟩
  | closed drained => exact .inr ⟨_, rfl, drained, rfl⟩

theorem Ending.waits {next : List Nat → QueryPhase} (ending : Ending client phase next)
    (pending : List Nat) : (next pending).waits = some pending := by
  cases ending <;> rfl

namespace Sound
variable {client next : Client η} {event : Event η} {number : Nat}

theorem ne_taskCount (sound : Sound client) {task : HandlerTask}
    (found : client.tasks number = some task) : number ≠ client.taskCount := by
  rintro rfl
  simp [sound.unborn _ (Nat.le_refl _)] at found

theorem ne_queryCount (sound : Sound client) {query : Query η}
    (found : client.queries number = some query) : number ≠ client.queryCount := by
  rintro rfl
  simp [sound.unbegun _ (Nat.le_refl _)] at found

theorem idle (sound : Sound client) (idle : client.idle) {query : Query η}
    (found : client.queries number = some query) : query.phase.active = false := by
  refine idle number (Nat.lt_of_not_le fun ha => ?_) query found
  simp [sound.unbegun number ha] at found

theorem teardown_served (sound : Sound client) {left : HandlerTask}
    (found : client.teardown.1.tasks number = some left) :
    ∃ task, client.tasks number = some task ∧ task.Later left ∧ left.Paid client.cut ∧
      (left.phase ≠ .done → number ∈ client.teardown.2 ∧ left.cancelling = true) := by
  cases before : client.tasks number with
  | none => simp [Client.teardown_tasks_none before] at found
  | some task =>
    obtain ⟨left', hh, cases⟩ := Client.teardown_tasks before
    obtain rfl : left' = left := by simpa [hh] using found
    have hs := sound.served number task before
    rcases cases with ⟨hw, hu, rfl⟩ | ⟨done, rfl⟩
    · exact ⟨task, rfl, task.later_cancel, hs.paid.cancel,
        fun _ => ⟨hw, HandlerTask.cancel_cancelling hu⟩⟩
    · refine ⟨left', rfl, .refl left', hs.paid, fun hu => ?_⟩
      exact absurd (done (hs.listed hu)) hu

end Sound

namespace Change
variable {client next : Client η} {event : Event η}

section
variable (change : Change client event next)
include change

theorem served (sound : Sound client) :
    ∀ number left, next.tasks number = some left → Served next number left := by
  have old := sound.served
  have hk : ∀ query number, client.queries number = some query →
      ∃ left, client.queries number = some left ∧ left.phase.waits = query.phase.waits :=
    fun query _ hf => ⟨query, hf, rfl⟩
  cases change with
  | ignored => exact old
  | generated | returned =>
    intro number task hf
    exact (old number task hf).of_same (fun _ => id) (fun query => hk query _) id
  | broke =>
    intro number task hf
    exact (old number task hf).of_same (fun _ => id) (fun query => hk query _) fun _ => .inr rfl
  | @task moved before left hf move =>
    refine Runs.forall_update (fun number _ task hh => ?_) fun task hh => ?_
    · exact (old number task hh).of_same (fun _ => id) (fun query => hk query _) id
    · cases hh
      exact ((old moved before hf).move move).of_same (fun _ => id) (fun query => hk query _) id
  | @invoked started _ before _ request _ _ _ hf fresh =>
    refine Runs.forall_update (fun number _ task hh => ?_) fun task hh => ?_
    · exact (old number task hh).of_same (fun _ => id) (fun query => hk query _) id
    · cases hh
      exact ((old started before hf).start fresh request).of_same (fun _ => id) (fun query => hk query _) id
  | @spawned reader query _ _ _ _ hf reading =>
    refine Runs.forall_update (fun number _ task hh => ?_) fun task hh => ?_
    · exact (old number task hh).of_same (fun _ => List.mem_append_left _) (fun query => hk query _) id
    · cases hh
      refine ⟨fun _ => List.mem_append_right _ (List.mem_singleton_self _), ⟨query, hf, ?_, ?_⟩, rfl⟩
      · intro _ _
        simp [reading, QueryPhase.waits]
      · simp [reading, QueryPhase.waits]
  | @completed _ before hf hd =>
    intro number task hh
    refine (old number task hh).of_same (fun hu hl => ?_) (fun query => hk query _) id
    refine List.mem_filter.mpr ⟨hl, ?_⟩
    simp only [decide_eq_true_eq]
    rintro rfl
    cases hf.symm.trans hh
    exact hu hd
  | begun | claimed =>
    intro number task hh
    refine (old number task hh).of_same (fun _ => id) (fun query hf => ⟨query, ?_, rfl⟩) id
    exact (update_of_ne (sound.ne_queryCount hf) ..).trans hf
  | @moved reader query phase _ hf move =>
    intro number task hh
    have served := old number task hh
    by_cases own : task.query = reader
    swap
    · refine served.of_same (fun _ => id) (fun query hf => ⟨query, ?_, rfl⟩) id
      exact (update_of_ne own ..).trans hf
    obtain ⟨other, foundOther, goes, waiting⟩ := served.owned
    obtain rfl : query = other := by simpa [own, hf] using foundOther
    refine ⟨served.listed, ⟨{ query with phase := phase }, own ▸ update_self .., ?_, ?_⟩, served.paid⟩
    · intro hu uncancelled
      have goes := goes hu uncancelled
      rcases move.waits with ⟨-, hs⟩ | ⟨pending, hw, -⟩
      · exact hs
      · simp [goes] at hw
    · intro hw among hu
      rcases move.waits with ⟨-, hs⟩ | ⟨pending, hw, drained, -⟩
      · simp [hs] at among
      · have hd := drained number (waiting pending hw hu)
        exact absurd ((Client.isDone_of_some hh).mp hd) hu
  | @torn reader query phase connected _ ending cut =>
    intro number left hh
    obtain ⟨task, before, later, paid, cancelled⟩ := sound.teardown_served hh
    obtain ⟨other, foundOther, -, waiting⟩ := (old number task before).owned
    refine ⟨fun hu => (Client.mem_teardown.mp (cancelled hu).1).1, ?_, paid.mono ?_⟩
    · have uncancelled : left.phase ≠ .done → left.cancelling = false → False := by
        intro hu uncancelled
        simp [(cancelled hu).2] at uncancelled
      by_cases own : task.query = reader
      · refine ⟨{ query with phase := phase client.teardown.2 }, ?_,
          fun hu free => (uncancelled hu free).elim, ?_⟩
        · rw [later.query, own]
          exact update_self ..
        · rw [ending.waits]
          rintro _ ⟨⟩ hu
          exact (cancelled hu).1
      · refine ⟨other, ?_, fun hu free => (uncancelled hu free).elim, ?_⟩
        · rw [later.query]
          exact (update_of_ne own ..).trans foundOther
        · intro hw among hu
          exact waiting hw among (later.undone hu)
    · rintro (off | hb)
      · refine .inl ?_
        show connected = false
        simpa [off] using cut
      · exact .inr hb
  | disconnected =>
    intro number _ hh
    obtain ⟨task, before, later, paid, cancelled⟩ := sound.teardown_served hh
    obtain ⟨other, foundOther, -, waiting⟩ := (old number task before).owned
    refine ⟨fun hu => (Client.mem_teardown.mp (cancelled hu).1).1,
      ⟨other, ?_, ?_, ?_⟩, paid.mono fun _ => .inl rfl⟩
    · rw [later.query]
      exact foundOther
    · intro hu uncancelled
      simp [(cancelled hu).2] at uncancelled
    · intro hw among hu
      exact waiting hw among (later.undone hu)

theorem unborn (sound : Sound client) : ∀ number, next.taskCount ≤ number → next.tasks number = none := by
  have old := sound.unborn
  intro number ha
  cases change with
  | ignored | generated | returned | broke | completed | begun | claimed | moved => exact old number ha
  | @task moved before left hf | @invoked hs _ _ _ _ _ _ _ hf =>
    refine (update_of_ne ?_ ..).trans (old number ha)
    rintro rfl
    simp [old number ha] at hf
  | spawned =>
    refine (update_of_ne ?_ ..).trans (old number (Nat.le_of_succ_le ha))
    exact Nat.ne_of_gt ha
  | torn | disconnected => exact Client.teardown_tasks_none (old number ha)

theorem unbegun (sound : Sound client) : ∀ number, next.queryCount ≤ number → next.queries number = none := by
  have old := sound.unbegun
  intro number ha
  cases change with
  | ignored | generated | returned | broke | completed | task | invoked | spawned | disconnected =>
    exact old number ha
  | begun | claimed => exact (update_of_ne (Nat.ne_of_gt ha) ..).trans (old number (Nat.le_of_succ_le ha))
  | @moved reader query _ _ hf | @torn reader query _ _ hf =>
    refine (update_of_ne ?_ ..).trans (old number ha)
    rintro rfl
    simp [old number ha] at hf

theorem queries {number : Nat} {left : Query η} (found : next.queries number = some left) :
    (∃ query, client.queries number = some query ∧ query.Later left) ∨
    number = client.queryCount ∧ client.idle := by
  cases change with
  | ignored | generated | returned | broke | completed | task | invoked | spawned | disconnected =>
    exact .inl ⟨left, found, .refl left⟩
  | begun idle | claimed idle =>
    by_cases hn : number = client.queryCount
    · exact .inr ⟨hn, idle⟩
    · exact .inl ⟨left, (update_of_ne hn ..).symm.trans found, .refl left⟩
  | @moved reader query _ _ hh move =>
    by_cases own : number = reader
    · subst own
      cases (Client.setQuery_self ..).symm.trans found
      exact .inl ⟨query, hh, move.later rfl⟩
    · exact .inl ⟨left, (Client.setQuery_of_ne _ _ own).symm.trans found, .refl left⟩
  | @torn reader query _ _ hh ending =>
    by_cases own : number = reader
    · subst own
      cases (Client.setQuery_self ..).symm.trans found
      exact .inl ⟨query, hh, ending.later rfl⟩
    · exact .inl ⟨left, (Client.setQuery_of_ne _ _ own).symm.trans found, .refl left⟩

theorem queries_kept (sound : Sound client) {number : Nat} {query : Query η}
    (found : client.queries number = some query) :
    ∃ left, next.queries number = some left ∧ query.Later left := by
  cases change with
  | ignored | generated | returned | broke | completed | task | invoked | spawned | disconnected =>
    exact ⟨query, found, .refl query⟩
  | begun | claimed => exact ⟨query, (update_of_ne (sound.ne_queryCount found) ..).trans found, .refl query⟩
  | @moved reader other _ _ hh move =>
    by_cases own : number = reader
    · subst own
      cases hh.symm.trans found
      exact ⟨_, Client.setQuery_self .., move.later rfl⟩
    · exact ⟨query, (Client.setQuery_of_ne _ _ own).trans found, .refl query⟩
  | @torn reader _ _ _ hh ending =>
    by_cases own : number = reader
    · subst own
      cases hh.symm.trans found
      exact ⟨_, Client.setQuery_self .., ending.later rfl⟩
    · exact ⟨query, (Client.setQuery_of_ne _ _ own).trans found, .refl query⟩

theorem single (sound : Sound client) {first second : Nat} {one two : Query η}
    (isOne : next.queries first = some one) (isTwo : next.queries second = some two)
    (active : one.phase.active = true) (alsoActive : two.phase.active = true) : first = second := by
  rcases change.queries isOne with ⟨one', isOne', later⟩ | ⟨hn, hi⟩ <;>
    rcases change.queries isTwo with ⟨two', isTwo', alsoLater⟩ | ⟨alsoNew, alsoIdle⟩
  · exact sound.single first second one' two' isOne' isTwo' (later.active active)
      (alsoLater.active alsoActive)
  · exact absurd (later.active active) (by simp [sound.idle alsoIdle isOne'])
  · exact absurd (alsoLater.active alsoActive) (by simp [sound.idle hi isTwo'])
  · exact hn.trans alsoNew.symm

theorem held (sound : Sound client) {object : Nat} (holds : next.capability = some object) :
    ∃ number query, next.queries number = some query ∧ query.phase.waits = none ∧
      query.capability = some object := by
  have old := sound.held object
  cases change with
  | ignored | generated | returned | broke | completed | task | invoked | spawned => exact old holds
  | begun =>
    obtain ⟨number, query, hf, rest⟩ := old holds
    exact ⟨number, query, (update_of_ne (sound.ne_queryCount hf) ..).trans hf, rest⟩
  | claimed => exact ⟨client.queryCount, _, update_self .., rfl, holds⟩
  | @moved reader _ _ _ hh move =>
    obtain ⟨number, other, hf, goes, rest⟩ := old holds
    by_cases own : number = reader
    · subst own
      cases hh.symm.trans hf
      refine ⟨number, _, Client.setQuery_self .., ?_, rest⟩
      rcases move.waits with ⟨-, hs⟩ | ⟨_, waits, -⟩
      · exact hs
      · simp [goes] at waits
    · exact ⟨number, other, (Client.setQuery_of_ne _ _ own).trans hf, goes, rest⟩
  | torn | disconnected => exact nomatch holds

theorem sound (before : Sound client) : Sound next where
  unborn := change.unborn before
  unbegun := change.unbegun before
  single _ _ _ _ := change.single before
  held _ := change.held before
  served := change.served before

end

end Change

end Yinshi.Orchestration
