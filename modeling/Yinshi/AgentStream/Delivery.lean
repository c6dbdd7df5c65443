import Yinshi.AgentStream.Steps

/-! What becomes of the flag of a cancel request, of a prompt in the queue, and of the runs of
before. -/

namespace Yinshi.AgentStream
open ByteText Function Relation Option

def Event.calm {ς τ β : Type} : Event ς τ β → Prop
  | .renders _ | .bootstraps .. => False
  | .sends prompt _ _ => trim prompt = []
  | _ => True

namespace Hook
variable {ς τ β : Type} {hook next : Hook ς τ β} {event : Event ς τ β}

/-- A call of `cancel` of the current operation is not settled. -/
def Pending (hook : Hook ς τ β) : Prop :=
  ∃ number call, hook.cancels number = some call ∧ call.phase ≠ .settled ∧
    hook.isCurrent call.generation call.operation

def Honest (hook : Hook ς τ β) : Prop := hook.cancelInFlightRef = true → hook.Pending

/-- A prompt is sent while nothing runs, or the current run ends with a prompt in the queue; and a
cancel request is in flight. -/
def Hastes (hook : Hook ς τ β) (event : Event ς τ β) : Prop :=
  hook.cancelInFlightRef = true ∧
    ((∃ prompt model thinking, event = .sends prompt model thinking ∧ hook.runState = .idle ∧
      hook.context.sessionId ≠ none ∧ trim prompt ≠ []) ∨
    ∃ number run, event.closes = true ∧ event.run = some number ∧ hook.runs number = some run ∧
      hook.isCurrent run.generation run.operation ∧ hook.queuedPromptRef ≠ none)

def Stale (hook : Hook ς τ β) (event : Event ς τ β) : Prop :=
  (∃ number run, event.run = some number ∧ hook.runs number = some run ∧
    ¬ hook.isCurrent run.generation run.operation) ∨
  (∃ number call, event.call = some number ∧ hook.cancels number = some call ∧
    ¬ hook.isCurrent call.generation call.operation) ∨
  ∃ context history activeRunId attaches, event = .bootstraps context history activeRunId attaches ∧
    hook.context ≠ context

section Effects
variable [DecidableEq ς] [DecidableEq τ]

theorem startPrompt_accepted {context : Context ς τ} {queued : QueuedPrompt}
    (session : context.sessionId ≠ none)
    (spoken : trim queued.prompt ≠ []) (hs : hook.context = context) :
    let started := hook.startPrompt context queued
    started.operationRef = hook.operationRef + 1 ∧ started.generationRef = hook.generationRef ∧
      started.cancelInFlightRef = hook.cancelInFlightRef ∧ started.cancels = hook.cancels ∧
      started.queuedPromptRef = hook.queuedPromptRef ∧
        ∃ run, started.runs = update hook.runs hook.runCount (some run) ∧
        run.submission = some queued.submission ∧ run.phase ≠ .ended ∧
        started.isCurrent run.generation run.operation := by
  have ha : ¬ (context.sessionId = none ∨ trim queued.prompt = [] ∨ hook.context ≠ context) := by
    rintro (unset | blank | other)
    · exact session unset
    · exact spoken blank
    · exact other hs
  simp only [startPrompt, if_neg ha]
  refine ⟨trivial, trivial, trivial, trivial, trivial, _, rfl, rfl, ?_, rfl, rfl⟩
  split <;> simp

theorem startPrompt_keeps (context : Context ς τ) (queued : QueuedPrompt) :
    (hook.startPrompt context queued).cancelInFlightRef = hook.cancelInFlightRef ∧
    (hook.startPrompt context queued).cancels = hook.cancels ∧
    (hook.startPrompt context queued).queuedPromptRef = hook.queuedPromptRef := by
  unfold startPrompt
  split
  · exact ⟨rfl, rfl, rfl⟩
  · exact ⟨rfl, rfl, rfl⟩

theorem endRun_starts (sound : hook.Sound) {number : Nat} {run left : Run ς τ β}
    (hf : hook.runs number = some run) (same : run.Same left)
    (hc : hook.isCurrent run.generation run.operation) (hu : run.phase ≠ .ended) {queued : QueuedPrompt}
    (isQueued : hook.queuedPromptRef = some queued) :
    let ended := hook.endRun number left
    ended.operationRef = hook.operationRef + 1 ∧ ended.generationRef = hook.generationRef ∧
      ended.cancelInFlightRef = hook.cancelInFlightRef ∧ ended.cancels = hook.cancels ∧
      ended.queuedPromptRef = none ∧ ∃ new, ended.runs = update (update hook.runs number
        (some { left with phase := .ended })) hook.runCount (some new) ∧
        new.submission = some queued.submission ∧ new.phase ≠ .ended ∧
        ended.isCurrent new.generation new.operation := by
  obtain ⟨hh, -⟩ := sound.holding hf hc hu
  obtain ⟨_, session⟩ := hh.session
  obtain ⟨-, spoken, -⟩ := sound.roster.queued queued isQueued
  have hb : left.context.sessionId ≠ none := by
    rw [same.2.2.1, session]
    simp
  have hk : (hook.vacated number left).context = left.context := hh.context.trans same.2.2.1.symm
  have hs := startPrompt_accepted hb spoken hk
  rw [Sound.endRun_of_current (by rwa [same.1, same.2.1]), isQueued]
  exact hs

section Closed
variable {number : Nat} {run left : Run ς τ β} {messages : List (ChatMessage β)}
  (hs : run.Same left)
include hs

theorem closed_empty (hc : hook.isCurrent run.generation run.operation)
    (empty : hook.queuedPromptRef = none) :
    endRun { hook with messages := messages } number left =
      vacated { hook with messages := messages } number left := by
  rw [Sound.endRun_of_current (by rwa [hs.1, hs.2.1]), empty]

theorem closed_stale (stale : ¬ hook.isCurrent run.generation run.operation) :
    endRun { hook with messages := messages } number left =
      setRun { hook with messages := messages } number { left with phase := .ended } :=
  Sound.endRun_of_stale (by rwa [hs.1, hs.2.1])

end Closed

def queue (hook : Hook ς τ β) (prompt : Text) (model thinking : Option Text) : QueuedPrompt :=
  { prompt := trim prompt, model := model, thinking := thinking, submission := hook.submissions }

theorem sendPrompt_cases (hook : Hook ς τ β) (prompt : Text) (model thinking : Option Text) :
    (hook.context.sessionId = none ∨ trim prompt = []) ∧ hook.sendPrompt prompt model thinking = hook ∨
    (hook.context.sessionId ≠ none ∧ trim prompt ≠ []) ∧
      (hook.runState = .idle ∧ hook.sendPrompt prompt model thinking =
          { hook with submissions := hook.submissions + 1 }.startPrompt hook.context
            (hook.queue prompt model thinking) ∨
        hook.runState = .running ∧ hook.sendPrompt prompt model thinking =
          { hook with submissions := hook.submissions + 1,
                      queuedPromptRef := some (hook.queue prompt model thinking) }.cancel ∨
        hook.runState = .stopping ∧ hook.sendPrompt prompt model thinking =
          { hook with submissions := hook.submissions + 1,
                      queuedPromptRef := some (hook.queue prompt model thinking) }) := by
  unfold sendPrompt
  split
  next hr => exact .inl ⟨hr, rfl⟩
  next ha =>
    refine .inr ⟨not_or.mp ha, ?_⟩
    split
    next hru => exact .inr (.inl ⟨hru, rfl⟩)
    next stopping => exact .inr (.inr ⟨stopping, rfl⟩)
    next isIdle => exact .inl ⟨isIdle, rfl⟩

end Effects

section Flag

theorem cancel_honest (honest : hook.Honest) : hook.cancel.Honest := by
  have move := hook.cancel_cancelling
  generalize hook.cancel = next at move
  cases move with
  | ignored => exact honest
  | called call _ _ hc _ pending =>
    intro _
    exact ⟨hook.cancelCount, call, update_self .., pending, hc.1.symm, hc.2.symm⟩
  | unbound => exact nofun

variable [DecidableEq ς] [DecidableEq τ]

theorem Change.honest (change : Change hook event next) (sound : hook.Sound) (honest : hook.Honest)
    (patient : ¬ hook.Hastes event) : next.Honest := by
  cases change with
  | rendered => exact nofun
  | @sent prompt model thinking he =>
    have queued : Honest { hook with
        submissions := hook.submissions + 1,
        queuedPromptRef := some (hook.queue prompt model thinking) } := honest
    rcases hook.sendPrompt_cases prompt model thinking with
      ⟨-, hs⟩ | ⟨ha, ⟨isIdle, hs⟩ | ⟨-, hs⟩ | ⟨-, hs⟩⟩
    · rw [hs]
      exact honest
    · rw [hs]
      intro flagged
      rw [(startPrompt_keeps _ _).1] at flagged
      exact absurd ⟨flagged, .inl ⟨prompt, model, thinking, he, isIdle, ha⟩⟩ patient
    · exact hs ▸ cancel_honest queued
    · exact hs ▸ queued
  | cancelled => exact cancel_honest honest
  | @bootstrapped _ _ activeRunId _ =>
    unfold bootstrapSession
    split
    · exact honest
    · cases activeRunId with
      | none => exact nofun
      | some _ =>
        simp only [resumePrompt]
        split
        · exact nofun
        · split <;> exact nofun
  | @run number run next he hf turn =>
    cases turn with
    | opened | turned => exact honest
    | closed left messages closes hs undone =>
      by_cases hc : hook.isCurrent run.generation run.operation
      · by_cases empty : hook.queuedPromptRef = none
        · rw [closed_empty hs hc empty]
          exact honest
        · intro flagged
          obtain ⟨_, isQueued⟩ := ne_none_iff_exists'.mp empty
          obtain ⟨-, -, flag, -⟩ := endRun_starts (sound.of_messages messages) hf hs hc undone isQueued
          rw [flag] at flagged
          exact absurd ⟨flagged, .inr ⟨number, run, closes, he, hf, hc, empty⟩⟩ patient
      · rw [closed_stale hs hc]
        exact honest
  | @call number call next _ hk turn =>
    cases turn with
    | requested _ _ =>
      intro flagged
      obtain ⟨other, pending, hh, hu, hc⟩ := honest flagged
      by_cases own : other = number
      · subst own
        cases hk.symm.trans hh
        exact ⟨other, _, update_self .., nofun, hc⟩
      · exact ⟨other, pending, (update_of_ne own ..).trans hh, hu, hc⟩
    | settled _ =>
      unfold settleCancel
      split
      next => exact nofun
      next stale =>
        intro flagged
        obtain ⟨other, pending, hh, hu, hc⟩ := honest flagged
        refine ⟨other, pending, (update_of_ne ?_ ..).trans hh, hu, hc⟩
        rintro rfl
        cases hk.symm.trans hh
        exact stale hc

theorem Hastes.dishonest (hastes : hook.Hastes event) (sound : hook.Sound)
    (stepped : hook.step event = some next) : ¬ next.Honest := by
  obtain ⟨flag, hastes⟩ := hastes
  have after : next.operationRef = hook.operationRef + 1 ∧ next.cancelInFlightRef = true ∧
      next.cancels = hook.cancels := by
    rcases hastes with ⟨prompt, model, thinking, rfl, isIdle, session, spoken⟩ |
      ⟨number, run, closes, hr, hf, hc, queued⟩
    · cases stepped
      have queued : trim (hook.queue prompt model thinking).prompt ≠ [] := by rwa [queue, trim_trim]
      obtain ⟨operation, -, isFlag, calls, -⟩ :=
        @startPrompt_accepted _ _ _ { hook with submissions := hook.submissions + 1 } _ _ _ _
          session queued rfl
      rcases hook.sendPrompt_cases prompt model thinking with
        ⟨unset | blank, -⟩ | ⟨-, ⟨-, hs⟩ | ⟨running, -⟩ | ⟨stopping, -⟩⟩
      · exact absurd unset session
      · exact absurd blank spoken
      · rw [hs]
        exact ⟨operation, isFlag.trans flag, calls⟩
      · simp [isIdle] at running
      · simp [isIdle] at stopping
    · obtain ⟨_, hk⟩ := ne_none_iff_exists'.mp queued
      have change := step_change stepped
      cases change with
      | rendered hs | sent hs | cancelled hs | bootstrapped hs => simp [hs, Event.closes] at closes
      | call hs => cases event <;> simp_all [Event.closes, Event.call]
      | @run _ _ _ he hf' turn =>
        cases hr.symm.trans he
        cases hf.symm.trans hf'
        cases turn with
        | opened _ opens | turned _ _ opens => simp [opens] at closes
        | closed _ messages _ hs hu =>
          obtain ⟨operation, -, isFlag, calls, -⟩ :=
            endRun_starts (sound.of_messages messages) hf hs hc hu hk
          exact ⟨operation, isFlag.trans flag, calls⟩
  intro honest
  obtain ⟨number, call, hh, -, -, _⟩ := honest after.2.1
  have older := sound.roster.called number call (after.2.2 ▸ hh)
  omega

end Flag

def Starts (hook next : Hook ς τ β) (submission : Nat) : Prop :=
  ∃ run, next.runs hook.runCount = some run ∧ run.submission = some submission ∧
    run.phase ≠ .ended ∧ next.isCurrent run.generation run.operation

def Ends (hook next : Hook ς τ β) (number : Nat) : Prop :=
  hook.Active number ∧ ∃ run, next.runs number = some run ∧ run.phase = .ended

section Queue

theorem cancel_queue (hook : Hook ς τ β) : hook.cancel.queuedPromptRef = hook.queuedPromptRef ∧
    hook.cancel.runs = hook.runs ∧ hook.cancel.runCount = hook.runCount := by
  have move := hook.cancel_cancelling
  generalize hook.cancel = next at move
  cases move with
  | ignored | called | unbound => exact ⟨rfl, rfl, rfl⟩

variable [DecidableEq ς] [DecidableEq τ]

theorem Change.kept (change : Change hook event next) (sound : hook.Sound) {queued : QueuedPrompt}
    (isQueued : hook.queuedPromptRef = some queued) :
    next.queuedPromptRef = some queued ∨
    (∃ prompt model thinking, event = .sends prompt model thinking ∧ trim prompt ≠ [] ∧
      next.queuedPromptRef = some (hook.queue prompt model thinking)) ∨
    (∃ context, event = .renders context) ∨
    (∃ context history activeRunId attaches,
      event = .bootstraps context history activeRunId attaches) ∨
    ∃ number,
      event.run = some number ∧ hook.Ends next number ∧ hook.Starts next queued.submission := by
  cases change with
  | rendered he => exact .inr (.inr (.inl ⟨_, he⟩))
  | @sent prompt model thinking he =>
    rcases hook.sendPrompt_cases prompt model thinking with
      ⟨-, hs⟩ | ⟨⟨-, spoken⟩, ⟨isIdle, -⟩ | ⟨-, hs⟩ | ⟨-, hs⟩⟩
    · exact .inl (hs.symm ▸ isQueued)
    · cases sound.live with
      | busy _ _ _ isBusy => exact absurd isIdle isBusy
      | idle _ _ _ queue => simp [queue] at isQueued
    · exact .inr (.inl ⟨prompt, model, thinking, he, spoken, by rw [hs, (cancel_queue _).1]⟩)
    · exact .inr (.inl ⟨prompt, model, thinking, he, spoken, by rw [hs]⟩)
  | cancelled => exact .inl (by rw [(cancel_queue _).1, isQueued])
  | bootstrapped he => exact .inr (.inr (.inr (.inl ⟨_, _, _, _, he⟩)))
  | @run number run next he hf turn =>
    cases turn with
    | opened | turned => exact .inl isQueued
    | closed left messages _ hs hu =>
      by_cases hc : hook.isCurrent run.generation run.operation
      · obtain ⟨-, -, -, -, -, new, runs, submission, going, hn⟩ :=
          endRun_starts (sound.of_messages messages) hf hs hc hu isQueued
        have ha := sound.roster.ne_runCount hf
        have ends : hook.Ends _ number := ⟨⟨run, hf, hc, hu⟩, { left with phase := .ended },
          by rw [runs, update_of_ne ha, update_self], rfl⟩
        have starts : hook.Starts _ queued.submission :=
          ⟨new, by rw [runs, update_self], submission, going, hn⟩
        exact .inr (.inr (.inr (.inr ⟨number, he, ends, starts⟩)))
      · rw [closed_stale hs hc]
        exact .inl isQueued
  | @call _ _ next _ _ turn =>
    cases turn with
    | requested => exact .inl isQueued
    | settled succeeds =>
      refine .inl ?_
      unfold settleCancel
      split
      next => cases succeeds <;> exact isQueued
      next => exact isQueued

theorem Change.alone (change : Change hook event next) (sound : hook.Sound) {submission : Nat}
    (starts : hook.Starts next submission) {number : Nat} (active : hook.Active number) :
    hook.Ends next number := by
  obtain ⟨started, isStarted, submitted, -⟩ := starts
  have isBusy := sound.busy_iff.mpr ⟨number, active⟩
  have hm := sound.roster.unmade hook.runCount (Nat.le_refl _)
  have unstarted : ∀ {runs : Nat → Option (Run ς τ β)},
        runs = hook.runs → runs hook.runCount ≠ some started := by
    rintro _ rfl hk
    simp [hm] at hk
  have turned : ∀ {other : Nat} {run left : Run ς τ β}, hook.runs other = some run →
      update hook.runs other (some left) hook.runCount ≠ some started := by
    intro other run left hf hk
    rw [update_of_ne (sound.roster.ne_runCount hf).symm] at hk
    simp [hm] at hk
  cases change with
  | rendered => exact absurd isStarted (unstarted rfl)
  | @sent prompt model thinking he =>
    rcases hook.sendPrompt_cases prompt model thinking with ⟨-, hs⟩ | ⟨-, ⟨isIdle, -⟩ | ⟨-, hs⟩ | ⟨-, hs⟩⟩
    · exact absurd isStarted (unstarted (by rw [hs]))
    · exact absurd isIdle isBusy
    · exact absurd isStarted (unstarted (by rw [hs, (cancel_queue _).2.1]))
    · exact absurd isStarted (unstarted (by rw [hs]))
  | cancelled => exact absurd isStarted (unstarted (cancel_queue hook).2.1)
  | @bootstrapped _ _ activeRunId attaches =>
    unfold bootstrapSession at isStarted
    split at isStarted
    · exact absurd isStarted (unstarted rfl)
    · cases activeRunId with
      | none => exact absurd isStarted (unstarted rfl)
      | some _ =>
        simp only [resumePrompt] at isStarted
        split at isStarted
        · exact absurd isStarted (unstarted rfl)
        · cases attaches with
          | true | false =>
            obtain rfl := Runs.eq_of_update isStarted
            exact nomatch submitted
  | @run other run next he hf turn =>
    cases turn with
    | opened | turned => exact absurd isStarted (turned hf)
    | closed left messages _ hs hu =>
      by_cases hc : hook.isCurrent run.generation run.operation
      · obtain rfl := sound.active_unique active ⟨run, hf, hc, hu⟩
        by_cases empty : hook.queuedPromptRef = none
        · rw [closed_empty hs hc empty] at isStarted
          exact absurd isStarted (turned hf)
        · obtain ⟨_, isQueued⟩ := ne_none_iff_exists'.mp empty
          obtain ⟨-, -, -, -, -, _, runs, -⟩ :=
            endRun_starts (sound.of_messages messages) hf hs hc hu isQueued
          refine ⟨active, { left with phase := .ended }, ?_, rfl⟩
          rw [runs, update_of_ne (sound.roster.ne_runCount hf), update_self]
      · rw [closed_stale hs hc] at isStarted
        exact absurd isStarted (turned hf)
  | @call _ _ next _ _ turn =>
    cases turn with
    | requested => exact absurd isStarted (unstarted rfl)
    | settled succeeds =>
      refine absurd isStarted (unstarted ?_)
      unfold settleCancel
      split
      next => cases succeeds <;> rfl
      next => rfl

theorem queues {prompt : Text} {model thinking : Option Text}
    (session : hook.context.sessionId ≠ none) (spoken : trim prompt ≠ [])
    (isBusy : hook.runState ≠ .idle) :
    (hook.sendPrompt prompt model thinking).queuedPromptRef =
        some (hook.queue prompt model thinking) ∧
    ∀ number, hook.Active number → (hook.sendPrompt prompt model thinking).Active number := by
  rcases hook.sendPrompt_cases prompt model thinking with
    ⟨unset | blank, -⟩ | ⟨-, ⟨isIdle, -⟩ | ⟨-, hs⟩ | ⟨-, hs⟩⟩
  · exact absurd unset session
  · exact absurd blank spoken
  · exact absurd isIdle isBusy
  · have move := cancel_cancelling { hook with
      submissions := hook.submissions + 1, queuedPromptRef := some (hook.queue prompt model thinking) }
    rw [← hs] at move
    generalize hook.sendPrompt prompt model thinking = next at move
    cases move with
    | ignored | called | unbound => exact ⟨rfl, fun _ active => active⟩
  · rw [hs]
    exact ⟨rfl, fun _ active => active⟩

end Queue

section Turns
variable [DecidableEq ς] [DecidableEq τ]

theorem Change.stale (change : Change hook event next) (stale : hook.Stale event) :
    next.messages = hook.messages ∧ next.runState = hook.runState := by
  cases change with
  | rendered he | sent he | cancelled he =>
    subst he
    obtain ⟨_, _, ⟨⟩, -⟩ | ⟨_, _, ⟨⟩, -⟩ | ⟨_, _, _, _, ⟨⟩, -⟩ := stale
  | bootstrapped he =>
    subst he
    obtain ⟨_, _, ⟨⟩, -⟩ | ⟨_, _, ⟨⟩, -⟩ | ⟨_, _, _, _, ⟨⟩, other⟩ := stale
    rw [bootstrapSession, if_pos other]
    exact ⟨rfl, rfl⟩
  | @run number run next he hf turn =>
    have old : ¬ hook.isCurrent run.generation run.operation := by
      obtain ⟨number', _, hr, hk, old⟩ | ⟨_, _, hc, -⟩ | ⟨_, _, _, _, isBoot, -⟩ := stale
      · cases he.symm.trans hr
        cases hf.symm.trans hk
        exact old
      · cases event <;> simp_all [Event.run, Event.call]
      · simp [isBoot, Event.run] at he
    cases turn with
    | opened _ _ _ current => exact absurd current old
    | turned left messages _ _ _ _ _ _ own => exact ⟨own old, rfl⟩
    | closed left messages _ hs _ own =>
      rw [closed_stale hs old]
      exact ⟨own old, rfl⟩
  | @call _ call _ he hk turn =>
    have old : ¬ hook.isCurrent call.generation call.operation := by
      obtain ⟨_, _, _, -⟩ | ⟨_, _, hc, hh, old⟩ | ⟨_, _, _, _, isBoot, -⟩ := stale
      · cases event <;> simp_all [Event.run, Event.call]
      · cases he.symm.trans hc
        cases hk.symm.trans hh
        exact old
      · simp [isBoot, Event.call] at he
    cases turn with
    | requested => exact ⟨rfl, rfl⟩
    | settled _ =>
      rw [settleCancel, if_neg old]
      exact ⟨rfl, rfl⟩

theorem Change.waits (change : Change hook event next) (sound : hook.Sound) {number : Nat}
    {call : CancelCall ς} (hk : hook.cancels number = some call)
    (other : event.call ≠ some number) : next.cancels number = some call := by
  have ha : number ≠ hook.cancelCount := by
    rintro rfl
    simp [sound.roster.uncalled _ (Nat.le_refl _)] at hk
  have cancelling : ∀ {before : Hook ς τ β},
        before.cancels = hook.cancels → before.cancelCount = hook.cancelCount →
      before.cancel.cancels number = some call := by
    intro before calls count
    have move := before.cancel_cancelling
    generalize before.cancel = after at move
    cases move with
    | ignored => exact calls ▸ hk
    | called | unbound => exact (update_of_ne (count ▸ ha) ..).trans (calls ▸ hk)
  cases change with
  | rendered => exact hk
  | @sent prompt model thinking he =>
    rcases hook.sendPrompt_cases prompt model thinking with
      ⟨-, hs⟩ | ⟨-, ⟨-, hs⟩ | ⟨-, hs⟩ | ⟨-, hs⟩⟩
    · rwa [hs]
    · rwa [hs, (startPrompt_keeps _ _).2.1]
    · rw [hs]
      exact cancelling rfl rfl
    · rwa [hs]
  | cancelled => exact cancelling rfl rfl
  | @bootstrapped _ _ activeRunId _ =>
    unfold bootstrapSession
    split
    · exact hk
    · cases activeRunId with
      | none => exact hk
      | some _ =>
        simp only [resumePrompt]
        split
        · exact hk
        · split <;> exact hk
  | @run _ _ next he _ turn =>
    cases turn with
    | opened | turned => exact hk
    | closed _ _ _ hs _ =>
      unfold endRun
      split
      · split
        · rwa [(startPrompt_keeps _ _).2.1]
        · exact hk
      · exact hk
  | @call moved _ next he _ turn =>
    have own : number ≠ moved := fun hs => other (hs ▸ he)
    cases turn with
    | requested => exact (update_of_ne own ..).trans hk
    | settled succeeds =>
      unfold settleCancel
      split
      next => cases succeeds <;> exact (update_of_ne own ..).trans hk
      next => exact (update_of_ne own ..).trans hk

end Turns

structure Later (hook next : Hook ς τ β) : Prop where
  generation : hook.generationRef ≤ next.generationRef
  operation : hook.operationRef ≤ next.operationRef
  runs : ∀ number run, hook.runs number = some run → ∃ left, next.runs number = some left ∧
    run.Same left ∧ (run.phase = .ended → left.phase = .ended)

namespace Later

theorem same (runs : next.runs = hook.runs) (generation : hook.generationRef ≤ next.generationRef)
    (operation : hook.operationRef ≤ next.operationRef) : hook.Later next :=
  ⟨generation, operation, fun _ run hf => ⟨run, runs ▸ hf, ⟨rfl, rfl, rfl, rfl⟩, id⟩⟩

theorem refl (hook : Hook ς τ β) : hook.Later hook := same rfl (Nat.le_refl _) (Nat.le_refl _)

theorem trans {last : Hook ς τ β} (first : hook.Later next) (second : next.Later last) : hook.Later last := by
  refine ⟨first.generation.trans second.generation, first.operation.trans second.operation,
    fun number run hf => ?_⟩
  obtain ⟨left, hk, ⟨generation, operation, context, submission⟩, past⟩ := first.runs number run hf
  obtain ⟨after, hh, ⟨generation', operation', context', submission'⟩, past'⟩ := second.runs number left hk
  exact ⟨after, hh, ⟨generation'.trans generation, operation'.trans operation,
    context'.trans context, submission'.trans submission⟩, past' ∘ past⟩

theorem update {number : Nat} {left : Run ς τ β}
    (runs : next.runs = Function.update hook.runs number (some left))
    (generation : hook.generationRef ≤ next.generationRef)
    (operation : hook.operationRef ≤ next.operationRef)
    (moves : ∀ run,
        hook.runs number = some run → run.Same left ∧ (run.phase = .ended → left.phase = .ended)) :
    hook.Later next := by
  refine ⟨generation, operation, fun other run hf => ?_⟩
  by_cases own : other = number
  · subst own
    obtain ⟨hs, ends⟩ := moves run hf
    exact ⟨left, by rw [runs, update_self], hs, ends⟩
  · exact ⟨run, by rw [runs, update_of_ne own, hf], ⟨rfl, rfl, rfl, rfl⟩, id⟩

theorem inactive (later : hook.Later next) (hs : hook.Sound) {number : Nat} {run : Run ς τ β}
    (hf : hook.runs number = some run) (inactive : ¬ hook.Active number) :
    ¬ next.Active number := by
  rintro ⟨_, hk, hc, going⟩
  obtain ⟨_, hk', ⟨_, _, -⟩, past⟩ := later.runs number run hf
  cases hk.symm.trans hk'
  have older := hs.roster.older number run hf
  have generations := later.generation
  have operations := later.operation
  obtain ⟨_, _⟩ := hc
  refine inactive ⟨run, hf, ⟨?_, ?_⟩, fun isEnd => going (past isEnd)⟩
  · omega
  · omega

end Later

section Runs
variable [DecidableEq ς] [DecidableEq τ]
variable {number : Nat} {run : Run ς τ β}

theorem startPrompt_later (hm : hook.runs hook.runCount = none) (context : Context ς τ)
    (queued : QueuedPrompt) : hook.Later (hook.startPrompt context queued) := by
  unfold startPrompt
  split
  · exact .refl hook
  · exact .update rfl (Nat.le_refl _) (Nat.le_succ _) fun run hf => by simp [hm] at hf

omit [DecidableEq ς] [DecidableEq τ] in
theorem cancel_later (hook : Hook ς τ β) : hook.Later hook.cancel := by
  have move := hook.cancel_cancelling
  generalize hook.cancel = next at move
  cases move with
  | ignored | called | unbound => exact .same rfl (Nat.le_refl _) (Nat.le_refl _)

theorem endRun_later (sound : hook.Sound) {left : Run ς τ β} (found : hook.runs number = some run)
    (hs : run.Same left) (hu : run.phase ≠ .ended) : hook.Later (hook.endRun number left) := by
  have moves : ∀ before, hook.runs number = some before →
      before.Same { left with phase := .ended } ∧
        (before.phase = .ended → RunPhase.ended = (.ended : RunPhase β)) := by
    intro _ hk
    cases found.symm.trans hk
    exact ⟨hs, fun _ => rfl⟩
  by_cases hc : hook.isCurrent run.generation run.operation
  · have vacated : hook.Later (hook.vacated number left) :=
      @Later.update _ _ _ _ _ _ { left with phase := .ended } rfl (Nat.le_refl _) (Nat.le_refl _) moves
    rw [Sound.endRun_of_current (by rwa [hs.1, hs.2.1])]
    split
    next queued isQueued =>
      have hf := (sound.vacate found hs hc hu).roster.unmade hook.runCount (Nat.le_refl _)
      exact vacated.trans (startPrompt_later hf _ _)
    next => exact vacated
  · rw [Sound.endRun_of_stale (by rwa [hs.1, hs.2.1])]
    exact @Later.update _ _ _ _ _ _ { left with phase := .ended } rfl (Nat.le_refl _) (Nat.le_refl _) moves

theorem Change.later (change : Change hook event next) (sound : hook.Sound) : hook.Later next := by
  have hm := sound.roster.unmade hook.runCount (Nat.le_refl _)
  cases change with
  | rendered => exact .same rfl (Nat.le_add_right _ _) (Nat.le_add_right _ _)
  | @sent prompt model thinking =>
    rcases hook.sendPrompt_cases prompt model thinking with
      ⟨-, hs⟩ | ⟨-, ⟨-, hs⟩ | ⟨-, hs⟩ | ⟨-, hs⟩⟩
    · rw [hs]
      exact .refl hook
    · rw [hs]
      have started := @startPrompt_later _ _ _ { hook with submissions := hook.submissions + 1 } _ _ hm
        hook.context (hook.queue prompt model thinking)
      exact ⟨started.generation, started.operation, started.runs⟩
    · rw [hs]
      have cancelled := cancel_later { hook with
        submissions := hook.submissions + 1, queuedPromptRef := some (hook.queue prompt model thinking) }
      exact ⟨cancelled.generation, cancelled.operation, cancelled.runs⟩
    · rw [hs]
      exact .same rfl (Nat.le_refl _) (Nat.le_refl _)
  | cancelled => exact cancel_later hook
  | @bootstrapped _ _ activeRunId _ =>
    unfold bootstrapSession
    split
    · exact .refl hook
    · cases activeRunId with
      | none => exact .same rfl (Nat.le_refl _) (Nat.le_succ _)
      | some runId =>
        simp only [resumePrompt]
        split
        · exact .same rfl (Nat.le_refl _) (Nat.le_succ _)
        · have free : ∀ {left : Run ς τ β} run, hook.runs hook.runCount = some run →
              run.Same left ∧ (run.phase = .ended → left.phase = .ended) := by
            intro left run hf
            simp [hm] at hf
          split
          · exact .update rfl (Nat.le_refl _) (by simp only; omega) free
          · exact .update rfl (Nat.le_refl _) (by simp only; omega) free
  | @run number run next isEvent hf turn =>
    have own : ∀ {left : Run ς τ β}, run.Same left → (run.phase = .ended → left.phase = .ended) →
        ∀ before, hook.runs number = some before →
          before.Same left ∧ (before.phase = .ended → left.phase = .ended) := by
      intro left hs ends _ hk
      cases hf.symm.trans hk
      exact ⟨hs, ends⟩
    cases turn with
    | opened _ _ starting =>
      exact .update rfl (Nat.le_refl _) (Nat.le_refl _) (own ⟨rfl, rfl, rfl, rfl⟩ (by simp [starting]))
    | turned left messages _ hs hu =>
      exact .update rfl (Nat.le_refl _) (Nat.le_refl _) (own hs fun isEnd => absurd isEnd hu)
    | closed _ messages _ hs hu =>
      have he := endRun_later (sound.of_messages messages) hf hs hu
      exact ⟨he.generation, he.operation, he.runs⟩
  | @call _ _ next _ _ turn =>
    cases turn with
    | requested => exact .same rfl (Nat.le_refl _) (Nat.le_refl _)
    | settled succeeds =>
      unfold settleCancel
      split
      next => cases succeeds <;> exact .same rfl (Nat.le_refl _) (Nat.le_refl _)
      next => exact .same rfl (Nat.le_refl _) (Nat.le_refl _)

def Calmly (hook next : Hook ς τ β) : Prop := ∃ event : Event ς τ β, event.calm ∧ hook.step event = some next

def Delivers (hook : Hook ς τ β) (queued : QueuedPrompt) (number : Nat) : Prop :=
  hook.Active number ∧ hook.queuedPromptRef = some queued ∨
  ¬ hook.Active number ∧ ∃ started run, hook.runs started = some run ∧ run.submission = some queued.submission

theorem Change.goesOn (change : Change hook event next) (calm : event.calm) (sound : hook.Sound)
    (active : hook.Active number) (hw : next.queuedPromptRef ≠ none) : next.Active number := by
  have hk : next.runs = hook.runs → next.generationRef = hook.generationRef →
      next.operationRef = hook.operationRef → next.Active number := by
    intro runs generation operation
    unfold Active isCurrent
    rw [runs, generation, operation]
    exact active
  obtain ⟨run, hf, hc, hu⟩ := active
  have turned : ∀ {other : Nat} {before left : Run ς τ β}, next.runs = update hook.runs other (some left) →
      next.generationRef = hook.generationRef → next.operationRef = hook.operationRef →
      hook.runs other = some before → before.Same left →
      (hook.isCurrent before.generation before.operation → left.phase ≠ .ended) → next.Active number := by
    intro other before left runs generation operation known hs stays
    by_cases own : number = other
    · subst own
      cases hf.symm.trans known
      refine ⟨left, by rw [runs, update_self], ?_, stays hc⟩
      rw [isCurrent, hs.1, hs.2.1, generation, operation]
      exact hc
    · refine ⟨run, by rw [runs, update_of_ne own, hf], ?_, hu⟩
      rw [isCurrent, generation, operation]
      exact hc
  cases change with
  | rendered he | bootstrapped he => exact absurd calm (by simp [he, Event.calm])
  | @sent prompt model thinking he =>
    have blank : trim prompt = [] := by simpa [he, Event.calm] using calm
    have hs : hook.sendPrompt prompt model thinking = hook := by rw [sendPrompt, if_pos (.inr blank)]
    exact hk (by rw [hs]) (by rw [hs]) (by rw [hs])
  | cancelled =>
    have move := hook.cancel_cancelling
    generalize hook.cancel = next at *
    cases move with
    | ignored | called | unbound => exact hk rfl rfl rfl
  | @run other before next he known turn =>
    cases turn with
    | opened => exact turned rfl rfl rfl known ⟨rfl, rfl, rfl, rfl⟩ nofun
    | turned left messages _ hs _ _ _ stays => exact turned rfl rfl rfl known hs fun isOwn => (stays isOwn).1
    | closed left messages _ hs before_undone =>
      by_cases isOwn : hook.isCurrent before.generation before.operation
      · by_cases empty : hook.queuedPromptRef = none
        · rw [closed_empty hs isOwn empty] at hw
          exact absurd rfl hw
        · obtain ⟨_, isQueued⟩ := ne_none_iff_exists'.mp empty
          obtain ⟨-, -, -, -, gone, -⟩ :=
            endRun_starts (sound.of_messages messages) known hs isOwn before_undone isQueued
          exact absurd gone hw
      · rw [closed_stale hs isOwn] at turned ⊢
        exact turned rfl rfl rfl known ⟨hs.1, hs.2.1, hs.2.2.1, hs.2.2.2⟩ fun hc => absurd hc isOwn
  | @call _ _ next _ _ turn =>
    cases turn with
    | requested => exact hk rfl rfl rfl
    | settled succeeds =>
      unfold settleCancel at hk ⊢
      split at hk
      next isOwn =>
        rw [if_pos isOwn]
        cases succeeds <;> exact hk rfl rfl rfl
      next stale =>
        rw [if_neg stale]
        exact hk rfl rfl rfl

theorem Change.delivers (change : Change hook event next) (calm : event.calm) (sound : hook.Sound)
    {queued : QueuedPrompt} (hf : hook.runs number = some run)
    (delivers : hook.Delivers queued number) : next.Delivers queued number := by
  have later := change.later sound
  rcases delivers with ⟨active, isQueued⟩ | ⟨inactive, started, isFor, hk, submission⟩
  · rcases change.kept sound isQueued with hs | ⟨prompt, _, _, he, spoken, -⟩ |
      ⟨context, he⟩ | ⟨_, _, _, _, he⟩ | ⟨_, he, ends, starts⟩
    · exact .inl ⟨change.goesOn calm sound active (by simp [hs]), hs⟩
    · exact absurd calm (by simpa [he, Event.calm] using spoken)
    · exact absurd calm (by simp [he, Event.calm])
    · exact absurd calm (by simp [he, Event.calm])
    · obtain rfl := sound.active_unique active ends.1
      obtain ⟨-, past, hk, isOver⟩ := ends
      obtain ⟨new, hn, submission, -⟩ := starts
      refine .inr ⟨?_, _, new, hn, submission⟩
      rintro ⟨_, alsoKnown, -, going⟩
      cases hk.symm.trans alsoKnown
      exact going isOver
  · obtain ⟨left, hh, ⟨-, -, -, hs⟩, -⟩ := later.runs started isFor hk
    exact .inr ⟨later.inactive sound hf inactive, started, left, hh, hs.trans submission⟩

theorem Calmly.delivers {last : Hook ς τ β} (calm : ReflTransGen Calmly hook last)
    (hso : hook.Sound) {queued : QueuedPrompt} (hf : hook.runs number = some run)
    (delivers : hook.Delivers queued number) : last.Delivers queued number := by
  have keeps : last.Sound ∧ (∃ run, last.runs number = some run) ∧ last.Delivers queued number := by
    refine Runs.run_keeps (fun hook => hook.Sound ∧ (∃ run, hook.runs number = some run) ∧
      hook.Delivers queued number) ?_ calm ⟨hso, ⟨run, hf⟩, delivers⟩
    rintro _ _ ⟨_, calm, hs⟩ ⟨hso, ⟨run, hf⟩, delivers⟩
    have change := step_change hs
    obtain ⟨left, hk, -⟩ := (change.later hso).runs number run hf
    exact ⟨change.sound hso, ⟨left, hk⟩, change.delivers calm hso hf delivers⟩
  exact keeps.2.2

end Runs

end Hook

end Yinshi.AgentStream
