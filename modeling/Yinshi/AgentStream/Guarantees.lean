import Yinshi.AgentStream.Delivery

/-! The state of the prompts agrees with the runs, as long as no prompt is started under a cancel
request that is not answered. -/

namespace Yinshi.AgentStream
open ByteText Function Relation Option

namespace Hook
variable {ς τ β : Type} {hook next : Hook ς τ β} {event : Event ς τ β}

/-- The call of `cancel` made next cancels a run: by its handle, by its session, or once it is
started. -/
def Cancels (hook next : Hook ς τ β) (number : Nat) : Prop :=
  ∃ run call, hook.runs number = some run ∧ hook.isCurrent run.generation run.operation ∧ run.phase ≠ .ended ∧
    next.cancels hook.cancelCount = some call ∧ hook.isCurrent call.generation call.operation ∧
    (call.sent = some (.handle number) ∨
      (∃ sessionId, run.context = ⟨some sessionId, none⟩ ∧ call.sent = some (.session sessionId)) ∨
      run.phase = .starting ∧ call.phase = .starting number)

theorem Sound.cancels (sound : hook.Sound) (honest : hook.Honest) (hr : hook.runState = .running)
    (free : ¬ hook.Pending) : ∃ number, hook.Cancels hook.cancel number := by
  have unset : hook.cancelInFlightRef = false := by
    by_contra flagged
    exact free (honest (by simpa using flagged))
  cases sound.live with
  | idle isIdle => simp [isIdle] at hr
  | busy number run hf _ hh =>
    obtain ⟨_, session⟩ := hh.session
    refine ⟨number, ?_⟩
    have move := hook.cancel_cancelling
    generalize hook.cancel = next at move
    cases move with
    | ignored hs => simp [hr, unset] at hs
    | unbound call _ unbound => simp [hh.context, session] at unbound
    | called call _ _ hc _ _ sends =>
      refine ⟨run, call, hf, hh.current, hh.undone, update_self .., ⟨hc.1.symm, hc.2.symm⟩, ?_⟩
      rw [hh.context] at sends
      obtain ⟨sessionId', same, noTransport, sent⟩ | ⟨hasTransport, sends⟩ := sends
      · exact .inr (.inl ⟨sessionId', by rw [← same, ← noTransport], sent⟩)
      · by_cases starting : run.phase = .starting
        · obtain ⟨-, isStart, noHandle, -⟩ := hh.waits starting
          obtain ⟨other, isHandle, -⟩ | ⟨other, -, alsoStart, hw⟩ | ⟨-, noStart⟩ := sends
          · simp [noHandle] at isHandle
          · cases isStart.symm.trans alsoStart
            exact .inr (.inr ⟨starting, hw⟩)
          · simp [isStart] at noStart
        · have isHandle := hh.handles starting hasTransport
          obtain ⟨other, alsoHandle, sent⟩ | ⟨_, noHandle, -⟩ | ⟨noHandle, -⟩ := sends
          · cases isHandle.symm.trans alsoHandle
            exact .inl sent
          · simp [isHandle] at noHandle
          · simp [isHandle] at noHandle

section Main
variable [DecidableEq ς] [DecidableEq τ]

omit [DecidableEq ς] [DecidableEq τ] in
theorem resumes {number run : Nat} {call : CancelCall ς} {opened : Run ς τ β}
    (hw : call.phase = .starting run) (hf : hook.runs run = some opened)
    (hs : opened.started = some true) :
    hook.stepCancel number call (.resumes number) =
      some
        (hook.setCancel number { call with phase := .requesting, sent := some (.handle run) }) := by
  simp [stepCancel, hw, hf, hs]

/-- Reached by events none of which starts a prompt while a cancel request is in flight. -/
inductive Reached (context : Context ς τ) : Hook ς τ β → Prop
  | initial : Reached context (initial context)
  | step {hook next : Hook ς τ β} {event : Event ς τ β} (reached : Reached context hook)
      (patient : ¬ hook.Hastes event) (stepped : hook.step event = some next) : Reached context next

theorem Reached.sound {context : Context ς τ} (hr : Reached context hook) : hook.Sound ∧ hook.Honest := by
  induction hr with
  | initial => exact ⟨initial_sound context, nofun⟩
  | step _ patient hs ih =>
    obtain ⟨hso, honest⟩ := ih
    have change := step_change hs
    exact ⟨change.sound hso, change.honest hso honest patient⟩

/-- The state agrees with the runs and the calls of `cancel`. -/
structure Consistent (hook : Hook ς τ β) : Prop where
  busy : hook.runState ≠ .idle ↔ ∃ number, hook.Active number
  alone : ∀ first second, hook.Active first → hook.Active second → first = second
  once : ∀ first second one two submission, hook.runs first = some one → hook.runs second = some two →
    one.submission = some submission → two.submission = some submission → first = second
  flag : hook.cancelInFlightRef = true → hook.Pending
  cancels : hook.runState = .running → ¬ hook.Pending → ∃ number, hook.Cancels hook.cancel number

structure Respects (hook : Hook ς τ β) (event : Event ς τ β) (next : Hook ς τ β) : Prop where
  stale : hook.Stale event → next.messages = hook.messages ∧ next.runState = hook.runState
  apart : ∀ submission number, hook.Starts next submission → hook.Active number → hook.Ends next number
  delivers : ∀ prompt model thinking, event = .sends prompt model thinking → hook.context.sessionId ≠ none →
    trim prompt ≠ [] → ∀ number, hook.Active number → next.Active number ∧
      ∀ last, ReflTransGen Calmly next last → last.Delivers (hook.queue prompt model thinking) number
  waits : ∀ number call, hook.cancels number = some call → event.call ≠ some number →
    next.cancels number = some call
  resumes : ∀ number call run opened, event = .resumes number → hook.cancels number = some call →
    call.phase = .starting run → hook.runs run = some opened → opened.started = some true →
    ∃ left, next.cancels number = some left ∧ left.sent = some (.handle run)

/-- The prompts are consistent as long as no prompt is started while a cancel request is in
flight, and one that is leaves a flag without a call. -/
theorem prompts_stay_consistent {context : Context ς τ} (reached : Reached context hook) :
    hook.Consistent ∧
    ∀ event next, hook.step event = some next →
      hook.Respects event next ∧ (next.Honest ↔ ¬ hook.Hastes event) := by
  obtain ⟨hs, honest⟩ := reached.sound
  constructor
  · exact ⟨hs.busy_iff, fun _ _ => hs.active_unique, hs.roster.once, honest, hs.cancels honest⟩
  · intro _ next stepped
    have change := step_change stepped
    constructor
    · refine ⟨change.stale, fun _ _ starts => change.alone hs starts, ?_, ?_, ?_⟩
      · rintro prompt model thinking rfl session spoken number active
        have isBusy := hs.busy_iff.mpr ⟨number, active⟩
        cases stepped
        obtain ⟨isQueued, goesOn⟩ := @queues _ _ _ hook _ _ prompt model thinking session spoken isBusy
        have going := goesOn number active
        obtain ⟨run, hf, -⟩ := goesOn number active
        exact ⟨going, fun last calm => Calmly.delivers calm (change.sound hs) hf (.inl ⟨going, isQueued⟩)⟩
      · exact fun number call hk => change.waits hs hk
      · rintro number call _ _ rfl hk hw hf started
        have hm : hook.stepCancel number call (.resumes number) = some next := by
          simpa [step, hk] using stepped
        rw [resumes hw hf started, some.injEq] at hm
        subst hm
        exact ⟨_, update_self .., rfl⟩
    · exact ⟨fun after hastes => hastes.dishonest hs stepped after, change.honest hs honest⟩

end Main

section Samples
variable [DecidableEq ς] [DecidableEq τ]

def Goes (hook next : Hook ς τ β) : Prop := ∃ event, hook.step event = some next

theorem sound_of_run {last : Hook ς τ β} (run : ReflTransGen Goes hook last) (hso : hook.Sound) :
    last.Sound := by
  refine Runs.run_keeps Sound ?_ run hso
  rintro _ _ ⟨_, hs⟩ hso
  exact (step_change hs).sound hso

end Samples

def sampleHook : Hook Nat Nat Nat := initial ⟨some 1, some 2⟩

def queuedEvents : List (Event Nat Nat Nat) :=
  [.sends (text "first") none none, .starts 0 (text "run"), .sends (text "second") none none, .answers 0 true,
    .finishes 0, .ends 0, .starts 1 (text "rerun")]

theorem prompts_stay_consistent_sample : ∃ hook : Hook Nat Nat Nat, Reached ⟨some 1, some 2⟩ hook ∧
    hook.runState = .running ∧ hook.cancelCount = 1 ∧ hook.runCount = 2 ∧ hook.Consistent := by
  have ends : (Runs.replay (step ·) (fun hook event => hook.cancelInFlightRef = false ∨ event.call ≠ none)
      sampleHook queuedEvents).any (fun hook =>
        hook.runState = .running ∧ hook.cancelCount = 1 ∧ hook.runCount = 2) = true := by
    decide
  obtain ⟨hook, replayed, hs⟩ := any_eq_true _ _ |>.mp ends
  obtain ⟨running, cancels, runs⟩ := of_decide_eq_true hs
  have hr : Reached ⟨some 1, some 2⟩ hook := by
    refine Runs.replay_keeps (Reached _) (fun s event t before calm hs => before.step ?_ hs) .initial replayed
    rintro ⟨flag, ⟨_, _, _, rfl, -⟩ | ⟨_, _, closes, -⟩⟩
    · simp [flag, Event.call] at calm
    · cases event <;> simp_all [Event.call, Event.closes]
  exact ⟨hook, hr, running, cancels, runs, (prompts_stay_consistent hr).1⟩

def hastyEvents : List (Event Nat Nat Nat) :=
  [.sends (text "first") none none, .starts 0 (text "run"), .sends (text "second") none none,
    .finishes 0, .ends 0,
    .starts 1 (text "rerun"), .answers 0 true]

/-- The second run cannot be cancelled: no call of `cancel` is left, and one more does nothing. -/
theorem queued_prompt_uncancellable :
    ∃ hook : Hook Nat Nat Nat, ReflTransGen Goes (initial ⟨some 1, some 2⟩) hook ∧
      hook.runState = .running ∧ hook.Active 1 ∧ hook.cancelInFlightRef = true ∧ ¬ hook.Pending ∧
      hook.cancel = hook := by
  have ends : (Runs.replay (step ·) (fun _ _ => true) sampleHook hastyEvents).any (fun last =>
      last.runState = .running ∧ last.cancelInFlightRef = true ∧ last.cancelCount = 1 ∧
      (last.cancels 0).all (·.phase = .settled) ∧ (last.runs 1).any fun run =>
        last.isCurrent run.generation run.operation ∧ run.phase ≠ .ended) = true := by
    decide
  obtain ⟨last, replayed, hs⟩ := any_eq_true _ _ |>.mp ends
  obtain ⟨running, flag, _, hse, hs⟩ := of_decide_eq_true hs
  obtain ⟨run, hf, hs⟩ := any_eq_true _ _ |>.mp hs
  obtain ⟨hc, hu⟩ := of_decide_eq_true hs
  have goes := Runs.run_of_replay replayed
  have sound := sound_of_run goes (initial_sound _)
  refine ⟨last, goes, running, ⟨run, hf, hc, hu⟩, flag, ?_, ?_⟩
  · rintro ⟨number, _, hk, pending, -⟩
    cases number with
    | zero =>
      rw [hk, all_some, decide_eq_true_eq] at hse
      exact pending hse
    | succ number => simp [sound.roster.uncalled (number + 1) (by omega)] at hk
  · rw [cancel, if_pos (.inr flag)]

end Hook

end Yinshi.AgentStream
