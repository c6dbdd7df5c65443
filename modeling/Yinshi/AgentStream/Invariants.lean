import Yinshi.Base.Runs
import Yinshi.AgentStream.Hook

/-! What holds of the refs, the runs and the calls of `cancel` after any events. -/

namespace Yinshi.AgentStream
open ByteText Function

def Run.Same {ς τ β : Type} (run left : Run ς τ β) : Prop :=
  left.generation = run.generation ∧ left.operation = run.operation ∧ left.context = run.context ∧
    left.submission = run.submission

namespace Hook
variable {ς τ β : Type} {hook : Hook ς τ β}

structure Roster (hook : Hook ς τ β) : Prop where
  unmade : ∀ number, hook.runCount ≤ number → hook.runs number = none
  older : ∀ number run, hook.runs number = some run →
    run.generation ≤ hook.generationRef ∧ run.operation ≤ hook.operationRef
  apart : ∀ first second one two, hook.runs first = some one → hook.runs second = some two →
    one.operation = two.operation → first = second
  submitted : ∀ number run submission, hook.runs number = some run →
    run.submission = some submission → submission < hook.submissions
  once : ∀ first second one two submission, hook.runs first = some one → hook.runs second = some two →
    one.submission = some submission → two.submission = some submission → first = second
  queued : ∀ queued, hook.queuedPromptRef = some queued → queued.submission < hook.submissions ∧
    trim queued.prompt ≠ [] ∧
      ∀ number run, hook.runs number = some run → run.submission ≠ some queued.submission
  called : ∀ number call, hook.cancels number = some call → call.operation ≤ hook.operationRef
  uncalled : ∀ number, hook.cancelCount ≤ number → hook.cancels number = none

namespace Roster

theorem ne_runCount (roster : hook.Roster) {number : Nat} {run : Run ς τ β}
    (hf : hook.runs number = some run) : number ≠ hook.runCount := by
  rintro rfl
  simp [roster.unmade _ (Nat.le_refl _)] at hf

theorem setRun (roster : hook.Roster) {number : Nat} {run left : Run ς τ β}
    (hf : hook.runs number = some run) (generation : left.generation = run.generation)
    (operation : left.operation = run.operation) (submission : left.submission = run.submission) :
    (hook.setRun number left).Roster := by
  have back : ∀ {other : Nat} {after : Run ς τ β}, (hook.setRun number left).runs other = some after →
      ∃ before, hook.runs other = some before ∧ after.generation = before.generation ∧
        after.operation = before.operation ∧ after.submission = before.submission := by
    intro other after hh
    by_cases hs : other = number
    · subst hs
      obtain rfl : left = after := by simpa [Hook.setRun] using hh
      exact ⟨run, hf, generation, operation, submission⟩
    · exact ⟨after, (update_of_ne hs ..).symm.trans hh, rfl, rfl, rfl⟩
  refine ⟨?_, ?_, ?_, ?_, ?_, ?_, roster.called, roster.uncalled⟩
  · intro other ha
    refine (update_of_ne ?_ ..).trans (roster.unmade other ha)
    rintro rfl
    simp [roster.unmade _ ha] at hf
  · intro other after hh
    obtain ⟨before, hk, isGeneration, isOperation, -⟩ := back hh
    rw [isGeneration, isOperation]
    exact roster.older other before hk
  · intro first second one two isOne isTwo hs
    obtain ⟨one', isOne', -, sameOne, -⟩ := back isOne
    obtain ⟨two', isTwo', -, sameTwo, -⟩ := back isTwo
    exact roster.apart first second one' two' isOne' isTwo' (sameOne.symm.trans (hs.trans sameTwo))
  · intro other after number hh isFor
    obtain ⟨before, hk, -, -, hs⟩ := back hh
    exact roster.submitted other before number hk (hs.symm.trans isFor)
  · intro first second _ _ submission isOne isTwo oneFor twoFor
    obtain ⟨one', isOne', -, -, sameOne⟩ := back isOne
    obtain ⟨two', isTwo', -, -, sameTwo⟩ := back isTwo
    exact roster.once first second one' two' submission isOne' isTwo' (sameOne.symm.trans oneFor)
      (sameTwo.symm.trans twoFor)
  · intro queued isQueued
    obtain ⟨hb, spoken, unstarted⟩ := roster.queued queued isQueued
    refine ⟨hb, spoken, fun other after hh isFor => ?_⟩
    obtain ⟨before, hk, -, -, hs⟩ := back hh
    exact unstarted other before hk (hs.symm.trans isFor)

theorem add (roster : hook.Roster) {run : Run ς τ β} {next : Hook ς τ β}
    (runs : next.runs = update hook.runs hook.runCount (some run))
    (count : next.runCount = hook.runCount + 1)
    (generation : next.generationRef = hook.generationRef)
    (operation : next.operationRef = hook.operationRef + 1)
    (own : run.generation = hook.generationRef ∧ run.operation = hook.operationRef + 1)
    (submissions : next.submissions = hook.submissions) (unqueued : next.queuedPromptRef = none)
    (calls : next.cancels = hook.cancels ∧ next.cancelCount = hook.cancelCount)
    (isFor : ∀ submission, run.submission = some submission →
        submission < hook.submissions ∧
        ∀ number other, hook.runs number = some other → other.submission ≠ some submission) :
    next.Roster := by
  have cases : ∀ {number : Nat} {after : Run ς τ β}, next.runs number = some after →
      number = hook.runCount ∧ after = run ∨ number ≠ hook.runCount ∧ hook.runs number = some after := by
    intro number after hh
    rw [runs] at hh
    by_cases hn : number = hook.runCount
    · subst hn
      rw [update_self, Option.some.injEq] at hh
      exact .inl ⟨rfl, hh.symm⟩
    · rw [update_of_ne hn] at hh
      exact .inr ⟨hn, hh⟩
  refine ⟨?_, ?_, ?_, ?_, ?_, ?_, ?_, ?_⟩
  · intro number ha
    rw [count] at ha
    rw [runs, update_of_ne (Nat.ne_of_gt ha)]
    exact roster.unmade number (Nat.le_of_succ_le ha)
  · intro number after hh
    rw [generation, operation]
    rcases cases hh with ⟨-, rfl⟩ | ⟨-, old⟩
    · exact ⟨Nat.le_of_eq own.1, Nat.le_of_eq own.2⟩
    · exact ⟨(roster.older number after old).1, Nat.le_succ_of_le (roster.older number after old).2⟩
  · intro first second one two isOne isTwo hs
    rcases cases isOne with ⟨hf, rfl⟩ | ⟨-, oldOne⟩ <;> rcases cases isTwo with ⟨isSecond, rfl⟩ | ⟨-, oldTwo⟩
    · exact hf.trans isSecond.symm
    · have hb := (roster.older second two oldTwo).2
      omega
    · have hb := (roster.older first one oldOne).2
      omega
    · exact roster.apart first second one two oldOne oldTwo hs
  · intro number after submission hh about
    rw [submissions]
    rcases cases hh with ⟨-, rfl⟩ | ⟨-, old⟩
    · exact (isFor submission about).1
    · exact roster.submitted number after submission old about
  · intro first second one two submission isOne isTwo oneFor twoFor
    rcases cases isOne with ⟨hf, rfl⟩ | ⟨-, oldOne⟩ <;> rcases cases isTwo with ⟨isSecond, rfl⟩ | ⟨-, oldTwo⟩
    · exact hf.trans isSecond.symm
    · exact absurd twoFor ((isFor submission oneFor).2 second two oldTwo)
    · exact absurd oneFor ((isFor submission twoFor).2 first one oldOne)
    · exact roster.once first second one two submission oldOne oldTwo oneFor twoFor
  · intro _ isQueued
    simp [unqueued] at isQueued
  · intro number call hh
    rw [operation]
    exact Nat.le_succ_of_le (roster.called number call (calls.1 ▸ hh))
  · rw [calls.1, calls.2]
    exact roster.uncalled

theorem advance (roster : hook.Roster) {next : Hook ς τ β} (runs : next.runs = hook.runs)
    (count : next.runCount = hook.runCount) (generation : hook.generationRef ≤ next.generationRef)
    (operation : hook.operationRef ≤ next.operationRef)
    (submissions : hook.submissions ≤ next.submissions)
    (queued : ∀ queued, next.queuedPromptRef = some queued →
        hook.queuedPromptRef = some queued ∨
        queued.submission = hook.submissions ∧ hook.submissions < next.submissions ∧
        trim queued.prompt ≠ [])
    (called : ∀ number call, next.cancels number = some call → call.operation ≤ next.operationRef)
    (uncalled : ∀ number, next.cancelCount ≤ number → next.cancels number = none) :
    next.Roster := by
  refine ⟨?_, ?_, ?_, ?_, ?_, ?_, called, uncalled⟩
  · rw [runs, count]
    exact roster.unmade
  · intro number run hf
    rw [runs] at hf
    exact ⟨Nat.le_trans (roster.older number run hf).1 generation,
      Nat.le_trans (roster.older number run hf).2 operation⟩
  · rw [runs]
    exact roster.apart
  · intro number run submission hf about
    rw [runs] at hf
    exact Nat.lt_of_lt_of_le (roster.submitted number run submission hf about) submissions
  · rw [runs]
    exact roster.once
  · intro prompt isQueued
    rw [runs]
    rcases queued prompt isQueued with old | ⟨hs, more, spoken⟩
    · obtain ⟨hb, spoken, unstarted⟩ := roster.queued prompt old
      exact ⟨Nat.lt_of_lt_of_le hb submissions, spoken, unstarted⟩
    · refine ⟨hs ▸ more, spoken, fun number run hf about => ?_⟩
      have hb := roster.submitted number run prompt.submission hf about
      omega

end Roster

structure Holding (hook : Hook ς τ β) (number : Nat) (run : Run ς τ β) : Prop where
  current : hook.isCurrent run.generation run.operation
  undone : run.phase ≠ .ended
  context : hook.context = run.context
  session : ∃ sessionId, run.context.sessionId = some sessionId
  abort : hook.abortRef = some number
  waits : run.phase = .starting → run.context.runtimeTransport ≠ none ∧
    hook.promptStartRef = some number ∧ hook.promptHandleRef = none ∧ run.started = none
  handles : run.phase ≠ .starting → run.context.runtimeTransport ≠ none → hook.promptHandleRef = some number

inductive Live (hook : Hook ς τ β) : Prop
  | idle (isIdle : hook.runState = .idle) (handle : hook.promptHandleRef = none)
      (start : hook.promptStartRef = none) (queue : hook.queuedPromptRef = none)
      (past : ∀ number run, hook.runs number = some run →
        hook.isCurrent run.generation run.operation → run.phase = .ended)
      (quiet : ∀ number call, hook.cancels number = some call →
          hook.isCurrent call.generation call.operation → hook.abortRef = call.activeController →
          call.activeController = none)
  | busy (number : Nat) (run : Run ς τ β) (found : hook.runs number = some run)
      (isBusy : hook.runState ≠ .idle) (holding : hook.Holding number run)

structure Sound (hook : Hook ς τ β) : Prop where
  roster : hook.Roster
  live : hook.Live

def Active (hook : Hook ς τ β) (number : Nat) : Prop :=
  ∃ run, hook.runs number = some run ∧ hook.isCurrent run.generation run.operation ∧ run.phase ≠ .ended

/-- The state that the `finally` of the current run leaves before it looks at the queue. -/
def vacated (hook : Hook ς τ β) (number : Nat) (run : Run ς τ β) : Hook ς τ β :=
  { hook.setRun number { run with phase := .ended } with
    abortRef := none
    promptHandleRef := none
    promptStartRef := none
    queuedPromptRef := none
    runState := .idle }

theorem initial_sound (context : Context ς τ) : (initial context : Hook ς τ β).Sound := by
  refine ⟨⟨?_, ?_, ?_, ?_, ?_, ?_, ?_, ?_⟩, .idle rfl rfl rfl rfl ?_ ?_⟩
  all_goals simp [initial]

namespace Sound

theorem active_unique (hs : hook.Sound) {first second : Nat} (one : hook.Active first)
    (two : hook.Active second) : first = second := by
  obtain ⟨run, hf, hc, -⟩ := one
  obtain ⟨other, hk, alsoCurrent, -⟩ := two
  exact hs.roster.apart first second run other hf hk (hc.2.symm.trans alsoCurrent.2)

theorem busy_iff (hs : hook.Sound) : hook.runState ≠ .idle ↔ ∃ number, hook.Active number := by
  cases hs.live with
  | idle isIdle _ _ _ past =>
    refine ⟨fun busy => absurd isIdle busy, ?_⟩
    rintro ⟨number, run, hf, hc, hu⟩
    exact absurd (past number run hf hc) hu
  | busy number run hf isBusy hh => exact ⟨fun _ => ⟨number, run, hf, hh.current, hh.undone⟩, fun _ => isBusy⟩

variable {run : Run ς τ β}

theorem holding (hs : hook.Sound) {number : Nat} (hf : hook.runs number = some run)
    (hc : hook.isCurrent run.generation run.operation) (hu : run.phase ≠ .ended) :
    hook.Holding number run ∧ hook.runState ≠ .idle := by
  cases hs.live with
  | idle _ _ _ _ past => exact absurd (past number run hf hc) hu
  | busy _ run' hk isBusy hh =>
    obtain rfl := hs.active_unique ⟨run, hf, hc, hu⟩ ⟨run', hk, hh.current, hh.undone⟩
    cases hf.symm.trans hk
    exact ⟨hh, isBusy⟩

theorem call_stale (hs : hook.Sound) {next : Hook ς τ β}
    (later : hook.operationRef < next.operationRef) {number : Nat} {call : CancelCall ς}
    (hk : hook.cancels number = some call) : ¬ next.isCurrent call.generation call.operation := by
  rintro ⟨-, _⟩
  have before := hs.roster.called number call hk
  omega

theorem run_stale (hs : hook.Sound) {next : Hook ς τ β}
    (later : hook.operationRef < next.operationRef) {number : Nat}
    (hk : hook.runs number = some run) : ¬ next.isCurrent run.generation run.operation := by
  rintro ⟨-, _⟩
  have before := (hs.roster.older number run hk).2
  omega

theorem render (hs : hook.Sound) (context : Context ς τ) : (hook.render context).Sound := by
  have later : hook.operationRef < (hook.render context).operationRef := by simp [Hook.render]
  have roster := hs.roster
  refine ⟨roster.advance rfl rfl (Nat.le_add_right _ _) (Nat.le_add_right _ _) (Nat.le_refl _) nofun ?_
    roster.uncalled, .idle rfl rfl rfl rfl ?_ ?_⟩
  · exact fun number call hk => Nat.le_trans (roster.called number call hk) (Nat.le_of_lt later)
  · exact fun number run hk hc => absurd hc (hs.run_stale later hk)
  · exact fun number call hk hc => absurd hc (hs.call_stale later hk)

theorem of_turn (hs : hook.Sound) {number : Nat} {run left : Run ς τ β}
    (hf : hook.runs number = some run)
    (same : run.Same left) (hu : run.phase ≠ .ended)
    (goes : left.phase ≠ .starting)
    (stays : hook.isCurrent run.generation run.operation →
      left.phase ≠ .ended ∧
      (run.context.runtimeTransport ≠ none → hook.promptHandleRef = some number)) :
    (hook.setRun number left).Sound := by
  refine ⟨hs.roster.setRun hf same.1 same.2.1 same.2.2.2, ?_⟩
  cases hs.live with
  | idle isIdle handle start queue past hq =>
    refine .idle isIdle handle start queue ?_ hq
    intro other after here hc
    by_cases own : other = number
    · subst own
      obtain rfl : left = after := by simpa [Hook.setRun] using here
      rw [same.1, same.2.1] at hc
      exact absurd (past other run hf hc) hu
    · exact past other after ((update_of_ne own ..).symm.trans here) hc
  | busy other active hk isBusy hh =>
    by_cases own : other = number
    · subst own
      cases hf.symm.trans hk
      obtain ⟨going, handle⟩ := stays hh.current
      refine .busy other left (update_self ..) isBusy ⟨?_, going, ?_, ?_, hh.abort, ?_, ?_⟩
      · rw [same.1, same.2.1]
        exact hh.current
      · rw [same.2.2.1]
        exact hh.context
      · rw [same.2.2.1]
        exact hh.session
      · exact fun hw => absurd hw goes
      · rw [same.2.2.1]
        exact fun _ => handle
    · exact .busy other active ((update_of_ne own ..).trans hk) isBusy
        ⟨hh.current, hh.undone, hh.context, hh.session, hh.abort, hh.waits, hh.handles⟩

theorem of_messages (hs : hook.Sound) (messages : List (ChatMessage β)) :
    Sound { hook with messages := messages } := by
  have roster := hs.roster
  refine ⟨⟨roster.unmade, roster.older, roster.apart, roster.submitted, roster.once, roster.queued,
      roster.called, roster.uncalled⟩, ?_⟩
  cases hs.live with
  | idle isIdle handle start queue past hq => exact .idle isIdle handle start queue past hq
  | busy number run hf isBusy hh =>
    exact .busy number run hf isBusy
      ⟨hh.current, hh.undone, hh.context, hh.session, hh.abort, hh.waits, hh.handles⟩

theorem end_stale (sound : hook.Sound) {number : Nat} {run left : Run ς τ β}
    (hf : hook.runs number = some run)
    (hs : run.Same left) (hu : run.phase ≠ .ended)
    (isEnd : left.phase = .ended) (stale : ¬ hook.isCurrent run.generation run.operation) :
    (hook.setRun number left).Sound :=
  sound.of_turn hf hs hu (by simp [isEnd]) fun hc => absurd hc stale

theorem vacate (hs : hook.Sound) {number : Nat} {run left : Run ς τ β}
    (hf : hook.runs number = some run)
    (same : run.Same left)
    (hc : hook.isCurrent run.generation run.operation) (hu : run.phase ≠ .ended) :
    (hook.vacated number left).Sound := by
  have roster : (hook.setRun number { left with phase := .ended }).Roster :=
    hs.roster.setRun hf same.1 same.2.1 same.2.2.2
  refine ⟨roster.advance rfl rfl (Nat.le_refl _) (Nat.le_refl _) (Nat.le_refl _) nofun roster.called
    roster.uncalled, .idle rfl rfl rfl rfl ?_ ?_⟩
  · intro other after hh alsoCurrent
    by_cases own : other = number
    · subst own
      obtain rfl : { left with phase := .ended } = after := by simpa [Hook.vacated, Hook.setRun] using hh
      rfl
    · have hk := (update_of_ne own ..).symm.trans hh
      by_contra going
      exact own (hs.active_unique ⟨after, hk, alsoCurrent, going⟩ ⟨run, hf, hc, hu⟩)
  · intro _ _ _ _ none
    exact none.symm

variable [DecidableEq ς] [DecidableEq τ]

theorem startPrompt (sound : hook.Sound) (isIdle : hook.runState = .idle) (context : Context ς τ)
    {queued : QueuedPrompt} (submitted : queued.submission < hook.submissions)
    (unstarted :
      ∀ number run, hook.runs number = some run → run.submission ≠ some queued.submission) :
    (hook.startPrompt context queued).Sound := by
  cases sound.live with
  | busy _ _ _ isBusy => exact absurd isIdle isBusy
  | idle _ handle _ queue _ =>
    unfold Hook.startPrompt
    split
    · exact sound
    next ha =>
      simp only [not_or, not_not] at ha
      obtain ⟨session, _, hs⟩ := ha
      constructor
      · refine sound.roster.add rfl rfl rfl rfl ⟨rfl, rfl⟩ rfl queue ⟨rfl, rfl⟩ ?_
        rintro _ ⟨⟩
        exact ⟨submitted, unstarted⟩
      · refine .busy hook.runCount _ (update_self ..) (by simp) ⟨⟨rfl, rfl⟩, ?_, hs, ?_, rfl, ?_, ?_⟩
        · split <;> simp
        · exact Option.ne_none_iff_exists'.mp session
        · intro hw
          cases transport : context.runtimeTransport with
          | none => simp [transport] at hw
          | some _ => simp [handle]
        · intro goes hasTransport
          cases transport : context.runtimeTransport with
          | none => exact absurd transport hasTransport
          | some _ => simp [transport] at goes

theorem endRun_of_current {number : Nat} (hc : hook.isCurrent run.generation run.operation) :
    hook.endRun number run = match hook.queuedPromptRef with
      | some queued => (hook.vacated number run).startPrompt run.context queued
      | none => hook.vacated number run := by
  rw [Hook.endRun, if_pos hc]
  rfl

theorem endRun_of_stale {number : Nat} (stale : ¬ hook.isCurrent run.generation run.operation) :
    hook.endRun number run = hook.setRun number { run with phase := .ended } := by
  rw [Hook.endRun, if_neg stale]

theorem endRun (hs : hook.Sound) {number : Nat} {run left : Run ς τ β}
    (hf : hook.runs number = some run)
    (same : run.Same left) (hu : run.phase ≠ .ended) :
    (hook.endRun number left).Sound := by
  by_cases hc : hook.isCurrent run.generation run.operation
  · have vacated := hs.vacate hf same hc hu
    rw [endRun_of_current (by rwa [same.1, same.2.1])]
    split
    next queued isQueued =>
      obtain ⟨hb, -, unstarted⟩ := hs.roster.queued queued isQueued
      refine vacated.startPrompt rfl _ hb fun other after hh about => ?_
      by_cases own : other = number
      · subst own
        obtain rfl : { left with phase := .ended } = after := by simpa [Hook.vacated, Hook.setRun] using hh
        exact unstarted other run hf (same.2.2.2.symm.trans about)
      · exact unstarted other after ((update_of_ne own ..).symm.trans hh) about
    next => exact vacated
  · rw [endRun_of_stale (by rwa [same.1, same.2.1])]
    exact @end_stale _ _ _ _ hs _ _ { left with phase := .ended } hf same hu rfl hc

end Sound

end Hook

end Yinshi.AgentStream
