import Yinshi.AgentStream.Invariants

/-! Every event keeps the refs, the runs and the calls of `cancel` in agreement. -/

namespace Yinshi.AgentStream
open ByteText Function Option

def Event.run {ς τ β : Type} : Event ς τ β → Option Nat
  | .starts number _ | .startFails number _ | .streams number _ _ _ | .paints number | .finishes number
  | .streamFails number _ | .ends number => some number
  | _ => none

def Event.closes {ς τ β : Type} : Event ς τ β → Bool
  | .startFails .. | .ends .. => true
  | _ => false

def Event.call {ς τ β : Type} : Event ς τ β → Option Nat
  | .resumes number | .answers number _ => some number
  | _ => none

namespace Hook
variable {ς τ β : Type} {hook next : Hook ς τ β}

namespace Sound

theorem of_calls (sound : hook.Sound) {number : Nat} {call : CancelCall ς}
    (called : call.operation ≤ hook.operationRef) (runState : RunState) (flag : Bool)
    (cancelCount : Nat) (hb : number < cancelCount) (more : hook.cancelCount ≤ cancelCount)
    (busy : hook.runState ≠ .idle ↔ runState ≠ .idle)
    (hq : hook.runState = .idle → hook.isCurrent call.generation call.operation →
      hook.abortRef = call.activeController → call.activeController = none) :
    Sound { hook.setCancel number call with
            runState := runState, cancelInFlightRef := flag, cancelCount := cancelCount } := by
  have cases : ∀ {other : Nat} {after : CancelCall ς}, (hook.setCancel number call).cancels other = some after →
      after = call ∨ hook.cancels other = some after := by
    intro other after here
    by_cases own : other = number
    · subst own
      exact .inl (by simpa [setCancel, eq_comm] using here)
    · exact .inr ((update_of_ne own ..).symm.trans here)
  constructor
  · refine sound.roster.advance rfl rfl (Nat.le_refl _) (Nat.le_refl _) (Nat.le_refl _) (fun _ => .inl) ?_ ?_
    · intro other after here
      rcases cases here with rfl | old
      · exact called
      · exact sound.roster.called other after old
    · intro other ha
      refine (update_of_ne (Nat.ne_of_gt (Nat.lt_of_lt_of_le hb ha)) ..).trans ?_
      exact sound.roster.uncalled other (Nat.le_trans more ha)
  · cases sound.live with
    | idle isIdle handle start queue past silent =>
      refine .idle ?_ handle start queue past fun other after here hc hs => ?_
      · by_contra isBusy
        exact busy.mpr isBusy isIdle
      · rcases cases here with rfl | old
        · exact hq isIdle hc hs
        · exact silent other after old hc hs
    | busy run active hf isBusy hh =>
      exact .busy run active hf (busy.mp isBusy) ⟨hh.current, hh.undone, hh.context,
        hh.session, hh.abort, hh.waits, hh.handles⟩

end Sound

/-- What `cancel` does: nothing, or a call of the current operation with one of its targets. -/
inductive Cancelling (hook : Hook ς τ β) : Hook ς τ β → Prop
  | ignored (stays : hook.runState ≠ .running ∨ hook.cancelInFlightRef = true) : Cancelling hook hook
  | called (call : CancelCall ς) (runs : hook.runState = .running) (free : hook.cancelInFlightRef = false)
      (current : call.generation = hook.generationRef ∧ call.operation = hook.operationRef)
      (controller : call.activeController = hook.abortRef) (pending : call.phase ≠ .settled)
      (sends : (∃ sessionId, hook.context.sessionId = some sessionId ∧
          hook.context.runtimeTransport = none ∧ call.sent = some (.session sessionId)) ∨
        hook.context.runtimeTransport ≠ none ∧
          ((∃ run, hook.promptHandleRef = some run ∧ call.sent = some (.handle run)) ∨
            (∃ run, hook.promptHandleRef = none ∧ hook.promptStartRef = some run ∧
              call.phase = .starting run) ∨
            hook.promptHandleRef = none ∧ hook.promptStartRef = none)) :
      Cancelling hook { hook.setCancel hook.cancelCount call with
        runState := .stopping, cancelInFlightRef := true, cancelCount := hook.cancelCount + 1 }
  | unbound (call : CancelCall ς) (runs : hook.runState = .running) (unset : hook.context.sessionId = none)
      (current : call.generation = hook.generationRef ∧ call.operation = hook.operationRef)
      (controller : call.activeController = hook.abortRef) (settled : call.phase = .settled) :
      Cancelling hook { hook.setCancel hook.cancelCount call with
        runState := .stopping, cancelInFlightRef := false, cancelCount := hook.cancelCount + 1 }

theorem cancel_cancelling (hook : Hook ς τ β) : Cancelling hook hook.cancel := by
  unfold cancel
  split
  next hs => exact .ignored hs
  next goes =>
    simp only [not_or, not_not, Bool.not_eq_true] at goes
    obtain ⟨runs, hf⟩ := goes
    split
    next unset => exact .unbound _ runs unset ⟨rfl, rfl⟩ rfl rfl
    next sessionId isSession =>
      split
      next noTransport =>
        exact .called _ runs hf ⟨rfl, rfl⟩ rfl (by simp) (.inl ⟨sessionId, isSession, noTransport, rfl⟩)
      next transport isTransport =>
        have hasTransport : hook.context.runtimeTransport ≠ none := by simp [isTransport]
        split
        next run isHandle =>
          exact .called _ runs hf ⟨rfl, rfl⟩ rfl (by simp) (.inr ⟨hasTransport, .inl ⟨run, isHandle, rfl⟩⟩)
        next run noHandle isStart =>
          exact .called _ runs hf ⟨rfl, rfl⟩ rfl (by simp)
            (.inr ⟨hasTransport, .inr (.inl ⟨run, noHandle, isStart, rfl⟩)⟩)
        next noHandle noStart =>
          exact .called _ runs hf ⟨rfl, rfl⟩ rfl (by simp)
            (.inr ⟨hasTransport, .inr (.inr ⟨noHandle, noStart⟩)⟩)

namespace Sound

theorem cancel (hs : hook.Sound) : hook.cancel.Sound := by
  have hm : ∀ {call : CancelCall ς} (flag : Bool), hook.runState = .running →
      call.operation = hook.operationRef → Sound { hook.setCancel hook.cancelCount call with
        runState := .stopping, cancelInFlightRef := flag, cancelCount := hook.cancelCount + 1 } := by
    intro call flag runs hc
    refine hs.of_calls (Nat.le_of_eq hc) _ flag _ (Nat.lt_succ_self _) (Nat.le_succ _) ?_ ?_
    · simp [runs]
    · simp [runs]
  have move := hook.cancel_cancelling
  generalize hook.cancel = next at move
  cases move with
  | ignored => exact hs
  | called call runs _ hc => exact hm true runs hc.2
  | unbound _ runs _ hc => exact hm false runs hc.2

theorem settleCancel (hs : hook.Sound) {number : Nat} {call left : CancelCall ς}
    (hk : hook.cancels number = some call)
    (same : left.generation = call.generation ∧ left.operation = call.operation ∧
      left.activeController = call.activeController) (succeeds : Bool) :
    (hook.settleCancel number left succeeds).Sound := by
  have called : left.operation ≤ hook.operationRef := same.2.1 ▸ hs.roster.called number call hk
  have hb : number < hook.cancelCount := by
    by_contra above
    simp [hs.roster.uncalled number (Nat.le_of_not_lt above)] at hk
  have hq : hook.runState = .idle → hook.isCurrent left.generation left.operation →
      hook.abortRef = left.activeController → left.activeController = none := by
    intro isIdle hc isController
    cases hs.live with
    | busy _ _ _ isBusy => exact absurd isIdle isBusy
    | idle _ _ _ _ _ silent =>
      rw [same.1, same.2.1] at hc
      rw [same.2.2] at isController ⊢
      exact silent number call hk hc isController
  have hp : ∀ (runState : RunState) (flag : Bool), (hook.runState ≠ .idle ↔ runState ≠ .idle) →
      Sound { hook.setCancel number { left with phase := .settled } with
        runState := runState, cancelInFlightRef := flag } := fun runState flag busy =>
    @of_calls _ _ _ _ hs _ { left with phase := .settled } called runState flag hook.cancelCount hb
      (Nat.le_refl _) busy hq
  unfold Hook.settleCancel
  split
  next hc =>
    cases succeeds with
    | true => exact hp hook.runState false Iff.rfl
    | false =>
      have restored := hp (if left.activeController ≠ none ∧ hook.abortRef = left.activeController then .running
        else hook.runState) false ?_
      · exact restored.of_messages _
      · split
        next isOwn => exact ⟨fun _ => nofun, fun _ isIdle => isOwn.1 (hq isIdle hc isOwn.2)⟩
        next => exact Iff.rfl
  next => exact hp hook.runState hook.cancelInFlightRef Iff.rfl

theorem reset (hs : hook.Sound) (history : List (ChatMessage β)) : Sound { hook with
    operationRef := hook.operationRef + 1
    abortRef := none
    promptHandleRef := none
    promptStartRef := none
    queuedPromptRef := none
    cancelInFlightRef := false
    runState := .idle
    messages := history } := by
  have roster := hs.roster
  have later : hook.operationRef < hook.operationRef + 1 := Nat.lt_succ_self _
  refine ⟨roster.advance rfl rfl (Nat.le_refl _) (Nat.le_succ _) (Nat.le_refl _) nofun ?_ roster.uncalled,
    .idle rfl rfl rfl rfl ?_ ?_⟩
  · exact fun number call hk => Nat.le_succ_of_le (roster.called number call hk)
  · exact fun number run hk hc => absurd hc (hs.run_stale later hk)
  · exact fun number call hk hc => absurd hc (hs.call_stale later hk)

variable [DecidableEq ς] [DecidableEq τ]

theorem sendPrompt (hs : hook.Sound) (prompt : Text) (model thinking : Option Text) :
    (hook.sendPrompt prompt model thinking).Sound := by
  have roster := hs.roster
  unfold Hook.sendPrompt
  split
  · exact hs
  next ha =>
    have spoken : trim (trim prompt) ≠ [] := by
      rw [trim_trim]
      exact fun blank => ha (.inr blank)
    have queued : hook.runState ≠ .idle → Sound { hook with
        submissions := hook.submissions + 1
        queuedPromptRef := some ⟨trim prompt, model, thinking, hook.submissions⟩ } := by
      intro isBusy
      refine ⟨roster.advance rfl rfl (Nat.le_refl _) (Nat.le_refl _) (Nat.le_succ _) ?_
          roster.called roster.uncalled, ?_⟩
      · rintro queued ⟨⟩
        exact .inr ⟨rfl, Nat.lt_succ_self _, spoken⟩
      · cases hs.live with
        | idle isIdle => exact absurd isIdle isBusy
        | busy run active hf _ hh =>
          exact .busy run active hf isBusy ⟨hh.current, hh.undone, hh.context,
            hh.session, hh.abort, hh.waits, hh.handles⟩
    split
    next hr => exact (queued (by simp [hr])).cancel
    next stopping => exact queued (by simp [stopping])
    next isIdle =>
      have hc : Sound { hook with submissions := hook.submissions + 1 } := by
        refine ⟨roster.advance rfl rfl (Nat.le_refl _) (Nat.le_refl _) (Nat.le_succ _)
            (fun _ => .inl) roster.called roster.uncalled, ?_⟩
        cases hs.live with
        | busy _ _ _ isBusy => exact absurd isIdle isBusy
        | idle _ handle start queue past hq => exact .idle isIdle handle start queue past hq
      refine hc.startPrompt isIdle _ (Nat.lt_succ_self _) fun number run hf about => ?_
      exact Nat.lt_irrefl _ (roster.submitted number run hook.submissions hf about)

theorem resumePrompt (sound : hook.Sound) (isIdle : hook.runState = .idle) (context : Context ς τ)
    (runId : Text) (attaches : Bool) : (hook.resumePrompt context runId attaches).Sound := by
  cases sound.live with
  | busy _ _ _ isBusy => exact absurd isIdle isBusy
  | idle _ handle start queue _ =>
    have later : hook.operationRef < hook.operationRef + 1 := Nat.lt_succ_self _
    unfold Hook.resumePrompt
    split
    · exact sound
    next ha =>
      simp only [not_or, not_not] at ha
      obtain ⟨session, -, hs⟩ := ha
      cases attaches with
      | true =>
        constructor
        · exact sound.roster.add rfl rfl rfl rfl ⟨rfl, rfl⟩ rfl queue ⟨rfl, rfl⟩ nofun
        · refine .busy hook.runCount _ (update_self ..) nofun ⟨⟨rfl, rfl⟩, nofun, hs, ?_, rfl, nofun, ?_⟩
          · exact ne_none_iff_exists'.mp session
          · exact fun _ _ => rfl
      | false =>
        constructor
        · exact sound.roster.add rfl rfl rfl rfl ⟨rfl, rfl⟩ rfl queue ⟨rfl, rfl⟩ nofun
        · refine .idle isIdle handle start queue ?_ ?_
          · intro number _ hh hc
            by_cases hn : number = hook.runCount
            · subst hn
              obtain rfl := Runs.eq_of_update hh
              rfl
            · have hk := (update_of_ne hn ..).symm.trans hh
              exact absurd hc (sound.run_stale later hk)
          · exact fun number call hk hc => absurd hc (sound.call_stale later hk)

theorem bootstrapSession (hs : hook.Sound) (context : Context ς τ) (history : List (ChatMessage β))
    (activeRunId : Option Text) (attaches : Bool) :
    (hook.bootstrapSession context history activeRunId attaches).Sound := by
  unfold Hook.bootstrapSession
  split
  · exact hs
  · have reset := hs.reset history
    cases activeRunId with
    | none => exact reset
    | some runId => exact reset.resumePrompt rfl context runId attaches

end Sound

section Steps
variable [DecidableEq ς] [DecidableEq τ]
variable {number : Nat} {event : Event ς τ β}

/-- What a turn of a run does: it gets its handle, goes on, or comes to its `finally`. Only a
current run changes the messages. -/
inductive RunTurn (hook : Hook ς τ β) (event : Event ς τ β) (number : Nat) (run : Run ς τ β) :
    Hook ς τ β → Prop
  | opened (runId : Text) (opens : event.closes = false) (starting : run.phase = .starting)
      (current : hook.isCurrent run.generation run.operation) : RunTurn hook event number run
          ({ hook with promptHandleRef := some number }.setRun number { run with
            started := some true, phase := .streaming (.runtime runId) [] .completed false })
  | turned (left : Run ς τ β) (messages : List (ChatMessage β)) (opens : event.closes = false)
      (same : run.Same left) (undone : run.phase ≠ .ended)
      (goes : left.phase ≠ .starting) (begun : left.phase = .ended → run.phase = .starting)
      (stays : hook.isCurrent run.generation run.operation → left.phase ≠ .ended ∧ run.phase ≠ .starting)
      (own : ¬ hook.isCurrent run.generation run.operation → messages = hook.messages) :
      RunTurn hook event number run { hook.setRun number left with messages := messages }
  | closed (left : Run ς τ β) (messages : List (ChatMessage β)) (closes : event.closes = true)
      (same : run.Same left) (undone : run.phase ≠ .ended)
      (own : ¬ hook.isCurrent run.generation run.operation → messages = hook.messages) :
      RunTurn hook event number run ({ hook with messages := messages }.endRun number left)

theorem stepRun_turn {run : Run ς τ β}
    (hs : hook.stepRun number run event = some next) : RunTurn hook event number run next := by
  have turn : ∀ (phase : RunPhase β) (messages : List (ChatMessage β)),
      event.closes = false → run.phase ≠ .ended → run.phase ≠ .starting → phase ≠ .starting → phase ≠ .ended →
      (¬ hook.isCurrent run.generation run.operation → messages = hook.messages) →
      RunTurn hook event number run
        { hook.setRun number { run with phase := phase } with messages := messages } :=
    fun phase messages opens hu begun goes going own =>
      .turned { run with phase := phase } messages opens ⟨rfl, rfl, rfl, rfl⟩ hu goes
        (fun isEnd => absurd isEnd going) (fun _ => ⟨going, begun⟩) own
  unfold stepRun at hs
  split at hs
  next runId =>
    split at hs
    next starting =>
      split at hs
      next hc =>
        cases hs
        exact .opened runId rfl starting hc
      next stale =>
        cases hs
        exact .turned { run with started := some true, phase := .ended } hook.messages rfl
          ⟨rfl, rfl, rfl, rfl⟩ (by simp [starting]) nofun (fun _ => starting)
            (fun hc => absurd hc stale) fun _ => rfl
    next => exact nomatch hs
  next other aborted =>
    split at hs
    next starting =>
      have hcl : ∀ messages, (¬ hook.isCurrent run.generation run.operation → messages = hook.messages) →
          RunTurn hook (.startFails other aborted) number run
            ({ hook with messages := messages }.endRun number { run with started := some false }) :=
        fun messages own => .closed _ messages rfl ⟨rfl, rfl, rfl, rfl⟩ (by simp [starting]) own
      split at hs
      next reports =>
        cases hs
        exact hcl _ fun stale => absurd reports.1 stale
      next =>
        cases hs
        exact hcl _ fun _ => rfl
    next => exact nomatch hs
  next hb changed turnStatus =>
    split at hs
    next turnId _ oldStatus frame streaming =>
      have begun : run.phase ≠ .ended ∧ run.phase ≠ .starting := by simp [streaming]
      split at hs
      next hc =>
        split at hs
        next status =>
          cases hs
          exact turn (.streaming turnId hb status false) _ rfl begun.1 begun.2 nofun nofun
            fun stale => absurd hc stale
        next =>
          cases hs
          exact turn (.streaming turnId hb oldStatus (frame || changed)) hook.messages rfl begun.1
            begun.2 nofun nofun
            fun _ => rfl
      next =>
        cases hs
        exact turn .finishing hook.messages rfl begun.1 begun.2 nofun nofun fun _ => rfl
    next => exact nomatch hs
  next =>
    split at hs
    next turnId hb turnStatus streaming =>
      have begun : run.phase ≠ .ended ∧ run.phase ≠ .starting := by simp [streaming]
      split at hs
      next hc =>
        cases hs
        exact turn (.streaming turnId hb turnStatus false) _ rfl begun.1 begun.2 nofun nofun
          fun stale => absurd hc stale
      next =>
        cases hs
        exact turn (.streaming turnId hb turnStatus false) hook.messages rfl begun.1 begun.2 nofun
          nofun fun _ => rfl
    next => exact nomatch hs
  next =>
    split at hs
    next turnId hb turnStatus frame streaming =>
      have begun : run.phase ≠ .ended ∧ run.phase ≠ .starting := by simp [streaming]
      split at hs
      next hc =>
        cases hs
        exact turn .finishing _ rfl begun.1 begun.2 nofun nofun fun stale => absurd hc stale
      next =>
        cases hs
        exact turn .finishing hook.messages rfl begun.1 begun.2 nofun nofun fun _ => rfl
    next => exact nomatch hs
  next error =>
    split at hs
    next turnId hb turnStatus frame streaming =>
      have begun : run.phase ≠ .ended ∧ run.phase ≠ .starting := by simp [streaming]
      split at hs
      next block =>
        split at hs
        next hc =>
          cases hs
          exact turn .finishing _ rfl begun.1 begun.2 nofun nofun fun stale => absurd hc stale
        next =>
          cases hs
          exact turn .finishing hook.messages rfl begun.1 begun.2 nofun nofun fun _ => rfl
      next =>
        cases hs
        exact turn .finishing hook.messages rfl begun.1 begun.2 nofun nofun fun _ => rfl
    next => exact nomatch hs
  next other =>
    split at hs
    next finishing =>
      cases hs
      have hcl : RunTurn hook (.ends other) number run
            ({ hook with messages := hook.messages }.endRun number run) :=
        .closed run hook.messages rfl ⟨rfl, rfl, rfl, rfl⟩ (by simp [finishing]) fun _ => rfl
      exact hcl
    next => exact nomatch hs
  next => exact nomatch hs

theorem RunTurn.sound {run : Run ς τ β} (turn : RunTurn hook event number run next)
    (hso : hook.Sound) (hf : hook.runs number = some run) : next.Sound := by
  cases turn with
  | opened runId _ starting hc =>
    obtain ⟨hh, isBusy⟩ := hso.holding hf hc (by simp [starting])
    have roster : (hook.setRun number { run with
        started := some true, phase := .streaming (.runtime runId) [] .completed false }).Roster :=
      hso.roster.setRun hf rfl rfl rfl
    refine ⟨⟨roster.unmade, roster.older, roster.apart, roster.submitted, roster.once,
        roster.queued, roster.called, roster.uncalled⟩, .busy number _ (update_self ..) isBusy ?_⟩
    exact ⟨hc, nofun, hh.context, hh.session, hh.abort, nofun, fun _ _ => rfl⟩
  | turned left messages _ hs hu goes begun stays =>
    refine (hso.of_turn hf hs hu goes fun hc => ?_).of_messages messages
    obtain ⟨going, begun⟩ := stays hc
    exact ⟨going, (hso.holding hf hc hu).1.handles begun⟩
  | closed _ messages _ hs hu => exact (hso.of_messages messages).endRun hf hs hu

inductive CancelTurn (hook : Hook ς τ β) (number : Nat) (call : CancelCall ς) : Hook ς τ β → Prop
  | requested (run : Nat) (waits : call.phase = .starting run) :
      CancelTurn hook number call (hook.setCancel number
        { call with phase := .requesting, sent := some (.handle run) })
  | settled (succeeds : Bool) (pending : call.phase ≠ .settled) :
      CancelTurn hook number call (hook.settleCancel number call succeeds)

omit [DecidableEq ς] [DecidableEq τ] in
theorem stepCancel_turn {call : CancelCall ς}
    (stepped : hook.stepCancel number call event = some next) :
    CancelTurn hook number call next := by
  unfold stepCancel at stepped
  split at stepped
  next =>
    split at stepped
    next run hw =>
      split at stepped
      · cases stepped
        exact .requested run hw
      · cases stepped
        exact .settled false (by simp [hw])
      · exact nomatch stepped
    next => exact nomatch stepped
  next hs =>
    obtain ⟨pending, ⟨⟩⟩ := Option.ite_none_right_eq_some.mp stepped
    exact .settled hs (by simp [pending])
  next => exact nomatch stepped

omit [DecidableEq ς] [DecidableEq τ] in
theorem CancelTurn.sound {call : CancelCall ς} (turn : CancelTurn hook number call next)
    (hso : hook.Sound) (hk : hook.cancels number = some call) : next.Sound := by
  cases turn with
  | requested run _ =>
    have hb : number < hook.cancelCount := by
      by_contra above
      simp [hso.roster.uncalled number (Nat.le_of_not_lt above)] at hk
    refine @Sound.of_calls _ _ _ _ hso _ { call with phase := .requesting, sent := some (.handle run) }
      (hso.roster.called number call hk) hook.runState hook.cancelInFlightRef hook.cancelCount hb
      (Nat.le_refl _) Iff.rfl fun isIdle hc same => ?_
    cases hso.live with
    | busy _ _ _ isBusy => exact absurd isIdle isBusy
    | idle _ _ _ _ _ hq => exact hq number call hk hc same
  | settled hs => exact hso.settleCancel hk ⟨rfl, rfl, rfl⟩ hs

inductive Change (hook : Hook ς τ β) (event : Event ς τ β) : Hook ς τ β → Prop
  | rendered {context : Context ς τ} (isEvent : event = .renders context) :
    Change hook event (hook.render context)
  | sent {prompt : Text} {model thinking : Option Text} (isEvent : event = .sends prompt model thinking) :
      Change hook event (hook.sendPrompt prompt model thinking)
  | cancelled (isEvent : event = .cancels) : Change hook event hook.cancel
  | bootstrapped {context : Context ς τ} {history : List (ChatMessage β)} {activeRunId : Option Text}
      {attaches : Bool} (isEvent : event = .bootstraps context history activeRunId attaches) :
      Change hook event (hook.bootstrapSession context history activeRunId attaches)
  | run {number : Nat} {run : Run ς τ β} {next : Hook ς τ β} (isEvent : event.run = some number)
      (found : hook.runs number = some run) (turn : RunTurn hook event number run next) : Change hook event next
  | call {number : Nat} {call : CancelCall ς} {next : Hook ς τ β} (isEvent : event.call = some number)
      (known : hook.cancels number = some call) (turn : CancelTurn hook number call next) :
        Change hook event next

theorem step_change (hs : hook.step event = some next) : Change hook event next := by
  cases event with
  | renders context =>
    obtain ⟨-, ⟨⟩⟩ := ite_none_right_eq_some.mp hs
    exact .rendered rfl
  | sends _ _ _ => exact some.inj hs ▸ .sent rfl
  | cancels => exact some.inj hs ▸ .cancelled rfl
  | bootstraps _ _ _ _ => exact some.inj hs ▸ .bootstrapped rfl
  | starts | startFails | streams | paints | finishes | streamFails | ends =>
    obtain ⟨_, hf, hs⟩ := bind_eq_some_iff.mp hs
    exact .run rfl hf (stepRun_turn hs)
  | resumes | answers =>
    obtain ⟨_, hk, hs⟩ := bind_eq_some_iff.mp hs
    exact .call rfl hk (stepCancel_turn hs)

theorem Change.sound (change : Change hook event next) (hs : hook.Sound) : next.Sound := by
  cases change with
  | rendered => exact hs.render _
  | sent => exact hs.sendPrompt _ _ _
  | cancelled => exact hs.cancel
  | bootstrapped => exact hs.bootstrapSession _ _ _ _
  | run _ hf turn => exact turn.sound hs hf
  | call _ hk turn => exact turn.sound hs hk

end Steps

end Hook

end Yinshi.AgentStream
