import Mathlib.Data.List.Infix
import Mathlib.Data.List.Induction

/-! The frames of one prompt. The result of an agent run is held back until a timer fires,
so that a retry or a compaction can still take it back. -/

namespace Yinshi.Sidecar
open List

structure Usage where
  inputTokens : Nat
  outputTokens : Nat
  cacheReadInputTokens : Nat
  cacheCreationInputTokens : Nat

structure EventUsage where
  input : Option Nat
  output : Option Nat
  cacheRead : Option Nat
  cacheWrite : Option Nat

def EventUsage.counted (usage : EventUsage) : Usage :=
  ⟨usage.input.getD 0, usage.output.getD 0, usage.cacheRead.getD 0, usage.cacheWrite.getD 0⟩

inductive AssistantEvent
  | textDelta (delta : String)
  | thinkingDelta (delta : String)
  | other

inductive Event (Value : Type)
  | messageUpdate (assistantEvent : AssistantEvent)
  | toolExecutionStart (toolCallId toolName : String) (args : Value)
  | toolExecutionUpdate (toolCallId : String) (partialResult : Value)
  | toolExecutionEnd (toolCallId : String) (result : Value) (isError : Bool)
  | turnEnd (usage : Option EventUsage)
  | agentEnd
  | autoRetryStart (attempt maxAttempts : Nat)
  | autoRetryEnd (success : Bool)
  | compactionStart (reason : String)
  | compactionEnd (reason : String) (errorMessage : Option String) (willRetry aborted : Bool)

/-- What a status adds: the reason of a compaction and, at its end, `willRetry` and `aborted`. -/
structure StatusExtra where
  reason : String
  ending : Option (Bool × Bool)

inductive Body (Value : Type)
  | text (delta : String)
  | thinking (delta : String)
  | toolUse (id toolName : String) (toolInput : Value)
  | partialResult (toolUseId content : String)
  | toolResult (toolUseId content : String) (isError : Bool)
  | status (status message severity : String) (extra : Option StatusExtra)
  | result (usage : Option Usage) (provider model : String)
  | cancelled
  | error (message : String)

structure Frame (Value : Type) where
  id : String
  body : Body Value

def Frame.isResult {Value : Type} (frame : Frame Value) : Bool :=
  match frame.body with
  | .result .. => true
  | _ => false

def Frame.terminal {Value : Type} (frame : Frame Value) : Bool :=
  match frame.body with
  | .result .. | .cancelled | .error _ => true
  | _ => false

/-- What the subscriber of a prompt closes on; results of tools are written as text. -/
structure Query (Value : Type) where
  sessionId : String
  provider : String
  modelId : String
  stringifyToolResult : Value → String

/-- The flags of `processQuery`; `finalizeTimer` says whether the timer is scheduled. -/
structure Turn (Value : Type) where
  usage : Option Usage
  agentEndEmitted : Bool
  resultSent : Bool
  pendingResult : Option (Frame Value)
  compactionActive : Bool
  finalizeTimer : Bool
  sent : List (Frame Value)

def Turn.start (Value : Type) : Turn Value := ⟨none, false, false, none, false, false, []⟩

inductive Step (Value : Type)
  | event (event : Event Value)
  | timer

inductive Completion
  | resolved
  | rejected (message : String)

section
variable {Value : Type} (query : Query Value) (turn : Turn Value)

def Query.buildResultMessage (usage : Option Usage) : Frame Value :=
  ⟨query.sessionId, .result usage query.provider (query.provider ++ "/" ++ query.modelId)⟩

def Turn.clearFinalizeTimer : Turn Value := { turn with finalizeTimer := false }

def Turn.schedulePendingResult : Turn Value := { turn with finalizeTimer := true }

def Turn.send (body : Body Value) : Turn Value := { turn with sent := turn.sent ++ [⟨query.sessionId, body⟩] }

def Turn.fire : Turn Value :=
  match turn.finalizeTimer, turn.resultSent, turn.compactionActive, turn.pendingResult with
  | true, false, false, some result =>
    { turn with
      finalizeTimer := false, pendingResult := none, resultSent := true,
      sent := turn.sent ++ [result] }
  | _, _, _, _ => turn.clearFinalizeTimer

def subscriber : Event Value → Turn Value
  | .messageUpdate (.textDelta delta) => turn.send query (.text delta)
  | .messageUpdate (.thinkingDelta delta) => turn.send query (.thinking delta)
  | .messageUpdate .other => turn
  | .toolExecutionStart toolCallId toolName args => turn.send query (.toolUse toolCallId toolName args)
  | .toolExecutionUpdate toolCallId partialResult =>
    turn.send query (.partialResult toolCallId (query.stringifyToolResult partialResult))
  | .toolExecutionEnd toolCallId result isError =>
    turn.send query (.toolResult toolCallId (query.stringifyToolResult result) isError)
  | .turnEnd none => turn
  | .turnEnd (some usage) => { turn with usage := some usage.counted }
  | .agentEnd =>
    { turn with
      pendingResult := some (query.buildResultMessage turn.usage)
      usage := none
      agentEndEmitted := true }.schedulePendingResult
  | .autoRetryStart attempt maxAttempts =>
    { turn with pendingResult := none }.clearFinalizeTimer.send query (.status "retrying"
      s!"Retrying after provider error (attempt {attempt}/{maxAttempts})..." "info" none)
  | .autoRetryEnd success =>
    turn.send query (.status (if success then "retry_complete" else "retry_failed")
      (if success then "Retry complete." else "Retry failed.") (if success then "info" else "warning") none)
  | .compactionStart reason =>
    { turn with compactionActive := true }.clearFinalizeTimer.send query
      (.status "compacting" "Compacting context..." "info" (some ⟨reason, none⟩))
  | .compactionEnd reason errorMessage willRetry aborted =>
    let failure := errorMessage.filter fun message => message ≠ ""
    let turn := { turn with
      compactionActive := false
      pendingResult := if willRetry then none else turn.pendingResult }.send query
        (.status (if failure.isSome then "compaction_failed" else "compacted")
          (failure.getD "Context compacted.")
          (if failure.isSome then "warning" else "info") (some ⟨reason, some (willRetry, aborted)⟩))
    if willRetry then turn else turn.schedulePendingResult

def step : Step Value → Turn Value
  | .event event => subscriber query turn event
  | .timer => turn.fire

def run (steps : List (Step Value)) : Turn Value := steps.foldl (step query) (.start Value)

def settle (cancelRequested : Bool) : Completion → Turn Value
  | .resolved =>
    if turn.agentEndEmitted = false ∧ turn.resultSent = false then
      { turn with resultSent := true, sent := turn.sent ++ [query.buildResultMessage turn.usage] }
    else turn
  | .rejected message =>
    turn.clearFinalizeTimer.send query (if cancelRequested then .cancelled else .error message)

def processQuery (steps : List (Step Value)) (cancelRequested : Bool) (completion : Completion) :
    List (Frame Value) :=
  (settle query (run query steps) cancelRequested completion).fire.sent

def Query.yielded : List (Frame Value) → Option (List (Frame Value))
  | [] => none
  | message :: rest =>
    if message.id ≠ "" ∧ message.id ≠ query.sessionId then yielded rest
    else if message.terminal then some [message]
    else (yielded rest).map (message :: ·)

end

section
variable {Value : Type}

def Step.starts : Step Value → Bool
  | .event (.compactionStart _) => true
  | _ => false

def Step.ends : Step Value → Bool
  | .event (.compactionEnd ..) => true
  | _ => false

def Step.takesBack : Step Value → Bool
  | .event (.autoRetryStart ..) => true
  | .event (.compactionEnd _ _ willRetry _) => willRetry
  | _ => false

def Step.sends : Step Value → Bool
  | .timer | .event (.messageUpdate .other) | .event (.turnEnd _) | .event .agentEnd => false
  | .event _ => true

def Balanced (steps : List (Step Value)) : Prop :=
  (∀ before ∈ steps.inits, before.countP Step.ends ≤ before.countP Step.starts) ∧
    steps.countP Step.ends = steps.countP Step.starts

instance (steps : List (Step Value)) : Decidable (Balanced steps) := inferInstanceAs (Decidable (_ ∧ _))

def Ended (steps : List (Step Value)) : Prop :=
  ∃ before rest, steps = before ++ .event .agentEnd :: rest ∧ ∀ s ∈ rest, s.takesBack = false

def Calm (steps : List (Step Value)) : Prop :=
  ∀ before s rest, steps = before ++ s :: rest → s.starts = true → ∃ t ∈ rest, t.ends = true

def Fired (steps : List (Step Value)) : Prop :=
  ∃ before rest, steps = before ++ .timer :: rest ∧ Ended before ∧ Calm before

structure EndsOnce (query : Query Value) (steps : List (Step Value))
    (cancelRequested : Bool) (completion : Completion) : Prop where
  last : ∀ sent frame rest, processQuery query steps cancelRequested completion =
    sent ++ frame :: rest → frame.terminal = true → rest = []
  reached : ∃ frame ∈ processQuery query steps cancelRequested completion, frame.terminal = true
  calm : ∀ before s rest frame, steps = before ++ s :: rest → (run query (before ++ [s])).sent =
    (run query before).sent ++ [frame] → frame.isResult = true →
      before.countP Step.starts = before.countP Step.ends
  loop : (query.yielded (processQuery query steps cancelRequested completion)).isSome = true

end

section Inputs
variable {Value : Type} {steps : List (Step Value)} {s : Step Value}

theorem snoc_eq_split {α : Type} {items before rest : List α} {item x : α} :
    items ++ [item] = before ++ x :: rest ↔
    (rest = [] ∧ items = before ∧ item = x) ∨
    ∃ rest', rest = rest' ++ [item] ∧ items = before ++ x :: rest' := by
  constructor
  · intro h
    rcases rest.eq_nil_or_concat' with rfl | ⟨rest', y, rfl⟩
    · have ⟨same, last⟩ := append_inj' h rfl
      exact .inl ⟨rfl, same, by simpa using last⟩
    · rw [← cons_append, ← append_assoc] at h
      have ⟨same, last⟩ := append_inj' h rfl
      exact .inr ⟨rest', by simpa using last.symm, same⟩
  · rintro (⟨rfl, rfl, rfl⟩ | ⟨rest', rfl, rfl⟩) <;> simp

theorem ended_snoc : Ended (steps ++ [s]) ↔ s = .event .agentEnd ∨ (Ended steps ∧ s.takesBack = false) := by
  constructor
  · rintro ⟨before, rest, h, kept⟩
    rcases snoc_eq_split.1 h with ⟨-, -, same⟩ | ⟨rest', rfl, rfl⟩
    · exact .inl same
    · exact .inr ⟨⟨before, rest', rfl, fun t ht => kept t (by simp [ht])⟩, kept s (by simp)⟩
  · rintro (rfl | ⟨⟨before, rest, rfl, kept⟩, hs⟩)
    · exact ⟨steps, [], rfl, by simp⟩
    · exact ⟨before, rest ++ [s], by simp, by simpa [or_imp, forall_and] using ⟨kept, hs⟩⟩

theorem calm_snoc : Calm (steps ++ [s]) ↔ s.starts = false ∧ (s.ends = true ∨ Calm steps) := by
  constructor
  · intro h
    have hs : s.starts = false := by
      cases hs : s.starts
      · rfl
      · simpa using h steps s [] rfl hs
    refine ⟨hs, or_iff_not_imp_left.mpr fun hends before t rest same ht => ?_⟩
    obtain ⟨u, hu, hends'⟩ := h before t (rest ++ [s]) (by simp [same]) ht
    rcases mem_append.mp hu with hu | hu
    · exact ⟨u, hu, hends'⟩
    · exact absurd (mem_singleton.mp hu ▸ hends') hends
  · rintro ⟨hs, h⟩ before t rest same ht
    rcases snoc_eq_split.1 same with ⟨-, -, rfl⟩ | ⟨rest', rfl, earlier⟩
    · simp [hs] at ht
    · rcases h with h | h
      · exact ⟨s, by simp, h⟩
      · obtain ⟨u, hu, hends⟩ := h before t rest' earlier ht
        exact ⟨u, by simp [hu], hends⟩

theorem fired_snoc : Fired (steps ++ [s]) ↔ Fired steps ∨ (s = .timer ∧ Ended steps ∧ Calm steps) := by
  constructor
  · rintro ⟨before, rest, h, ended, calm⟩
    rcases snoc_eq_split.1 h with ⟨-, rfl, same⟩ | ⟨rest', rfl, rfl⟩
    · exact .inr ⟨same, ended, calm⟩
    · exact .inl ⟨before, rest', rfl, ended, calm⟩
  · rintro (⟨before, rest, rfl, ended, calm⟩ | ⟨rfl, ended, calm⟩)
    · exact ⟨before, rest ++ [s], by simp, ended, calm⟩
    · exact ⟨steps, [], rfl, ended, calm⟩

theorem Balanced.calm (h : Balanced steps) : Calm steps := by
  rintro before s rest rfl hs
  by_contra none
  have quiet : rest.countP Step.ends = 0 := countP_eq_zero.mpr fun t ht hends => none ⟨t, ht, hends⟩
  have fewer := h.1 before (by simp)
  have same := h.2
  have hends : s.ends = false := by
    match s with
    | .event (.compactionStart _) => rfl
  simp only [countP_append, countP_cons, hs, hends, quiet] at same
  simp at same
  omega

theorem silent_step (h : s.sends = false) : s.takesBack = false ∧ s.starts = false ∧ s.ends = false := by
  match s with
  | .timer | .event (.messageUpdate .other) | .event (.turnEnd _) | .event .agentEnd => exact ⟨rfl, rfl, rfl⟩

end Inputs

section Runs
variable {Value : Type} {query : Query Value} {steps : List (Step Value)}
  {turn : Turn Value} {s : Step Value}

theorem step_sent (query : Query Value) (turn : Turn Value) (s : Step Value) :
    (s.sends = true ∧ (step query turn s).resultSent = turn.resultSent ∧
      ∃ frame, frame.id = query.sessionId ∧ frame.terminal = false ∧
        (step query turn s).sent = turn.sent ++ [frame]) ∨
    (s.sends = false ∧ (step query turn s).resultSent = turn.resultSent ∧
      (step query turn s).sent = turn.sent) ∨
    (s = .timer ∧ turn.resultSent = false ∧ (step query turn s).resultSent = true ∧
      ∃ frame ∈ turn.pendingResult, (step query turn s).sent = turn.sent ++ [frame]) := by
  match s with
  | .timer =>
    simp only [step, Turn.fire]
    split
    · rename_i sent _ pending
      exact .inr (.inr ⟨trivial, sent, rfl, _, pending, rfl⟩)
    · exact .inr (.inl ⟨rfl, rfl, rfl⟩)
  | .event (.messageUpdate .other) | .event (.turnEnd none) | .event (.turnEnd (some _)) | .event .agentEnd =>
    exact .inr (.inl ⟨rfl, rfl, rfl⟩)
  | .event (.messageUpdate (.textDelta _)) | .event (.messageUpdate (.thinkingDelta _))
  | .event (.toolExecutionStart ..) | .event (.toolExecutionUpdate ..) | .event (.toolExecutionEnd ..)
  | .event (.autoRetryStart ..) | .event (.autoRetryEnd _) | .event (.compactionStart _)
  | .event (.compactionEnd _ _ true _) | .event (.compactionEnd _ _ false _) =>
    exact .inl ⟨rfl, rfl, _, rfl, rfl, rfl⟩

structure Tracks (query : Query Value) (steps : List (Step Value)) (turn : Turn Value) : Prop where
  noted : turn.agentEndEmitted = true ↔ .event .agentEnd ∈ steps
  active : turn.compactionActive = false ↔ Calm steps
  fired : turn.resultSent = true ↔ Fired steps
  pending : turn.resultSent = false → (turn.pendingResult.isSome = true ↔ Ended steps)
  timer : turn.resultSent = false → turn.pendingResult.isSome = true →
    turn.compactionActive = false → turn.finalizeTimer = true
  frame : ∀ frame ∈ turn.pendingResult, ∃ usage, frame = query.buildResultMessage usage

theorem Tracks.fire (h : Tracks query steps turn) : Tracks query (steps ++ [.timer]) turn.fire := by
  obtain ⟨noted, active, fired, pending, timer, frame⟩ := h
  unfold Turn.fire
  split
  · rename_i scheduled sent calm result
    have ended := (pending sent).mp (by simp [result])
    constructor <;> simp_all [ended_snoc, calm_snoc, fired_snoc, Step.starts, Step.ends, Step.takesBack]
  · rename_i idle
    have early : turn.resultSent = false → turn.pendingResult.isSome = true →
        turn.compactionActive = false → False := by
      intro sent held calm
      obtain ⟨result, hr⟩ := Option.isSome_iff_exists.mp held
      exact idle result (timer sent held calm) sent calm hr
    refine ⟨by simpa [Turn.clearFinalizeTimer] using noted, ?_, ?_, fun sent => ?_,
      fun sent held calm => ?_, frame⟩
    · simpa [calm_snoc, Step.starts, Step.ends, Turn.clearFinalizeTimer] using active
    · rw [fired_snoc, ← fired]
      refine ⟨.inl, fun h => h.elim id fun ⟨_, ended, calm⟩ => ?_⟩
      by_contra unsent
      rw [Bool.not_eq_true] at unsent
      exact early unsent ((pending unsent).mpr ended) (active.mpr calm)
    · simpa [ended_snoc, Step.takesBack, Turn.clearFinalizeTimer] using pending sent
    · exact (early sent held calm).elim

theorem Tracks.event (h : Tracks query steps turn) (event : Event Value) :
    Tracks query (steps ++ [.event event]) (subscriber query turn event) := by
  obtain ⟨noted, active, fired, pending, timer, frame⟩ := h
  match event with
  | .messageUpdate .other | .turnEnd none | .turnEnd (some _) | .messageUpdate (.textDelta _)
  | .messageUpdate (.thinkingDelta _) | .toolExecutionStart .. | .toolExecutionUpdate ..
  | .toolExecutionEnd ..
  | .autoRetryEnd _ | .autoRetryStart .. | .compactionStart _ | .compactionEnd _ _ true _
  | .compactionEnd _ _ false _ =>
    constructor <;>
      simp_all [subscriber, ended_snoc, calm_snoc, fired_snoc, Step.starts, Step.ends,
          Step.takesBack, Turn.send, Turn.clearFinalizeTimer, Turn.schedulePendingResult]
  | .agentEnd =>
    constructor <;> simp_all [subscriber, ended_snoc, calm_snoc, fired_snoc, Step.starts, Step.ends,
      Turn.schedulePendingResult]

theorem tracks_run (query : Query Value) (steps : List (Step Value)) :
    Tracks query steps (run query steps) := by
  induction steps using List.reverseRecOn with
  | nil =>
    refine ⟨by simp [run, Turn.start], ?_, ?_, fun _ => ?_, by simp [run,
      Turn.start], by simp [run, Turn.start]⟩
    · simp [run, Turn.start, Calm]
    · simp [run, Turn.start, Fired]
    · simp [run, Turn.start, Ended]
  | append_singleton steps s ih =>
    rw [run, foldl_append]
    match s with
    | .timer => exact ih.fire
    | .event event => exact ih.event event

theorem run_snoc : run query (steps ++ [s]) =
    step query (run query steps) s := by
  rw [run, foldl_append]
  rfl

structure Framed (query : Query Value) (turn : Turn Value) : Prop where
  own : ∀ frame ∈ turn.sent, frame.id = query.sessionId
  plain : turn.resultSent = false → ∀ frame ∈ turn.sent, frame.terminal = false
  shown : turn.resultSent = true → ∃ frame ∈ turn.sent, frame.terminal = true

theorem framed_run (query : Query Value) (steps : List (Step Value)) : Framed query (run query steps) := by
  induction steps using List.reverseRecOn with
  | nil => constructor <;> simp [run, Turn.start]
  | append_singleton steps s ih =>
    obtain ⟨own, plain, shown⟩ := ih
    rw [run_snoc]
    rcases step_sent query (run query steps) s with
      ⟨_, same, frame, id, terminal, sent⟩ | ⟨_, same, sent⟩ | ⟨_, unsent, closed, frame, held, sent⟩
    · constructor <;> grind
    · constructor <;> grind
    · obtain ⟨usage, rfl⟩ := (tracks_run ..).frame frame held
      exact ⟨by grind [Query.buildResultMessage], by simp [closed],
        fun _ => ⟨_, by rw [sent]; exact mem_concat_self, rfl⟩⟩

def Silent (steps : List (Step Value)) : Prop :=
  ∀ before rest, steps = before ++ .timer :: rest → Ended before → Calm before → ∀ s ∈ rest, s.sends = false

def Closed (query : Query Value) (frames : List (Frame Value)) : Prop :=
  ∃ body last, frames = body ++ [last] ∧ last.terminal = true ∧ last.id = query.sessionId ∧
    ∀ frame ∈ body, frame.id = query.sessionId ∧ frame.terminal = false

theorem Silent.closed (query : Query Value) (h : Silent steps)
    (closed : (run query steps).resultSent = true) :
    Closed query (run query steps).sent := by
  induction steps using List.reverseRecOn with
  | nil => cases closed
  | append_singleton steps s ih =>
    have earlier : Silent steps := fun before rest same ended calm t ht =>
      h before (rest ++ [s]) (by simp [same]) ended calm t (by simp [ht])
    rw [run_snoc] at closed ⊢
    rcases step_sent query (run query _) s with
      ⟨sends, same, _⟩ | ⟨_, same, sent⟩ | ⟨_, unsent, _, frame, held, sent⟩
    · obtain ⟨before, rest, rfl, ended, calm⟩ := (tracks_run ..).fired.mp (same ▸ closed)
      have quiet := h before (rest ++ [s]) (by simp) ended calm s (by simp)
      simp [quiet] at sends
    · rw [sent]
      exact ih earlier (same ▸ closed)
    · obtain ⟨usage, rfl⟩ := (tracks_run ..).frame frame held
      exact ⟨_, _, sent, rfl, rfl,
        fun frame h => ⟨(framed_run ..).own frame h, (framed_run ..).plain unsent frame h⟩⟩

theorem Closed.last {frames : List (Frame Value)} (h : Closed query frames)
    (sent : List (Frame Value)) (frame : Frame Value) (rest : List (Frame Value))
    (same : frames = sent ++ frame :: rest) (terminal : frame.terminal = true) : rest = [] := by
  obtain ⟨body, last, rfl, -, -, plain⟩ := h
  rcases snoc_eq_split.1 same with ⟨rfl, -, -⟩ | ⟨rest', rfl, rfl⟩
  · rfl
  · simp [(plain frame (by simp)).2] at terminal

theorem Closed.loop {frames : List (Frame Value)} (h : Closed query frames) :
    (query.yielded frames).isSome = true := by
  obtain ⟨body, last, rfl, terminal, id, plain⟩ := h
  induction body with
  | nil => simp [Query.yielded, id, terminal]
  | cons frame body ih =>
    obtain ⟨own, open'⟩ := plain frame (by simp)
    simpa [Query.yielded, own, open'] using ih fun other h => plain other (by simp [h])

theorem Silent.ended (h : Silent steps) (fired : Fired steps) : Ended steps := by
  obtain ⟨before, rest, rfl, ended, calm⟩ := fired
  have quiet := h before rest rfl ended calm
  obtain ⟨first, later, rfl, kept⟩ := ended
  refine ⟨first, later ++ .timer :: rest, by simp, fun s hs => ?_⟩
  rcases mem_append.mp hs with hs | hs
  · exact kept s hs
  · rcases mem_cons.mp hs with rfl | hs
    · rfl
    · exact (silent_step (quiet s hs)).1

theorem Silent.settle {cancelRequested : Bool} {completion : Completion} (h : Silent steps)
    (calm : Calm steps) (settled : Fired steps → completion = .resolved)
    (due : completion = .resolved → .event .agentEnd ∈ steps → Ended steps) :
    Closed query (processQuery query steps cancelRequested completion) := by
  have track := tracks_run query steps
  have framed := framed_run query steps
  have closed := h.closed query
  unfold processQuery
  generalize run query steps = turn at track framed closed
  cases sent : turn.resultSent
  · have plain : ∀ frame ∈ turn.sent, frame.id = query.sessionId ∧ frame.terminal = false :=
      fun frame h => ⟨framed.own frame h, framed.plain sent frame h⟩
    cases completion with
    | rejected message =>
      refine ⟨turn.sent, ⟨query.sessionId, if cancelRequested then .cancelled else .error message⟩,
        ?_, ?_, rfl, plain⟩
      · simp [Sidecar.settle, Turn.fire, Turn.send, Turn.clearFinalizeTimer]
      · cases cancelRequested <;> rfl
    | resolved =>
      cases noted : turn.agentEndEmitted
      · exact ⟨turn.sent, query.buildResultMessage turn.usage,
          by simp [Sidecar.settle, noted, sent, Turn.fire, Turn.clearFinalizeTimer], rfl, rfl, plain⟩
      · have held := (track.pending sent).mpr (due rfl (track.noted.mp noted))
        have timer := track.timer sent held (track.active.mpr calm)
        obtain ⟨result, hr⟩ := Option.isSome_iff_exists.mp held
        obtain ⟨usage, rfl⟩ := track.frame result hr
        exact ⟨turn.sent, query.buildResultMessage usage,
          by simp [Sidecar.settle, noted, Turn.fire, timer, sent, track.active.mpr calm, hr], rfl, rfl, plain⟩
  · rw [settled (track.fired.mp sent)]
    simpa [Sidecar.settle, sent, Turn.fire, Turn.clearFinalizeTimer] using closed sent

theorem run_grows (query : Query Value) (steps later : List (Step Value)) :
    ∃ more, (run query (steps ++ later)).sent =
    (run query steps).sent ++ more ∧ (more = [] → ∀ s ∈ later, s.sends = false) := by
  induction later using List.reverseRecOn with
  | nil => exact ⟨[], by simp, by simp⟩
  | append_singleton later s ih =>
    obtain ⟨more, sent, quiet⟩ := ih
    rw [← append_assoc, run_snoc]
    rcases step_sent query (run query _) s with
      ⟨_, _, frame, _, _, grown⟩ | ⟨silent, _, same⟩ | ⟨_, _, _, frame, _, grown⟩
    · exact ⟨more ++ [frame], by rw [grown, sent, append_assoc], by simp⟩
    · refine ⟨more, by rw [same, sent], fun none t ht => ?_⟩
      rcases mem_append.mp ht with ht | ht
      · exact quiet none t ht
      · exact mem_singleton.mp ht ▸ silent
    · exact ⟨more ++ [frame], by rw [grown, sent, append_assoc], by simp⟩

theorem settle_grows (query : Query Value) (steps : List (Step Value))
    (cancelRequested : Bool) (completion : Completion) :
    ∃ more, processQuery query steps cancelRequested completion =
      (run query steps).sent ++ more ∧ (more = [] → completion = .resolved) := by
  unfold processQuery
  generalize run query steps = turn
  have fire (turn : Turn Value) : ∃ more, turn.fire.sent = turn.sent ++ more := by
    unfold Turn.fire
    split
    · exact ⟨_, rfl⟩
    · exact ⟨[], by simp [Turn.clearFinalizeTimer]⟩
  cases completion with
  | resolved =>
    obtain ⟨more, h⟩ := fire (settle query turn cancelRequested .resolved)
    rw [h, Sidecar.settle]
    split
    · exact ⟨_, append_assoc .., fun _ => rfl⟩
    · exact ⟨more, rfl, fun _ => rfl⟩
  | rejected message =>
    obtain ⟨more, h⟩ := fire (settle query turn cancelRequested (.rejected message))
    rw [h]
    exact ⟨_, append_assoc .., by simp⟩

theorem result_step {frame : Frame Value} (sent : (run query (steps ++ [s])).sent =
    (run query steps).sent ++ [frame]) (result : frame.isResult = true) :
    s = .timer ∧ Ended steps ∧ Calm steps := by
  have fired := (tracks_run query (steps ++ [s])).fired
  rw [run_snoc] at sent fired
  rcases step_sent query (run query _) s with
    ⟨_, _, other, _, plain, grown⟩ | ⟨_, _, same⟩ | ⟨_, unsent, closed, _⟩
  · obtain rfl : frame = other := by simpa using sent.symm.trans grown
    simp [Frame.terminal, Frame.isResult] at plain result
    split at result <;> simp_all
  · simp [same] at sent
  · exact (fired_snoc.1 (fired.mp closed)).resolve_left fun h => by
      simp [(tracks_run ..).fired.mpr h] at unsent

/-- Every prompt ends with one terminal frame if and only if, once a timer fires for a result
that is due, no event with a frame follows and `prompt()` resolves, and a `prompt()` that
resolves leaves its last `agent_end` standing. -/
theorem prompt_ends_once (query : Query Value) (steps : List (Step Value))
    (cancelRequested : Bool) (completion : Completion) (h : Balanced steps) :
    EndsOnce query steps cancelRequested completion ↔
      (∀ before rest, steps = before ++ .timer :: rest → Ended before → Calm before →
        (∀ s ∈ rest, s.sends = false) ∧ completion = .resolved) ∧
      (completion = .resolved → .event .agentEnd ∈ steps → Ended steps) := by
  constructor
  · intro once
    have silent : ∀ before rest, steps = before ++ .timer :: rest → Ended before → Calm before →
        (∀ s ∈ rest, s.sends = false) ∧ completion = .resolved := by
      rintro before rest rfl ended calm
      obtain ⟨frame, hf, terminal⟩ := (framed_run query (before ++ [.timer])).shown
        ((tracks_run ..).fired.mpr (fired_snoc.mpr (.inr ⟨rfl, ended, calm⟩)))
      obtain ⟨sent, others, hsent⟩ := append_of_mem hf
      obtain ⟨more, grown, quiet⟩ := run_grows query (before ++ [.timer]) rest
      obtain ⟨final, settled, resolved⟩ := settle_grows query (before ++ .timer :: rest)
        cancelRequested completion
      have nothing := once.last sent frame (others ++ more ++ final)
        (by rw [settled, append_cons, grown, hsent]; simp) terminal
      simp only [append_eq_nil_iff] at nothing
      exact ⟨quiet nothing.1.2, resolved nothing.2⟩
    refine ⟨silent, ?_⟩
    rintro rfl noted
    by_contra open'
    have track := tracks_run query steps
    have unsent : (run query steps).resultSent = false := by
      rw [← Bool.not_eq_true, track.fired]
      exact fun fired => open' (Silent.ended
        (fun before rest same ended calm => (silent before rest same ended calm).1) fired)
    have none := Option.isSome_eq_false_iff.mp (Bool.not_eq_true _ ▸ mt (track.pending unsent).mp open')
    have emitted := track.noted.mpr noted
    have same : processQuery query steps cancelRequested .resolved =
        (run query steps).sent := by
      rw [processQuery, settle, if_neg (by simp [emitted]), Turn.fire]
      split
      · simp_all
      · rfl
    obtain ⟨frame, hf, terminal⟩ := once.reached
    simp [(framed_run ..).plain unsent frame (same ▸ hf)] at terminal
  · rintro ⟨silent, due⟩
    have quiet : Silent steps := fun before rest same ended calm => (silent before rest same ended calm).1
    have closed : Closed query (processQuery query steps cancelRequested completion) :=
      quiet.settle h.calm
        (fun ⟨before, rest, same, ended, calm⟩ => (silent before rest same ended calm).2) due
    refine ⟨closed.last, ?_, ?_, closed.loop⟩
    · obtain ⟨body, last, same, terminal, -⟩ := closed
      exact ⟨last, by simp [same], terminal⟩
    · rintro before s rest frame rfl sent result
      obtain ⟨rfl, ended, calm⟩ := result_step sent result
      have silent := (silent before rest rfl ended calm).1
      have starts : rest.countP Step.starts = 0 := countP_eq_zero.mpr fun t ht => by
        simp [silent_step (silent t ht)]
      have ends : rest.countP Step.ends = 0 := countP_eq_zero.mpr fun t ht => by
        simp [silent_step (silent t ht)]
      simpa [countP_append, countP_cons, starts, ends, Step.starts, Step.ends] using h.2.symm
def retriedSteps : List (Step Unit) :=
  [.event .agentEnd, .event (.autoRetryStart 1 3), .event (.autoRetryEnd true), .event .agentEnd, .timer]

theorem prompt_ends_once_retried : Balanced retriedSteps ∧
    EndsOnce ⟨"session", "provider", "model", fun _ => ""⟩ retriedSteps false .resolved := by
  have balanced : Balanced retriedSteps := by decide
  refine ⟨balanced,
    (prompt_ends_once _ _ _ _ balanced).mpr ⟨fun before rest same ended calm => ?_, fun _ _ => ?_⟩⟩
  · rcases snoc_eq_split.mp (show retriedSteps.take 4 ++ [Step.timer] = _ from same) with ⟨rfl, -,
        -⟩ | ⟨rest', rfl, earlier⟩
    · simp
    · have early : Step.timer ∈ retriedSteps.take 4 := earlier ▸ by simp
      simp [retriedSteps] at early
  · exact ⟨retriedSteps.take 3, [.timer], rfl, by decide⟩

/-- The run whose retry is given up: no `agent_end` follows. -/
def abandonedSteps : List (Step Unit) :=
  [.event .agentEnd, .event (.autoRetryStart 1 3), .event (.autoRetryEnd false)]

theorem prompt_never_ends :
    ¬ ∀ (steps : List (Step Unit)) (completion : Completion),
    Balanced steps →
    EndsOnce ⟨"session", "provider", "model", fun _ => ""⟩ steps false completion := by
  intro h
  have loop := (h abandonedSteps .resolved (by decide)).loop
  revert loop
  decide

end Runs

end Yinshi.Sidecar
