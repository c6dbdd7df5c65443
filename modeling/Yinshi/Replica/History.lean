import Yinshi.Replica.Journal

/-! What a replay says of the events it has read, and how it grows with them. -/

namespace Yinshi.Replica
open ByteText Checked List Option

theorem index_of_stages {number : Nat} {stage : Stage} (next : stages[number]? = some stage) :
    number = stage.index := by
  match number, next with
  | 0, next | 1, next | 2, next | 3, next | 4, next | 5, next | 6, next =>
    cases next
    rfl

theorem stages_index (stage : Stage) : stages[stage.index]? = some stage := by
  cases stage <;> rfl

theorem index_le (stage : Stage) : stage.index ≤ 6 := by
  cases stage <;> decide

theorem Stage.index_inj {first second : Stage} (hs : first.index = second.index) : first = second := by
  have := stages_index first
  rw [hs, stages_index second] at this
  exact (some.inj this).symm

namespace Replay
variable {replay next last : Replay} {values : Values} {keys : Keys}

inductive Advance (replay : Replay) (values : Values) : Replay → Prop
  | claim (type : values.eventType = .authorityClaimed) (free : replay.ownerToken = none)
      (first : replay.previousEventType = .accepted) (owned : values.ownerToken.isSome) :
      Advance replay values { replay with
        ownerToken := values.ownerToken
        ownerBrokerIncarnation := values.ownerBrokerIncarnation
        previousEventType := values.eventType }
  | start {stage : Stage} (type : values.eventType = .stageStarted) (owned : replay.ownerToken.isSome)
      (named : values.stage = some stage) (next : replay.nextStageIndex = stage.index)
      (idle : replay.stageStarted = false) (free : replay.paused = true → replay.continuation.isSome) :
      Advance replay values { replay with stageStarted := true, previousEventType := values.eventType }
  | complete {stage : Stage} {receipt : Receipt} (type : values.eventType = .stageOutcome)
      (owned : replay.ownerToken.isSome) (named : values.stage = some stage)
      (next : replay.nextStageIndex = stage.index) (started : replay.stageStarted = true)
        (more : stage ≠ .reclaim) :
      Advance replay values { replay with
        receipts := Function.update replay.receipts stage (some receipt)
        admissionPendingPause := replay.admissionPendingPause || stage = .admission
        nextStageIndex := replay.nextStageIndex + 1
        stageStarted := false
        previousEventType := values.eventType }
  | finish {stage : Stage} {state : LifecycleState} {receipts : Stage → Option Receipt}
      (last : values.isTerminal = true) (owned : replay.ownerToken.isSome)
      (same : receipts .admission = replay.receipts .admission) :
      Advance replay values { replay with
        receipts := receipts
        terminalState := some state
        terminalStage := some stage
        terminalResponseFrame := values.responseFrame
        previousEventType := values.eventType }
  | pause (type : values.eventType = .lifecyclePaused) (pending : replay.admissionPendingPause = true)
      (admitted : (replay.receipts .admission).isSome) :
      Advance replay values { replay with
        activeResponseFrame := values.responseFrame
        paused := true
        admissionPendingPause := false
        previousEventType := values.eventType }
  | continue {request : BrokerRequest} {parsed : ReplicaDrainContinuation}
      (type : values.eventType = .drainContinuationAccepted) (paused : replay.paused = true)
      (fresh : replay.continuation = none) :
      Advance replay values { replay with
        drainRequest := some request
        continuation := some parsed
        drainRequestFrame := values.requestFrame
        previousEventType := values.eventType }

theorem not_isNone {α : Type} {option : Option α} : ¬ option.isNone = true ↔ option.isSome = true := by
  cases option <;> simp

theorem nextStage_eq_some {stage : Stage} :
    replay.nextStage = some stage ↔ replay.nextStageIndex = stage.index := by
  unfold nextStage
  constructor
  · exact index_of_stages
  · intro hs
    rw [hs, stages_index]

theorem completing_eq_ok {stage : Stage} {request : BrokerRequest} :
    replay.completing values = .ok (stage, request) ↔
    replay.ownerToken.isSome ∧ values.ownerToken = replay.ownerToken ∧ values.stage = some stage ∧
    replay.nextStageIndex = stage.index ∧
    (replay.stageStarted = true ∨ replay.directForeignPause values = true) ∧
    replay.responseRequest values stage = some request := by
  unfold completing
  simp only [steps_ok, Prod.mk.injEq]
  rw [not_or, not_or, not_or, not_not, not_not, not_not, not_isNone]
  constructor
  · rintro ⟨⟨ho, hs, next, ready⟩, _, hn, _, requested, rfl, rfl⟩
    rw [hn] at next
    exact ⟨ho, hs, hn, nextStage_eq_some.1 next.symm, ready, requested⟩
  · rintro ⟨ho, hs, hn, next, ready, requested⟩
    exact ⟨⟨ho, hs, by rw [hn, nextStage_eq_some.2 next], ready⟩, stage, hn, request, requested, rfl, rfl⟩

theorem outcome_advance (type : values.eventType = .stageOutcome)
    (read : replay.outcome keys values = .ok next) :
    Advance replay values (next.note values.eventType) := by
  obtain ⟨⟨_, _⟩, completing, read⟩ := bind_eq_ok.mp read
  obtain ⟨ho, -, hn, index, ready, -⟩ := completing_eq_ok.1 completing
  have hs : replay.stageStarted = true := by
    simpa [directForeignPause, Values.isForeignDrain, type] using ready
  obtain ⟨receipt, -, read⟩ := bind_eq_ok.mp read
  obtain ⟨-, -, read⟩ := bind_eq_ok.mp read
  split at read
  · next last =>
      subst last
      obtain ⟨-, -, read⟩ := bind_eq_ok.mp read
      obtain rfl := pure_eq_ok.mp read
      have other : Stage.admission ≠ .reclaim := by decide
      exact .finish (by simp [Values.isTerminal, type, hn]) ho (Function.update_of_ne other (some receipt) _)
  · next more =>
      obtain rfl := pure_eq_ok.mp read
      exact .complete type ho hn index hs more

theorem dispatch_advance (read : replay.dispatch keys values = .ok next) :
    Advance replay values (next.note values.eventType) := by
  unfold dispatch at read
  split at read
  · next type =>
      unfold claim at read
      simp only [steps_ok, not_or, not_not, Bool.and_eq_true] at read
      obtain ⟨⟨hf, first⟩, -, ⟨ho, -⟩, rfl⟩ := read
      exact .claim type (by simpa using hf) first (isSome_of_any ho)
  · next type =>
      unfold start at read
      simp only [steps_ok, not_or, not_and, not_not] at read
      obtain ⟨⟨ho, -, hi, hf, hk, hs⟩, rfl⟩ := read
      obtain ⟨_, next⟩ := isSome_iff_exists.mp (not_isNone.1 hk)
      exact .start type (not_isNone.1 ho) (hs.trans next) (nextStage_eq_some.1 next) (by simpa using hi)
        fun paused => not_isNone.1 (hf paused)
  · next type => exact outcome_advance type read
  · next type =>
      obtain ⟨⟨_, _⟩, completing, read⟩ := bind_eq_ok.mp read
      obtain ⟨ho, -⟩ := completing_eq_ok.1 completing
      obtain ⟨_, -, read⟩ := bind_eq_ok.mp read
      split at read
      · obtain ⟨-, -, read⟩ := bind_eq_ok.mp read
        obtain ⟨-, -, read⟩ := bind_eq_ok.mp read
        obtain rfl := pure_eq_ok.mp read
        exact .finish (by simp [Values.isTerminal, type]) ho rfl
      · cases read
  · next type =>
      obtain ⟨⟨_, _⟩, completing, read⟩ := bind_eq_ok.mp read
      obtain ⟨ho, -⟩ := completing_eq_ok.1 completing
      dsimp only at read
      split at read
      · obtain ⟨-, -, read⟩ := bind_eq_ok.mp read
        obtain ⟨-, -, read⟩ := bind_eq_ok.mp read
        obtain rfl := pure_eq_ok.mp read
        exact .finish (by simp [Values.isTerminal, type]) ho rfl
      · cases read
  · next type =>
      unfold pause at read
      simp only [steps_ok, not_or, not_not] at read
      obtain ⟨_, admitted, ⟨pending, -⟩, -, rfl⟩ := read
      exact .pause type pending (by simp [admitted])
  · next type =>
      obtain ⟨_, order, read⟩ := bind_eq_ok.mp read
      simp only [rejectIf_eq_ok, not_or, not_not] at order
      obtain ⟨_, -, read⟩ := bind_eq_ok.mp read
      obtain ⟨_, -, read⟩ := bind_eq_ok.mp read
      obtain ⟨-, -, read⟩ := bind_eq_ok.mp read
      obtain ⟨-, -, read⟩ := bind_eq_ok.mp read
      obtain rfl := pure_eq_ok.mp read
      exact .continue type order.1 (by simpa using order.2.1)
  · cases read

theorem event_eq_ok :
    replay.event keys values = .ok next ↔
    replay.terminalState = none ∧
    (replay.admissionPendingPause = true → values.eventType = .lifecyclePaused) ∧
    ∃ middle, replay.dispatch keys values = .ok middle ∧
      (values.responseFrame.isSome →
        values.responseFrameSha256 = values.responseFrame.map keys.sha256) ∧
      next = middle.note values.eventType := by
  unfold event
  simp only [steps_ok, not_and, not_not, Bool.not_eq_true, isSome_eq_false_iff, isNone_iff_eq_none,
    ne_eq, @eq_comm _ next]

theorem event_advance (read : replay.event keys values = .ok next) :
    replay.terminalState = none ∧
    (replay.admissionPendingPause = true → values.eventType = .lifecyclePaused) ∧
    Advance replay values next := by
  obtain ⟨hr, atomic, _, dispatched, -, rfl⟩ := event_eq_ok.1 read
  exact ⟨hr, atomic, dispatch_advance dispatched⟩

structure Coherent (replay : Replay) : Prop where
  bounded : replay.nextStageIndex ≤ 6
  unclaimed : replay.ownerToken = none → replay.previousEventType = .accepted ∧
    replay.nextStageIndex = 0 ∧ replay.stageStarted = false ∧ replay.paused = false
  admitted : (replay.receipts .admission).isSome → 4 ≤ replay.nextStageIndex
  paused : replay.paused = true → 4 ≤ replay.nextStageIndex
  reached : 4 ≤ replay.nextStageIndex → replay.paused = true ∨ replay.admissionPendingPause = true
  continued : replay.drainRequest.isSome = replay.continuation.isSome
  behind : replay.continuation.isSome → replay.paused = true
  started : 4 ≤ replay.nextStageIndex → replay.stageStarted = true → replay.continuation.isSome
  pending : replay.admissionPendingPause = true → replay.stageStarted = false

theorem Coherent.advance (coherent : Coherent replay)
    (atomic : replay.admissionPendingPause = true → values.eventType = .lifecyclePaused)
    (advance : Advance replay values next) : Coherent next := by
  cases advance with
  | claim type hf _ ho => exact { coherent with unclaimed := fun ha => absurd ha (isSome_iff_ne_none.mp ho) }
  | @start stage type ho hn index hi hf =>
    have hr : replay.admissionPendingPause = false := by
      by_contra pending
      simpa [type] using atomic (by simpa using pending)
    refine { coherent with
      unclaimed := fun ha => absurd ha (isSome_iff_ne_none.mp ho)
      started := fun late _ => ?_
      pending := fun pending => by simp [hr] at pending }
    obtain paused | pending := coherent.reached late
    · exact hf paused
    · simp [hr] at pending
  | @complete stage _ type ho _ index hst more =>
    have early : stage.index < 6 := by
      have := index_le stage
      have : stage.index ≠ 6 := fun hs => more (Stage.index_inj hs)
      omega
    refine ⟨?_, fun ha => absurd ha (isSome_iff_ne_none.mp ho), ?_, fun paused => ?_, ?_,
      coherent.continued, coherent.behind, nofun, fun _ => rfl⟩
    · dsimp only
      omega
    · dsimp only
      by_cases hh : stage = .admission
      · subst hh
        simp [index, Stage.index]
      · intro admitted
        rw [Function.update_of_ne (Ne.symm hh)] at admitted
        exact (coherent.admitted admitted).trans (Nat.le_succ _)
    · exact (coherent.paused paused).trans (Nat.le_succ _)
    · dsimp only
      intro late
      by_cases hh : stage = .admission
      · exact .inr (by simp [hh])
      · have : stage.index ≠ 3 := fun hs => hh (Stage.index_inj hs)
        obtain paused | pending := coherent.reached (by omega)
        · exact .inl paused
        · exact .inr (by simp [pending])
  | finish _ ho hs =>
    exact { coherent with
      unclaimed := fun ha => absurd ha (isSome_iff_ne_none.mp ho)
      admitted := fun admitted => coherent.admitted (hs ▸ admitted) }
  | pause type pending admitted =>
    exact { coherent with
      unclaimed := fun ha => by
        have zero := (coherent.unclaimed ha).2.1
        have late := coherent.admitted admitted
        omega
      paused := fun _ => coherent.admitted admitted
      reached := fun _ => .inl rfl
      behind := fun _ => rfl
      pending := nofun }
  | «continue» type paused fresh =>
    exact { coherent with
      unclaimed := fun ha => by
        have hi := (coherent.unclaimed ha).2.2.2
        rw [paused] at hi
        cases hi
      continued := rfl
      behind := fun _ => paused
      started := fun _ _ => rfl }

structure Reflects (replay : Replay) (history : List Event) : Prop where
  claimed : replay.ownerToken.isSome → ∃ row ∈ history, row.eventType = .authorityClaimed
  started : ∀ stage : Stage, stage.index < replay.nextStageIndex ∨
      (stage.index = replay.nextStageIndex ∧ replay.stageStarted = true) →
    ∃ row ∈ history, row.eventType = .stageStarted ∧ row.stage = some stage
  completed : ∀ stage : Stage, stage.index < replay.nextStageIndex →
    ∃ row ∈ history, row.eventType.isCompletion = true ∧ row.stage = some stage
  continued : replay.continuation.isSome → ∃ row ∈ history, row.eventType = .drainContinuationAccepted
  ended : replay.terminalState.isSome → ∃ row ∈ history, row.isTerminal = true

theorem Reflects.advance {history : List Event} {row : Event} (reflects : Reflects replay history)
    (advance : Advance replay row.toValues next) : Reflects next (history ++ [row]) := by
  have old : ∀ {hh : Event → Prop}, (∃ other ∈ history, hh other) → ∃ other ∈ history ++ [row], hh other :=
    fun ⟨other, hl, rest⟩ => ⟨other, mem_append_left _ hl, rest⟩
  have new : ∀ {hh : Event → Prop}, hh row → ∃ other ∈ history ++ [row], hh other :=
    fun rest => ⟨row, by simp, rest⟩
  have hk : ∀ (replay : Replay),
        Reflects replay history → Reflects replay (history ++ [row]) := fun replay reflects =>
    ⟨fun ho => old (reflects.claimed ho), fun stage begun => old (reflects.started stage begun),
      fun stage hd => old (reflects.completed stage hd), fun hp => old (reflects.continued hp),
      fun he => old (reflects.ended he)⟩
  have before := hk replay reflects
  cases advance with
  | claim type hf _ ho => exact { before with claimed := fun _ => new type }
  | @start stage type ho hn index hi _ =>
    refine { before with started := fun other begun => ?_ }
    rcases begun with earlier | ⟨hs, -⟩
    · exact before.started other (.inl earlier)
    · obtain rfl := Stage.index_inj (hs.trans index)
      exact new ⟨type, hn⟩
  | @complete _ _ type ho hn index hst _ =>
    refine { before with started := fun other begun => ?_, completed := fun other hd => ?_ }
    · refine before.started other ?_
      rcases begun with earlier | ⟨-, hi⟩
      · rcases Nat.lt_or_eq_of_le (Nat.lt_succ_iff.mp earlier) with less | hs
        · exact .inl less
        · exact .inr ⟨hs, hst⟩
      · cases hi
    · rcases Nat.lt_or_eq_of_le (Nat.lt_succ_iff.mp hd) with less | hs
      · exact before.completed other less
      · obtain rfl := Stage.index_inj (hs.trans index)
        exact new ⟨by rw [type]; rfl, hn⟩
  | finish last _ _ => exact { before with ended := fun _ => new last }
  | pause type _ _ => exact { before with }
  | «continue» type paused fresh => exact { before with continued := fun _ => new type }

structure Extends (earlier later : Replay) : Prop where
  initialRequest : later.initialRequest = earlier.initialRequest
  initialRequestFrame : later.initialRequestFrame = earlier.initialRequestFrame
  authority : later.authority = earlier.authority
  owner : earlier.ownerToken.isSome → later.ownerToken = earlier.ownerToken ∧
    later.ownerBrokerIncarnation = earlier.ownerBrokerIncarnation
  stage : earlier.nextStageIndex ≤ later.nextStageIndex
  started : later.nextStageIndex = earlier.nextStageIndex → earlier.stageStarted = true →
    later.stageStarted = true
  paused : earlier.paused = true → later.paused = true
  continuation : earlier.continuation.isSome → later.continuation = earlier.continuation ∧
    later.drainRequest = earlier.drainRequest
  admission : (earlier.receipts .admission).isSome → later.receipts .admission = earlier.receipts .admission

theorem Extends.refl (replay : Replay) : Extends replay replay :=
  ⟨rfl, rfl, rfl, fun _ => ⟨rfl, rfl⟩, le_rfl, fun _ hs => hs, fun paused => paused, fun _ => ⟨rfl, rfl⟩,
    fun _ => rfl⟩

theorem Extends.trans {first second third : Replay} (front : Extends first second)
    (back : Extends second third) : Extends first third where
  initialRequest := back.initialRequest.trans front.initialRequest
  initialRequestFrame := back.initialRequestFrame.trans front.initialRequestFrame
  authority := back.authority.trans front.authority
  owner owned := by
    obtain ⟨token, incarnation⟩ := front.owner owned
    obtain ⟨later, latest⟩ := back.owner (token ▸ owned)
    exact ⟨later.trans token, latest.trans incarnation⟩
  stage := front.stage.trans back.stage
  started hs begun := by
    have := front.stage
    have := back.stage
    exact back.started (by omega) (front.started (by omega) begun)
  paused paused := back.paused (front.paused paused)
  continuation present := by
    obtain ⟨hs, request⟩ := front.continuation present
    obtain ⟨later, latest⟩ := back.continuation (hs ▸ present)
    exact ⟨later.trans hs, latest.trans request⟩
  admission admitted := by
    have hs := front.admission admitted
    exact (back.admission (hs ▸ admitted)).trans hs

theorem Advance.extends (coherent : Coherent replay)
    (advance : Advance replay values next) : Extends replay next := by
  have same := Extends.refl replay
  cases advance with
  | claim type free _ owned => exact { same with owner := fun owned => by simp [free] at owned }
  | start type owned named index _ _ => exact { same with started := fun _ _ => rfl }
  | @complete stage _ type owned _ index started _ =>
    refine { same with stage := Nat.le_succ _, started := fun equal => ?_, admission := fun admitted => ?_ }
    · exact absurd equal (Nat.succ_ne_self _)
    · have late := coherent.admitted admitted
      have other : Stage.admission ≠ stage := by
        rintro rfl
        simp only [Stage.index] at index
        omega
      exact Function.update_of_ne other ..
  | finish _ _ kept => exact { same with admission := fun _ => kept }
  | pause type _ _ => exact { same with paused := fun _ => rfl }
  | «continue» type paused fresh =>
    exact { same with continuation := fun present => by simp [fresh] at present }

theorem events_cons {row : Event} {rows : List Event} :
    replay.events keys (row :: rows) = .ok last ↔
    ∃ next, replay.event keys row.toValues = .ok next ∧ next.events keys rows = .ok last := by
  rw [events, bind_eq_ok]

theorem events_append {front back : List Event} :
    replay.events keys (front ++ back) = .ok last ↔
    ∃ middle, replay.events keys front = .ok middle ∧ middle.events keys back = .ok last := by
  induction front generalizing replay with
  | nil => simp [events]
  | cons _ front ih =>
    simp only [cons_append, events_cons, ih]
    constructor
    · rintro ⟨next, read, middle, rest⟩
      exact ⟨middle, ⟨next, read, rest.1⟩, rest.2⟩
    · rintro ⟨middle, ⟨next, read, front⟩, back⟩
      exact ⟨next, read, middle, front, back⟩

theorem events_sound {history rows : List Event} {first : Replay}
    (read : first.events keys rows = .ok last) (hc : Coherent first)
    (reflects : Reflects first history) :
    Coherent last ∧ Reflects last (history ++ rows) ∧ Extends first last := by
  induction rows generalizing history first with
  | nil =>
    obtain rfl := Except.ok.inj read
    rw [append_nil]
    exact ⟨hc, reflects, Extends.refl first⟩
  | cons _ _ ih =>
    obtain ⟨_, hh, rest⟩ := events_cons.1 read
    obtain ⟨-, atomic, advance⟩ := event_advance hh
    obtain ⟨coherence, reflection, extends_⟩ := ih rest (hc.advance atomic advance) (reflects.advance advance)
    rw [append_assoc, singleton_append] at reflection
    exact ⟨coherence, reflection, (advance.extends hc).trans extends_⟩

end Replay

namespace Keys
variable {keys : Keys}
variable {rows : List Event} {last : Replay}

theorem replay_eq_ok :
    keys.replay rows = .ok last ↔
    ∃ accepted rest first, rows = accepted :: rest ∧
      (∀ row ∈ rows, validateFieldMatrix row.toValues = .ok ()) ∧
      keys.replayAccepted accepted.toValues = .ok first ∧ first.events keys rest = .ok last ∧
      last.admissionPendingPause = false := by
  cases rows with
  | nil => simp [replay]
  | cons accepted rest =>
    unfold replay
    simp only [steps_ok, each_eq_ok, Bool.not_eq_true]
    constructor
    · rintro ⟨hv, first, start, _, read, hq, rfl⟩
      exact ⟨accepted, rest, first, rfl, hv, start, read, hq⟩
    · rintro ⟨_, _, first, hs, hv, start, read, hq⟩
      cases hs
      exact ⟨hv, first, start, last, read, hq, rfl⟩

theorem replayAccepted_fresh {accepted : Values} {first : Replay}
    (start : keys.replayAccepted accepted = .ok first) :
    accepted.eventType = .accepted ∧
    ∃ request frame authority, first =
        { initialRequest := request, initialRequestFrame := frame, authority := authority } := by
  unfold replayAccepted at start
  simp only [steps_ok, not_not] at start
  obtain ⟨type, request, -, -, -, frame, -, -, -, -, -, -, -, -, -, rfl⟩ := start
  exact ⟨type, request, frame, _, rfl⟩

theorem coherent_fresh (request : BrokerRequest) (frame : Bytes) (authority : ReplicaAuthority) :
    Replay.Coherent
      { initialRequest := request, initialRequestFrame := frame, authority := authority } where
  bounded := Nat.zero_le 6
  unclaimed _ := ⟨rfl, rfl, rfl, rfl⟩
  admitted := nofun
  paused := nofun
  reached := nofun
  continued := rfl
  behind := nofun
  started := nofun
  pending := nofun

theorem reflects_fresh (history : List Event) (request : BrokerRequest) (frame : Bytes)
    (authority : ReplicaAuthority) :
    Replay.Reflects
      { initialRequest := request, initialRequestFrame := frame, authority := authority }
      history where
  claimed := nofun
  started stage begun := by
    rcases begun with before | ⟨-, hi⟩
    · exact absurd before (Nat.not_lt_zero _)
    · cases hi
  completed stage before := absurd before (Nat.not_lt_zero _)
  continued := nofun
  ended := nofun

theorem replay_sound (read : keys.replay rows = .ok last) :
    last.Coherent ∧ last.Reflects rows ∧ last.admissionPendingPause = false ∧
    ∃ row ∈ rows, row.eventType = .accepted := by
  obtain ⟨ha, _, _, rfl, -, start, read, hq⟩ := replay_eq_ok.1 read
  obtain ⟨type, request, frame, authority, rfl⟩ := replayAccepted_fresh start
  obtain ⟨hc, reflects, -⟩ := Replay.events_sound read (coherent_fresh request frame authority)
    (reflects_fresh [ha] request frame authority)
  exact ⟨hc, reflects, hq, ha, mem_cons_self, type⟩

theorem replay_extends {front back : List Event} {earlier later : Replay}
    (before : keys.replay front = .ok earlier) (after : keys.replay (front ++ back) = .ok later) :
    earlier.Extends later := by
  obtain ⟨ha, _, _, rfl, -, start, read, -⟩ := replay_eq_ok.1 before
  obtain ⟨_, _, _, hs, -, start', read', -⟩ := replay_eq_ok.1 after
  cases hs
  cases start.symm.trans start'
  obtain ⟨-, request, frame, authority, rfl⟩ := replayAccepted_fresh start
  obtain ⟨hc, reflects, -⟩ := Replay.events_sound read (coherent_fresh request frame authority)
    (reflects_fresh [ha] request frame authority)
  obtain ⟨_, front, back⟩ := Replay.events_append.mp read'
  cases read.symm.trans front
  exact (Replay.events_sound back hc reflects).2.2

theorem replay_append {batch : List Event} {replay : Replay} (read : keys.replay rows = .ok replay)
    (hv : ∀ row ∈ batch, validateFieldMatrix row.toValues = .ok ())
    (more : replay.events keys batch = .ok last) (quiet : last.admissionPendingPause = false) :
    keys.replay (rows ++ batch) = .ok last := by
  obtain ⟨ha, rest, first, rfl, old, start, read, -⟩ := replay_eq_ok.1 read
  refine replay_eq_ok.2 ⟨ha, rest ++ batch, first, rfl, fun row hl => ?_, start,
    Replay.events_append.mpr ⟨replay, read, more⟩, quiet⟩
  rcases mem_append.mp hl with before | new
  · exact old row before
  · exact hv row new

end Keys

end Yinshi.Replica
