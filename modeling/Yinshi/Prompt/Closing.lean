import Yinshi.Base.Checked
import Yinshi.Prompt.Stopping

/-! When the journal of a terminal run is closed. Two writers end a run that is stopped, its
consumer and `cancel`, and each appends an event and sets the status in its own order. -/

namespace Yinshi.Prompt
open ByteText Keyed Runs Relation List Option

/-- A task is cancelled for a stop or at shutdown, and a live one has an open run. -/
structure Consumer.Sound (typeOf : Bytes → Option Text) (db : Database) (closing : Bool)
    (c : Consumer) : Prop where
  flagged : c.cancelled = true → closing = true ∨ db.Reached 2 c.runId
  isOpen : c.phase.Live → ¬ db.Reached 3 c.runId
  phase : c.phase.Sound typeOf db c.runId

def Action.Typed (typeOf : Bytes → Option Text) : Action → Prop
  | .consumer _ (.yields event) => event.Typed typeOf
  | _ => True

namespace Process
variable {s t : Process} {typeOf : Bytes → Option Text} {first : Database} {runId : Text} {ends : Text → Prop}

def Quiet (s : Process) (runId : Text) : Prop :=
  ∀ ref, ∀ c ∈ s.consumers ref, c.runId = runId → ¬ c.phase.Live

/-- The event of a stop precedes every other terminal status of its run, and a retained
status is retried only when no consumer of the run is live. -/
def Orderly (s : Process) : Action → Prop
  | .recover _ => s.db.Recoverable
  | .consumer ref .statement | .consumer ref (.lost true) =>
    ∀ c final call, s.consumers ref = some c → c.phase = .persisting final call →
      call.Terminates c.runId → s.db.statusOf c.runId = some .stopping → s.db.UserStopped c.runId
  | .reconcile number .statement | .reconcile number (.lost true) =>
    ∀ call, s.reconciles number = some call → call.call.Terminates call.runId →
      (s.db.statusOf call.runId = some .stopping → s.db.UserStopped call.runId) ∧ s.Quiet call.runId
  | _ => True

def CancelSound (s : Process) (runId : Text) : CancelPhase → Prop
  | .requesting call => ∀ run, call = .returned (.run run true) → s.db.Stopped runId
  | .coordinating => s.db.Stopped runId
  | .awaiting ref =>
    s.db.Stopped runId ∧ ref < s.nextRef ∧ (∀ c ∈ s.consumers ref, c.runId = runId) ∧
      ∀ other, ∀ c ∈ s.consumers other, c.runId = runId → c.phase.Live → other = ref
  | .appending _ => s.db.Stopped runId ∧ s.Quiet runId
  | .terminating _ => s.db.UserStopped runId ∧ s.Quiet runId

structure Sound (typeOf : Bytes → Option Text) (first : Database) (s : Process) : Prop extends Formed s where
  typed : s.db.Typed typeOf
  cancelled : ∀ runId, first.statusOf runId ≠ some .cancelled →
    s.db.statusOf runId = some .cancelled → s.db.CancelStored runId
  sounds : ∀ ref, ∀ c ∈ s.consumers ref, c.Sound typeOf s.db s.closing
  stops : ∀ number, ∀ call ∈ s.cancels number, s.CancelSound call.runId call.phase
  retries : ∀ number, ∀ call ∈ s.reconciles number, call.status = .cancelled → s.db.Excused call.runId
  retained : ∀ runId, s.pending runId = some .cancelled → s.db.Excused runId

structure Passes (typeOf : Bytes → Option Text) (ends : Text → Prop) (s t : Process) : Prop where
  settles : s.db.Settles typeOf ends t.db
  refs : s.nextRef ≤ t.nextRef
  consumers : ∀ ref, ∀ c ∈ t.consumers ref,
    (∃ old ∈ s.consumers ref, c.runId = old.runId ∧
      (c.phase.Live → old.phase.Live ∨ t.db.statusOf c.runId = some .running)) ∨
    s.nextRef ≤ ref ∧ ¬ c.phase.Live

theorem CancelSound.mono {sessionId : Text} {phase : CancelPhase}
    (sound : s.CancelSound runId phase) (passes : s.Passes typeOf ends t)
    (hf : phase.Formed t.db runId sessionId) : t.CancelSound runId phase := by
  -- a run that is stopping or over has no new live consumer
  have old : t.db.Reached 2 runId → ∀ ref, ∀ c ∈ t.consumers ref, c.runId = runId → c.phase.Live →
      ∃ old ∈ s.consumers ref, old.runId = runId ∧ old.phase.Live := by
    rintro ⟨_, hs, reached⟩ ref c hl hr live
    rcases passes.consumers ref c hl with ⟨old, ho, own, was⟩ | ⟨-, hq⟩
    · refine ⟨old, ho, own.symm.trans hr, (was live).resolve_right fun running => ?_⟩
      rw [hr, hs] at running
      cases running
      simp [Status.rank] at reached
    · exact absurd live hq
  have hq : t.db.Reached 2 runId → s.Quiet runId → t.Quiet runId := by
    intro past wasQuiet ref c hl hr live
    obtain ⟨old, ho, own, was⟩ := old past ref c hl hr live
    exact wasQuiet ref old ho own was
  cases phase with
  | requesting call => exact fun run ha => passes.settles.stopped _ (sound run ha)
  | coordinating => exact passes.settles.stopped _ sound
  | awaiting ref =>
    obtain ⟨stopped, hb, owners, alone⟩ := sound
    refine ⟨passes.settles.stopped _ stopped, hb.trans_le passes.refs, fun c hl => ?_,
      fun other c hl hr live => ?_⟩
    · rcases passes.consumers ref c hl with ⟨before, ho, own, -⟩ | ⟨_, -⟩
      · rw [own]
        exact owners before ho
      · omega
    · obtain ⟨before, ho, own, was⟩ := old hf other c hl hr live
      exact alone other before ho own was
  | appending _ => exact ⟨passes.settles.stopped _ sound.1, hq hf.1 sound.2⟩
  | terminating _ => exact ⟨sound.1.mono passes.settles.grows, hq hf.1 sound.2⟩

theorem Consumer.Sound.mono {c : Consumer} (sound : c.Sound typeOf s.db s.closing)
    (hs : s.db.Settles typeOf ends t.db) (closing : s.closing = true → t.closing = true)
    (still : c.phase.Live → ¬ ends c.runId) : c.Sound typeOf t.db t.closing where
  flagged flagged := (sound.flagged flagged).imp closing (hs.rises _ _)
  isOpen live reached := (hs.fewer _ reached).elim (sound.isOpen live) (still live)
  phase := sound.phase.mono hs.grows hs.toAdvances

def Closes (typeOf : Bytes → Option Text) (first : Database) (s t : Process) : Prop :=
  t.Sound typeOf first ∧ ∀ runId, s.db.Reached 3 runId → t.db.rows runId = s.db.rows runId

theorem Sound.closes (sound : s.Sound typeOf first) (hf : t.Formed) (hp : s.Passes typeOf ends t)
    (closing : s.closing = true → t.closing = true)
    (still : ∀ ref, ∀ c ∈ s.consumers ref, c.phase.Live → ¬ ends c.runId)
    (consumers : ∀ ref, ∀ c ∈ t.consumers ref, c ∈ s.consumers ref ∨ c.Sound typeOf t.db t.closing)
    (cancels : ∀ number, ∀ call ∈ t.cancels number,
        call ∈ s.cancels number ∨ t.CancelSound call.runId call.phase)
    (reconciles : ∀ number, ∀ call ∈ t.reconciles number,
        call ∈ s.reconciles number ∨ (call.status = .cancelled → t.db.Excused call.runId))
    (pending : ∀ runId, t.pending runId = some .cancelled →
        s.pending runId = some .cancelled ∨ t.db.Excused runId) : s.Closes typeOf first t := by
  have hs := hp.settles
  refine ⟨⟨hf, hs.typed, fun runId new hc => ?_, fun ref c hl => ?_,
    fun number call hl => ?_, fun number call hl hc => ?_, fun runId hl => ?_⟩, hs.closed⟩
  · rcases hs.cancelled runId hc with old | hst
    · exact (sound.cancelled runId new old).mono hs.grows
    · exact hst
  · rcases consumers ref c hl with old | own
    · exact Consumer.Sound.mono (sound.sounds ref c old) hs closing (still ref c old)
    · exact own
  · rcases cancels number call hl with old | own
    · exact (sound.stops number call old).mono hp (hf.cancels number call hl)
    · exact own
  · rcases reconciles number call hl with old | own
    · exact (sound.retries number call old hc).mono hs.grows hs.toAdvances
    · exact own hc
  · rcases pending runId hl with old | own
    · exact (sound.retained runId old).mono hs.grows hs.toAdvances
    · exact own

theorem Sound.elsewhere (sound : s.Sound typeOf first) (hf : t.Formed)
    (settles : s.db.Settles typeOf ends t.db)
    (still : ∀ ref, ∀ c ∈ s.consumers ref, c.phase.Live → ¬ ends c.runId)
    (refs : t.nextRef = s.nextRef) (closing : t.closing = s.closing)
    (hs : t.consumers = s.consumers)
    (cancels : ∀ number, ∀ call ∈ t.cancels number,
        call ∈ s.cancels number ∨ t.CancelSound call.runId call.phase)
    (reconciles : ∀ number, ∀ call ∈ t.reconciles number,
        call ∈ s.reconciles number ∨ (call.status = .cancelled → t.db.Excused call.runId))
    (pending : ∀ runId, t.pending runId = some .cancelled → s.pending runId = some .cancelled) :
    s.Closes typeOf first t := by
  have hp : s.Passes typeOf ends t := by
    refine ⟨settles, refs.ge, fun ref c hl => .inl ⟨c, hs ▸ hl, rfl, .inl⟩⟩
  exact sound.closes hf hp (fun isClosing => closing.trans isClosing) still
    (fun ref c hl => .inl (hs ▸ hl)) cancels reconciles fun runId hl => .inl (pending runId hl)

section Moves
variable {ref number : Nat} {c : Consumer} {move : Move}

theorem Sound.consumerTurn {turn : Turn} {cancelled : Bool} (hso : s.Sound typeOf first)
    (parses : Parses typeOf) (found : s.consumers ref = some c)
    (turns : c.phase.turn s.db s.closing c.runId move = some turn)
    (kept : cancelled = true → c.cancelled = true)
    (ho : c.phase.Orderly typeOf s.db s.closing c.runId move) :
    s.Closes typeOf first (s.consumerTurn ref c cancelled turn) := by
  have hf := (@Formed.consumerTurn s ref c move turn cancelled hso.toFormed found turns).1
  have fits := (hso.consumers ref c found).1
  have own := hso.sounds ref c found
  have hfe : ∀ i, ∀ other ∈ Function.update s.consumers ref none i, other ∈ s.consumers i :=
    forall_update (fun i _ other hl => hl) (by simp)
  have refl : s.db.Settles typeOf (fun _ => False) s.db := .refl hso.typed
  cases turn with
  | goes _ _ =>
    have hs := own.phase.turn fits own.isOpen hso.indexed hso.typed parses ho turns
    have hse := hs.settles
    refine hso.closes hf ⟨hse, le_refl _, ?_⟩ id ?_ ?_ (fun _ _ hl => .inl hl)
      (fun _ _ hl => .inl hl) fun _ hl => .inl hl
    · refine forall_update (fun i _ other hl => .inl ⟨other, hl, rfl, .inl⟩) ?_
      intro moved isMoved
      cases isMoved
      exact .inl ⟨c, found, rfl, hs.live⟩
    · rintro i other hl live ⟨same, past⟩
      obtain rfl := hso.toFormed.alone found hl same
      rw [found] at hl
      exact past (some.inj hl ▸ live)
    · refine forall_update (fun i _ other hl => .inl hl) ?_
      intro moved isMoved
      cases isMoved
      refine .inr ⟨fun flagged => (own.flagged (kept flagged)).imp_right (hse.rises _ _), ?_, hs.sound⟩
      intro live hr
      rcases hs.live live with was | running
      · rcases hse.fewer _ hr with old | past
        · exact own.isOpen was old
        · exact past.2 was
      · exact Database.not_terminal_of_rank running (by decide) hr
  | invokes =>
    have ha := invokes_setting turns
    refine hso.closes hf ⟨refl, le_refl _, ?_⟩ id (fun _ _ _ _ => id) ?_
      (fun _ _ hl => .inl hl) (fun _ _ hl => .inl hl) fun _ hl => .inl hl
    · refine forall_update (fun i _ other hl => .inl ⟨other, hl, rfl, .inl⟩) ?_
      intro moved isMoved
      cases isMoved
      exact .inl ⟨c, found, rfl, fun _ => .inl (ha ▸ trivial)⟩
    · refine forall_update (fun i _ other hl => .inl hl) ?_
      intro _ isMoved
      cases isMoved
      have isOpen := own.isOpen (ha ▸ trivial)
      exact .inr ⟨own.flagged, fun _ => isOpen, by simp [Phase.Sound]⟩
  | drops | ends =>
    exact hso.closes hf ⟨refl, le_refl _, fun i other hl => .inl ⟨other, hfe i other hl, rfl, .inl⟩⟩ id
      (fun _ _ _ _ => id) (fun i other hl => .inl (hfe i other hl))
      (fun _ _ hl => .inl hl) (fun _ _ hl => .inl hl) fun _ hl => .inl hl
  | retains status =>
    obtain ⟨_, isPhase⟩ := retains_persisting turns
    have excused := own.phase
    rw [isPhase] at excused
    refine hso.closes hf ⟨refl, le_refl _, fun i other hl => .inl ⟨other, hfe i other hl, rfl, .inl⟩⟩ id
      (fun _ _ _ _ => id) (fun i other hl => .inl (hfe i other hl))
      (fun _ _ hl => .inl hl) (fun _ _ hl => .inl hl) ?_
    intro runId hl
    change Function.update s.pending c.runId (some status) runId = some .cancelled at hl
    by_cases same : runId = c.runId
    · subst same
      rw [Function.update_self] at hl
      exact .inr (excused (some.inj hl))
    · rw [Function.update_of_ne same] at hl
      exact .inl hl

theorem Sound.flag {db : Database} (sound : s.Sound typeOf first)
    (settles : s.db.Settles typeOf ends db)
    (hs : ∀ ref, ∀ c ∈ s.consumers ref, c.phase.Live → ¬ ends c.runId)
    (how : ∀ c ∈ s.consumers ref, db.Reached 2 c.runId) :
    ∀ i, ∀ c ∈ s.flag ref i, c.Sound typeOf db s.closing := by
  intro i _ hl
  rw [flag_eq] at hl
  obtain ⟨old, ho, rfl⟩ := map_eq_some_iff.mp hl
  have hk := @Consumer.Sound.mono s { s with db := db } typeOf ends old (sound.sounds i old ho)
      settles id (hs i old ho)
  refine ⟨fun flagged => ?_, hk.isOpen, hk.phase⟩
  simp only [Bool.or_eq_true, decide_eq_true_eq] at flagged
  rcases flagged with was | rfl
  · exact hk.flagged was
  · exact .inr (how old ho)

theorem stops_stopping {db : Database} {call : Call} {sessionId : Text} {run : PromptRun}
    (stops : call.Stops db runId sessionId) (hi : db.Indexed)
    (ha : (call.step db).2 = .returned (.run run true)) :
    call = .returned (.run run true) ∨ (call.step db).1.statusOf runId = some .stopping := by
  cases call with
  | cancel r s | cancelReread r s =>
    obtain ⟨rfl, rfl⟩ := stops
    right
    simp only [Call.step] at ha ⊢
    cases hf : db.runOf r s with
    | none => simp [hf] at ha
    | some _ =>
      obtain ⟨hs, -, -⟩ := hi.statusOf_runOf hf
      simp only [hf] at ha ⊢
      split at ha
      · simp at ha
      next active =>
        rw [if_neg active]
        split at ha
        next stopping =>
          rw [if_pos stopping, ← stopping]
          exact hs
        next => simp at ha
  | cancelUpdate _ =>
    obtain ⟨rfl, rfl⟩ := stops
    simp only [Call.step] at ha ⊢
    split at ha
    next hc =>
      rw [if_pos hc]
      exact .inr (hi.statusOf_updated hc)
    next => simp at ha
  | returned _ => exact .inl ha
  | _ => exact stops.elim

structure CancelSettled (typeOf : Bytes → Option Text) (ends : Text → Prop) (s : Process)
    (call : CancelCall) (turn : CancelTurn) : Prop where
  settles : s.db.Settles typeOf ends turn.db
  still : ∀ ref, ∀ c ∈ s.consumers ref, c.phase.Live → ¬ ends c.runId
  owned : ∀ ref ∈ turn.flags, s.db.Reached 2 call.runId ∧ ∀ c ∈ s.consumers ref, c.runId = call.runId
  next : ∀ phase ∈ turn.phase, CancelSound { s with db := turn.db } call.runId phase

section
variable (sound : s.Sound typeOf first) (parses : Parses typeOf)
include sound parses

theorem Sound.cancelSettled {call : CancelCall} {turn : CancelTurn}
    (found : s.cancels number = some call)
    (turns : call.turn s.db s.live s.raised (s.tasks call.runId) move = some turn) :
    ∃ ends, s.CancelSettled typeOf ends call turn := by
  have hf := sound.cancels number call found
  have own := sound.stops number call found
  have ht := sound.typed
  have refl : s.db.Settles typeOf (fun _ => False) s.db := .refl ht
  have he : s.CancelSettled typeOf (fun _ => False) call ⟨s.db, none, none⟩ :=
    ⟨refl, fun _ _ _ _ => id, by simp, by simp⟩
  obtain ⟨runId, sessionId, phase⟩ := call
  dsimp only at hf own turns
  cases phase with
  | requesting request =>
    have hs := @Call.Stops.settles s.db typeOf (fun _ => False) request runId sessionId hf ht
    cases move <;> simp only [CancelCall.turn, requestingTurn, reduceCtorEq, some.injEq] at turns
    case statement =>
      subst turns
      refine ⟨_, hs, fun _ _ _ _ => id, by simp, fun phase hn => ?_⟩
      cases hn
      intro run ha
      rcases stops_stopping hf sound.indexed ha with already | stopping
      · exact hs.stopped _ (own run already)
      · exact .inl stopping
    case lost committed =>
      subst turns
      refine ⟨_, settles_lost ht fun _ => hs, fun _ _ _ _ => id, by simp, fun phase hn => ?_⟩
      cases hn
      intro _ ha
      cases ha
    case fail =>
      subst turns
      exact ⟨_, he⟩
    case resume =>
      split at turns <;> simp only [reduceCtorEq, some.injEq] at turns
      · subst turns
        refine ⟨_, refl, fun _ _ _ _ => id, by simp, fun phase hn => ?_⟩
        exact some.inj hn ▸ own _ rfl
      · subst turns
        exact ⟨_, he⟩
  | coordinating =>
    cases move <;> simp only [CancelCall.turn, coordinatingTurn, reduceCtorEq, some.injEq] at turns
    case resume =>
      split at turns <;> cases turns
      next ref isTask =>
        obtain ⟨registered, -⟩ := filter_eq_some_iff.mp isTask
        obtain ⟨hb, -, owners⟩ := sound.tasks runId ref registered
        refine ⟨_, refl, fun _ _ _ _ => id, ?_, fun phase hn => ?_⟩
        · intro flagged isFlag
          cases isFlag
          exact ⟨hf, owners⟩
        · cases hn
          refine ⟨own, hb, owners, fun other c hl hr _ => ?_⟩
          have isTask := (sound.consumers other c hl).2
          rw [hr, registered] at isTask
          exact (some.inj isTask).symm
      next none =>
        refine ⟨_, refl, fun _ _ _ _ => id, by simp, fun phase hn => ?_⟩
        cases hn
        refine ⟨own, fun ref c hl hr _ => ?_⟩
        have isConsumer : s.consumers ref = some c := hl
        have hr : c.runId = runId := hr
        have isTask : s.tasks runId = some ref := hr ▸ (sound.consumers ref c isConsumer).2
        simp [isTask, live, isConsumer] at none
    case fail =>
      subst turns
      exact ⟨_, he⟩
  | awaiting ref =>
    obtain ⟨stopped, hb, owners, alone⟩ := own
    cases move <;> simp only [CancelCall.turn, awaitingTurn, reduceCtorEq] at turns
    case resume =>
      split at turns
      · simp at turns
      next past =>
        split at turns <;> cases turns
        · exact ⟨_, he⟩
        · refine ⟨_, refl, fun _ _ _ _ => id, by simp, fun phase hn => ?_⟩
          cases hn
          refine ⟨stopped, fun other c hl hr isLive => past ?_⟩
          rw [← alone other c hl hr isLive, live, mem_def.mp hl]
          rfl
    case interrupt =>
      split at turns
      · cases turns
        refine ⟨_, refl, fun _ _ _ _ => id, ?_, fun phase hn => ?_⟩
        · intro _ isFlag
          cases isFlag
          exact ⟨hf, owners⟩
        · exact some.inj hn ▸ ⟨stopped, hb, owners, alone⟩
      · simp at turns
  | appending _ =>
    obtain ⟨stopped, hq⟩ := own
    obtain ⟨-, intended, rfl⟩ := hf
    have isOpen : ¬ s.db.Reached 3 runId ∨ s.db.UserStopped runId := by
      refine stopped.imp_left fun stopping => ?_
      exact Database.not_terminal_of_rank stopping (by decide)
    have hs : s.db.Settles typeOf (fun _ => False)
        (AppendCall.attempt { stopCall runId with intendedSequence := intended } s.db).1 :=
      AppendCall.settles _
        (AppendCall.proceeds _ ht parses.userStop (.inr (isOpen.imp_right fun hk => ⟨rfl, hk⟩)))
    cases move <;> simp only [CancelCall.turn, stopAppendingTurn, reduceCtorEq, some.injEq] at turns
    case statement =>
      have hk := @AppendCall.attempt_known s.db { stopCall runId with intendedSequence := intended } rfl
      split at turns <;> cases turns
      next ran =>
        rw [ran] at hs
        exact ⟨_, hs, fun _ _ _ _ => id, by simp, by simp⟩
      next normal ran =>
        rw [ran] at hs hk
        refine ⟨_, hs, fun _ _ _ _ => id, by simp, fun phase hn => ?_⟩
        cases hn
        exact ⟨hk fun error hra => normal error hra, hq⟩
    case lost committed =>
      subst turns
      have lost := @AppendCall.settles_lost s.db typeOf _ committed _ ht hs
      refine ⟨_, lost, fun _ _ _ _ => id, by simp, fun phase hn => ?_⟩
      exact some.inj hn ▸ ⟨lost.stopped _ stopped, hq⟩
    case fail =>
      subst turns
      exact ⟨_, he⟩
  | terminating write =>
    obtain ⟨stored, hq⟩ := own
    obtain ⟨-, sets⟩ := hf
    have hs : s.db.Settles typeOf (· = runId) (write.step s.db).1 :=
      sets.settles ht parses (fun _ => .inl (ht.userStopped parses stored)) (fun _ _ => stored)
        fun _ => rfl
    have still : ∀ ref, ∀ c ∈ s.consumers ref, c.phase.Live → c.runId ≠ runId :=
      fun ref c hl isLive hr => hq ref c hl hr isLive
    cases move <;> simp only [CancelCall.turn, terminatingTurn, reduceCtorEq, some.injEq] at turns
    case statement =>
      subst turns
      refine ⟨_, hs, still, by simp, fun phase hn => ?_⟩
      exact some.inj hn ▸ ⟨stored.mono hs.grows, hq⟩
    case lost committed =>
      subst turns
      have lost := @settles_lost s.db typeOf _ write committed ht fun _ => hs
      refine ⟨_, lost, still, by simp, fun phase hn => ?_⟩
      exact some.inj hn ▸ ⟨stored.mono lost.grows, hq⟩
    case fail =>
      subst turns
      exact ⟨_, he⟩
    case resume =>
      split at turns <;> simp only [reduceCtorEq, some.injEq] at turns
      subst turns
      exact ⟨_, he⟩

theorem Sound.cancelTurn {call : CancelCall} {turn : CancelTurn}
    (found : s.cancels number = some call)
    (turns : call.turn s.db s.live s.raised (s.tasks call.runId) move = some turn) :
    s.Closes typeOf first (s.cancelTurn number call turn) := by
  obtain ⟨hf, -⟩ := sound.toFormed.cancelTurn found turns
  obtain ⟨ends, hs⟩ := sound.cancelSettled parses found turns
  have hse := hs.settles
  -- the consumers differ in their flags only
  have old : ∀ ref, ∀ c ∈ (s.cancelTurn number call turn).consumers ref,
      ∃ old ∈ s.consumers ref, c.runId = old.runId ∧ c.phase = old.phase := by
    intro ref c hl
    rw [Process.cancelTurn] at hl
    cases isFlag : turn.flags with
    | none =>
      rw [isFlag] at hl
      exact ⟨c, hl, rfl, rfl⟩
    | some flagged =>
      simp only [isFlag, elim_some, flag_eq] at hl
      obtain ⟨old, ho, rfl⟩ := map_eq_some_iff.mp hl
      exact ⟨old, ho, rfl, rfl⟩
  have hp : s.Passes typeOf ends (s.cancelTurn number call turn) := by
    refine ⟨hse, le_refl _, fun ref c hl => .inl ?_⟩
    obtain ⟨before, ho, hr, isPhase⟩ := old ref c hl
    exact ⟨before, ho, hr, fun isLive => .inl (isPhase ▸ isLive)⟩
  refine sound.closes hf hp id hs.still ?_ ?_ (fun _ _ hl => .inl hl)
    fun _ hl => .inl hl
  · intro ref c hl
    rw [Process.cancelTurn] at hl ⊢
    cases isFlag : turn.flags with
    | none =>
      rw [isFlag] at hl
      exact .inl hl
    | some flagged =>
      simp only [isFlag, elim_some] at hl
      refine .inr (sound.flag hse hs.still (fun own isOwn => ?_) ref c hl)
      obtain ⟨stopped, owners⟩ := hs.owned flagged isFlag
      rw [owners own isOwn]
      exact hse.rises _ _ stopped
  · refine forall_update (fun i _ own hl => .inl hl) fun own isOwn => .inr ?_
    obtain ⟨phase, isPhase, rfl⟩ := map_eq_some_iff.mp isOwn
    have fits := hf.cancels number { call with phase := phase } (by simp [Process.cancelTurn, isPhase])
    refine CancelSound.mono (hs.next phase isPhase) (?_ : Passes typeOf (fun _ => False) _ _) fits
    refine ⟨.refl hse.typed, le_refl _, fun ref c hl => .inl ?_⟩
    obtain ⟨before, ho, hr, isSame⟩ := old ref c hl
    exact ⟨before, ho, hr, fun isLive => .inl (isSame ▸ isLive)⟩

theorem Sound.reconcileWrites {call : ReconcileCall} {next : Call}
    (hf : s.reconciles number = some call) (due : call.call.Terminates call.runId →
      (s.db.statusOf call.runId = some .stopping → s.db.UserStopped call.runId) ∧ s.Quiet call.runId)
    (formed : Formed { s with
      db := (call.call.step s.db).1
      reconciles := Function.update s.reconciles number (some { call with call := next }) }) :
    s.Closes typeOf first { s with
      db := (call.call.step s.db).1
      reconciles := Function.update s.reconciles number (some { call with call := next }) } := by
  have excused := sound.retries number call hf
  have hs : s.db.Settles typeOf (fun r => r = call.runId ∧ call.call.Terminates call.runId)
        (call.call.step s.db).1 :=
    (sound.reconciles number call hf).2.settles sound.typed parses excused
      (fun terminates => (due terminates).1) fun terminates => ⟨rfl, terminates⟩
  refine sound.elsewhere formed hs ?_ rfl rfl rfl (fun _ _ hl => .inl hl) ?_ fun _ => id
  · rintro ref c hl isLive ⟨hr, terminates⟩
    exact (due terminates).2 ref c hl hr isLive
  · refine forall_update (fun _ _ _ hl => .inl hl) fun own isOwn => .inr ?_
    cases isOwn
    exact fun hc => (excused hc).mono hs.grows hs.toAdvances

end

end Moves

theorem Sound.orderly {ref : Nat} {c : Consumer} {move : Move} (hs : s.Sound typeOf first)
    (hf : s.consumers ref = some c) (flagged : move = .interrupt → c.cancelled = true)
    (ht : (Action.consumer ref move).Typed typeOf) (ho : s.Orderly (.consumer ref move)) :
    c.phase.Orderly typeOf s.db s.closing c.runId move where
  flagged isInterrupt := (hs.sounds ref c hf).flagged (flagged isInterrupt)
  yields event isYield := by
    subst isYield
    exact ht
  stop writes final call isPhase terminates stopping := by
    rcases writes with rfl | rfl
    · exact ho c final call hf isPhase terminates stopping
    · exact ho c final call hf isPhase terminates stopping

theorem Sound.decided {start : StartCall} {run : PromptRun} {created : Bool}
    (hs : s.Sound typeOf first) (found : s.starting = some start)
    (ha : start.call = .returned (.run run created)) :
    s.Closes typeOf first (s.decided start run created) := by
  obtain ⟨hf, free⟩ := hs.toFormed.decided found ha
  have refl : s.db.Settles typeOf (fun _ => False) s.db := .refl hs.typed
  by_cases decides : created = true ∨ run.status = .starting ∧ s.tasks run.id = none
  · have isFree := free decides
    rw [Process.decided, if_pos decides, Process.register] at hf ⊢
    simp only [isFree] at hf ⊢
    refine hs.closes hf ⟨refl, Nat.le_succ _, ?_⟩ id (fun _ _ _ _ => id) ?_
      (fun _ _ hl => .inl hl) (fun _ _ hl => .inl hl) fun _ hl => .inl hl
    · refine forall_update (fun i _ other hl => .inl ⟨other, hl, rfl, .inl⟩) fun own isOwn => .inr ?_
      exact some.inj isOwn ▸ ⟨le_refl _, id⟩
    · refine forall_update (fun i _ other hl => .inl hl) fun own isOwn => .inr ?_
      exact some.inj isOwn ▸ ⟨by simp, False.elim, trivial⟩
  · rw [Process.decided, if_neg decides] at hf ⊢
    exact hs.elsewhere hf refl (fun _ _ _ _ => id) rfl rfl rfl (fun _ _ hl => .inl hl)
      (fun _ _ hl => .inl hl) fun _ => id

theorem Sound.closeTasks (hs : s.Sound typeOf first) (hf : s.closes.Formed) :
    s.Closes typeOf first s.closes := by
  have refl : s.db.Settles typeOf (fun _ => False) s.db := .refl hs.typed
  refine hs.closes hf ⟨refl, le_refl _, fun ref c hl => .inl ?_⟩ (fun _ => rfl) (fun _ _ _ _ => id)
    (fun ref c hl => .inr ?_) (fun _ _ hl => .inl hl) (fun _ _ hl => .inl hl)
    fun _ hl => .inl hl
  · obtain ⟨old, ho, rfl⟩ := map_eq_some_iff.mp hl
    exact ⟨old, ho, rfl, .inl⟩
  · obtain ⟨old, ho, rfl⟩ := map_eq_some_iff.mp hl
    have own := hs.sounds ref old ho
    exact ⟨fun _ => .inl rfl, own.isOpen, own.phase⟩

theorem Sound.acts {action : Action} (sound : s.Sound typeOf first) (parses : Parses typeOf)
    (ht : action.Typed typeOf) (ho : s.Orderly action) (hac : s.Acts action t) :
    s.Closes typeOf first t := by
  obtain ⟨formed, -⟩ := sound.toFormed.acts hac
  have refl : s.db.Settles typeOf (fun _ => False) s.db := .refl sound.typed
  have sameCancels : ∀ number, ∀ call ∈ s.cancels number,
      call ∈ s.cancels number ∨ t.CancelSound call.runId call.phase := fun _ _ hl => .inl hl
  have sameReconciles : ∀ number, ∀ call ∈ s.reconciles number,
      call ∈ s.reconciles number ∨ (call.status = .cancelled → t.db.Excused call.runId) :=
    fun _ _ hl => .inl hl
  cases hac with
  | recover cold =>
    obtain ⟨-, noConsumer, noCancel, noReconcile⟩ := sound.cold cold
    have proceeds := Database.proceeds_recover sound.indexed sound.typed parses ho
    refine ⟨⟨formed, proceeds.typed, fun runId new hc => ?_, ?_, ?_, ?_, fun runId hl => ?_⟩, proceeds.closed⟩
    · rcases proceeds.cancelled runId hc with old | stored
      · exact (sound.cancelled runId new old).mono proceeds.grows
      · exact stored
    · simp [noConsumer]
    · simp [noCancel]
    · simp [noReconcile]
    · exact (sound.retained runId hl).mono proceeds.grows proceeds.toAdvances
  | restart => exact ⟨⟨formed, sound.typed, sound.cancelled, by simp, by simp, by simp, by simp⟩, fun _ _ => rfl⟩
  | begin | startFails | clear gathered =>
    exact sound.elsewhere formed refl (fun _ _ _ _ => id) rfl rfl rfl sameCancels sameReconciles fun _ => id
  | startStatement hf =>
    obtain ⟨starts, -⟩ := sound.start _ hf
    have hs : s.db.Settles typeOf (fun _ => False) _ := starts.settles sound.typed
    exact sound.elsewhere formed hs (fun _ _ _ _ => id) rfl rfl rfl sameCancels sameReconciles fun _ => id
  | @startLost start committed hf =>
    obtain ⟨starts, -⟩ := sound.start _ hf
    have hs : s.db.Settles typeOf (fun _ => False) (start.call.lost s.db committed) :=
      settles_lost sound.typed fun _ => starts.settles sound.typed
    exact sound.elsewhere formed hs (fun _ _ _ _ => id) rfl rfl rfl sameCancels sameReconciles fun _ => id
  | decides hf ha => exact sound.decided hf ha
  | consumer hf turns hk flagged =>
    exact sound.consumerTurn parses hf turns hk (sound.orderly hf flagged ht ho)
  | stop warm =>
    refine sound.elsewhere formed refl (fun _ _ _ _ => id) rfl rfl rfl ?_ sameReconciles fun _ => id
    refine forall_update (fun _ _ _ hl => .inl hl) fun own isOwn => .inr ?_
    cases isOwn
    intro _ ha
    cases ha
  | cancel hf turns => exact sound.cancelTurn parses hf turns
  | retry _ isPending =>
    refine sound.elsewhere formed refl (fun _ _ _ _ => id) rfl rfl rfl sameCancels ?_ fun _ => id
    refine forall_update (fun _ _ _ hl => .inl hl) fun own isOwn => .inr ?_
    cases isOwn
    intro hc
    exact sound.retained _ (hc ▸ isPending)
  | reconcileStatement hf => exact sound.reconcileWrites parses hf (ho _ hf) formed
  | @reconcileLost number call committed hf =>
    cases committed with
    | true => exact sound.reconcileWrites parses hf (ho _ hf) formed
    | false =>
      refine sound.elsewhere formed refl (fun _ _ _ _ => id) rfl rfl rfl sameCancels ?_ fun _ => id
      refine forall_update (fun _ _ _ hl => .inl hl) fun own isOwn => .inr ?_
      cases isOwn
      exact sound.retries number call hf
  | @reconcileEnds _ call _ _ _ fewer =>
    refine sound.elsewhere formed refl (fun _ _ _ _ => id) rfl rfl rfl sameCancels ?_ ?_
    · exact forall_update (fun _ _ _ hl => .inl hl) (by simp)
    · intro runId hl
      rcases fewer with rfl | rfl
      · exact hl
      · by_cases same : runId = call.runId
        · subst same
          simp at hl
        · simpa [same] using hl
  | close => exact sound.closeTasks formed

end Process

theorem collectEvents_keeps {rows : List EventRow} {events more : List Event}
    {cursor used next : Nat} (collects : collectEvents rows events cursor used = .ok (more, next)) :
    events <+: more := by
  induction rows generalizing events cursor used with
  | nil =>
    cases collects
    exact prefix_refl _
  | cons _ _ ih =>
    rw [collectEvents] at collects
    split at collects
    · cases collects
    · split at collects
      · cases collects
        exact prefix_refl _
      · exact (prefix_append _ _).trans (ih collects)

theorem empty_page {db : Database} {sessionId runId : Text} {cursor : Nat}
    {batch : PromptEventBatch} (indexed : db.Indexed)
    (reads : db.readEvents sessionId runId cursor = .ok batch) (empty : batch.events = []) :
    db.statusOf runId = some batch.status ∧ ∀ row ∈ db.journal runId, row.sequence < cursor := by
  rw [Database.readEvents] at reads
  split at reads
  · cases reads
  next run hf =>
    obtain ⟨⟨events, _⟩, collects, isBatch⟩ := Checked.bind_eq_ok.mp reads
    cases isBatch
    refine ⟨(indexed.statusOf_runOf hf).1, fun row hl => ?_⟩
    by_contra later
    have hr : row ∈ (db.journal runId).filter (cursor ≤ ·.sequence) :=
      mem_filter.mpr ⟨hl, by simpa using later⟩
    cases rest : (db.journal runId).filter (cursor ≤ ·.sequence) with
    | nil => simp [rest] at hr
    | cons _ _ =>
      rw [rest, eventBatchMax, take_succ_cons, collectEvents] at collects
      split at collects
      · cases collects
      · have hk := (collectEvents_keeps collects).subset (mem_append_right _ (mem_singleton_self _))
        have none : events = [] := empty
        simp [none] at hk

namespace Process
variable {s t : Process} {typeOf : Bytes → Option Text}

/-- An orderly step, with an executor whose events carry their type. -/
def OrderlyStep (typeOf : Bytes → Option Text) : Process → Process → Prop :=
  StepWith fun s action => action.Typed typeOf ∧ s.Orderly action

theorem sound_start {db : Database} (hi : db.Indexed) (ht : db.Typed typeOf) :
    Sound typeOf db { db := db } := by
  refine ⟨formed_start hi, ht, fun runId new hc => absurd hc new, ?_, ?_, ?_, ?_⟩ <;> simp

theorem Sound.run {first : Database} (sound : s.Sound typeOf first) (parses : Parses typeOf)
    (run : ReflTransGen (OrderlyStep typeOf) s t) :
    t.Sound typeOf first ∧
    ∀ runId, s.db.Reached 3 runId → t.db.Reached 3 runId ∧ t.db.rows runId = s.db.rows runId := by
  refine run_keeps (fun u => u.Sound typeOf first ∧ ∀ runId, s.db.Reached 3 runId →
    u.db.Reached 3 runId ∧ u.db.rows runId = s.db.rows runId) (fun u v step hh => ?_) run
    ⟨sound, fun _ hr => ⟨hr, rfl⟩⟩
  obtain ⟨_, ⟨ht, ho⟩, steps⟩ := step
  have ha := acts_of_act steps
  obtain ⟨hk, hc⟩ := hh.1.acts parses ht ho ha
  refine ⟨hk, fun runId hr => ?_⟩
  obtain ⟨before, hs⟩ := hh.2 runId hr
  exact ⟨(hh.1.toFormed.acts ha).2.rises _ _ before, (hc runId before).trans hs⟩

/-- In orderly runs of a process, restarts and recovery included: the journal of a terminal
run is closed, a run that was cancelled has its event, and a reader that sees a terminal
status with an empty page has read all there will be. -/
theorem terminal_journal_closed {db : Database} (parses : Parses typeOf) (indexed : db.Indexed)
    (typed : db.Typed typeOf) (run : ReflTransGen (OrderlyStep typeOf) { db := db } s)
    (more : ReflTransGen (OrderlyStep typeOf) s t) :
    (∀ runId, ∀ status ∈ terminalStatuses,
        s.db.statusOf runId = some status → t.db.journal runId = s.db.journal runId) ∧
    (∀ runId, db.statusOf runId ≠ some .cancelled → s.db.statusOf runId = some .cancelled →
      ∃ row ∈ s.db.journal runId, row.event.type = some cancelledType) ∧
    ∀ sessionId runId cursor batch, s.db.readEvents sessionId runId cursor = .ok batch →
      batch.status ∈ terminalStatuses → batch.events = [] →
      ∀ row ∈ t.db.journal runId, row.sequence < cursor := by
  obtain ⟨hs, -⟩ := (sound_start indexed typed).run parses run
  obtain ⟨-, closed⟩ := hs.run parses more
  have same : ∀ runId, ∀ status ∈ terminalStatuses, s.db.statusOf runId = some status →
      t.db.journal runId = s.db.journal runId := by
    intro runId status terminal isStatus
    have hk := (closed runId (Database.reached_terminal.mpr ⟨status, terminal, isStatus⟩)).2
    rw [Database.rows, Database.rows] at hk
    rw [Database.journal, Database.journal, hk]
  refine ⟨same, fun runId new hc => ?_, fun sessionId runId cursor batch reads terminal empty => ?_⟩
  · obtain ⟨row, hl, isType⟩ := hs.cancelled runId new hc
    exact ⟨row, mem_sortBy.mpr hl, isType⟩
  · obtain ⟨isStatus, read⟩ := empty_page hs.indexed reads empty
    rw [same runId batch.status terminal isStatus]
    exact read

def ownType (json : Bytes) : Option Text :=
  if json = userStopEvent.json then some cancelledType
  else if json = interruptedEvent.json ∨ json = executionFailedEvent.json then some errorType
  else none

theorem parses_ownType : Parses ownType := ⟨rfl, rfl, rfl⟩

/-- A stop before the task is registered: `cancel` stores its event and ends the run. -/
def earlyStop : List Action :=
  [.begin (text "run") (text "session") (text "key"), .start .statement, .start .statement, .start .statement,
    .stop 0 (text "session") (text "run"), .cancel 0 .statement, .cancel 0 .statement, .cancel 0 .resume,
    .cancel 0 .resume, .cancel 0 .statement, .cancel 0 .statement, .cancel 0 .statement]

def recoveredEmpty : Process := { db := emptyDatabase.recoverPromptDatabase, recovered := true }

def stoppedEarly : Process := (earlyStop.foldlM act recoveredEmpty).getD recoveredEmpty

theorem terminal_journal_closed_earlyStop :
    ∃ s t : Process, ReflTransGen (OrderlyStep ownType) { db := emptyDatabase } s ∧
      ReflTransGen (OrderlyStep ownType) s t ∧ s.db.statusOf (text "run") = some .cancelled ∧
      t.db.journal (text "run") = s.db.journal (text "run") ∧
      ∃ row ∈ s.db.journal (text "run"), row.event.type = some cancelledType := by
  have hi : emptyDatabase.Indexed := ⟨by decide, by decide, by decide⟩
  have recovers : OrderlyStep ownType { db := emptyDatabase } recoveredEmpty :=
    ⟨.recover true, ⟨trivial, by simp [Orderly, Database.Recoverable, emptyDatabase]⟩, rfl⟩
  have hs : ReflTransGen (OrderlyStep ownType) recoveredEmpty stoppedEarly :=
    run_of_actions earlyStop rfl (by simp [earlyStop, Orderly, Action.Typed])
  have decides : ReflTransGen (OrderlyStep ownType) stoppedEarly _ :=
    run_of_actions [.start .resume] rfl (by simp [Orderly, Action.Typed])
  have run := ReflTransGen.head recovers hs
  have hc : stoppedEarly.db.statusOf (text "run") = some .cancelled := by decide
  obtain ⟨closed, stored, -⟩ := terminal_journal_closed parses_ownType hi
    (by simp [Database.Typed, emptyDatabase]) run decides
  exact ⟨stoppedEarly, _, run, decides, hc, closed _ _ (by decide) hc, stored _ (by decide) hc⟩

/-- The stop of a run that is executed: the coordinator knows no run, the task is cancelled
and awaited. -/
def lateStop : List Action :=
  [.stop 0 (text "session") (text "run"), .cancel 0 .statement, .cancel 0 .statement, .cancel 0 .resume,
    .cancel 0 .resume]

def skippedEvent : List Action :=
  [.consumer 0 .interrupt, .consumer 0 .statement, .consumer 0 .resume, .consumer 0 .statement,
    .consumer 0 .statement]

def lateEvent : List Action := [.consumer 0 .resume, .cancel 0 .resume, .cancel 0 .statement]

def stoppedLate : List Action :=
  firstStart ++ [.start .resume] ++ execution 0 ++ lateStop ++ skippedEvent

/-- The run is cancelled without its event, which is stored afterwards. -/
theorem event_after_terminal_status :
    ∃ s t : Process, ReflTransGen Step { db := emptyDatabase } s ∧ ReflTransGen Step s t ∧
      s.db.statusOf (text "run") = some .cancelled ∧ s.db.journal (text "run") = [] ∧
      t.db.journal (text "run") = [⟨text "run", 0, userStopEvent⟩] := by
  obtain ⟨s, t, ran, late, isCancelled, empty, stored⟩ : ∃ s t : Process,
      stoppedLate.foldlM act { db := emptyDatabase } = some s ∧ lateEvent.foldlM act s = some t ∧
      s.db.statusOf (text "run") = some .cancelled ∧ s.db.journal (text "run") = [] ∧
      t.db.journal (text "run") = [⟨text "run", 0, userStopEvent⟩] :=
    ⟨_, _, rfl, rfl, by decide, by decide, by decide⟩
  exact ⟨s, t, run_of_actions stoppedLate ran (by simp), run_of_actions lateEvent late (by simp),
    isCancelled, empty, stored⟩

end Process

end Yinshi.Prompt
