import Yinshi.Prompt.Operations

/-! Registered tasks and executions: a run has at most one consumer at a time, which is
registered until it ends; when a run is executed more than once. -/

namespace Yinshi.Prompt
open ByteText Keyed Runs Relation List Option

namespace Process
variable {s : Process} {ref number : Nat} {c : Consumer}
variable {start : StartCall}

def Idle (s : Process) : Prop :=
  s.starting = none ∧ (∀ ref, s.consumers ref = none) ∧ (∀ number, s.cancels number = none) ∧
    ∀ number, s.reconciles number = none

/-- Operations know their runs, and every consumer is the registered task of its run. -/
structure Formed (s : Process) : Prop where
  indexed : s.db.Indexed
  cold : s.recovered = false → s.Idle
  start : ∀ start ∈ s.starting,
    start.call.Starts s.db start.id start.sessionId start.key ∧ s.tasks start.id = none
  consumers : ∀ ref, ∀ c ∈ s.consumers ref, c.phase.Formed s.db c.runId ∧ s.tasks c.runId = some ref
  tasks : ∀ runId, ∀ ref ∈ s.tasks runId, ref < s.nextRef ∧ s.db.Reached 0 runId ∧
    ∀ c ∈ s.consumers ref, c.runId = runId
  cancels : ∀ number, ∀ call ∈ s.cancels number, call.phase.Formed s.db call.runId call.sessionId
  reconciles : ∀ number, ∀ call ∈ s.reconciles number, call.Formed s.db
  pending : ∀ runId, ∀ status ∈ s.pending runId, status ∈ terminalStatuses

theorem Formed.warm (hf : s.Formed) (busy : ¬ s.Idle) : s.recovered = true := by
  by_contra cold
  exact busy (hf.cold (by simpa using cold))

theorem Formed.warm_of_start (hf : s.Formed) (found : s.starting = some start) :
    s.recovered = true := hf.warm fun hi => by simp [hi.1] at found

theorem Formed.warm_of_consumer (hf : s.Formed) (found : s.consumers ref = some c) :
    s.recovered = true := hf.warm fun hi => by simp [hi.2.1] at found

theorem Formed.warm_of_reconcile {call : ReconcileCall} (hf : s.Formed)
    (found : s.reconciles number = some call) : s.recovered = true :=
  hf.warm fun hi => by simp [hi.2.2.2] at found

theorem Formed.alone {other : Nat} {c' : Consumer} (hf : s.Formed)
    (found : s.consumers ref = some c) (also : s.consumers other = some c')
    (hs : c'.runId = c.runId) : other = ref := by
  have first := (hf.consumers ref c found).2
  have second := (hf.consumers other c' also).2
  rw [hs, first] at second
  exact (some.inj second).symm

/-! One part of the process changes. -/

theorem Formed.advance {db : Database} (hf : s.Formed) (ha : s.db.Advances db) :
    Formed { s with db := db } where
  indexed := ha.indexed hf.indexed
  cold := hf.cold
  start start found := ⟨(hf.start start found).1.mono ha, (hf.start start found).2⟩
  consumers ref c found :=
    ⟨(hf.consumers ref c found).1.mono ha, (hf.consumers ref c found).2⟩
  tasks runId ref found :=
    ⟨(hf.tasks runId ref found).1, ha.rises _ _ (hf.tasks runId ref found).2.1,
      (hf.tasks runId ref found).2.2⟩
  cancels number call found := (hf.cancels number call found).mono ha
  reconciles number call found :=
    ⟨(hf.reconciles number call found).1, (hf.reconciles number call found).2.mono ha⟩
  pending := hf.pending

theorem Formed.setStarting {starting : Option StartCall} (formed : s.Formed)
    (warm : s.recovered = true)
    (fits : ∀ start ∈ starting,
        start.call.Starts s.db start.id start.sessionId start.key ∧ s.tasks start.id = none) :
    Formed { s with starting := starting } :=
  { formed with cold := fun cold => by simp [warm] at cold, start := fits }

theorem Formed.setCancel {call : Option CancelCall} (hf : s.Formed) (warm : s.recovered = true)
    (fits : ∀ own ∈ call, own.phase.Formed s.db own.runId own.sessionId) :
    Formed { s with cancels := Function.update s.cancels number call } :=
  { hf with
    cold := fun cold => by simp [warm] at cold
    cancels := forall_update (fun i _ => hf.cancels i) fits }

theorem Formed.setReconcile {call : Option ReconcileCall} (hf : s.Formed)
    (warm : s.recovered = true) (fits : ∀ own ∈ call, own.Formed s.db) :
    Formed { s with reconciles := Function.update s.reconciles number call } :=
  { hf with
    cold := fun cold => by simp [warm] at cold
    reconciles := forall_update (fun i _ => hf.reconciles i) fits }

theorem Formed.setPending {runId : Text} {status : Option Status} (formed : s.Formed)
    (fits : ∀ own ∈ status, own ∈ terminalStatuses) :
    Formed { s with pending := Function.update s.pending runId status } :=
  { formed with pending := forall_update (fun i _ => formed.pending i) fits }

theorem Formed.moveConsumer {c' : Consumer} (hf : s.Formed) (found : s.consumers ref = some c)
    (hs : c'.runId = c.runId) (fits : c'.phase.Formed s.db c.runId) :
    Formed { s with consumers := Function.update s.consumers ref (some c') } := by
  have hr := (hf.consumers ref c found).2
  refine { hf with
    cold := fun cold => by simp [hf.warm_of_consumer found] at cold
    consumers := forall_update (fun i _ => hf.consumers i) ?_
    tasks := fun runId own ht => ?_ }
  · intro own isOwn
    cases isOwn
    exact ⟨hs ▸ fits, hs ▸ hr⟩
  · obtain ⟨hb, hk, owners⟩ := hf.tasks runId own ht
    refine ⟨hb, hk, fun other hl => ?_⟩
    dsimp only at hl
    by_cases isRef : own = ref
    · subst isRef
      rw [Function.update_self] at hl
      rw [← some.inj hl, hs]
      exact owners c found
    · rw [Function.update_of_ne isRef] at hl
      exact owners other hl

theorem Formed.dropConsumer (formed : s.Formed) :
    Formed { s with consumers := Function.update s.consumers ref none } := by
  have hf : ∀ i, ∀ other ∈ Function.update s.consumers ref none i, other ∈ s.consumers i :=
    forall_update (fun i _ other hl => hl) (by simp)
  refine { formed with
    cold := fun cold => ⟨(formed.cold cold).1, fun i => ?_, (formed.cold cold).2.2⟩
    consumers := fun i other hl => formed.consumers i other (hf i other hl)
    tasks := fun runId own ht => ?_ }
  · rw [eq_none_iff_forall_not_mem]
    intro other hl
    have := hf i other hl
    simp [(formed.cold cold).2.1] at this
  · obtain ⟨hb, hk, owners⟩ := formed.tasks runId own ht
    exact ⟨hb, hk, fun other hl => owners other (hf own other hl)⟩

theorem Formed.endConsumer (formed : s.Formed) (found : s.consumers ref = some c) :
    Formed { s with
        consumers := Function.update s.consumers ref none, tasks := s.unregister ref c.runId } := by
  have hr := (formed.consumers ref c found).2
  have dropped := @Formed.dropConsumer s ref formed
  have hs : s.unregister ref c.runId = Function.update s.tasks c.runId none := if_pos hr
  have hf : ∀ runId, ∀ own ∈ s.unregister ref c.runId runId, own ∈ s.tasks runId := by
    rw [hs]
    exact forall_update (fun i _ own hl => hl) (by simp)
  refine { dropped with
    start := fun start isStart => ⟨(dropped.start start isStart).1, ?_⟩
    consumers := fun i other hl => ⟨(dropped.consumers i other hl).1, ?_⟩
    tasks := fun runId own ht => dropped.tasks runId own (hf runId own ht) }
  · rw [eq_none_iff_forall_not_mem]
    intro own hl
    have := hf start.id own hl
    simp [(formed.start start isStart).2] at this
  · have ht := (dropped.consumers i other hl).2
    show s.unregister ref c.runId other.runId = some i
    rw [hs, Function.update_of_ne, ht]
    intro isRun
    rw [isRun, hr] at ht
    cases ht
    simp at hl

theorem Formed.relabel (hf : s.Formed) {consumers : Nat → Option Consumer}
    {flags : Nat → Consumer → Bool}
    (flagged :
      ∀ ref, consumers ref = (s.consumers ref).map fun c => { c with cancelled := flags ref c }) :
    Formed { s with consumers := consumers } := by
  have old : ∀ i, ∀ other ∈ consumers i, ∃ c ∈ s.consumers i, other.runId = c.runId ∧ other.phase = c.phase := by
    intro i other hl
    rw [flagged] at hl
    obtain ⟨c, ho, rfl⟩ := map_eq_some_iff.mp hl
    exact ⟨c, ho, rfl, rfl⟩
  refine { hf with
    cold := fun cold => ⟨(hf.cold cold).1, fun i => ?_, (hf.cold cold).2.2⟩
    consumers := fun i other hl => ?_
    tasks := fun runId own ht => ?_ }
  · show consumers i = none
    rw [flagged, (hf.cold cold).2.1]
    rfl
  · obtain ⟨c, ho, hr, isPhase⟩ := old i other hl
    rw [hr, isPhase]
    exact hf.consumers i c ho
  · obtain ⟨hb, hk, owners⟩ := hf.tasks runId own ht
    refine ⟨hb, hk, fun other hl => ?_⟩
    obtain ⟨c, ho, hr, -⟩ := old own other hl
    rw [hr]
    exact owners c ho

theorem flag_eq (s : Process) (ref : Nat) (i : Nat) : s.flag ref i =
    (s.consumers i).map fun c => { c with cancelled := c.cancelled || decide (i = ref) } := by
  rw [flag]
  by_cases hs : i = ref
  · subst hs
    simp
  · simp [hs]

theorem Formed.register {run : PromptRun} (formed : s.Formed) (warm : s.recovered = true)
    (hk : s.db.Reached 0 run.id) (free : s.tasks run.id = none) :
    (s.register start run).Formed := by
  simp only [Process.register, free]
  refine { formed with
    cold := fun cold => by simp [warm] at cold
    start := by simp
    consumers := forall_update (fun i _ other hl => ?_) ?_
    tasks := ?_ }
  · obtain ⟨hf, ht⟩ := formed.consumers i other hl
    refine ⟨hf, ?_⟩
    dsimp only
    rw [Function.update_of_ne, ht]
    rintro hs
    simp [hs, free] at ht
  · intro own isOwn
    cases isOwn
    exact ⟨trivial, Function.update_self _ _ _⟩
  · refine forall_update (fun runId _ own ht => ?_) ?_
    · obtain ⟨hb, isKnown, owners⟩ := formed.tasks runId own ht
      refine ⟨Nat.lt_succ_of_lt hb, isKnown, fun other hl => ?_⟩
      dsimp only at hl
      rw [Function.update_of_ne (Nat.ne_of_lt hb)] at hl
      exact owners other hl
    · intro _ isOwn
      cases isOwn
      refine ⟨Nat.lt_succ_self _, hk, fun other hl => ?_⟩
      dsimp only at hl
      rw [Function.update_self] at hl
      rw [← some.inj hl]

variable {t : Process} {move : Move}

inductive Acts (s : Process) : Action → Process → Prop
  | recover {reported : Bool} (cold : s.recovered = false) :
      Acts s (.recover reported) { s with db := s.db.recoverPromptDatabase, recovered := reported }
  | restart : Acts s .restart
      { db := s.db, nextRef := s.nextRef, invoked := s.invoked, returned := s.returned }
  | begin {id sessionId key : Text} (warm : s.recovered = true) (isFresh : s.db.runById id = none) :
      Acts s (.begin id sessionId key)
        { s with starting := some ⟨id, sessionId, key, .start id sessionId key⟩ }
  | startStatement {start : StartCall} (found : s.starting = some start) :
      Acts s (.start .statement) { s with
        db := (start.call.step s.db).1, starting := some { start with call := (start.call.step s.db).2 } }
  | startLost {start : StartCall} {committed : Bool} (found : s.starting = some start) :
      Acts s (.start (.lost committed)) { s with
        db := start.call.lost s.db committed,
        starting := some { start with call := .start start.id start.sessionId start.key } }
  | startFails {start : StartCall} (found : s.starting = some start) {move : Move} :
      Acts s (.start move) { s with starting := none }
  | decides {start : StartCall} {run : PromptRun} {created : Bool} (found : s.starting = some start)
      (answered : start.call = .returned (.run run created)) :
      Acts s (.start .resume) (s.decided start run created)
  | consumer {ref : Nat} {c : Consumer} {move : Move} {turn : Turn} {cancelled : Bool}
      (found : s.consumers ref = some c) (turns : c.phase.turn s.db s.closing c.runId move = some turn)
      (kept : cancelled = true → c.cancelled = true) (flagged : move = .interrupt → c.cancelled = true) :
      Acts s (.consumer ref move) (s.consumerTurn ref c cancelled turn)
  | stop {number : Nat} {sessionId runId : Text} (warm : s.recovered = true) :
      Acts s (.stop number sessionId runId) { s with
        cancels := Function.update s.cancels number
          (some ⟨runId, sessionId, .requesting (.cancel runId sessionId)⟩) }
  | cancel {number : Nat} {call : CancelCall} {move : Move} {turn : CancelTurn}
      (found : s.cancels number = some call)
      (turns : call.turn s.db s.live s.raised (s.tasks call.runId) move = some turn) :
      Acts s (.cancel number move) (s.cancelTurn number call turn)
  | retry {number : Nat} {runId : Text} {status : Status} (warm : s.recovered = true)
      (isPending : s.pending runId = some status) :
      Acts s (.retry number runId) { s with
        reconciles := Function.update s.reconciles number
          (some ⟨runId, status, .setTerminal runId status⟩) }
  | reconcileStatement {number : Nat} {call : ReconcileCall}
      (found : s.reconciles number = some call) : Acts s (.reconcile number .statement) { s with
        db := (call.call.step s.db).1
        reconciles := Function.update s.reconciles number (some { call with call := (call.call.step s.db).2 }) }
  | reconcileLost {number : Nat} {call : ReconcileCall} {committed : Bool}
      (found : s.reconciles number = some call) :
      Acts s (.reconcile number (.lost committed)) { s with
        db := call.call.lost s.db committed
        reconciles := Function.update s.reconciles number
          (some { call with call := .setTerminal call.runId call.status }) }
  | reconcileEnds {number : Nat} {call : ReconcileCall} {move : Move}
      {pending : Text → Option Status} (found : s.reconciles number = some call)
      (fewer : pending = s.pending ∨ pending = Function.update s.pending call.runId none) :
      Acts s (.reconcile number move) { s with
        reconciles := Function.update s.reconciles number none, pending := pending }
  | close : Acts s .close s.closes
  | clear (gathered : s.Gathered) : Acts s .clear { s with tasks := fun _ => none }

theorem acts_reconcile {call : ReconcileCall} (hf : s.reconciles number = some call)
    (turns : s.reconcileTurn number call move = some t) : s.Acts (.reconcile number move) t := by
  cases move <;> simp only [reconcileTurn, reduceCtorEq, some.injEq] at turns
  case statement => exact turns ▸ .reconcileStatement hf
  case lost committed => exact turns ▸ .reconcileLost hf
  case fail => exact turns ▸ .reconcileEnds hf (.inl rfl)
  case resume =>
    split at turns
    · exact some.inj turns ▸ .reconcileEnds hf (.inl rfl)
    · refine some.inj turns ▸ .reconcileEnds hf ?_
      split
      · exact .inr rfl
      · exact .inl rfl
    · simp at turns

theorem acts_of_act {action : Action} (steps : s.act action = some t) : s.Acts action t := by
  cases action with
  | recover _ =>
    simp only [act] at steps
    split at steps
    · simp at steps
    next cold => exact some.inj steps ▸ .recover (by simpa using cold)
  | restart => exact some.inj steps ▸ .restart
  | begin _ sessionId _ =>
    simp only [act] at steps
    split at steps
    next allowed => exact some.inj steps ▸ .begin allowed.1 allowed.2.2.2
    next => simp at steps
  | start move =>
    obtain ⟨_, hf, turns⟩ := bind_eq_some_iff.mp steps
    cases move <;> simp only [startTurn, reduceCtorEq, some.injEq] at turns
    case statement => exact turns ▸ .startStatement hf
    case lost committed => exact turns ▸ .startLost hf
    case fail => exact turns ▸ .startFails hf
    case resume =>
      split at turns
      next ha => exact some.inj turns ▸ .decides hf ha
      next => exact some.inj turns ▸ .startFails hf
      next => simp at turns
  | consumer _ move =>
    obtain ⟨_, hf, moves⟩ := bind_eq_some_iff.mp steps
    cases move with
    | interrupt =>
      simp only [consumerMove] at moves
      split at moves
      next flagged =>
        obtain ⟨turn, turns, rfl⟩ := map_eq_some_iff.mp moves
        exact .consumer hf turns (by simp) fun _ => flagged
      next => simp at moves
    | _ =>
      obtain ⟨_, turns, rfl⟩ := map_eq_some_iff.mp moves
      exact .consumer hf turns id (by simp)
  | stop number _ runId =>
    simp only [act] at steps
    split at steps
    next allowed => exact some.inj steps ▸ .stop allowed.1
    next => simp at steps
  | cancel number move =>
    obtain ⟨call, hf, moves⟩ := bind_eq_some_iff.mp steps
    obtain ⟨_, turns, rfl⟩ := map_eq_some_iff.mp moves
    exact .cancel hf turns
  | retry number _ =>
    simp only [act] at steps
    split at steps
    next allowed =>
      obtain ⟨_, isPending, rfl⟩ := map_eq_some_iff.mp steps
      exact .retry allowed.1 isPending
    next => simp at steps
  | reconcile _ _ =>
    obtain ⟨_, hf, turns⟩ := bind_eq_some_iff.mp steps
    exact acts_reconcile hf turns
  | close =>
    simp only [act] at steps
    split at steps
    · exact some.inj steps ▸ .close
    · simp at steps
  | clear =>
    simp only [act] at steps
    split at steps
    next allowed => exact some.inj steps ▸ .clear allowed.2
    next => simp at steps

theorem Formed.consumerTurn {turn : Turn} {cancelled : Bool} (formed : s.Formed)
    (found : s.consumers ref = some c)
    (turns : c.phase.turn s.db s.closing c.runId move = some turn) :
    (s.consumerTurn ref c cancelled turn).Formed ∧
    s.db.Advances (s.consumerTurn ref c cancelled turn).db := by
  have hf := (formed.consumers ref c found).1
  cases turn with
  | goes _ phase =>
    obtain ⟨ha, next⟩ := hf.turn formed.indexed turns
    exact ⟨(formed.advance ha).moveConsumer found rfl next, ha⟩
  | invokes =>
    have terminal : Status.completed ∈ terminalStatuses := by decide
    have moved := @Formed.moveConsumer s ref c { c with phase := .executing .completed } formed
        found rfl terminal
    exact ⟨{ moved with }, .refl _⟩
  | drops => exact ⟨formed.dropConsumer, .refl _⟩
  | ends => exact ⟨formed.endConsumer found, .refl _⟩
  | retains status =>
    obtain ⟨_, isPhase⟩ := retains_persisting turns
    rw [isPhase] at hf
    have hk := @Formed.setPending _ c.runId (some status) (formed.endConsumer found)
      fun own isOwn => some.inj isOwn ▸ hf.1
    exact ⟨{ hk with }, .refl _⟩

theorem Formed.cancelTurn {call : CancelCall} {turn : CancelTurn} (hf : s.Formed)
    (found : s.cancels number = some call)
    (turns : call.turn s.db s.live s.raised (s.tasks call.runId) move = some turn) :
    (s.cancelTurn number call turn).Formed ∧ s.db.Advances turn.db := by
  obtain ⟨ha, next⟩ := CancelCall.Formed.turn (hf.cancels number call found) hf.indexed turns
  refine ⟨?_, ha⟩
  have moved : Formed { s with
      db := turn.db
      cancels := Function.update s.cancels number (turn.phase.map ({ call with phase := · })) } := by
    refine (hf.advance ha).setCancel (hf.warm fun hi => by simp [hi.2.2.1] at found) fun own isOwn => ?_
    obtain ⟨phase, isPhase, rfl⟩ := map_eq_some_iff.mp isOwn
    exact next phase isPhase
  rw [Process.cancelTurn]
  cases turn.flags with
  | none => exact moved
  | some ref => exact moved.relabel (flag_eq s ref)

theorem Formed.decided {run : PromptRun} {created : Bool} (formed : s.Formed)
    (found : s.starting = some start) (ha : start.call = .returned (.run run created)) :
    (s.decided start run created).Formed ∧
    (created = true ∨ run.status = .starting ∧ s.tasks run.id = none → s.tasks run.id = none) := by
  obtain ⟨hs, hf⟩ := formed.start start found
  rw [ha] at hs
  have warm := formed.warm_of_start found
  have none : created = true ∨ run.status = .starting ∧ s.tasks run.id = none → s.tasks run.id = none := by
    rintro (hn | stale)
    · rw [hs.2.2.2 hn, hf]
    · exact stale.2
  refine ⟨?_, none⟩
  rw [Process.decided]
  split
  next decides => exact formed.register warm (Database.reached_of_name hs.1) (none decides)
  next => exact { @Formed.setStarting s Option.none formed warm (by simp) with }

theorem Formed.acts {action : Action} (formed : s.Formed) (hac : s.Acts action t) :
    t.Formed ∧ s.db.Advances t.db := by
  cases hac with
  | recover cold =>
    have ha := (@Database.Writes.recovered s.db).advances
    exact ⟨{ formed.advance ha with cold := fun _ => formed.cold cold }, ha⟩
  | restart =>
    refine ⟨⟨formed.indexed,
          fun _ => ⟨rfl, fun _ => rfl, fun _ => rfl, fun _ => rfl⟩, ?_, ?_, ?_, ?_, ?_, ?_⟩,
        .refl _⟩ <;> simp
  | @begin id _ _ warm isFresh =>
    refine ⟨formed.setStarting warm fun own isOwn => ?_, .refl _⟩
    cases isOwn
    refine ⟨⟨rfl, rfl, rfl⟩, ?_⟩
    rw [eq_none_iff_forall_not_mem]
    intro ref ht
    obtain ⟨_, same, -⟩ := (formed.tasks id ref ht).2.1
    rw [Database.statusOf, isFresh] at same
    simp at same
  | startStatement hf =>
    obtain ⟨hs, free⟩ := formed.start _ hf
    refine ⟨(formed.advance (hs.proper.advances _)).setStarting (formed.warm_of_start hf)
      fun own isOwn => ?_, hs.proper.advances _⟩
    exact some.inj isOwn ▸ ⟨hs.step, free⟩
  | @startLost start hc hf =>
    obtain ⟨hs, free⟩ := formed.start _ hf
    refine ⟨(formed.advance (hs.proper.advances_lost _ hc)).setStarting
      (formed.warm_of_start hf) fun own isOwn => ?_, hs.proper.advances_lost _ hc⟩
    exact some.inj isOwn ▸ ⟨⟨rfl, rfl, rfl⟩, free⟩
  | startFails hf => exact ⟨formed.setStarting (formed.warm_of_start hf) (by simp), .refl _⟩
  | decides hf answered =>
    refine ⟨(formed.decided hf answered).1, ?_⟩
    rw [Process.decided, Process.register]
    repeat' split
    all_goals exact .refl _
  | consumer hf turns => exact formed.consumerTurn hf turns
  | stop warm =>
    refine ⟨formed.setCancel warm fun own isOwn => ?_, .refl _⟩
    exact some.inj isOwn ▸ ⟨rfl, rfl⟩
  | cancel hf turns => exact formed.cancelTurn hf turns
  | retry warm isPending =>
    refine ⟨formed.setReconcile warm fun own isOwn => ?_, .refl _⟩
    exact some.inj isOwn ▸ ⟨formed.pending _ _ isPending, rfl, rfl⟩
  | reconcileStatement hf =>
    obtain ⟨terminal, sets⟩ := formed.reconciles _ _ hf
    have ha := (sets.proper terminal).advances s.db
    refine ⟨(formed.advance ha).setReconcile (formed.warm_of_reconcile hf)
      fun own isOwn => ?_, ha⟩
    exact some.inj isOwn ▸ ⟨terminal, sets.step terminal⟩
  | @reconcileLost number call hc hf =>
    obtain ⟨terminal, sets⟩ := formed.reconciles _ _ hf
    have ha := (sets.proper terminal).advances_lost s.db hc
    refine ⟨(formed.advance ha).setReconcile (formed.warm_of_reconcile hf)
      fun own isOwn => ?_, ha⟩
    exact some.inj isOwn ▸ ⟨terminal, rfl, rfl⟩
  | @reconcileEnds number _ _ _ hf fewer =>
    have dropped := @Formed.setReconcile s number none formed (formed.warm_of_reconcile hf) (by simp)
    refine ⟨?_, .refl _⟩
    rcases fewer with rfl | rfl
    · exact dropped
    · exact dropped.setPending (by simp)
  | close => exact ⟨{ formed.relabel (fun ref => rfl) with }, .refl _⟩
  | clear gathered =>
    have none : ∀ ref c, s.consumers ref ≠ some c := by
      intro ref c hf
      have ht := (formed.consumers ref c hf).2
      exact gathered ref (formed.tasks c.runId ref ht).1 c hf ht
    refine ⟨{ formed with
      start := fun start hf => ⟨(formed.start start hf).1, rfl⟩
      consumers := fun ref c hf => absurd hf (none ref c)
      tasks := by simp }, .refl _⟩

end Process

def Phase.Spent (db : Database) (runId : Text) : Phase → Prop
  | .created => db.Reached 2 runId
  | .setting call => db.Reached 2 runId ∧ call ≠ .returned .done
  | _ => True

section Spent
variable {db db' : Database} {runId : Text} {closing : Bool} {phase next : Phase} {move : Move}

theorem Phase.Spent.mono (ha : db.Advances db') (spent : phase.Spent db runId) : phase.Spent db' runId := by
  cases phase with
  | created => exact ha.rises _ _ spent
  | setting _ => exact ⟨ha.rises _ _ spent.1, spent.2⟩
  | _ => trivial

theorem spent_failing : (failing runId).Spent db runId := trivial

theorem spent_interrupted : (interrupted closing runId).Spent db runId := by
  rw [interrupted]
  split <;> trivial

theorem invokes_setting (turns : phase.turn db closing runId move = some .invokes) :
    phase = .setting (.returned .done) := by
  cases phase with
  | setting call =>
    cases move <;> simp only [Phase.turn, settingTurn, reduceCtorEq, some.injEq] at turns
    split at turns <;> simp at turns
    rfl
  | created => cases move <;> simp [Phase.turn, createdTurn] at turns
  | executing final =>
    cases move <;> simp [Phase.turn, executingTurn] at turns
    split at turns <;> simp at turns
  | appending final append =>
    cases move <;> simp [Phase.turn, appendingTurn] at turns
    split at turns <;> simp at turns
  | guarding final _ => cases move <;> simp [Phase.turn, guardingTurn] at turns
  | unwinding final => cases move <;> simp [Phase.turn, unwindingTurn] at turns
  | persisting _ _ =>
    cases move <;> simp [Phase.turn, persistingTurn] at turns
    split at turns <;> simp at turns

theorem Phase.Spent.turn (spent : phase.Spent db runId) (hf : phase.Formed db runId)
    (hi : db.Indexed) (turns : phase.turn db closing runId move = some (.goes db' next)) :
    next.Spent db' runId := by
  obtain ⟨ha, -⟩ := hf.turn hi turns
  cases phase with
  | created =>
    cases move <;> simp only [Phase.turn, createdTurn, reduceCtorEq, some.injEq, Turn.goes.injEq] at turns
    obtain ⟨rfl, rfl⟩ := turns
    exact ⟨spent, by simp [runningCall]⟩
  | setting call =>
    obtain ⟨past, unanswered⟩ := spent
    have later := ha.rises _ _ past
    cases move <;> simp only [Phase.turn, settingTurn, reduceCtorEq, some.injEq, Turn.goes.injEq] at turns
    case statement =>
      obtain ⟨rfl, rfl⟩ := turns
      refine ⟨later, fun answered => ?_⟩
      rcases (Call.SetsRunning.step hf hi).2 answered with already | running
      · exact unanswered already
      · obtain ⟨_, hs, hr⟩ := later
        rw [running] at hs
        cases hs
        simp [Status.rank] at hr
    case lost committed =>
      obtain ⟨rfl, rfl⟩ := turns
      exact ⟨later, by simp [runningCall]⟩
    case fail =>
      obtain ⟨rfl, rfl⟩ := turns
      exact spent_failing
    case resume =>
      split at turns <;> simp only [reduceCtorEq, some.injEq, Turn.goes.injEq] at turns
      · obtain ⟨rfl, rfl⟩ := turns
        trivial
      · obtain ⟨rfl, rfl⟩ := turns
        exact spent_failing
    case interrupt =>
      obtain ⟨rfl, rfl⟩ := turns
      exact spent_interrupted
  | executing final =>
    cases move <;> simp only [Phase.turn, executingTurn, reduceCtorEq, some.injEq, Turn.goes.injEq] at turns
    case yields event => split at turns <;> cases turns <;> trivial
    case interrupt =>
      obtain ⟨rfl, rfl⟩ := turns
      exact spent_interrupted
    all_goals
      obtain ⟨rfl, rfl⟩ := turns
      trivial
  | appending final append =>
    cases move <;> simp only [Phase.turn, appendingTurn, reduceCtorEq, some.injEq, Turn.goes.injEq] at turns
    case statement => split at turns <;> cases turns <;> trivial
    case interrupt =>
      obtain ⟨rfl, rfl⟩ := turns
      exact spent_interrupted
    all_goals
      obtain ⟨rfl, rfl⟩ := turns
      trivial
  | guarding final _ =>
    cases move <;> simp only [Phase.turn, guardingTurn, reduceCtorEq, some.injEq, Turn.goes.injEq] at turns
    all_goals
      obtain ⟨rfl, rfl⟩ := turns
      trivial
  | unwinding final =>
    cases move <;> simp only [Phase.turn, unwindingTurn, reduceCtorEq, some.injEq, Turn.goes.injEq] at turns
    all_goals
      obtain ⟨rfl, rfl⟩ := turns
      trivial
  | persisting _ _ =>
    cases move <;> simp only [Phase.turn, persistingTurn, reduceCtorEq, some.injEq, Turn.goes.injEq] at turns
    case resume => split at turns <;> simp at turns
    all_goals
      obtain ⟨rfl, rfl⟩ := turns
      trivial

end Spent

namespace Process
variable {s t : Process} {ref : Nat} {c : Consumer} {move : Move}

structure Once (s : Process) : Prop extends Formed s where
  nodup : s.invoked.Nodup
  begun : ∀ runId ∈ s.invoked, s.db.Reached 1 runId
  spent : ∀ ref, ∀ c ∈ s.consumers ref, c.runId ∈ s.invoked → c.phase.Spent s.db c.runId
  fresh : ∀ start ∈ s.starting, start.id ∉ s.invoked

theorem Once.keep (once : s.Once) (formed : t.Formed) (ha : s.db.Advances t.db)
    (invoked : t.invoked = s.invoked) (fresh : ∀ start ∈ t.starting, start.id ∉ s.invoked)
    (consumers : ∀ ref, ∀ c ∈ t.consumers ref, ∃ old ∈ s.consumers ref,
        c.runId = old.runId ∧ c.phase = old.phase) : t.Once := by
  refine ⟨formed, invoked ▸ once.nodup, fun runId hl => ?_, fun ref c hf isInvoked => ?_,
    fun start hf => invoked ▸ fresh start hf⟩
  · exact ha.rises _ _ (once.begun runId (invoked ▸ hl))
  · obtain ⟨old, ho, hr, isPhase⟩ := consumers ref c hf
    rw [invoked, hr] at isInvoked
    rw [hr, isPhase]
    exact (once.spent ref old ho isInvoked).mono ha

theorem Once.consumerTurn {turn : Turn} {cancelled : Bool} (once : s.Once)
    (found : s.consumers ref = some c)
    (turns : c.phase.turn s.db s.closing c.runId move = some turn) :
    (s.consumerTurn ref c cancelled turn).Once := by
  obtain ⟨formed, ha⟩ := @Formed.consumerTurn s ref c move turn cancelled once.toFormed found turns
  have hf := once.consumers ref c found
  have fewer : ∀ i, ∀ other ∈ Function.update s.consumers ref none i,
      ∃ old ∈ s.consumers i, other.runId = old.runId ∧ other.phase = old.phase :=
    forall_update (fun i _ other hl => ⟨other, hl, rfl, rfl⟩) (by simp)
  cases turn with
  | goes _ _ =>
    refine ⟨formed, once.nodup, fun runId hl => ha.rises _ _ (once.begun runId hl), ?_, once.fresh⟩
    refine forall_update (fun i _ other hl isInvoked => (once.spent i other hl isInvoked).mono ha) ?_
    intro own isOwn isInvoked
    cases isOwn
    exact (once.spent ref c found isInvoked).turn hf.1 once.indexed turns
  | invokes =>
    have answered := invokes_setting turns
    have new : c.runId ∉ s.invoked := fun isInvoked => by
      have spent := once.spent ref c found isInvoked
      rw [answered] at spent
      exact spent.2 rfl
    refine ⟨formed, ?_, fun runId hl => ?_, ?_, fun start isStart hl => ?_⟩
    · exact nodup_append'.mpr ⟨once.nodup, by simp, by simpa using new⟩
    · rcases mem_append.mp hl with old | own
      · exact once.begun runId old
      · rw [mem_singleton.mp own]
        have hr := hf.1
        rw [answered] at hr
        exact hr
    · refine forall_update (fun i apart other hl isInvoked => ?_) ?_
      · rcases mem_append.mp isInvoked with old | own
        · exact once.spent i other hl old
        · exact absurd (once.toFormed.alone found hl (mem_singleton.mp own)) apart
      · intro own isOwn _
        cases isOwn
        trivial
    · rcases mem_append.mp hl with old | own
      · exact once.fresh start isStart old
      · have free := (once.start start isStart).2
        rw [mem_singleton.mp own, hf.2] at free
        cases free
  | drops | retains status | ends => exact once.keep formed ha rfl once.fresh fewer

def Guarded (s : Process) : Action → Prop
  | .start .resume => ∀ start ∈ s.starting, ∀ run, start.call = .returned (.run run false) →
      run.status = .starting → s.tasks run.id = none → s.db.statusOf run.id ≠ some .running
  | _ => True

theorem Once.decided {start : StartCall} {run : PromptRun} {created : Bool} (once : s.Once)
    (found : s.starting = some start) (ha : start.call = .returned (.run run created))
    (hg : s.Guarded (.start .resume)) : (s.decided start run created).Once := by
  obtain ⟨hf, free⟩ := once.toFormed.decided found ha
  obtain ⟨starts, -⟩ := once.start start found
  rw [ha] at starts
  by_cases decides : created = true ∨ run.status = .starting ∧ s.tasks run.id = none
  · have isFree := free decides
    rw [Process.decided, if_pos decides, Process.register] at hf ⊢
    simp only [isFree] at hf ⊢
    refine ⟨hf, once.nodup, once.begun, ?_, by simp⟩
    refine forall_update (fun i _ => once.spent i) fun own isOwn isInvoked => ?_
    cases isOwn
    -- a run that was executed and is not running is stopping or over
    have started := once.begun run.id isInvoked
    cases created with
    | true => exact absurd isInvoked (starts.2.2.2 rfl ▸ once.fresh start found)
    | false =>
      obtain ⟨stale, -⟩ : run.status = .starting ∧ s.tasks run.id = none := by simpa using decides
      have hi := hg start found run ha stale isFree
      obtain ⟨status, hs, hr⟩ := started
      refine ⟨status, hs, ?_⟩
      rw [hs] at hi
      revert hr hi
      cases status <;> simp [Status.rank]
  · rw [Process.decided, if_neg decides] at hf ⊢
    exact once.keep hf (.refl _) rfl (by simp) fun ref c hl => ⟨c, hl, rfl, rfl⟩

theorem Once.acts {action : Action} (once : s.Once) (hg : s.Guarded action)
    (hac : s.Acts action t) : t.Once := by
  obtain ⟨hf, ha⟩ := once.toFormed.acts hac
  have hs : ∀ ref, ∀ c ∈ s.consumers ref, ∃ old ∈ s.consumers ref, c.runId = old.runId ∧ c.phase = old.phase :=
    fun ref c hl => ⟨c, hl, rfl, rfl⟩
  cases hac with
  | restart => exact once.keep hf ha rfl (by simp) (by simp)
  | @begin id _ key _ isFresh =>
    refine once.keep hf ha rfl (fun start isStart isInvoked => ?_) hs
    cases isStart
    obtain ⟨_, hk, -⟩ := once.begun id isInvoked
    rw [Database.statusOf, isFresh] at hk
    cases hk
  | startStatement found | startLost found =>
    have hfr := once.fresh _ found
    exact once.keep hf ha rfl (fun own isOwn => some.inj isOwn ▸ hfr) hs
  | startFails found => exact once.keep hf ha rfl (by simp) hs
  | decides found answered => exact once.decided found answered hg
  | consumer found turns => exact once.consumerTurn found turns
  | @cancel _ _ _ turn _ _ =>
    refine once.keep hf ha rfl once.fresh fun ref c hl => ?_
    rw [Process.cancelTurn] at hl
    cases isFlag : turn.flags with
    | none =>
      rw [isFlag] at hl
      exact hs ref c hl
    | some _ =>
      simp only [isFlag, elim_some, flag_eq] at hl
      obtain ⟨old, ho, rfl⟩ := map_eq_some_iff.mp hl
      exact ⟨old, ho, rfl, rfl⟩
  | close =>
    refine once.keep hf ha rfl once.fresh fun ref c hl => ?_
    obtain ⟨old, ho, rfl⟩ := map_eq_some_iff.mp hl
    exact ⟨old, ho, rfl, rfl⟩
  | recover | stop | retry | reconcileStatement | reconcileLost | reconcileEnds | clear =>
    exact once.keep hf ha rfl once.fresh hs

def Named (s : Process) : Prop := ∀ name ∈ s.returned, name ∈ s.db.names

theorem Named.acts {action : Action} (hn : s.Named) (formed : s.Formed) (hac : s.Acts action t) :
    t.Named := by
  have ha := (formed.acts hac).2
  have hk : t.returned = s.returned → t.Named := fun same name hl => ha.names.subset (hn name (same ▸ hl))
  cases hac with
  | @decides start run _ hf answered =>
    obtain ⟨hs, -⟩ := formed.start start hf
    rw [answered] at hs
    obtain ⟨hr, session, isKey, -⟩ := hs
    have own : ∀ name ∈ s.returned ++ [(start.sessionId, start.key, run.id)], name ∈ s.db.names := by
      intro name hl
      rcases mem_append.mp hl with old | new
      · exact hn name old
      · rw [mem_singleton.mp new, ← session, ← isKey]
        exact hr
    rw [Process.decided]
    split
    · rw [Process.register]
      split
      · exact own
      · exact hn
    · exact own
  | @consumer _ _ _ turn _ _ _ =>
    refine hk ?_
    cases turn <;> rfl
  | _ => exact hk rfl

theorem Named.unique (hn : s.Named) (hi : s.db.Indexed) {sessionId key first second : Text}
    (one : (sessionId, key, first) ∈ s.returned) (two : (sessionId, key, second) ∈ s.returned) :
    first = second := by
  obtain ⟨run, hr, hf⟩ := mem_map.mp (hn _ one)
  obtain ⟨other, ho, isSecond⟩ := mem_map.mp (hn _ two)
  obtain ⟨rfl, rfl, rfl⟩ : run.sessionId = sessionId ∧ run.idempotencyKey = key ∧ run.id = first := by
    simpa [PromptRun.name] using hf
  obtain ⟨session, isKey, rfl⟩ : other.sessionId = run.sessionId ∧
      other.idempotencyKey = run.idempotencyKey ∧ other.id = second := by
    simpa [PromptRun.name] using isSecond
  rw [key_inj_of_nodup hi.keys hr ho (by rw [session, isKey])]

def StepWith (allowed : Process → Action → Prop) (s t : Process) : Prop :=
  ∃ action, allowed s action ∧ s.act action = some t

def Step : Process → Process → Prop := StepWith fun _ _ => True

def GuardedStep : Process → Process → Prop := StepWith Guarded

theorem formed_start {db : Database} (hi : db.Indexed) : Formed { db := db } := by
  refine ⟨hi, fun _ => ⟨rfl, fun _ => rfl, fun _ => rfl, fun _ => rfl⟩, ?_, ?_, ?_, ?_, ?_, ?_⟩ <;> simp

/-- In every run of a process, restarts included, the starts with one session and key return
one run. A run is executed at most once, unless a start that read it as starting registers
a second task while the first has left it running. -/
theorem one_execution {db : Database} (indexed : db.Indexed) :
    (∀ s, ReflTransGen Step { db := db } s →
        ∀ sessionId key first second,
          (sessionId, key, first) ∈ s.returned → (sessionId, key, second) ∈ s.returned →
          first = second) ∧ ∀ s, ReflTransGen GuardedStep { db := db } s → s.invoked.Nodup := by
  refine ⟨fun s run sessionId key first second one two => ?_, fun s run => ?_⟩
  · obtain ⟨hf, hn⟩ := run_keeps (fun s => s.Formed ∧ s.Named) (fun s t step hh => by
      obtain ⟨action, -, steps⟩ := step
      have ha := acts_of_act steps
      exact ⟨(hh.1.acts ha).1, hh.2.acts hh.1 ha⟩) run ⟨formed_start indexed, by simp [Named]⟩
    exact hn.unique hf.indexed one two
  · have once := run_keeps Once (fun s t step once => by
      obtain ⟨_, hg, steps⟩ := step
      exact once.acts hg (acts_of_act steps)) run
      ⟨formed_start indexed, by simp, by simp, by simp, by simp⟩
    exact once.nodup

theorem run_of_actions {allowed : Process → Action → Prop} (actions : List Action)
    (ran : actions.foldlM act s = some t) (meets : ∀ action ∈ actions, ∀ s, allowed s action) :
    ReflTransGen (StepWith allowed) s t := by
  induction actions generalizing s with
  | nil =>
    cases ran
    exact .refl
  | cons action _ ih =>
    obtain ⟨_, first, rest⟩ := bind_eq_some_iff.mp ran
    exact .head ⟨action, meets action (by simp) s, first⟩ (ih rest fun other hl => meets other (by simp [hl]))

def emptyDatabase : Database := ⟨[text "session"], [], []⟩

def firstStart : List Action :=
  [.recover true, .begin (text "run") (text "session") (text "key"), .start .statement,
    .start .statement, .start .statement]

def secondRead : List Action :=
  [.begin (text "other") (text "session") (text "key"), .start .statement]

def execution (ref : Nat) : List Action :=
  [.consumer ref .resume, .consumer ref .statement, .consumer ref .statement, .consumer ref .resume]

def lostStatus : List Action := [.consumer 0 .finish, .consumer 0 .resume, .consumer 0 .fail]

def created : Process := (firstStart.foldlM act { db := emptyDatabase }).getD { db := emptyDatabase }

def decidedRun : PromptRun := ⟨text "run", text "session", text "key", .starting⟩

def registered : Process :=
  created.decided ⟨text "run", text "session", text "key", .returned (.run decidedRun true)⟩ decidedRun true

def replayed : Process := (secondRead.foldlM act registered).getD registered

def executed : Process := ((execution 0).foldlM act replayed).getD replayed

theorem one_execution_emptyDatabase :
    ∃ s : Process, ReflTransGen GuardedStep { db := emptyDatabase } s ∧ s.invoked = [text "run"] ∧
      s.invoked.Nodup := by
  have hi : emptyDatabase.Indexed := ⟨by decide, by decide, by decide⟩
  have first : ReflTransGen GuardedStep { db := emptyDatabase } created :=
    run_of_actions firstStart rfl (by simp [firstStart, Guarded])
  have decides : GuardedStep created registered := by
    refine ⟨.start .resume, ?_, rfl⟩
    intro _ hf run ha
    cases hf
    cases ha
  have rest : ReflTransGen GuardedStep registered executed :=
    (run_of_actions secondRead rfl (by simp [secondRead, Guarded])).trans
      (run_of_actions (execution 0) rfl (by simp [execution, Guarded]))
  have run := first.trans (.head decides rest)
  exact ⟨executed, run, by decide, (one_execution hi).2 executed run⟩

def secondExecution : List Action :=
  firstStart ++ [.start .resume] ++ secondRead ++ execution 0 ++ lostStatus ++ [.start .resume] ++ execution 1

/-- The first consumer runs the executor, its terminal write fails and the task is gone; the
second start still has the row as starting, registers a task, and `running` passes as set. -/
theorem executed_twice : ∃ s : Process, ReflTransGen Step { db := emptyDatabase } s ∧
    s.invoked = [text "run", text "run"] := by
  obtain ⟨s, ran, invoked⟩ : ∃ s, secondExecution.foldlM act { db := emptyDatabase } = some s ∧
      s.invoked = [text "run", text "run"] := ⟨_, rfl, by decide⟩
  exact ⟨s, run_of_actions secondExecution ran (by simp), invoked⟩

end Process

end Yinshi.Prompt
