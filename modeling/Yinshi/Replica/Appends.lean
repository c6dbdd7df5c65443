import Yinshi.Replica.History
import Yinshi.Replica.Operations

/-! What the schema and the replay say together of an event that is appended after its call
has read an earlier table. -/

namespace Yinshi.Replica
open ByteText Checked List
variable {rows : List Event} {new : Values} {keys : Keys} {replay next : Replay}

structure Admits (rows : List Event) (new : Values) : Prop where
  accepted : new.eventType ≠ .accepted → ∃ row ∈ rows, row.eventType = .accepted
  running : new.eventType ≠ .accepted → ∀ row ∈ rows, row.isTerminal = false
  single : new.eventType.isSingle = true → ∀ row ∈ rows, row.eventType ≠ new.eventType
  start : new.eventType = .stageStarted → ∀ stage, new.stage = some stage →
    ∀ row ∈ rows, row.eventType = .stageStarted → row.stage ≠ some stage
  completion : new.eventType.isCompletion = true → ∀ stage, new.stage = some stage →
    ∀ row ∈ rows, row.eventType.isCompletion = true → row.stage ≠ some stage

theorem sqlEq_some {α : Type} [DecidableEq α] {left right : Option α} {value : α}
    (hh : left = some value) (ht : right = some value) : sqlEq left right = true := by
  simp [sqlEq, hh, ht]

theorem admits_of_checks (transition : requireTransition rows new = true)
    (ha : ∀ row ∈ rows, clashes row.toValues new = false) : Admits rows new where
  accepted other := by
    simp only [requireTransition, Bool.or_eq_true, decide_eq_true_eq, other, false_or,
      Bool.and_eq_true, any_eq_true] at transition
    exact transition.1.1.1.1.1.1
  running other := by
    simp only [requireTransition, Bool.or_eq_true, decide_eq_true_eq, other, false_or,
      Bool.and_eq_true] at transition
    simpa using transition.2
  single alone row listed same := by
    have clash := ha row listed
    simp [clashes, same, alone] at clash
  start type stage named row listed started same := by
    have clash := ha row listed
    simp [clashes, started, type, sqlEq_some same named] at clash
  completion type stage named row listed done same := by
    have clash := ha row listed
    simp [clashes, done, type, sqlEq_some same named] at clash

theorem insert_eq_some {table after : Table} {receiptId : Text}
    (inserted : table.insert receiptId new = some after) :
    Admits (rowsFor table.rows new.identity) new ∧
    (∀ row ∈ table.rows, row.appendReceiptId ≠ receiptId) ∧
    after = ⟨table.rows ++ [⟨new, table.sequence + 1, receiptId⟩], table.sequence + 1⟩ := by
  unfold Table.insert at inserted
  dsimp only at inserted
  split at inserted
  · next checks =>
      simp only [Bool.and_eq_true, Bool.not_eq_true', any_eq_false, decide_eq_true_eq] at checks
      obtain ⟨⟨transition, ha⟩, hf⟩ := checks
      exact ⟨admits_of_checks transition
        fun row hl => by simpa using ha row hl, hf, (Option.some.inj inserted).symm⟩
  · cases inserted

structure Added (table : Table) (batch : List (Text × Values)) (events : List Event) : Prop where
  values : events.map (·.toValues) = batch.map Prod.snd
  receipts : events.map (·.appendReceiptId) = batch.map Prod.fst
  numbered : events.map (·.eventId) = List.range' (table.sequence + 1) batch.length
  distinct : (events.map (·.appendReceiptId)).Nodup
  fresh : ∀ event ∈ events, ∀ row ∈ table.rows, row.appendReceiptId ≠ event.appendReceiptId

theorem append_eq_some {table after : Table} {batch : List (Text × Values)}
    (appended : table.append batch = some after) :
    ∃ events,
      Added table batch events ∧ after = ⟨table.rows ++ events, table.sequence + batch.length⟩ := by
  induction batch generalizing table with
  | nil =>
    cases appended
    exact ⟨[], ⟨rfl, rfl, rfl, nodup_nil, by simp⟩, by simp⟩
  | cons first _ ih =>
    obtain ⟨receiptId, new⟩ := first
    obtain ⟨_, inserted, rest⟩ := Option.bind_eq_some_iff.mp appended
    obtain ⟨-, hf, rfl⟩ := insert_eq_some inserted
    obtain ⟨events, added, rfl⟩ := ih rest
    refine ⟨⟨new, table.sequence + 1, receiptId⟩ :: events, ⟨?_, ?_, ?_, ?_, ?_⟩, ?_⟩
    · rw [map_cons, map_cons, added.values]
    · rw [map_cons, map_cons, added.receipts]
    · rw [map_cons, added.numbered, length_cons, range'_succ]
    · refine nodup_cons.mpr ⟨fun taken => ?_, added.distinct⟩
      obtain ⟨event, hl, hs⟩ := mem_map.mp taken
      exact added.fresh event hl _ (by simp) hs.symm
    · intro event hl row old
      rcases mem_cons.mp hl with rfl | later
      · exact hf row old
      · exact added.fresh event later row (mem_append_left _ old)
    · simp only [append_assoc, singleton_append, length_cons, Table.mk.injEq, true_and]
      omega

structure Later (earlier later : Replay) (history : List Event) : Prop where
  extends_ : earlier.Extends later
  coherent : later.Coherent
  reflects : later.Reflects history
  quiet : later.admissionPendingPause = false

section
variable {earlier later : Replay} {history : List Event} {new : Values} {stage : Stage}
variable {request : BrokerRequest}

section
variable (late : Later earlier later history) (ha : Admits history new)
include late ha

theorem Later.running (other : new.eventType ≠ .accepted) : later.terminalState = none := by
  cases he : later.terminalState with
  | none => rfl
  | some _ =>
    obtain ⟨row, hl, last⟩ := late.reflects.ended (by simp [he])
    have := ha.running other row hl
    rw [last] at this
    cases this

theorem Later.same_stage (type : new.eventType.isCompletion = true) (hn : new.stage = some stage)
    (index : earlier.nextStageIndex = stage.index) : later.nextStageIndex = stage.index := by
  have hr := late.extends_.stage
  by_contra passed
  obtain ⟨row, hl, hd, hs⟩ := late.reflects.completed stage (by omega)
  exact ha.completion type stage hn row hl hd hs

theorem Later.not_started (type : new.eventType = .stageStarted) (hn : new.stage = some stage)
    (index : earlier.nextStageIndex = stage.index) :
    later.nextStageIndex = stage.index ∧ later.stageStarted = false := by
  have hr := late.extends_.stage
  have hf : ¬ (stage.index < later.nextStageIndex ∨
      stage.index = later.nextStageIndex ∧ later.stageStarted = true) := by
    intro begun
    obtain ⟨row, hl, hst, hs⟩ := late.reflects.started stage begun
    exact ha.start type stage hn row hl hst hs
  have hs : later.nextStageIndex = stage.index := by omega
  exact ⟨hs, by simpa [hs] using hf⟩

theorem Later.start (type : new.eventType = .stageStarted) (hn : new.stage = some stage)
    (ho : earlier.ownerToken.isSome) (owner : new.ownerToken = earlier.ownerToken)
    (index : earlier.nextStageIndex = stage.index)
    (continued : stage.isContinuation = true → earlier.continuation.isSome) :
    later.start new = .ok { later with stageStarted := true } := by
  obtain ⟨hs, hi⟩ := late.not_started ha type hn index
  obtain ⟨token, -⟩ := late.extends_.owner ho
  have next := Replay.nextStage_eq_some.mpr hs
  have hf : later.paused = true → later.continuation.isSome := by
    intro paused
    have hr := late.coherent.paused paused
    have hp := continued (by simp only [Stage.isContinuation, decide_eq_true_eq]; omega)
    rw [(late.extends_.continuation hp).1]
    exact hp
  simp only [Replay.start, steps_ok, not_or, not_and, not_not, and_true]
  exact ⟨Replay.not_isNone.mpr (token ▸ ho), owner.trans token.symm, by simp [hi],
    fun paused => Replay.not_isNone.mpr (hf paused), by simp [next], hn.trans next.symm⟩

end

def Answers (replay : Replay) (request : BrokerRequest) (stage : Stage) : Prop :=
  if stage.isContinuation then replay.continuation.isSome ∧ replay.drainRequest = some request
  else replay.initialRequest = request

theorem Answers.mono (answers : Answers earlier request stage)
    (extends_ : earlier.Extends later) : Answers later request stage := by
  unfold Answers at answers ⊢
  split
  · next kind =>
      rw [if_pos kind] at answers
      obtain ⟨hs, drain⟩ := extends_.continuation answers.1
      exact ⟨hs ▸ answers.1, drain.trans answers.2⟩
  · next kind =>
      rw [if_neg kind] at answers
      exact extends_.initialRequest.trans answers

theorem Answers.responseRequest (answers : Answers later request stage)
    (hs : later.stageStarted = true) : later.responseRequest new stage = some request := by
  unfold Answers at answers
  unfold Replay.responseRequest
  rw [if_neg (by simp [Replay.directForeignPause, hs])]
  split
  · next kind =>
      rw [if_pos kind] at answers
      exact answers.2
  · next kind =>
      rw [if_neg kind] at answers
      rw [answers]

theorem Later.completing (late : Later earlier later history) (ha : Admits history new)
    (type : new.eventType.isCompletion = true) (hn : new.stage = some stage)
    (ho : earlier.ownerToken.isSome) (owner : new.ownerToken = earlier.ownerToken)
    (index : earlier.nextStageIndex = stage.index) (hst : earlier.stageStarted = true)
    (answers : Answers earlier request stage) : later.completing new = .ok (stage, request) := by
  have hs := late.same_stage ha type hn index
  obtain ⟨token, -⟩ := late.extends_.owner ho
  have begun := late.extends_.started (hs.trans index.symm) hst
  exact Replay.completing_eq_ok.mpr ⟨token ▸ ho, owner.trans token.symm, hn, hs, .inl begun,
    (answers.mono late.extends_).responseRequest begun⟩

end

structure Active (keys : Keys) (rows : List Event) (request : BrokerRequest) (ownerToken : Text)
    (stage : Stage) (replay : Replay) : Prop where
  token : isToken ownerToken = true
  opened : keys.validateEvents rows = .ok ()
  read : keys.replay (rowsFor rows request.identity) = .ok replay
  owner : replay.ownerToken = some ownerToken
  index : replay.nextStageIndex = stage.index
  continued : stage.isContinuation = true → replay.continuation.isSome
  answers : Answers replay request stage

theorem loadReplay_eq_some {request : BrokerRequest}
    (loaded : keys.loadReplay rows request = .ok (some replay)) :
    keys.replay (rowsFor rows request.identity) = .ok replay ∧
    replay.requireBound request = .ok () := by
  unfold Keys.loadReplay at loaded
  split at loaded
  · cases loaded
  · simp only [steps_ok, Option.some.injEq] at loaded
    obtain ⟨_, read, hb, rfl⟩ := loaded
    exact ⟨read, hb⟩

theorem requireActiveStage_eq_ok {request : BrokerRequest} {ownerToken : Text} {stage : Stage}
    (required : keys.requireActiveStage rows request ownerToken stage = .ok replay) :
    Active keys rows request ownerToken stage replay := by
  unfold Keys.requireActiveStage requireToken at required
  simp only [steps_ok, not_not, not_and] at required
  obtain ⟨token, kind, opened, _, loaded, hf, rfl, -, owner, index, continued, rfl⟩ := required
  obtain ⟨read, hb⟩ := loadReplay_eq_some loaded
  have hp : stage.isContinuation = true → hf.continuation.isSome := fun late =>
    Replay.not_isNone.mp (continued late)
  refine ⟨token, opened, read, owner, Replay.nextStage_eq_some.mp index, hp, ?_⟩
  unfold Answers
  unfold Replay.requireBound at hb
  split
  · next late =>
      rw [kind, if_pos late] at hb
      simp only [steps_ok, not_not] at hb
      exact ⟨hp late, hb.2⟩
  · next early =>
      rw [kind, if_neg early] at hb
      simpa using hb

theorem unlessExisting_eq_some {existing : Except JournalError (Option Event)}
    {append : Except JournalError (List Values)} {batch : List Values}
    (decided : unlessExisting existing append = .ok (some batch)) : append = .ok batch := by
  obtain ⟨hf, -, decided⟩ := bind_eq_ok.mp decided
  cases hf with
  | some _ => simp at decided
  | none =>
    obtain ⟨_, decided, hs⟩ := map_eq_ok.mp decided
    rw [decided, Option.some.inj hs]

def Readable (keys : Keys) (replay : Replay) (batch : List Values) : Prop :=
  ∃ last, (∀ events : List Event, events.map (·.toValues) = batch → replay.events keys events = .ok last) ∧
    last.admissionPendingPause = false ∧ ∀ new ∈ batch, validateFieldMatrix new = .ok ()

theorem events_of_singleton (read : replay.event keys new = .ok next) (events : List Event)
    (hs : events.map (·.toValues) = [new]) : replay.events keys events = .ok next := by
  obtain ⟨_, rfl, rfl⟩ := map_eq_singleton_iff.mp hs
  exact Replay.events_cons.mpr ⟨next, read, rfl⟩

theorem event_of_dispatch {identity : Text × Text} {request : Option BrokerRequest} {entry : Entry}
    (running : replay.terminalState = none)
    (atomic : replay.admissionPendingPause = true → entry.eventType = .lifecyclePaused)
    (read : replay.dispatch keys (keys.columns identity request entry) = .ok next) :
    replay.event keys (keys.columns identity request entry) = .ok (next.note entry.eventType) :=
  Replay.event_eq_ok.mpr ⟨running, atomic, next, read, fun _ => rfl, rfl⟩

theorem readable_singleton {identity : Text × Text} {request : Option BrokerRequest} {entry : Entry}
    (running : replay.terminalState = none) (hq : replay.admissionPendingPause = false)
    (read : replay.dispatch keys (keys.columns identity request entry) = .ok next)
    (clear : next.admissionPendingPause = false)
    (fields : validateFieldMatrix (keys.columns identity request entry) = .ok ()) :
    Readable keys replay [keys.columns identity request entry] := by
  have event := event_of_dispatch running (fun pending => by rw [hq] at pending; cases pending) read
  refine ⟨_, events_of_singleton event, clear, fun new hl => ?_⟩
  rw [mem_singleton.mp hl]
  exact fields

theorem readable_pair {middle last : Replay} {one two : Values}
    (first : replay.event keys one = .ok middle) (second : middle.event keys two = .ok last)
    (clear : last.admissionPendingPause = false) (hh : validateFieldMatrix one = .ok ())
    (ht : validateFieldMatrix two = .ok ()) : Readable keys replay [one, two] := by
  refine ⟨last, fun events hs => ?_, clear, ?_⟩
  · obtain ⟨event, rest, rfl, rfl, rest'⟩ := map_eq_cons_iff.mp hs
    exact Replay.events_cons.mpr ⟨middle, first, events_of_singleton second rest rest'⟩
  · simp only [mem_cons, not_mem_nil, or_false, forall_eq_or_imp, forall_eq]
    exact ⟨hh, ht⟩

/-- What a call has made sure of when it starts its transaction. The batch can be read after
any later history that takes its first event, if the later replay is one of the `allowed`. -/
structure Prepared (keys : Keys) (rows : List Event) (identity : Text × Text)
    (allowed : Replay → Prop) (batch : List Values) : Prop where
  opened : keys.validateEvents rows = .ok ()
  named : ∀ new ∈ batch, new.identity = identity
  other : ∀ new ∈ batch, new.eventType ≠ .accepted
  reads : ∃ earlier, keys.replay (rowsFor rows identity) = .ok earlier ∧
    ∃ first ∈ batch.head?, ∀ later history, Later earlier later history → Admits history first →
      allowed later → Readable keys later batch

section
variable {keys : Keys} {rows : List Event} {request : BrokerRequest} {batch : List Values}
variable {ownerToken : Text} {stage : Stage} {receipt : Receipt} {replay : Replay} {new : Values}
  {responseFrame : Bytes} {reason : Reason}

attribute [local simp] Keys.columns Values.identity

theorem prepared_claimAuthority {brokerIncarnation : Text}
    (hc : keys.claimAuthority rows request ownerToken brokerIncarnation = .ok (some batch)) :
    Prepared keys rows request.identity (fun _ => True) batch := by
  unfold Keys.claimAuthority requireToken at hc
  simp only [steps_ok, not_not] at hc
  obtain ⟨kind, token, incarnation, hs, opened, _, loaded, earlier, rfl, hc⟩ := hc
  obtain ⟨read, hb⟩ := loadReplay_eq_some loaded
  split at hc
  · simp at hc
  · next unowned =>
      cases pure_eq_ok.mp hc
      refine ⟨opened, by simp, by simp, earlier, read, _, rfl,
        fun later history late ha _ => ?_⟩
      have hf : later.ownerToken = none := by
        cases ho : later.ownerToken with
        | none => rfl
        | some token =>
          obtain ⟨row, hl, type⟩ := late.reflects.claimed (by simp [ho])
          exact absurd type (ha.single rfl row hl)
      have initial : later.initialRequest = request := by
        unfold Replay.requireBound at hb
        rw [kind] at hb
        exact late.extends_.initialRequest.trans (by simpa using hb)
      have claimed : later.claim (keys.columns request.identity none
          { eventType := .authorityClaimed, ownerToken := some ownerToken,
            ownerBrokerIncarnation := some brokerIncarnation }) =
          .ok { later with
                ownerToken := some ownerToken,
                ownerBrokerIncarnation := some brokerIncarnation } := by
        simp only [Replay.claim, steps_ok]
        refine ⟨by simp [hf, late.coherent.unclaimed hf], by simp [initial, hs], ?_, rfl⟩
        simp [token, incarnation]
      exact readable_singleton (late.running ha (by simp)) late.quiet claimed late.quiet rfl

theorem prepared_beginStage
    (hc : keys.beginStage rows request ownerToken stage = .ok (some batch)) :
    Prepared keys rows request.identity (fun _ => True) batch := by
  obtain ⟨_, -, hc⟩ := bind_eq_ok.mp hc
  have hc := unlessExisting_eq_some hc
  simp only [steps_ok] at hc
  obtain ⟨earlier, required, -, rfl⟩ := hc
  have active := requireActiveStage_eq_ok required
  refine ⟨active.opened, by simp, by simp, earlier, active.read, _, rfl,
    fun later history late ha _ => ?_⟩
  have start := late.start ha rfl rfl (by simp [active.owner]) active.owner.symm active.index active.continued
  exact readable_singleton (late.running ha (by simp)) late.quiet start late.quiet rfl

theorem parseReceipt_of_check (hv : receipt.check = .ok ())
    (kind : receipt.stage = some stage) : parseReceipt stage (some receipt) = .ok receipt := by
  simp [parseReceipt, orRaise, rejectIf, kind, hv, bind, Except.bind, pure, Except.pure]

theorem dispatch_outcome (type : new.eventType = .stageOutcome)
    (completing : replay.completing new = .ok (stage, request))
    (parsed : parseReceipt stage new.receiptJson = .ok receipt)
    (hb : validateReceiptBinding replay.initialRequest replay.authority receipt = .ok ())
    (more : stage ≠ .reclaim) :
    replay.dispatch keys new = .ok ((replay.receive stage receipt).proceed stage) := by
  unfold Replay.dispatch Replay.outcome
  rw [type]
  refine bind_eq_ok.mpr ⟨_, completing, bind_eq_ok.mpr ⟨receipt, parsed, bind_eq_ok.mpr ⟨(), hb, ?_⟩⟩⟩
  rw [if_neg more]
  rfl

theorem prepared_completeStage {responseFrame : Option Bytes}
    (hc :
      keys.completeStage rows request ownerToken stage receipt responseFrame = .ok (some batch)) :
    Prepared keys rows request.identity (fun _ => True) batch := by
  unfold Keys.completeStage receiptJson at hc
  simp only [steps_ok, not_not] at hc
  obtain ⟨other, ⟨hv, kind⟩, response, hc⟩ := hc
  have hc := unlessExisting_eq_some hc
  simp only [steps_ok, not_not] at hc
  obtain ⟨earlier, required, hb, hs, rfl⟩ := hc
  have active := requireActiveStage_eq_ok required
  refine ⟨active.opened, by simp, by simp, earlier, active.read, _, rfl,
    fun later history late ha _ => ?_⟩
  have hr := late.running ha (by simp)
  have completing := late.completing ha rfl rfl
    (by simp [active.owner]) active.owner.symm active.index hs active.answers
  rw [← late.extends_.initialRequest, ← late.extends_.authority] at hb
  have parsed := parseReceipt_of_check hv kind
  unfold Keys.completeResponse at response
  by_cases last : stage = .reclaim
  · subst last
    simp only [if_pos, steps_ok, Replay.not_isNone] at response
    obtain ⟨hp, answered⟩ := response
    obtain ⟨_, rfl⟩ := Option.isSome_iff_exists.mp hp
    exact readable_singleton hr late.quiet (bind_eq_ok.mpr ⟨_, completing, bind_eq_ok.mpr ⟨receipt,
      parsed, bind_eq_ok.mpr ⟨(), hb, bind_eq_ok.mpr ⟨(), answered, rfl⟩⟩⟩⟩) late.quiet rfl
  · rw [if_neg last, rejectIf_eq_ok] at response
    obtain rfl : responseFrame = none := by simpa using response
    refine readable_singleton hr late.quiet (dispatch_outcome rfl completing parsed hb last) ?_ ?_
    · simp [Replay.proceed, Replay.receive, late.quiet, other]
    · simp [validateFieldMatrix, Values.noRequest, Values.noContinuation, last, rejectIf, bind, Except.bind]

theorem prepared_pauseAfterAdmission
    (hc :
      keys.pauseAfterAdmission rows request ownerToken receipt responseFrame = .ok (some batch)) :
    Prepared keys rows request.identity (fun _ => True) batch := by
  unfold Keys.pauseAfterAdmission receiptJson at hc
  simp only [steps_ok, not_not] at hc
  obtain ⟨-, -, ⟨hv, kind⟩, answered, hc⟩ := hc
  have hc := unlessExisting_eq_some hc
  simp only [steps_ok, not_not] at hc
  obtain ⟨earlier, required, hs, hb, rfl⟩ := hc
  have active := requireActiveStage_eq_ok required
  refine ⟨active.opened, by simp, by simp, earlier, active.read, _, rfl,
    fun later history late ha _ => ?_⟩
  have hr := late.running ha (by simp)
  have completing := late.completing ha rfl rfl
    (by simp [active.owner]) active.owner.symm active.index hs active.answers
  rw [← late.extends_.initialRequest, ← late.extends_.authority] at hb
  have same := late.same_stage ha rfl rfl active.index
  have unpaused : later.paused = false := by
    by_contra paused
    have := late.coherent.paused (by simpa using paused)
    simp only [Stage.index] at same
    omega
  have initial : later.initialRequest = request :=
    (active.answers.mono late.extends_ : later.initialRequest = request)
  obtain ⟨token, -⟩ := late.extends_.owner (by simp [active.owner])
  have first := event_of_dispatch hr (fun pending => by rw [late.quiet] at pending; cases pending)
    (dispatch_outcome rfl completing (parseReceipt_of_check hv kind) hb (by decide))
  -- the second event of the transaction finds the outcome of the first
  have received : (((later.receive .admission receipt).proceed .admission).note
          .stageOutcome).receipts .admission =
      some receipt := by
    simp [Replay.note, Replay.proceed, Replay.receive]
  have still : (((later.receive .admission receipt).proceed .admission).note
          .stageOutcome).terminalState = none :=
    hr
  have pause : Replay.dispatch keys (((later.receive .admission receipt).proceed .admission).note .stageOutcome)
      (keys.columns request.identity none
        { eventType := .lifecyclePaused, ownerToken := some ownerToken,
          responseFrame := some responseFrame }) = _ :=
    bind_eq_ok.mpr ⟨receipt, orRaise_eq_ok.mpr received, bind_eq_ok.mpr ⟨(),
      by simp [Replay.note, Replay.proceed, Replay.receive, unpaused, token, active.owner],
      bind_eq_ok.mpr ⟨(), by rw [← initial] at answered; exact answered, rfl⟩⟩⟩
  have second := event_of_dispatch still (fun _ => rfl) pause
  exact readable_pair first second rfl rfl rfl

theorem dispatch_unresolved (type : new.eventType = .stageUnresolved)
    (completing : replay.completing new = .ok (stage, request))
    (given : new.unresolvedReason = some reason)
    (allowed : reason ∈ baseUnresolvedReasons ++ stageUnresolvedReasons stage)
    (ha : keys.validateResponseFrame new.responseFrame request
          ⟨stage, .unresolved, some (.reason reason), none⟩ = .ok ()) :
    replay.dispatch keys new = .ok (replay.finish new .unresolved stage) := by
  unfold Replay.dispatch Replay.unresolved
  rw [type]
  refine bind_eq_ok.mpr ⟨_, completing, ?_⟩
  rw [given]
  exact bind_eq_ok.mpr ⟨(), rejectIf_eq_ok.mpr (not_not.mpr allowed), bind_eq_ok.mpr ⟨(), ha, rfl⟩⟩

theorem prepared_rejectStage {status : Rejection}
    (hc : keys.rejectStage rows request ownerToken stage status receipt responseFrame =
        .ok (some batch)) : Prepared keys rows request.identity (fun _ => True) batch := by
  unfold Keys.rejectStage at hc
  simp only [steps_ok, not_not] at hc
  obtain ⟨allowed, hv, kind, han, hc⟩ := hc
  have hc := unlessExisting_eq_some hc
  simp only [steps_ok, not_not] at hc
  obtain ⟨earlier, required, hs, rfl⟩ := hc
  have active := requireActiveStage_eq_ok required
  refine ⟨active.opened, by simp, by simp, earlier, active.read, _, rfl,
    fun later history late ha _ => ?_⟩
  have hr := late.running ha (by simp)
  have completing := late.completing ha rfl rfl
    (by simp [active.owner]) active.owner.symm active.index hs active.answers
  have parsed : parseRejectedReceipt (some receipt) = .ok receipt := by
    simp [parseRejectedReceipt, orRaise, rejectIf, kind, hv, bind, Except.bind, pure, Except.pure]
  refine readable_singleton hr late.quiet (bind_eq_ok.mpr ⟨_, completing, bind_eq_ok.mpr ⟨receipt,
    parsed, bind_eq_ok.mpr ⟨(), by simp [allowed], bind_eq_ok.mpr ⟨(), han, rfl⟩⟩⟩⟩) late.quiet ?_
  simp [validateFieldMatrix, Values.noRequest, Values.noContinuation, Values.hasResponse, allowed,
    rejectIf, bind, Except.bind]

theorem orConflict_eq_ok {α : Type} {message : String} {attempt : Except JournalError α}
    {value : α} : orConflict message attempt = .ok value ↔ attempt = .ok value := by
  cases attempt <;> simp [orConflict]

theorem validateRequestFrame_eq_ok {frame : Bytes}
    (hv : keys.validateRequestFrame frame request = .ok ()) :
    keys.requestFromFrame frame = .ok request := by
  unfold Keys.validateRequestFrame at hv
  simp only [steps_ok, not_not] at hv
  obtain ⟨_, read, rfl⟩ := hv
  exact read

theorem validateRequestColumns_columns {frame : Bytes} {entry : Entry}
    {authority : ReplicaAuthority} (parsed : keys.requestFromFrame frame = .ok request)
    (given : entry.requestFrame = some frame) (hh : entry.authority = some authority) :
    keys.validateRequestColumns (keys.columns request.identity (some request) entry)
        request.requestType = .ok request := by
  refine bind_eq_ok.mpr ⟨(), ?_,
      bind_eq_ok.mpr ⟨frame, ?_, bind_eq_ok.mpr ⟨request, parsed, bind_eq_ok.mpr ⟨(), ?_, rfl⟩⟩⟩⟩
  · simp [Values.hasRequest, given, hh]
  · simp [given]
  · simp [given, BrokerRequest.identity]

theorem prepared_acceptDrainContinuation {requestFrame : Bytes}
    {continuation : ReplicaDrainContinuation}
    (hc : keys.acceptDrainContinuation rows request requestFrame continuation = .ok (some batch)) :
    Prepared keys rows request.identity (fun _ => True) batch := by
  unfold Keys.acceptDrainContinuation at hc
  simp only [steps_ok, orConflict_eq_ok, not_not] at hc
  obtain ⟨kind, frame, parsed, payload, rfl, opened, -, earlier, read, hc⟩ := hc
  have framed := validateRequestFrame_eq_ok frame
  split at hc
  · simp at hc
  · unfold Keys.requestValues at hc
    simp only [steps_ok, not_or, not_not] at hc
    obtain ⟨-, ⟨paused, ho, incarnated, hs, authority, sha, admission⟩, _, ⟨_, reread, rfl⟩, hm⟩ := hc
    cases framed.symm.trans reread
    cases hm
    refine ⟨opened, by simp, by simp, earlier, read, _, rfl,
      fun later history late ha _ => ?_⟩
    have hf : later.continuation = none := by
      cases hp : later.continuation with
      | none => rfl
      | some continuation =>
        obtain ⟨row, hl, type⟩ := late.reflects.continued (by simp [hp])
        exact absurd type (ha.single rfl row hl)
    obtain ⟨token, incarnation⟩ := late.extends_.owner (Replay.not_isNone.mp ho)
    have admitted : (later.receipts .admission).map Receipt.id = some parsed.admissionReceiptId := by
      cases received : earlier.receipts .admission with
      | none => simp [received] at admission
      | some _ => rw [late.extends_.admission (by simp [received]), admission]
    have columns := @validateRequestColumns_columns keys request requestFrame
      { eventType := .drainContinuationAccepted, authority := some parsed.authority,
        continuation := some parsed,
        ownerToken := earlier.ownerToken, requestFrame := some requestFrame } parsed.authority framed rfl rfl
    rw [kind] at columns
    refine readable_singleton (late.running ha (by simp)) late.quiet
      (bind_eq_ok.mpr ⟨(), ?_, bind_eq_ok.mpr ⟨request, columns, bind_eq_ok.mpr ⟨parsed, payload,
        bind_eq_ok.mpr ⟨(), rejectIf_eq_ok.mpr ?_, bind_eq_ok.mpr ⟨(), ?_, rfl⟩⟩⟩⟩⟩) late.quiet ?_
    · simp only [rejectIf_eq_ok, not_or, not_not]
      exact ⟨late.extends_.paused paused, by simp [hf], token.symm, incarnation ▸ incarnated⟩
    · simp [late.extends_.authority, late.extends_.initialRequestFrame, authority, sha, incarnation, hs]
    · rw [rejectIf_eq_ok, not_not]
      exact admitted
    · simp [validateFieldMatrix, Values.hasRequest, Values.hasContinuation, Values.noStageResult,
        Values.noResponse, Replay.not_isNone.mp ho]

def Unanswered (request : BrokerRequest) (stage : Stage) (replay : Replay) : Prop :=
  request.requestType = .lifecycle → stage = .drain → replay.continuation = none

theorem Later.foreign {earlier later : Replay} {history : List Event}
    (late : Later earlier later history) (admits : Admits history new)
    (type : new.eventType = .stageUnresolved) (hn : new.stage = some .drain)
    (given : new.unresolvedReason = some .brokerRestartUnknown) (ho : earlier.ownerToken.isSome)
    (owner : new.ownerToken = earlier.ownerToken)
    (direct : Keys.directForeignPause earlier request .drain reason = true)
    (allowed : Unanswered request .drain later) : later.completing new = .ok (.drain, request) := by
  simp only [Keys.directForeignPause, Bool.and_eq_true, Bool.or_eq_true, decide_eq_true_eq,
    Bool.not_eq_true', Option.isNone_iff_eq_none] at direct
  obtain ⟨⟨⟨-, paused⟩, -⟩, last⟩ := direct
  have still := late.extends_.paused paused
  have hr := late.coherent.paused still
  have same : later.nextStageIndex = Stage.drain.index := by
    by_contra passed
    have beyond : Stage.drain.index < later.nextStageIndex := by
      simp only [Stage.index] at passed ⊢
      omega
    obtain ⟨row, hl, hd, equal⟩ := late.reflects.completed .drain beyond
    exact admits.completion (by rw [type]; rfl) .drain hn row hl hd equal
  obtain ⟨token, -⟩ := late.extends_.owner ho
  have foreign : new.isForeignDrain = true := by simp [Values.isForeignDrain, type, hn, given]
  refine Replay.completing_eq_ok.mpr ⟨token ▸ ho, owner.trans token.symm, hn, same, ?_, ?_⟩
  · cases hs : later.stageStarted with
    | true => exact .inl rfl
    | false => exact .inr (by simp [Replay.directForeignPause, foreign, still, hs])
  unfold Replay.responseRequest
  obtain ⟨⟨-, kind⟩, initial⟩ | ⟨⟨hp, -⟩, requested⟩ := last
  · -- without a continuation nothing is started, and the initial request is the last one
    have ha := allowed kind rfl
    have hi : later.stageStarted = false := by
      by_contra hs
      have := late.coherent.started hr (by simpa using hs)
      simp [ha] at this
    have undrained : later.drainRequest = none := by
      have := late.coherent.continued
      rw [ha] at this
      simpa using this
    rw [if_pos (by simp [Replay.directForeignPause, foreign, still, hi]), undrained]
    exact congrArg some (late.extends_.initialRequest.trans initial)
  · have drain : later.drainRequest = some request := (late.extends_.continuation hp).2.trans requested
    rw [drain]
    split <;> rfl

theorem prepared_markStageUnresolved
    (hc : keys.markStageUnresolved rows request ownerToken stage reason responseFrame =
        .ok (some batch)) :
    Prepared keys rows request.identity (Unanswered request stage) batch := by
  unfold Keys.markStageUnresolved at hc
  simp only [steps_ok, not_not] at hc
  obtain ⟨possible, answered, hc⟩ := hc
  have hc := unlessExisting_eq_some hc
  simp only [steps_ok] at hc
  obtain ⟨required, rfl⟩ := hc
  unfold Keys.requireUnresolved at required
  simp only [steps_ok] at required
  obtain ⟨opened, -, earlier, read, required⟩ := required
  split at required
  · next direct =>
      rw [rejectIf_eq_ok, not_not] at required
      obtain ⟨rfl, rfl⟩ : stage = .drain ∧ reason = .brokerRestartUnknown := by
        simp only [Keys.directForeignPause, Bool.and_eq_true, decide_eq_true_eq] at direct
        exact ⟨direct.1.1.1.1, direct.1.1.1.2⟩
      refine ⟨opened, by simp, by simp, earlier, read, _, rfl,
        fun later history late ha allowed => ?_⟩
      have completing := late.foreign ha rfl rfl rfl (by simp [required]) required.symm direct allowed
      exact readable_singleton (late.running ha (by simp)) late.quiet
        (dispatch_unresolved rfl completing rfl possible answered) late.quiet rfl
  · simp only [steps_ok, not_not] at required
    obtain ⟨active, required, hs⟩ := required
    have live := requireActiveStage_eq_ok required
    refine ⟨opened, by simp, by simp, active, live.read, _, rfl,
      fun later history late ha _ => ?_⟩
    have completing :=
      late.completing ha rfl rfl (by simp [live.owner]) live.owner.symm live.index hs live.answers
    exact readable_singleton (late.running ha (by simp)) late.quiet
      (dispatch_unresolved rfl completing rfl possible answered) late.quiet rfl

end

end Yinshi.Replica
