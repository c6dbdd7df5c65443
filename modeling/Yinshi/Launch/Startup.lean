import Mathlib.Tactic.IntervalCases
import Yinshi.Launch.Journal

/-! Recovery at the startup of the broker. A lifecycle that is not closed is a part of one chain
of rows, so the stage that a restart interrupted follows from its rows. -/

namespace Yinshi.Launch
open ByteText Checked Option

def chain (ownerToken : Text) : List Entry :=
  [.stageStarted .prepare ownerToken, .stageOutcome .prepare ownerToken .prepared none none,
    .stageStarted .runtimeSetup ownerToken, .stageOutcome .runtimeSetup ownerToken .runtimeReady none none,
    .stageStarted .launch ownerToken]

theorem chain_plain {ownerToken : Text} {entry : Entry} {n : Nat}
    (hm : entry ∈ (chain ownerToken).take n) :
    entry.isAccepted = false ∧ entry.claimant = none := by
  have hp : ∀ entry ∈ chain ownerToken, entry.isAccepted = false ∧ entry.claimant = none := by
    simp [chain, Entry.isAccepted, Entry.claimant]
  exact hp entry (List.mem_of_mem_take hm)

structure Claimed where
  nonce : Text
  connectionSequence : Nat
  payloadDigest : Text
  requestFrame : Bytes
  brokerIncarnation : Text
  ownerToken : Text

def Claimed.rows (c : Claimed) (n : Nat) : List Entry :=
  .accepted c.nonce c.connectionSequence c.payloadDigest c.requestFrame ::
    .lifecycleClaimed c.brokerIncarnation c.ownerToken :: (chain c.ownerToken).take n

inductive Shape : List Entry → Prop
  | unknown : Shape []
  | accepted {nonce sequence digest frame} : Shape [.accepted nonce sequence digest frame]
  | running (c : Claimed) (n) (bound : n ≤ 5) : Shape (c.rows n)
  | closed {last} (c : Claimed) (n) (ends : last.isTerminal) : Shape (c.rows n ++ [last])

def Protocol.Legit (protocol : Protocol) (identity : Identity) : Entry → Prop
  | .accepted nonce connectionSequence payloadDigest requestFrame => ∃ request,
      protocol.parseSignedRequest requestFrame = some request ∧ protocol.isSupported request ∧
        request.identity = identity ∧ request.nonce = nonce ∧
          request.payloadDigest = payloadDigest ∧ request.connectionSequence = connectionSequence
  | .lifecycleClaimed brokerIncarnation ownerToken => isToken brokerIncarnation ∧ isToken ownerToken
  | .stageStarted .. => True
  | .stageOutcome stage _ status _ responseFrame =>
    status ∈ stage.statuses ∧ responseFrame.all protocol.isStoredJson
  | .stageUnresolved _ _ _ responseFrame => protocol.isStoredJson responseFrame

section Shape
variable {protocol : Protocol} {identity : Identity} {history : List Entry} {new : Entry}
  {owner : Text} {n : Nat} {c : Claimed}

theorem claimant_rows : (c.rows n).findSome? Entry.claimant = some c.ownerToken := rfl

theorem claimedBy_rows (hc : claimedBy (c.rows n) owner) : c.ownerToken = owner := by
  obtain ⟨entry, hm, claims⟩ := List.any_eq_true.mp hc
  rcases List.mem_cons.mp hm with rfl | later
  · simp [Entry.claimant] at claims
  · rcases List.mem_cons.mp later with rfl | rest
    · simpa [Entry.claimant] using claims
    · simp [(chain_plain rest).2] at claims

theorem Shape.insert (hs : Shape history) (wellFormed : new.WellFormed)
    (transition : RequireTransition history new) (hu : Unique history new)
    (legit : protocol.Legit identity new) :
    Shape (history ++ [new]) ∧ protocol.validRow identity history new := by
  cases hs with
  | unknown =>
    cases new with
    | accepted =>
      obtain ⟨request, parsed, _, rfl, rfl, rfl, rfl⟩ := legit
      obtain ⟨hsd, digest⟩ := protocol.stored_of_parsed parsed
      exact ⟨.accepted, by simp [Protocol.validRow, hsd, digest]⟩
    | _ => simp [RequireTransition] at transition
  | accepted =>
    cases new with
    | accepted => simp [Unique, Entry.isAccepted] at hu
    | lifecycleClaimed =>
      refine ⟨.running ⟨_, _, _, _, _, _⟩ 0 (by simp), ?_⟩
      simpa [Protocol.validRow, Entry.isAccepted, Protocol.Legit] using legit
    | _ => simp [RequireTransition, claimedBy, Entry.claimant] at transition
  | closed _ _ ends =>
    cases new with
    | accepted => exact absurd (by simp [Claimed.rows, Entry.isAccepted]) (hu.1 rfl)
    | _ => simp [RequireTransition, ends] at transition
  | running c n hb =>
    cases new with
    | accepted => exact absurd (by simp [Claimed.rows, Entry.isAccepted]) (hu.1 rfl)
    | lifecycleClaimed => exact absurd (by simp [Claimed.rows, Entry.claimant]) (hu.2.1 rfl)
    | stageUnresolved stage =>
      obtain ⟨_, claimed, hst, _⟩ := transition
      obtain rfl := claimedBy_rows claimed
      refine ⟨.closed c n rfl, ?_⟩
      simp only [Protocol.validRow, claimant_rows, decide_eq_true_eq]
      exact ⟨trivial, List.any_eq_true.mpr ⟨_, hst, by simp [Entry.starts]⟩, legit⟩
    | stageOutcome stage _ status =>
      obtain ⟨_, claimed, hst, _⟩ := transition
      obtain rfl := claimedBy_rows claimed
      constructor
      · by_cases ends : stage = .launch ∨ status = .rejected
        · exact .closed c n (by simpa [Entry.isTerminal] using ends)
        · -- A stage that passes was the last to start.
          obtain ⟨error, response⟩ := wellFormed
          have completed := hu.2.2.2.1 stage (by cases stage <;> decide) (by simp [Entry.completes])
          obtain ⟨rfl, rfl⟩ : _ = none ∧ _ = none := by simpa [not_or.mp ends] using And.intro error response
          obtain ⟨rfl, rfl⟩ | ⟨rfl, rfl⟩ : (stage = .prepare ∧ status = .prepared) ∨
              (stage = .runtimeSetup ∧ status = .runtimeReady) := by
            cases stage <;> cases status <;> simp_all [Stage.statuses, Protocol.Legit]
          · interval_cases n <;> simp [Claimed.rows, chain, Entry.completes] at completed hst
            exact .running c 2 (by decide)
          · interval_cases n <;> simp [Claimed.rows, chain, Entry.completes] at completed hst
            exact .running c 4 (by decide)
      · simp only [Protocol.validRow, claimant_rows, decide_eq_true_eq]
        exact ⟨trivial, List.any_eq_true.mpr ⟨_, hst, by simp [Entry.starts]⟩, legit⟩
    | stageStarted stage =>
      obtain rfl := claimedBy_rows transition.2.1
      cases stage <;> interval_cases n <;>
        simp [RequireTransition, Unique, Claimed.rows, chain, stages, Entry.claimant,
          Entry.isAccepted, Entry.passes, Entry.starts, Entry.isTerminal] at transition hu
      · exact ⟨.running c 1 (by decide), by simp [Protocol.validRow, claimant_rows]; rfl⟩
      · exact ⟨.running c 3 (by decide), by simp [Protocol.validRow, claimant_rows]; rfl⟩
      · exact ⟨.running c 5 (by decide), by simp [Protocol.validRow, claimant_rows]; rfl⟩

end Shape

section Journals
variable {protocol : Protocol} {journal journal' : Journal} {event : Event} {identity : Identity}

theorem history_append :
    (journal ++ [event]).history identity =
      if event.identity = identity then journal.history identity ++ [event.entry] else
      journal.history identity := by
  split
  next hs => simp [Journal.history, List.filter_append, hs]
  next other => simp [Journal.history, List.filter_append, other]

theorem mem_history (hm : event ∈ journal) : event.entry ∈ journal.history event.identity :=
  List.mem_map_of_mem (List.mem_filter.mpr ⟨hm, by simp⟩)

theorem validate_append {before : Journal} (hv : validateEvents protocol before journal = .ok ())
    (row :
      protocol.validRow event.identity ((before ++ journal).history event.identity) event.entry) :
    validateEvents protocol before (journal ++ [event]) = .ok () := by
  induction journal generalizing before with
  | nil =>
    simp only [List.append_nil] at row
    simp [validateEvents, row, rejectIf]
  | cons first rest ih =>
    simp only [validateEvents, List.cons_append, steps_ok] at hv ⊢
    exact ⟨hv.1, ih hv.2 (by simpa using row)⟩

structure Sound (protocol : Protocol) (journal : Journal) : Prop where
  shapes : ∀ identity, Shape (journal.history identity)
  valid : openJournal protocol journal = .ok ()
  legit : ∀ event ∈ journal, protocol.Legit event.identity event.entry

theorem Sound.insert (hs : Sound protocol journal) (hi : insertEvent event journal = .ok journal')
    (legit : protocol.Legit event.identity event.entry) :
    Sound protocol journal' ∧ journal' = journal ++ [event] := by
  simp only [insertEvent, steps_ok, not_not] at hi
  obtain ⟨⟨wellFormed, transition, hu, _⟩, rfl⟩ := hi
  obtain ⟨shape, row⟩ := (hs.shapes event.identity).insert wellFormed transition hu legit
  refine ⟨⟨fun identity => ?_, validate_append hs.valid (by simpa using row), fun other hm => ?_⟩, rfl⟩
  · rw [history_append]
    split
    next hsa => exact hsa ▸ shape
    next => exact hs.shapes identity
  · rcases List.mem_append.mp hm with old | last
    · exact hs.legit other old
    · rwa [List.mem_singleton.mp last]

/-- The histories of any number of processes, each with its incarnations and its owner token. -/
inductive Reachable (protocol : Protocol) : Journal → Prop
  | empty : Reachable protocol []
  | accept {journal journal' service frame peerUid request decision} (before : Reachable protocol journal)
      (authentic : authenticate protocol service frame peerUid = .ok request)
      (ran : accept protocol request frame journal = .ok (journal', decision)) : Reachable protocol journal'
  | claim {journal journal' request ownerToken brokerIncarnation decision}
    (before : Reachable protocol journal)
      (ran : claimLifecycle protocol request ownerToken brokerIncarnation journal =
          .ok (journal', decision)) :
      Reachable protocol journal'
  | begin {journal journal' request ownerToken stage} (before : Reachable protocol journal)
      (ran : beginStage protocol request ownerToken stage journal = .ok journal') : Reachable protocol journal'
  | outcome {journal journal' request ownerToken stage status error responseFrame}
      (before : Reachable protocol journal) (response : responseFrame.all protocol.isStoredJson)
      (ran : recordStageOutcome protocol request ownerToken stage status error responseFrame
            journal = .ok journal') :
      Reachable protocol journal'
  | unresolved {journal journal' request ownerToken stage reason responseFrame}
      (before : Reachable protocol journal)
      (response : protocol.isStoredJson responseFrame)
      (ran : recordStageUnresolved protocol request ownerToken stage reason responseFrame journal =
          .ok journal') :
      Reachable protocol journal'

theorem Reachable.sound (hr : Reachable protocol journal) : Sound protocol journal := by
  induction hr with
  | empty => exact ⟨fun _ => .unknown, rfl, fun _ hm => absurd hm List.not_mem_nil⟩
  | @accept journal _ _ frame _ request _ _ authentic ran hs =>
    simp only [authenticate, steps_ok, not_not] at authentic
    obtain ⟨_, request, parsed, _, _, supported, rfl⟩ := authentic
    simp only [Launch.accept, steps_ok] at ran
    obtain ⟨_, ran⟩ := ran
    split at ran
    · simp only [steps_ok] at ran
      obtain ⟨_, hsa⟩ := ran
      cases hsa
      exact hs
    · simp only [steps_ok] at ran
      obtain ⟨_, _, _, inserted, hsa⟩ := ran
      cases hsa
      exact (hs.insert inserted ⟨request, parsed, supported, rfl, rfl, rfl, rfl⟩).1
  | claim _ ran hs =>
    simp only [claimLifecycle, steps_ok, not_or, not_not] at ran
    obtain ⟨tokens, _, ran⟩ := ran
    split at ran
    · cases ran
      exact hs
    · cases ran
      exact hs
    · simp only [steps_ok] at ran
      obtain ⟨_, inserted, hsa⟩ := ran
      cases hsa
      exact (hs.insert inserted tokens.symm).1
  | begin _ ran hs =>
    simp only [beginStage, steps_ok] at ran
    exact (hs.insert ran.2 trivial).1
  | outcome _ response ran hs =>
    simp only [recordStageOutcome, steps_ok, not_not] at ran
    exact (hs.insert ran.2.2 ⟨ran.1, response⟩).1
  | unresolved _ response ran hs =>
    simp only [recordStageUnresolved, steps_ok] at ran
    obtain ⟨_, ran⟩ := ran
    split at ran
    · simp only [steps_ok] at ran
      exact ran.2 ▸ hs
    · exact (hs.insert ran response).1

end Journals

def Unfinished (history : List Entry) : Prop :=
  history.any (·.claimant.isSome) ∧ ¬ history.any Entry.isTerminal

def Interrupts (history : List Entry) (ownerToken : Text) (stage : Stage) : Prop :=
  (history.any (Entry.starts stage) ∧ ¬ history.any (Entry.hasOutcome stage)) ∨
    (∀ other ∈ stages, history.any (Entry.starts other) → history.any (Entry.hasOutcome other)) ∧
      RequireTransition history (.stageStarted stage ownerToken) ∧
        Unique history (.stageStarted stage ownerToken)

section Rows
variable {c : Claimed} {n : Nat} {history : List Entry}

theorem Shape.unfinished (hs : Shape history) (hu : Unfinished history) :
    ∃ (c : Claimed) (n : Nat), n ≤ 5 ∧ history = c.rows n := by
  cases hs with
  | unknown => simp [Unfinished] at hu
  | accepted => simp [Unfinished, Entry.claimant] at hu
  | running c n hb => exact ⟨c, n, hb, rfl⟩
  | closed _ _ ends => simp [Unfinished, ends] at hu

theorem unfinished_rows (hb : n ≤ 5) : Unfinished (c.rows n) := by
  interval_cases n <;> simp [Unfinished, Claimed.rows, chain, Entry.claimant, Entry.isTerminal]

theorem claimants_rows : (c.rows n).filterMap Entry.claimant = [c.ownerToken] := by
  have unclaimed : ((chain c.ownerToken).take n).filterMap Entry.claimant = [] :=
    List.filterMap_eq_nil_iff.mpr fun _ hm => (chain_plain hm).2
  exact congrArg (List.cons c.ownerToken) unclaimed

theorem interrupts_iff (hb : n ≤ 5) {stage : Stage} :
    Interrupts (c.rows n) c.ownerToken stage ↔ stage = (interrupted (c.rows n)).1 := by
  cases stage <;> interval_cases n <;>
    simp [Interrupts, interrupted, RequireTransition, Unique, claimedBy, Claimed.rows, chain,
      stages, Entry.claimant, Entry.isAccepted, Entry.passes, Entry.starts, Entry.completes,
      Entry.hasOutcome, Entry.isTerminal]

theorem interrupted_begins {stage : Stage} (hb : n ≤ 5)
    (hw : interrupted (c.rows n) = (stage, false)) :
    RequireTransition (c.rows n) (.stageStarted stage c.ownerToken) ∧
    Unique (c.rows n) (.stageStarted stage c.ownerToken) ∧ n + 1 ≤ 5 ∧
    c.rows n ++ [.stageStarted stage c.ownerToken] = c.rows (n + 1) ∧
    interrupted (c.rows (n + 1)) = (stage, true) := by
  cases stage <;> interval_cases n <;>
    simp [interrupted, RequireTransition, Unique, claimedBy, Claimed.rows, chain, stages, Entry.claimant,
      Entry.isAccepted, Entry.passes, Entry.starts, Entry.completes, Entry.hasOutcome,
        Entry.isTerminal] at hw ⊢

theorem interrupted_closes {stage : Stage} (reason : UnresolvedReason) (response : Bytes)
    (hb : n ≤ 5) (runs : interrupted (c.rows n) = (stage, true)) :
    RequireTransition (c.rows n) (.stageUnresolved stage c.ownerToken reason response) ∧
    Unique (c.rows n) (.stageUnresolved stage c.ownerToken reason response) := by
  cases stage <;> interval_cases n <;>
    simp [interrupted, RequireTransition, Unique, claimedBy, Claimed.rows, chain, stages, Entry.claimant,
      Entry.isAccepted, Entry.starts, Entry.completes, Entry.hasOutcome, Entry.isTerminal] at runs ⊢

end Rows

def Closes (before after : List Entry) : Prop :=
  ∃ ownerToken response, claimedBy before ownerToken ∧
    after =
      before ++
        (if (interrupted before).2 then [] else
          [.stageStarted (interrupted before).1 ownerToken]) ++
      [.stageUnresolved (interrupted before).1 ownerToken .brokerRestartUnknown response]

section Recovery
variable {protocol : Protocol} {service : BrokerService} {journal : Journal} {identity : Identity}
  {new : Entry} {request : BrokerRequest} {ownerToken : Text} {stage : Stage}

theorem insertEvent_later (hp : new.isAccepted = false) (wellFormed : new.WellFormed)
    (transition : RequireTransition (journal.history identity) new)
    (hu : Unique (journal.history identity) new) :
    insertEvent ⟨identity, new⟩ journal = .ok (journal ++ [⟨identity, new⟩]) := by
  simp only [insertEvent, steps_ok, not_not]
  refine ⟨⟨wellFormed, transition, hu, fun event _ _ => ?_⟩, trivial⟩
  cases new with
  | accepted => cases hp
  | _ => cases event.entry <;> simp [Entry.clashes]

theorem Sound.begins (hs : Sound protocol journal)
    (transition :
      RequireTransition (journal.history request.identity) (.stageStarted stage ownerToken))
    (hu : Unique (journal.history request.identity) (.stageStarted stage ownerToken)) :
    beginStage protocol request ownerToken stage journal =
        .ok (journal ++ [⟨request.identity, .stageStarted stage ownerToken⟩]) ∧
    Sound protocol (journal ++ [⟨request.identity, .stageStarted stage ownerToken⟩]) := by
  have inserted := insertEvent_later rfl (by trivial) transition hu
  simp only [beginStage, steps_ok]
  exact ⟨⟨hs.valid, inserted⟩, (hs.insert inserted trivial).1⟩

theorem Sound.closes (hs : Sound protocol journal) {reason : UnresolvedReason} {response : Bytes}
    (hst : protocol.isStoredJson response)
    (transition : RequireTransition (journal.history request.identity)
        (.stageUnresolved stage ownerToken reason response))
    (hu : Unique (journal.history request.identity)
        (.stageUnresolved stage ownerToken reason response)) :
    recordStageUnresolved protocol request ownerToken stage reason response journal =
        .ok (journal ++ [⟨request.identity, .stageUnresolved stage ownerToken reason response⟩]) ∧
    Sound protocol
      (journal ++ [⟨request.identity, .stageUnresolved stage ownerToken reason response⟩]) := by
  have inserted := insertEvent_later rfl (by trivial) transition hu
  have continuing : terminalDecision (journal.history request.identity) = none := by
    rw [terminalDecision, List.find?_eq_none.mpr, bind_none]
    simpa using transition.2.2.2
  refine ⟨?_, (hs.insert inserted hst).1⟩
  simp only [recordStageUnresolved, steps_ok, continuing, isSome_none, Bool.false_eq_true, if_false]
  exact ⟨hs.valid, inserted⟩

theorem Sound.recover (hs : Sound protocol journal) {c : Claimed} {n : Nat} (hb : n ≤ 5)
    (rows : journal.history request.identity = c.rows n)
    (authentic : authenticate protocol service c.requestFrame service.applicationUid = .ok request)
    (rest : List IncompleteLifecycle) :
    ∃ journal', Sound protocol journal' ∧
      recoverEach protocol service (⟨c.requestFrame, c.ownerToken, (interrupted (c.rows n)).1,
              (interrupted (c.rows n)).2⟩ :: rest) journal =
        recoverEach protocol service rest journal' ∧
      Closes (c.rows n) (journal'.history request.identity) ∧
      ∀ identity,
        identity ≠ request.identity → journal'.history identity = journal.history identity := by
  have claimed : claimedBy (c.rows n) c.ownerToken := by simp [claimedBy, Claimed.rows, Entry.claimant]
  obtain ⟨stage, started, shape⟩ : ∃ stage started, interrupted (c.rows n) = (stage, started) := ⟨_, _, rfl⟩
  have hst := protocol.response_stored request stage
  cases started with
  | true =>
    have closing :=
      interrupted_closes .brokerRestartUnknown (protocol.unresolvedResponse request stage) hb shape
    rw [← rows] at closing
    obtain ⟨hc, hso⟩ := hs.closes hst closing.1 closing.2
    refine ⟨_, hso, ?_, ⟨c.ownerToken, protocol.unresolvedResponse request stage, claimed, ?_⟩, ?_⟩
    · simp [recoverEach, authentic, shape, hc]
    · rw [history_append, if_pos rfl, rows, shape]
      simp
    · intro identity other
      rw [history_append, if_neg other.symm]
  | false =>
    obtain ⟨transition, hu, hb', grown, shape'⟩ := interrupted_begins hb shape
    rw [← rows] at transition hu
    obtain ⟨begun, hso⟩ := hs.begins transition hu
    let begin : Event := ⟨request.identity, .stageStarted stage c.ownerToken⟩
    have rows' : (journal ++ [begin]).history request.identity = c.rows (n + 1) := by
      rw [history_append, if_pos rfl, rows, grown]
    have closing := interrupted_closes .brokerRestartUnknown
        (protocol.unresolvedResponse request stage) hb' shape'
    rw [← rows'] at closing
    obtain ⟨hc, hso'⟩ := hso.closes hst closing.1 closing.2
    refine ⟨_, hso', ?_, ⟨c.ownerToken, protocol.unresolvedResponse request stage, claimed, ?_⟩, ?_⟩
    · simp [recoverEach, authentic, shape, begun, hc]
    · rw [history_append, if_pos rfl, rows', ← grown, shape]
      simp
    · intro identity other
      rw [history_append, if_neg other.symm, history_append, if_neg other.symm]

/-- Every unfinished lifecycle was requested under the incarnations of the broker. -/
def Current (protocol : Protocol) (service : BrokerService) (journal : Journal) : Prop :=
  ∀ event ∈ journal, Unfinished (journal.history event.identity) → ∀ nonce sequence digest frame request,
    event.entry = .accepted nonce sequence digest frame → protocol.parseSignedRequest frame = some request →
      request.brokerIncarnation = service.brokerIncarnation ∧
        event.identity.databaseIncarnation = service.databaseIncarnation

theorem accepted_rows {c : Claimed} {n : Nat} (hm : new ∈ c.rows n) (ha : new.isAccepted) :
    new = .accepted c.nonce c.connectionSequence c.payloadDigest c.requestFrame := by
  rcases List.mem_cons.mp hm with first | later
  · exact first
  · rcases List.mem_cons.mp later with rfl | rest
    · cases ha
    · simp [(chain_plain rest).1] at ha

theorem Shape.accepted_once {history : List Entry} (hs : Shape history) :
    history.countP Entry.isAccepted ≤ 1 := by
  have rows : ∀ (c : Claimed) n, (c.rows n).countP Entry.isAccepted = 1 := by
    intro c n
    have others : ((chain c.ownerToken).take n).countP Entry.isAccepted = 0 :=
      List.countP_eq_zero.mpr fun _ hm => by simp [(chain_plain hm).1]
    simp [Claimed.rows, List.countP_cons, others, Entry.isAccepted]
  cases hs with
  | unknown => simp
  | accepted => simp [Entry.isAccepted]
  | running c n _ => exact (rows c n).le
  | @closed last c n ends =>
    have hp : last.isAccepted = false := by cases last <;> simp [Entry.isTerminal, Entry.isAccepted] at ends ⊢
    simp [rows, hp]

theorem Sound.accepted_nodup (hs : Sound protocol journal) :
    ((journal.filter (·.entry.isAccepted)).map (·.identity)).Nodup := by
  apply List.nodup_iff_count_le_one.mpr
  intro identity
  have once := (hs.shapes identity).accepted_once
  rw [Journal.history, List.countP_map, List.countP_filter] at once
  rw [List.count_eq_countP, List.countP_map, List.countP_filter]
  simpa [Function.comp_def, Bool.and_comm, beq_eq_decide] using once

theorem incompleteAt_other {event : Event} (other : event.entry.isAccepted = false) :
    incompleteAt journal event = [] := by
  unfold incompleteAt
  split
  next shape => simp [shape, Entry.isAccepted] at other
  next => rfl

theorem incompleteAt_accepted {event : Event} (hs : Sound protocol journal) (hm : event ∈ journal)
    (ha : event.entry.isAccepted) :
    (incompleteAt journal event = [] ∧ ¬ Unfinished (journal.history event.identity)) ∨
    ∃ (c : Claimed) (n : Nat), n ≤ 5 ∧ journal.history event.identity = c.rows n ∧
      event.entry = .accepted c.nonce c.connectionSequence c.payloadDigest c.requestFrame ∧
      incompleteAt journal event =
        [⟨c.requestFrame, c.ownerToken, (interrupted (c.rows n)).1,
          (interrupted (c.rows n)).2⟩] := by
  by_cases unfinished : Unfinished (journal.history event.identity)
  · obtain ⟨c, n, hb, rows⟩ := (hs.shapes _).unfinished unfinished
    have first : event.entry = _ := accepted_rows (rows ▸ mem_history hm) ha
    refine .inr ⟨c, n, hb, rows, first, ?_⟩
    have terminal := unfinished.2
    rw [rows] at terminal
    simp [incompleteAt, first, rows, terminal, claimants_rows]
  · refine .inl ⟨?_, unfinished⟩
    unfold incompleteAt
    split
    · dsimp only
      split
      · rfl
      next continues =>
        rw [List.map_eq_nil_iff, List.filterMap_eq_nil_iff]
        intro entry hm
        by_contra claims
        refine unfinished ⟨List.any_eq_true.mpr ⟨entry, hm, ?_⟩, continues⟩
        simpa [isSome_iff_ne_none] using claims
    · rfl

theorem recoverEach_all (hs : Sound protocol journal) (hcu : Current protocol service journal)
    (rest : List Event) (hm : ∀ event ∈ rest, event ∈ journal)
    (hn : ((rest.filter (·.entry.isAccepted)).map (·.identity)).Nodup) {now : Journal}
    (hso : Sound protocol now)
    (hsa : ∀ event ∈ rest,
        event.entry.isAccepted → now.history event.identity = journal.history event.identity) :
    ∃ after, recoverEach protocol service (rest.flatMap (incompleteAt journal)) now =
          (after, .ok ()) ∧ Sound protocol after ∧
      (∀ event ∈ rest, event.entry.isAccepted → Unfinished (journal.history event.identity) →
        Closes (journal.history event.identity) (after.history event.identity)) ∧
      ∀ identity,
        (∀ event ∈ rest, event.entry.isAccepted → event.identity = identity →
            ¬ Unfinished (journal.history identity)) →
        after.history identity = now.history identity := by
  induction rest generalizing now with
  | nil => exact ⟨now, rfl, hso, by simp, fun _ _ => rfl⟩
  | cons event rest ih =>
    have later := fun other (ht : other ∈ rest) => hm other (List.mem_cons_of_mem _ ht)
    cases ha : event.entry.isAccepted with
    | false =>
      rw [List.filter_cons_of_neg (by simp [ha])] at hn
      obtain ⟨after, ran, hs', hc, others⟩ :=
        ih later hn hso fun other ht => hsa other (List.mem_cons_of_mem _ ht)
      rw [List.flatMap_cons, incompleteAt_other ha, List.nil_append]
      refine ⟨after, ran, hs', fun other ht => ?_, fun identity none => ?_⟩
      · rcases List.mem_cons.mp ht with rfl | tail
        · simp [ha]
        · exact hc other tail
      · exact others identity fun other ht => none other (List.mem_cons_of_mem _ ht)
    | true =>
      rw [List.filter_cons_of_pos (by simp [ha]), List.map_cons, List.nodup_cons] at hn
      have hap : ∀ other ∈ rest, other.entry.isAccepted → other.identity ≠ event.identity := by
        intro other ht accepts equal
        exact hn.1 (List.mem_map.mpr ⟨other, List.mem_filter.mpr ⟨ht, accepts⟩, equal⟩)
      rw [List.flatMap_cons]
      rcases incompleteAt_accepted hs (hm event List.mem_cons_self) ha with ⟨empty, finished⟩ |
        ⟨c, n, hb, rows, entry, hl⟩
      · obtain ⟨after, ran, hs', hc, others⟩ :=
          ih later hn.2 hso fun other ht => hsa other (List.mem_cons_of_mem _ ht)
        rw [empty, List.nil_append]
        refine ⟨after, ran, hs', fun other ht => ?_, fun identity none => ?_⟩
        · rcases List.mem_cons.mp ht with rfl | tail
          · exact fun _ unfinished => absurd unfinished finished
          · exact hc other tail
        · exact others identity fun other ht => none other (List.mem_cons_of_mem _ ht)
      · have legit := hs.legit event (hm event List.mem_cons_self)
        rw [entry] at legit
        obtain ⟨request, parsed, supported, identified, _⟩ := legit
        have unfinished : Unfinished (journal.history event.identity) := rows ▸ unfinished_rows hb
        obtain ⟨broker, database⟩ :=
          hcu event (hm event List.mem_cons_self) unfinished _ _ _ _ request entry parsed
        have authentic :
            authenticate protocol service c.requestFrame service.applicationUid = .ok request := by
          simp only [authenticate, steps_ok, not_not]
          exact ⟨trivial, request, parsed, broker, by rw [identified]; exact database, supported, rfl⟩
        have begins : now.history request.identity = c.rows n := by
          rw [identified, hsa event List.mem_cons_self ha, rows]
        obtain ⟨mid, soundMid, step, closes, hk⟩ := hso.recover hb begins authentic
          (rest.flatMap (incompleteAt journal))
        rw [identified] at closes hk
        obtain ⟨after, ran, hs', hc, others⟩ := ih later hn.2 soundMid fun other ht accepts => by
          rw [hk _ (hap other ht accepts), hsa other (List.mem_cons_of_mem _ ht) accepts]
        rw [hl, List.singleton_append, step]
        refine ⟨after, ran, hs', fun other ht => ?_, fun identity none => ?_⟩
        · rcases List.mem_cons.mp ht with rfl | tail
          · intro _ _
            rw [others _ fun one hone accepts equal => absurd equal (hap one hone accepts), rows]
            exact closes
          · exact hc other tail
        · rw [others identity fun other ht => none other (List.mem_cons_of_mem _ ht), hk]
          rintro rfl
          exact none event List.mem_cons_self ha rfl unfinished

theorem authentic_of_recovered {lifecycles : List IncompleteLifecycle}
    (ran : (recoverEach protocol service lifecycles journal).2 = .ok ()) :
    ∀ lifecycle ∈ lifecycles, ∃ request, authenticate protocol service lifecycle.requestFrame
          service.applicationUid = .ok request := by
  induction lifecycles generalizing journal with
  | nil => simp
  | cons first rest ih =>
    simp only [recoverEach] at ran
    split at ran
    · cases ran
    next request authentic =>
      split at ran
      · cases ran
      · split at ran
        · cases ran
        · intro lifecycle hm
          rcases List.mem_cons.mp hm with rfl | tail
          · exact ⟨request, authentic⟩
          · exact ih ran lifecycle tail

/-- Recovery returns, closes every unfinished lifecycle at the one stage that a restart can have
interrupted, and leaves the others. -/
structure Recovers (protocol : Protocol) (service : BrokerService) (journal after : Journal) : Prop where
  returns : recoverStartup protocol service journal = (after, .ok ())
  closes : ∀ identity, Unfinished (journal.history identity) →
    Closes (journal.history identity) (after.history identity) ∧
      ∃ ownerToken, claimedBy (journal.history identity) ownerToken ∧
        ∀ stage, Interrupts (journal.history identity) ownerToken stage ↔
          stage = (interrupted (journal.history identity)).1
  others : ∀ identity,
      ¬ Unfinished (journal.history identity) → after.history identity = journal.history identity
  empty : incompleteLifecycles protocol after = .ok []

theorem startup_recovers_iff (hre : Reachable protocol journal) :
    (∃ after, Recovers protocol service journal after) ↔ Current protocol service journal := by
  have hs := hre.sound
  have hl : incompleteLifecycles protocol journal = .ok (journal.flatMap (incompleteAt journal)) := by
    simp only [incompleteLifecycles, steps_ok]
    exact ⟨hs.valid, trivial⟩
  constructor
  · rintro ⟨after, recovers⟩ event hm unfinished nonce sequence digest frame request entry parsed
    have ran := congrArg Prod.snd recovers.returns
    rw [recoverStartup, hl] at ran
    rcases incompleteAt_accepted hs hm (by simp [entry, Entry.isAccepted]) with ⟨_, finished⟩ |
      ⟨c, n, _, _, shape, hf⟩
    · exact absurd unfinished finished
    · obtain ⟨request', authentic⟩ := authentic_of_recovered ran _
        (List.mem_flatMap.mpr ⟨event, hm, hf ▸ List.mem_singleton_self _⟩)
      simp only [authenticate, steps_ok, not_not] at authentic
      obtain ⟨_, _, parsed', broker, database, _, rfl⟩ := authentic
      obtain rfl : c.requestFrame = frame := by
        rw [entry] at shape
        injection shape with _ _ _ hsa
        exact hsa.symm
      obtain rfl := some.inj (parsed'.symm.trans parsed)
      have legit := hs.legit event hm
      rw [shape] at legit
      obtain ⟨_, parsed'', _, identified, _⟩ := legit
      obtain rfl := some.inj (parsed''.symm.trans parsed)
      exact ⟨broker, by rw [← identified]; exact database⟩
  · intro hcu
    obtain ⟨after, ran, hso, hc, others⟩ := recoverEach_all hs hcu journal (fun _ hm => hm)
      hs.accepted_nodup hs fun _ _ _ => rfl
    have hse : ∀ identity, Unfinished (journal.history identity) →
        Closes (journal.history identity) (after.history identity) := by
      intro identity unfinished
      obtain ⟨c, n, hb, rows⟩ := (hs.shapes identity).unfinished unfinished
      have first : Entry.accepted c.nonce c.connectionSequence c.payloadDigest c.requestFrame ∈
          journal.history identity := by
        rw [rows]
        exact List.mem_cons_self
      obtain ⟨event, filtered, entry⟩ := List.mem_map.mp first
      obtain ⟨hm, hsa⟩ := List.mem_filter.mp filtered
      obtain rfl := of_decide_eq_true hsa
      exact hc event hm (by simp [entry, Entry.isAccepted]) unfinished
    have hu : ∀ identity, ¬ Unfinished (journal.history identity) →
        after.history identity = journal.history identity :=
      fun identity finished => others identity fun _ _ _ _ => finished
    have hr : recoverStartup protocol service journal = (after, .ok ()) := by
      rw [recoverStartup, hl]
      exact ran
    refine ⟨after, hr, fun identity unfinished => ⟨hse identity unfinished, ?_⟩, hu, ?_⟩
    · obtain ⟨c, n, hb, rows⟩ := (hs.shapes identity).unfinished unfinished
      rw [rows]
      exact ⟨c.ownerToken, by simp [claimedBy, Claimed.rows, Entry.claimant], fun stage => interrupts_iff hb⟩
    · simp only [incompleteLifecycles, steps_ok]
      refine ⟨hso.valid, List.flatMap_eq_nil_iff.mpr fun event hm => ?_⟩
      cases ha : event.entry.isAccepted with
      | false => exact incompleteAt_other ha
      | true =>
        rcases incompleteAt_accepted hso hm ha with ⟨empty, _⟩ | ⟨c, n, hb, rows, _⟩
        · exact empty
        · -- A lifecycle that is still unfinished would have been closed.
          have unfinished : Unfinished (after.history event.identity) := rows ▸ unfinished_rows hb
          by_cases before : Unfinished (journal.history event.identity)
          · obtain ⟨_, _, _, closes⟩ := hse event.identity before
            exact absurd (by simp [closes, Entry.isTerminal]) unfinished.2
          · rw [hu _ before] at unfinished
            exact absurd unfinished before

end Recovery

def sampleToken : Text := List.replicate 16 97

def sampleRequest : BrokerRequest where
  identity := ⟨sampleToken, List.replicate 32 97, [2]⟩
  brokerIncarnation := sampleToken
  connectionSequence := 1
  nonce := sampleToken
  payloadDigest := List.replicate 64 97

def sampleProtocol : Protocol where
  storedMessage frame := if frame = [0] then some sampleRequest else none
  isAuthentic _ := true
  isStoredJson frame := frame = [123, 125]
  isSupported _ := true
  unresolvedResponse _ _ := [123, 125]
  response_stored _ _ := rfl

def otherToken : Text := List.replicate 16 98

def sampleService (brokerIncarnation : Text) : BrokerService :=
  ⟨brokerIncarnation, sampleToken, 0, sampleToken⟩

def sampleJournal : Journal :=
  [⟨sampleRequest.identity, .accepted sampleToken 1 (List.replicate 64 97) [0]⟩,
    ⟨sampleRequest.identity, .lifecycleClaimed sampleToken sampleToken⟩]

theorem sampleJournal_reachable : Reachable sampleProtocol sampleJournal := by
  have ha : Reachable sampleProtocol (sampleJournal.take 1) :=
    @Reachable.accept _ [] _ (sampleService sampleToken) [0] 0 sampleRequest .accepted .empty rfl rfl
  exact @Reachable.claim _ _ _ sampleRequest sampleToken sampleToken (.claimed sampleToken) ha rfl

theorem sampleJournal_current : Current sampleProtocol (sampleService sampleToken) sampleJournal := by
  intro event he _ nonce sequence digest frame request _ parsed
  have own : event.identity = sampleRequest.identity := by
    rcases List.mem_cons.mp he with rfl | later
    · rfl
    · rw [List.mem_singleton.mp later]
  have signed : sampleRequest = request := by
    have stored := (Protocol.stored_of_parsed parsed).1
    by_cases zero : frame = [0]
    · exact Option.some.inj ((if_pos zero).symm.trans stored)
    · cases (if_neg zero).symm.trans stored
  exact ⟨congrArg BrokerRequest.brokerIncarnation signed.symm, by rw [own]; rfl⟩

theorem startup_recovers_sample :
    ∃ after, Recovers sampleProtocol (sampleService sampleToken) sampleJournal after :=
  (startup_recovers_iff sampleJournal_reachable).2 sampleJournal_current

/-- The next process has another incarnation. -/
theorem new_incarnation_unrecovered : ¬ ∀ protocol service journal, Reachable protocol journal →
    ∃ after, Recovers protocol service journal after := by
  intro claimed
  obtain ⟨after, recovers⟩ :=
    claimed sampleProtocol (sampleService otherToken) sampleJournal sampleJournal_reachable
  have hr : (recoverStartup sampleProtocol (sampleService otherToken) sampleJournal).2 =
      .error (.protocol "broker incarnation is stale") := rfl
  rw [recovers.returns] at hr
  cases hr

end Yinshi.Launch
