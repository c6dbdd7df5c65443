import Yinshi.Base.Runs
import Yinshi.Replica.Appends

/-! Calls on one journal file, from any number of processes. A call reads and checks, and
appends in a transaction of its own; other calls append in between. -/

namespace Yinshi.Replica
open ByteText Checked Runs Relation List

variable {rows : List Event} {identity : Text × Text}

theorem mem_identities : identity ∈ identities rows ↔ ∃ row ∈ rows, row.identity = identity := by
  have general : ∀ (rows : List Event) (hs : List (Text × Text)),
      identity ∈ rows.foldl (fun hs row => if row.identity ∈ hs then hs else hs ++ [row.identity]) hs ↔
        identity ∈ hs ∨ ∃ row ∈ rows, row.identity = identity := by
    intro rows
    induction rows with
    | nil => simp
    | cons _ _ ih =>
      intro _
      rw [foldl_cons, ih]
      split
      · next old =>
          simp only [mem_cons, exists_eq_or_imp]
          refine ⟨fun hf => hf.elim .inl fun later => .inr (.inr later), ?_⟩
          rintro (hf | rfl | later)
          · exact .inl hf
          · exact .inl old
          · exact .inr later
      · rw [mem_append, mem_singleton, or_assoc]
        simp only [mem_cons, exists_eq_or_imp, @eq_comm _ identity]
  rw [identities, general]
  simp

theorem validateRow_eq_ok {row : Event} :
    validateRow row = .ok () ↔
    1 ≤ row.eventId ∧ isHexId row.appendReceiptId = true ∧ isToken row.databaseIncarnation = true ∧
    isHexId row.operationId = true := by
  unfold validateRow
  simp only [steps_ok, not_or, not_not, not_lt]
  tauto

structure Opens (keys : Keys) (rows : List Event) : Prop where
  formed : ∀ row ∈ rows, validateRow row = .ok ()
  numbered : rows.map (·.eventId) = List.range' 1 rows.length
  distinct : (rows.map (·.appendReceiptId)).Nodup
  replays : ∀ row ∈ rows, ∃ last, keys.replay (rowsFor rows row.identity) = .ok last

variable {keys : Keys}

theorem validateEvents_eq_ok : keys.validateEvents rows = .ok () ↔ Opens keys rows := by
  unfold Keys.validateEvents
  simp only [steps_ok, each_eq_ok, not_not]
  have read : ∀ identity, (keys.replay (rowsFor rows identity)).map (fun _ => ()) = .ok () ↔
      ∃ last, keys.replay (rowsFor rows identity) = .ok last := by
    intro identity
    cases keys.replay (rowsFor rows identity) <;> simp [Except.map]
  constructor
  · rintro ⟨hf, numbered, hd, replays⟩
    exact ⟨hf, numbered, hd, fun row hl => (read _).mp (replays _ (mem_identities.2 ⟨row, hl, rfl⟩))⟩
  · intro opens
    refine ⟨opens.formed, opens.numbered, opens.distinct, fun identity hl => ?_⟩
    obtain ⟨row, hm, rfl⟩ := mem_identities.1 hl
    exact (read _).mpr (opens.replays row hm)

structure Table.Valid (keys : Keys) (table : Table) : Prop where
  opens : Opens keys table.rows
  counted : table.sequence = table.rows.length

theorem rowsFor_append (front back : List Event) (identity : Text × Text) :
    rowsFor (front ++ back) identity = rowsFor front identity ++ rowsFor back identity :=
  filter_append ..

theorem mem_rowsFor {row : Event} : row ∈ rowsFor rows identity ↔ row ∈ rows ∧ row.identity = identity := by
  simp [rowsFor]

theorem Table.Valid.append {table : Table} {batch : List (Text × Values)} {events : List Event}
    (hv : table.Valid keys) (added : Added table batch events)
    (hn : ∀ new ∈ batch.map Prod.snd, new.identity = identity)
    (hex : ∀ id ∈ batch.map Prod.fst, isHexId id = true) (token : isToken identity.1 = true)
    (operation : isHexId identity.2 = true)
    (read : ∃ last, keys.replay (rowsFor (table.rows ++ events) identity) = .ok last) :
    Table.Valid keys ⟨table.rows ++ events, table.sequence + batch.length⟩ := by
  have mine : ∀ event ∈ events, event.identity = identity := fun event hl =>
    hn _ (added.values ▸ mem_map_of_mem hl)
  have size : events.length = batch.length := by simpa using congrArg length added.values
  refine ⟨⟨?_, ?_, ?_, ?_⟩, ?_⟩
  · intro row hl
    rcases mem_append.mp hl with old | new
    · exact hv.opens.formed row old
    · have hs := mine row new
      have late : row.eventId ∈ range' (table.sequence + 1) batch.length :=
        added.numbered ▸ mem_map_of_mem new
      have receipt := hex _ (added.receipts ▸ mem_map_of_mem new)
      have late := (mem_range'_1.mp late).1
      refine validateRow_eq_ok.2 ⟨by omega, receipt, ?_, ?_⟩
      · rw [← hs] at token
        exact token
      · rw [← hs] at operation
        exact operation
  · rw [map_append, hv.opens.numbered, added.numbered, hv.counted, length_append, size,
      Nat.add_comm table.rows.length 1, range'_append_1]
  · rw [map_append]
    refine nodup_append.mpr ⟨hv.opens.distinct, added.distinct, fun first old second new => ?_⟩
    obtain ⟨row, hl, rfl⟩ := mem_map.mp old
    obtain ⟨event, hm, rfl⟩ := mem_map.mp new
    exact added.fresh event hm row hl
  · intro row hl
    by_cases hh : row.identity = identity
    · rw [hh]
      exact read
    · have old : row ∈ table.rows := (mem_append.mp hl).resolve_right fun new => hh (mine row new)
      have none_new : rowsFor events row.identity = [] :=
        filter_eq_nil_iff.mpr fun event hm => by simpa [mine event hm] using Ne.symm hh
      rw [rowsFor_append, none_new, append_nil]
      exact hv.opens.replays row old
  · rw [length_append, size, hv.counted]

theorem wellFormed_of_frame {frame : Bytes} {request : BrokerRequest}
    (parsed : keys.requestFromFrame frame = .ok request) : request.wellFormed = true := by
  unfold Keys.requestFromFrame at parsed
  simp only [steps_ok, not_not] at parsed
  obtain ⟨-, _, -, hf, rfl⟩ := parsed
  exact hf

theorem authority_of_payload {payload : Payload} {value : InitialPayload}
    (hv : validateInitialPayload payload = .ok value) : value.authority.check = .ok () := by
  unfold validateInitialPayload at hv
  split at hv
  · simp only [steps_ok] at hv
    obtain ⟨-, -, hc, -, -, -, -, -, -, rfl⟩ := hv
    exact hc
  · cases hv

variable {batch : List Values}

theorem prepared_acceptInitial {request : BrokerRequest} {requestFrame : Bytes}
    {authority : ReplicaAuthority}
    (hc : keys.acceptInitial rows request requestFrame authority = .ok (some batch)) :
    isToken request.identity.1 = true ∧ isHexId request.identity.2 = true ∧
    ∃ new, batch = [new] ∧ new.identity = request.identity ∧ new.eventType = .accepted ∧
      ∀ event : Event, event.toValues = new → ∃ last, keys.replay [event] = .ok last := by
  unfold Keys.acceptInitial at hc
  simp only [steps_ok, orConflict_eq_ok, not_not] at hc
  obtain ⟨kind, frame, payload, hv, rfl, limits, artifacts, _, hc⟩ := hc
  have framed := validateRequestFrame_eq_ok frame
  have hf := wellFormed_of_frame framed
  simp only [BrokerRequest.wellFormed, Bool.and_eq_true, decide_eq_true_eq] at hf
  split at hc
  · unfold Keys.requestValues at hc
    simp only [steps_ok] at hc
    obtain ⟨_, ⟨_, reread, rfl⟩, hm⟩ := hc
    cases framed.symm.trans reread
    cases hm
    refine ⟨hf.1.1.1.1.1.2, hf.1.1.2, _,
      rfl, by simp [Values.identity, Keys.columns], rfl, fun event hs => ?_⟩
    have columns := @validateRequestColumns_columns keys request requestFrame
      { eventType := .accepted, authority := some payload.authority, requestFrame := some requestFrame }
      payload.authority framed rfl rfl
    rw [kind] at columns
    have ha : keys.replayAccepted event.toValues = .ok
        { initialRequest := request, initialRequestFrame := requestFrame,
          authority := payload.authority } := by
      rw [hs]
      unfold Keys.replayAccepted
      simp only [steps_ok, not_not]
      exact ⟨rfl, request, columns, payload, hv, requestFrame, rfl, _, rfl, _, rfl, _, rfl,
        authority_of_payload hv, by simp [limits, artifacts], rfl⟩
    refine ⟨_, Keys.replay_eq_ok.mpr ⟨event, [], _, rfl, fun row hl => ?_, ha, rfl, rfl⟩⟩
    rw [mem_singleton.mp hl, hs]
    simp [validateFieldMatrix, Keys.columns, Values.hasRequest, Values.noContinuation,
      Values.noStageResult, Values.noResponse]
  · simp at hc

/-- The condition under which a batch may be appended: no drain continuation was accepted
between the read and the append of a call that ends a paused lifecycle on behalf of its
initial request. -/
def Operation.Unobstructed (operation : Operation) (rows : List Event) : Prop :=
  match operation with
  | .markStageUnresolved request _ stage _ _ => request.requestType = .lifecycle → stage = .drain →
      ∀ row ∈ rowsFor rows request.identity, row.eventType ≠ .drainContinuationAccepted
  | _ => True

def Operation.request : Operation → BrokerRequest
  | .acceptInitial request .. => request
  | .claimAuthority request .. => request
  | .beginStage request .. => request
  | .completeStage request .. => request
  | .pauseAfterAdmission request .. => request
  | .acceptDrainContinuation request .. => request
  | .rejectStage request .. => request
  | .markStageUnresolved request .. => request

theorem prepared_of_check {operation : Operation}
    (checked : keys.check rows operation = .ok (some batch)) :
    (∃ requestFrame authority,
        keys.acceptInitial rows operation.request requestFrame authority = .ok (some batch)) ∨
    ∃ allowed, Prepared keys rows operation.request.identity allowed batch ∧
      ∀ later history, later.Reflects (rowsFor history operation.request.identity) →
        operation.Unobstructed history → allowed later := by
  cases operation with
  | acceptInitial request requestFrame authority => exact .inl ⟨requestFrame, authority, checked⟩
  | claimAuthority request ownerToken _ =>
    exact .inr ⟨_, prepared_claimAuthority checked, fun _ _ _ _ => trivial⟩
  | beginStage request ownerToken stage => exact .inr ⟨_, prepared_beginStage checked, fun _ _ _ _ => trivial⟩
  | completeStage request ownerToken stage receipt responseFrame =>
    exact .inr ⟨_, prepared_completeStage checked, fun _ _ _ _ => trivial⟩
  | pauseAfterAdmission request ownerToken receipt responseFrame =>
    exact .inr ⟨_, prepared_pauseAfterAdmission checked, fun _ _ _ _ => trivial⟩
  | acceptDrainContinuation request _ continuation =>
    exact .inr ⟨_, prepared_acceptDrainContinuation checked, fun _ _ _ _ => trivial⟩
  | rejectStage request ownerToken stage _ _ responseFrame =>
    exact .inr ⟨_, prepared_rejectStage checked, fun _ _ _ _ => trivial⟩
  | markStageUnresolved _ _ _ _ _ =>
    refine .inr ⟨_, prepared_markStageUnresolved checked,
        fun later history reflects unobstructed kind drain => ?_⟩
    cases hp : later.continuation with
    | none => rfl
    | some _ =>
      obtain ⟨row, hl, type⟩ := reflects.continued (by simp [hp])
      exact absurd type (unobstructed kind drain row hl)

theorem admits_of_append {table after : Table} {receiptId : Text} {new : Values}
    {batch : List (Text × Values)}
    (appended : table.append ((receiptId, new) :: batch) = some after) :
    Admits (rowsFor table.rows new.identity) new := by
  obtain ⟨_, inserted, -⟩ := Option.bind_eq_some_iff.mp appended
  exact (insert_eq_some inserted).1

theorem rowsFor_events {events : List Event} (mine : ∀ event ∈ events, event.identity = identity) :
    rowsFor events identity = events :=
  filter_eq_self.mpr fun event hl => by simp [mine event hl]

theorem Table.Valid.commit {table after : Table} {seen : List Event} {operation : Operation}
    {receipts : List Text} (hv : table.Valid keys) (grown : seen <+: table.rows)
    (checked : keys.check seen operation = .ok (some batch)) (size : receipts.length = batch.length)
    (hex : ∀ id ∈ receipts, isHexId id = true)
    (appended : table.append (receipts.zip batch) = some after)
    (unobstructed : operation.Unobstructed table.rows) : after.Valid keys := by
  obtain ⟨events, added, rfl⟩ := append_eq_some appended
  have values : (receipts.zip batch).map Prod.snd = batch := map_snd_zip size.ge
  have ids : (receipts.zip batch).map Prod.fst = receipts := map_fst_zip size.le
  have made : events.map (·.toValues) = batch := added.values.trans values
  obtain ⟨_, _, hac⟩ | ⟨_, prepared, permits⟩ := prepared_of_check checked
  · obtain ⟨token, id, new, rfl, hn, type, alone⟩ := prepared_acceptInitial hac
    obtain ⟨receipt, rfl⟩ := length_eq_one_iff.mp size
    obtain ⟨event, rfl, rfl⟩ := map_eq_singleton_iff.mp made
    have ha := admits_of_append appended
    -- a history that replays has an acceptance, and the index allows only one
    have empty : rowsFor table.rows operation.request.identity = [] := by
      by_contra some
      obtain ⟨row, hl⟩ := exists_mem_of_ne_nil _ some
      obtain ⟨old, hs⟩ := mem_rowsFor.1 hl
      obtain ⟨last, read⟩ := hv.opens.replays row old
      obtain ⟨-, -, -, first, hm, kind⟩ := Keys.replay_sound read
      rw [hs, ← hn] at hm
      exact ha.single (by rw [type]; rfl) first hm (kind.trans type.symm)
    refine hv.append added (by simpa using hn) (fun other hl => hex other (ids ▸ hl)) token id ?_
    rw [rowsFor_append, empty, rowsFor_events (by simpa using hn)]
    exact alone event rfl
  · obtain ⟨earlier, read, first, head, readable⟩ := prepared.reads
    obtain ⟨rest, rfl⟩ : ∃ rest, batch = first :: rest := by
      cases batch with
      | nil => cases head
      | cons other rest => exact ⟨rest, by rw [Option.some.inj head]⟩
    obtain ⟨_, _, rfl⟩ := exists_cons_of_length_eq_add_one size
    have ha := admits_of_append appended
    have hn := prepared.named first (by simp)
    rw [hn] at ha
    obtain ⟨hac, hl, -⟩ := ha.accepted (prepared.other first (by simp))
    obtain ⟨old, hs⟩ := mem_rowsFor.1 hl
    obtain ⟨later, replayed⟩ := hv.opens.replays hac old
    rw [hs] at replayed
    obtain ⟨hc, reflects, hq, -⟩ := Keys.replay_sound replayed
    obtain ⟨_, split⟩ := grown
    have extends_ : earlier.Extends later := by
      rw [← split, rowsFor_append] at replayed
      exact Keys.replay_extends read replayed
    obtain ⟨last, reads, clear, fields⟩ := readable later _ ⟨extends_, hc, reflects, hq⟩ ha
      (permits later table.rows reflects unobstructed)
    have mine : ∀ event ∈ events, event.identity = operation.request.identity := fun event hm =>
      prepared.named _ (made ▸ mem_map_of_mem hm)
    have hf := validateRow_eq_ok.1 (hv.opens.formed hac old)
    refine hv.append added (fun new hm => prepared.named new (values ▸ hm))
      (fun other hl => hex other (ids ▸ hl)) ?_ ?_ ?_
    · rw [← hs]
      exact hf.2.2.1
    · rw [← hs]
      exact hf.2.2.2
    · rw [rowsFor_append, rowsFor_events mine]
      exact ⟨last, Keys.replay_append replayed (fun row hm => fields _ (made ▸ mem_map_of_mem hm))
        (reads events made) clear⟩

inductive Phase
  | called
  | checked (seen : List Event) (batch : List Values)
  | finished

structure Call where
  operation : Operation
  phase : Phase

def Keys.decided (keys : Keys) (rows : List Event) (operation : Operation) : Phase :=
  match keys.check rows operation with
  | .ok (some batch) => .checked rows batch
  | _ => .finished

inductive Acts (keys : Keys) (allowed : Operation → List Event → Prop) : Table → Call → Table → Call → Prop
  | check {table : Table} {operation : Operation} :
      Acts keys allowed table ⟨operation, .called⟩ table ⟨operation, keys.decided table.rows operation⟩
  | commit {table after : Table} {operation : Operation} {seen : List Event} {batch : List Values}
      {receipts : List Text} (size : receipts.length = batch.length)
        (hex : ∀ id ∈ receipts, isHexId id = true)
      (permitted : allowed operation table.rows) (appended : table.append (receipts.zip batch) = some after) :
      Acts keys allowed table ⟨operation, .checked seen batch⟩ after ⟨operation, .finished⟩
  | lose {table : Table} {operation : Operation} {seen : List Event} {batch : List Values} :
      Acts keys allowed table ⟨operation, .checked seen batch⟩ table ⟨operation, .finished⟩

def JournalStep (keys : Keys) (allowed : Operation → List Event → Prop) :
    Pool Table Call → Pool Table Call → Prop :=
  Pool.Step (fun call => call.phase = .called) (Acts keys allowed)

def Call.Remembers (keys : Keys) (table : Table) (call : Call) : Prop :=
  match call.phase with
  | .checked seen batch => seen <+: table.rows ∧ keys.check seen call.operation = .ok (some batch)
  | _ => True

theorem remembers_decided (keys : Keys) (table : Table) (operation : Operation) :
    Call.Remembers keys table ⟨operation, keys.decided table.rows operation⟩ := by
  unfold Call.Remembers Keys.decided
  split
  · next hs =>
      split at hs
      · next batch hc =>
          cases hs
          exact ⟨prefix_rfl, hc⟩
      · cases hs
  · trivial

theorem Call.Remembers.grow {table after : Table} {call : Call}
    (remembers : call.Remembers keys table) (grown : table.rows <+: after.rows) :
    call.Remembers keys after := by
  unfold Call.Remembers at remembers ⊢
  split
  · next hs =>
      rw [hs] at remembers
      exact ⟨remembers.1.trans grown, remembers.2⟩
  · trivial

variable {allowed : Operation → List Event → Prop}

theorem rows_start {table after : Table} {call next : Call}
    (ha : Acts keys allowed table call after next) : table.rows <+: after.rows := by
  cases ha with
  | check | lose => exact prefix_rfl
  | commit _ _ _ appended =>
    obtain ⟨_, -, rfl⟩ := append_eq_some appended
    exact prefix_append ..

/-- In every interleaving of calls that meet the condition at their transactions, the table
opens: its ids have no gaps and the history of every identity replays. -/
theorem journal_readable {keys : Keys} {pool : Pool Table Call}
    (run : ReflTransGen (JournalStep keys Operation.Unobstructed) ⟨{}, []⟩ pool) :
    keys.validateEvents pool.shared.rows = .ok () := by
  have start : Pool.Holds (Table.Valid keys) (Call.Remembers keys) ⟨{}, []⟩ :=
    ⟨⟨⟨by simp, rfl, nodup_nil, by simp⟩, rfl⟩, by simp⟩
  have hh := run_keeps (Pool.Holds (Table.Valid keys) (Call.Remembers keys)) ?_ run start
  · exact validateEvents_eq_ok.mpr hh.shared.opens
  refine Pool.step_holds ?_ ?_ ?_
  · intro table call hf _
    unfold Call.Remembers
    rw [hf]
    trivial
  · intro table call after next ha hv remembers
    cases ha with
    | check => exact ⟨hv, remembers_decided keys _ _⟩
    | commit size hex permitted appended =>
      exact ⟨hv.commit remembers.1 remembers.2 size hex appended permitted, trivial⟩
    | lose => exact ⟨hv, trivial⟩
  · intro _ _ _ _ _ ha _ _ held
    exact held.grow (rows_start ha)

def Keys.perform (keys : Keys) (table : Table) (turn : Operation × List Text) : Option Table :=
  match keys.check table.rows turn.1 with
  | .ok (some batch) =>
    if turn.2.length = batch.length ∧
      ∀ id ∈ turn.2, isHexId id = true then table.append (turn.2.zip batch) else none
  | _ => none

theorem reaches_of_perform {table after : Table} {turn : Operation × List Text} {calls : List Call}
    (permitted : allowed turn.1 table.rows) (performed : keys.perform table turn = some after) :
    ReflTransGen (JournalStep keys allowed) ⟨table, calls⟩
      ⟨after, calls ++ [⟨turn.1, .finished⟩]⟩ := by
  unfold Keys.perform at performed
  split at performed
  · next batch hc =>
      split at performed
      · next hf =>
          have decided : keys.decided table.rows turn.1 = .checked table.rows batch := by
            rw [Keys.decided, hc]
          have hm : JournalStep keys allowed ⟨table, calls⟩ ⟨table, calls ++ [⟨turn.1, .called⟩]⟩ :=
            Pool.Step.spawn rfl
          have read : JournalStep keys allowed ⟨table, calls ++ [⟨turn.1, .called⟩]⟩
              ⟨table, calls ++ [⟨turn.1, .checked table.rows batch⟩]⟩ :=
            Pool.Step.act (decided ▸ Acts.check)
          exact .tail (.tail (.single hm) read) (Pool.Step.act (.commit hf.1 hf.2 permitted performed))
      · cases performed
  · cases performed

theorem reaches_of_performs {turns : List (Operation × List Text)} {table after : Table}
    {calls : List Call} (permitted : ∀ turn ∈ turns, ∀ rows, allowed turn.1 rows)
    (performed : turns.foldlM keys.perform table = some after) :
    ∃ more, ReflTransGen (JournalStep keys allowed) ⟨table, calls⟩ ⟨after, calls ++ more⟩ := by
  induction turns generalizing table calls with
  | nil =>
    cases performed
    exact ⟨[], by rw [append_nil]⟩
  | cons turn _ ih =>
    obtain ⟨middle, first, rest⟩ := Option.bind_eq_some_iff.mp performed
    obtain ⟨more, run⟩ := ih (fun other hl => permitted other (mem_cons_of_mem _ hl)) rest
    have one := @reaches_of_perform keys allowed table middle turn calls
        (permitted turn mem_cons_self table.rows) first
    exact ⟨[⟨turn.1, .finished⟩] ++ more, by rw [← append_assoc]; exact one.trans run⟩

def sampleToken : Text := List.replicate 16 97
def sampleDigest : Text := List.replicate 64 97
def sampleAuthority : ReplicaAuthority := ⟨List.replicate 16 98, 1, List.replicate 16 99⟩

def sampleArtifact (letter : Nat) : ArtifactReference := ⟨List.replicate 16 letter, sampleDigest, 5⟩

def sampleInitial : BrokerRequest :=
  ⟨⟨sampleToken, sampleToken, 1, List.replicate 32 97, .lifecycle, List.replicate 16 110, sampleDigest⟩,
    .lifecycle ⟨sampleDigest, sampleAuthority, sampleArtifact 100, sampleArtifact 101, sampleDigest,
      text "sha1",
      sampleDigest, List.replicate 16 102, sampleDigest, List.replicate 16 103, sampleArtifact 104⟩⟩

def sampleSha256 (frame : Bytes) : Text :=
  (frame.map (fun byte : UInt8 => 48 + byte.toNat % 10) ++ List.replicate 64 48).take 64

def sampleContinuation : ReplicaDrainContinuation :=
  ⟨sampleAuthority, sampleSha256 [1], sampleToken, List.replicate 16 105⟩

def sampleDrain : BrokerRequest :=
  ⟨⟨sampleToken, sampleToken, 2, List.replicate 32 97, .drain, List.replicate 16 111, sampleDigest⟩,
    .drain sampleContinuation⟩

def sampleKeys : Keys where
  sha256 := sampleSha256
  signedRequest frame :=
    if frame = [1] then some sampleInitial else if frame = [2] then some sampleDrain else none
  signedResponse frame :=
    if frame = [3] then
      .ok ⟨sampleInitial.toRequestIdentity, true, none, some ⟨.admission, .active, none, some sampleToken⟩⟩
    else if frame = [4] then
      .ok ⟨sampleInitial.toRequestIdentity, false, some (.reason .brokerRestartUnknown),
        some ⟨.drain, .unresolved, some (.reason .brokerRestartUnknown), none⟩⟩
    else .error (.value "replica response frame is malformed")
  artifactSetSha256 _ _ _ := sampleDigest
  expectedLimitsSha256 := sampleDigest

def sampleTurns : List (Operation × List Text) :=
  [(.acceptInitial sampleInitial [1] sampleAuthority, [List.replicate 32 48]),
    (.claimAuthority sampleInitial sampleToken sampleToken, [List.replicate 32 49]),
    (.beginStage sampleInitial sampleToken .ingest, [List.replicate 32 50]),
    (.completeStage sampleInitial sampleToken .ingest
      (.ingest sampleToken (sampleArtifact 100) (sampleArtifact 104) (sampleArtifact 101)) none,
      [List.replicate 32 51]),
    (.beginStage sampleInitial sampleToken .verify, [List.replicate 32 52]),
    (.completeStage sampleInitial sampleToken .verify (.verify sampleToken sampleDigest sampleDigest
          sampleDigest sampleDigest sampleDigest sampleDigest) none, [List.replicate 32 53]),
    (.beginStage sampleInitial sampleToken .publish, [List.replicate 32 54]),
    (.completeStage sampleInitial sampleToken .publish
      (.publish sampleToken sampleAuthority sampleDigest sampleToken sampleDigest) none,
        [List.replicate 32 55]),
    (.beginStage sampleInitial sampleToken .admission, [List.replicate 32 56]),
    (.pauseAfterAdmission sampleInitial sampleToken
      (.admission sampleToken sampleAuthority.executionOwnerId sampleToken sampleDigest) [3],
      [List.replicate 32 57, List.replicate 32 97])]

def samplePaused : Table := (sampleTurns.foldlM sampleKeys.perform {}).getD {}

def sampleUnresolved : Operation :=
  .markStageUnresolved sampleInitial sampleToken .drain .brokerRestartUnknown [4]

def sampleContinue : Operation × List Text :=
  (.acceptDrainContinuation sampleDrain [2] sampleContinuation, [List.replicate 32 98])

theorem samplePaused_performed : sampleTurns.foldlM sampleKeys.perform {} = some samplePaused := by
  decide +kernel

theorem journal_readable_sample :
    ∃ pool : Pool Table Call, pool.shared = samplePaused ∧ pool.shared.rows.length = 11 ∧
      sampleKeys.validateEvents pool.shared.rows = .ok () := by
  have permitted : ∀ turn ∈ sampleTurns, ∀ rows, turn.1.Unobstructed rows := by
    simp [sampleTurns, Operation.Unobstructed]
  obtain ⟨_, run⟩ := @reaches_of_performs sampleKeys _ sampleTurns {} samplePaused [] permitted
      samplePaused_performed
  have length : samplePaused.rows.length = 11 := by decide +kernel
  exact ⟨_, rfl, length, journal_readable run⟩

def sampleBatch : List Values :=
  match sampleKeys.check samplePaused.rows sampleUnresolved with
  | .ok (some batch) => batch
  | _ => []

def sampleContinued : Table := (sampleKeys.perform samplePaused sampleContinue).getD {}

def sampleBroken : Table := (sampleContinued.append ([List.replicate 32 99].zip sampleBatch)).getD {}

/-- A call reads the paused lifecycle to end it; a drain continuation is accepted; then the
call appends. The response that it has stored answers the initial request, and the journal
does not open any more. -/
theorem journal_unreadable :
    ∃ pool : Pool Table Call, ReflTransGen (JournalStep sampleKeys fun _ _ => True) ⟨{}, []⟩ pool ∧
      pool.shared = sampleBroken ∧ sampleBroken.rows.length = 13 ∧
      sampleKeys.validateEvents sampleBroken.rows =
        .error (.value "replica response authentication failed") := by
  have decided : sampleKeys.decided samplePaused.rows sampleUnresolved =
        .checked samplePaused.rows sampleBatch := by
    have hc : sampleKeys.check samplePaused.rows sampleUnresolved = .ok (some sampleBatch) := by
      decide +kernel
    rw [Keys.decided, hc]
  have continued : sampleKeys.perform samplePaused sampleContinue = some sampleContinued := by decide +kernel
  have appended : sampleContinued.append ([replicate 32 99].zip sampleBatch) = some sampleBroken := by
    decide +kernel
  obtain ⟨calls, paused⟩ := @reaches_of_performs sampleKeys (fun _ _ => True) sampleTurns
    {} samplePaused [] (fun _ _ _ => trivial) samplePaused_performed
  have hm : JournalStep sampleKeys (fun _ _ => True) ⟨samplePaused, calls⟩
      ⟨samplePaused, calls ++ [⟨sampleUnresolved, .called⟩]⟩ := Pool.Step.spawn rfl
  have read : JournalStep sampleKeys (fun _ _ => True) ⟨samplePaused, calls ++ [⟨sampleUnresolved, .called⟩]⟩
      ⟨samplePaused, calls ++ [⟨sampleUnresolved, .checked samplePaused.rows sampleBatch⟩]⟩ :=
    Pool.Step.act (decided ▸ Acts.check)
  have between := @reaches_of_perform sampleKeys (fun _ _ => True) samplePaused sampleContinued sampleContinue
    (calls ++ [⟨sampleUnresolved, .checked samplePaused.rows sampleBatch⟩]) trivial continued
  rw [append_assoc, singleton_append] at between
  have written : JournalStep sampleKeys (fun _ _ => True)
      ⟨sampleContinued, calls ++ ⟨sampleUnresolved, .checked samplePaused.rows sampleBatch⟩ ::
        [⟨sampleContinue.1, .finished⟩]⟩
      ⟨sampleBroken, calls ++ ⟨sampleUnresolved, .finished⟩ :: [⟨sampleContinue.1, .finished⟩]⟩ :=
    Pool.Step.act (.commit (by decide +kernel) (by decide) trivial appended)
  exact ⟨_, ((paused.tail hm).tail read).trans (between.tail written),
    rfl, by decide +kernel, by decide +kernel⟩

end Yinshi.Replica
