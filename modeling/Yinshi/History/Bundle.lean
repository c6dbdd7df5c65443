import Yinshi.Base.Checked
import Yinshi.Base.Encodings
import Yinshi.Base.Keyed

/-! The message table and the bundle endpoint. A text column is its UTF-8 bytes, which SQLite
and Python order in the same way. One request is one read transaction: a function of the
tables. -/

namespace Yinshi.History
open ByteText Encodings Keyed Checked List Option

structure Message where
  rowid : Nat
  id : Bytes
  createdAt : Bytes
  sessionId : Bytes
  role : Bytes
  content : Option Bytes := none
  fullMessage : Option Bytes := none
  turnId : Option Bytes := none
  turnStatus : Option Bytes := none
  deriving DecidableEq

abbrev Key := Bytes ×ₗ Bytes

def Message.key (message : Message) : Key := toLex (message.createdAt, message.id)

def Message.fieldBytes (message : Message) : Nat :=
  message.content.elim 0 (·.length) + message.fullMessage.elim 0 (·.length)

structure Run where
  id : Bytes
  sessionId : Bytes
  active : Bool

/-- A row of `sessions` with the owner of its repository. -/
structure Session where
  id : Bytes
  ownerEmail : Option Bytes := none

structure Database where
  sessions : List Session := []
  runs : List Run := []
  messages : List Message := []

def ordered (messages : List Message) : List Message := sortBy Message.key messages

def Database.messagesOf (db : Database) (sessionId : Bytes) : List Message :=
  db.messages.filter (·.sessionId = sessionId)

structure Record where
  id : Bytes
  createdAt : Bytes
  sessionId : Bytes
  role : Bytes
  content : Option Bytes
  fullMessage : Option Bytes
  turnId : Option Bytes
  turnStatus : Option Bytes

inductive HistoryError
  | http (status : Nat) (code : Option String) (message : String)
  | unprocessable
  | runtime (message : String)
  | validation
  deriving DecidableEq

def tooLarge : HistoryError :=
  .http 413 (some "history_bundle_message_too_large") "Stored message does not fit a bounded history bundle"

def snapshotChanged : HistoryError :=
  .http 409 (some "history_bundle_snapshot_changed") "Stored message history changed during bundle loading"

def invalidCursor : HistoryError := .http 422 none "Invalid message history cursor"

def invalidBundleCursor : HistoryError := .http 422 none "Invalid message history bundle cursor"

def outOfRange : HistoryError := .http 422 none "Message history snapshot exceeds supported range"

/-- A response of the bundle endpoint; `records` is what its compressed data decodes to. -/
structure Envelope where
  records : List Record
  cursor : Option Bytes
  nextCursor : Option Bytes
  through : Option Bytes
  snapshot : Nat
  snapshotCount : Nat
  snapshotTail : Option Bytes
  activeRunId : Option Bytes

/-- Datetimes and sizes: the texts `datetime.fromisoformat` accepts, the JSON form of a valid
`created_at`, and the bytes of the JSON of a record and of an envelope with its compressed
data. -/
structure Codec where
  isTimestamp : Bytes → Bool
  timestamp : Bytes → Option Bytes
  recordBytes : Record → Nat
  responseBytes : Envelope → Nat

/-- `MessageOut.model_validate(row).model_dump(mode="json")`. -/
def Codec.dump (codec : Codec) (message : Message) : Option Record :=
  (codec.timestamp message.createdAt).map fun createdAt =>
    ⟨message.id, createdAt, message.sessionId, message.role, message.content, message.fullMessage,
      message.turnId, message.turnStatus⟩

def encodeMessageHistoryCursor (createdAt messageId : Bytes) : Except HistoryError Bytes := do
  rejectIf (createdAt.length < 1 ∨ 64 < createdAt.length)
    (.runtime "message history timestamp has an invalid length")
  let raw ← orRaise (.runtime "message history ID is invalid") (unhex messageId)
  rejectIf (raw.length ≠ 16) (.runtime "message history ID is invalid")
  pure (base64Url ([1, UInt8.ofNat createdAt.length] ++ createdAt ++ raw))

def decodeMessageHistoryCursor (codec : Codec) (cursor : Bytes) : Except HistoryError Key := do
  rejectIf (cursor = [] ∨ 128 < cursor.length ∨ ∃ digit ∈ cursor, digit ∉ base64Alphabet) invalidCursor
  let raw ← orRaise invalidCursor (base64UrlDecode cursor)
  rejectIf (base64Url raw ≠ cursor ∨ raw.length < 19) invalidCursor
  let createdAtLength := (raw.getD 1 0).toNat
  rejectIf (raw.getD 0 0 ≠ 1 ∨ createdAtLength < 1 ∨ 64 < createdAtLength ∨
    raw.length ≠ 2 + createdAtLength + 16) invalidCursor
  let createdAt := (raw.drop 2).take createdAtLength
  rejectIf (codec.isTimestamp createdAt = false) invalidCursor
  pure (toLex (createdAt, hex (raw.drop (2 + createdAtLength))))

section Cursors
variable {codec : Codec} {createdAt messageId cursor : Bytes}

section
variable (encoded : encodeMessageHistoryCursor createdAt messageId = .ok cursor)
include encoded

theorem encode_ok :
    ∃ raw, hex raw = messageId ∧ raw.length = 16 ∧ 1 ≤ createdAt.length ∧ createdAt.length ≤ 64 ∧
      (UInt8.ofNat createdAt.length).toNat = createdAt.length ∧
      cursor = base64Url ([1, UInt8.ofNat createdAt.length] ++ createdAt ++ raw) := by
  simp only [encodeMessageHistoryCursor, steps_ok, not_or, not_lt, not_not] at encoded
  obtain ⟨⟨long, short⟩, raw, isRaw, size, rfl⟩ := encoded
  refine ⟨raw, hex_unhex isRaw, size, long, short, ?_, rfl⟩
  rw [UInt8.toNat_ofNat']
  omega

theorem decodeCursor_encodeCursor {key : Key}
    (decoded : decodeMessageHistoryCursor codec cursor = .ok key) :
    key = toLex (createdAt, messageId) := by
  obtain ⟨_, rfl, -, -, -, size, rfl⟩ := encode_ok encoded
  simp only [decodeMessageHistoryCursor, steps_ok, base64UrlDecode_base64Url, some.injEq] at decoded
  obtain ⟨-, _, rfl, -, -, -, rfl⟩ := decoded
  simp [size, Nat.add_comm 2]

theorem decode_of_encode (timestamp : codec.isTimestamp createdAt = true) :
    decodeMessageHistoryCursor codec cursor = .ok (toLex (createdAt, messageId)) := by
  obtain ⟨_, rfl, length, long, short, size, rfl⟩ := encode_ok encoded
  simp only [decodeMessageHistoryCursor, steps_ok, base64UrlDecode_base64Url, some.injEq]
  refine ⟨?_, _, rfl, ?_, ?_, ?_, ?_⟩
  · simp only [not_or, not_exists, not_and, not_not]
    refine ⟨?_, ?_, fun digit => mem_base64Alphabet⟩
    · intro empty
      have := congrArg List.length empty
      simp at this
      omega
    · simp [length]
      omega
  · simp only [ne_eq, not_true_eq_false, false_or, not_lt, length_append, length_cons, length_nil, length]
    omega
  · have filled : createdAt ≠ [] := ne_nil_of_length_pos long
    simp [size, length, filled, short]
    omega
  · simp [size, timestamp]
  · simp [size, Nat.add_comm 2]

end

end Cursors

def bundlePageLimit : Nat := 64
def bundleRawBytesMax : Nat := 4 * 1024 * 1024
def bundleResponseBytesMax : Nat := 900000
def snapshotMax : Nat := 9007199254740991

def boundedFront {α : Type} (limit separator : Nat) (size : α → Nat) : Nat → Nat → List α → Nat
  | _, _, [] => 0
  | count, bytes, x :: xs =>
    let next := bytes + (if count = 0 then 0 else separator) + size x
    if limit < next then 0 else boundedFront limit separator size (count + 1) next xs + 1

structure Header where
  cursor : Option Bytes
  through : Bytes
  snapshot : Nat
  snapshotCount : Nat
  snapshotTail : Bytes
  activeRunId : Option Bytes

def Header.envelope (header : Header) (records : List Record) (nextCursor : Option Bytes) : Envelope :=
  ⟨records, header.cursor, nextCursor, some header.through, header.snapshot, header.snapshotCount,
    some header.snapshotTail, header.activeRunId⟩

section Pages
variable (codec : Codec) (header : Header)

/-- The cursor after the first `count` rows, when the query has read more. -/
def nextCursorAfter (rows : List Message) (count : Nat) : Except HistoryError (Option Bytes) :=
  if count < (rows.take (bundlePageLimit + 1)).length then do
    let row ← orRaise (.runtime "list index out of range") (rows[count - 1]?)
    some <$> encodeMessageHistoryCursor row.createdAt row.id
  else pure none

def bundlePage (rows : List Message) (candidates : List Record) (count : Nat) :
    Except HistoryError Envelope := do
  let nextCursor ← nextCursorAfter rows count
  pure (header.envelope (candidates.take count) nextCursor)

/-- The binary search for a page that fits; there are at most `turns` turns. -/
def searchPage (page : Nat → Except HistoryError Envelope) :
    Nat → Nat → Nat → Option Envelope → Except HistoryError (Option Envelope)
  | 0, _, _, best => .ok best
  | turns + 1, low, high, best =>
    if high < low then .ok best
    else do
      let envelope ← page ((low + high) / 2)
      if codec.responseBytes envelope ≤ bundleResponseBytesMax then
        searchPage page turns ((low + high) / 2 + 1) high (some envelope)
      else searchPage page turns low ((low + high) / 2 - 1) best

/-- The page of `_message_history_bundle` from the rows after the cursor. -/
def selectPage (rows : List Message) : Except HistoryError Envelope := do
  let candidateCount := boundedFront bundleRawBytesMax 0 Message.fieldBytes 0 2 (rows.take bundlePageLimit)
  rejectIf (rows ≠ [] ∧ candidateCount = 0) tooLarge
  let candidates ← orRaise .validation ((rows.take candidateCount).mapM codec.dump)
  let rawPrefixCount := boundedFront bundleRawBytesMax 1 codec.recordBytes 0 2 candidates
  rejectIf (candidates ≠ [] ∧ rawPrefixCount = 0) tooLarge
  let best ← searchPage codec (bundlePage header rows candidates) rawPrefixCount 1 rawPrefixCount none
  rejectIf (best = none ∧ candidates ≠ []) tooLarge
  pure (best.getD (header.envelope [] none))

end Pages

/-- The authenticated request: in tenant mode the database is the tenant's own. -/
structure Request where
  tenant : Bool := true
  userEmail : Option Bytes := none

def checkSession (request : Request) (db : Database) (sessionId : Bytes) : Except HistoryError Unit := do
  let session ← orRaise (.http 404 none "Session not found") (db.sessions.find? (·.id = sessionId))
  rejectIf (request.tenant = false ∧ ∃ user ∈ request.userEmail, ∃ owner ∈ session.ownerEmail,
    user ≠ [] ∧ owner ≠ [] ∧ owner ≠ user) (.http 403 none "Not authorized")

structure Query where
  cursor : Option Bytes := none
  through : Option Bytes := none
  snapshot : Option Nat := none
  snapshotCount : Option Nat := none
  snapshotTail : Option Bytes := none
  activeRunId : Option Bytes := none

def isRunId (value : Bytes) : Prop := value.length = 32 ∧ ∀ digit ∈ value, digit ∈ hexAlphabet

instance (value : Bytes) : Decidable (isRunId value) := inferInstanceAs (Decidable (_ ∧ _))

def Query.validate (query : Query) : Except HistoryError Unit :=
  rejectIf ((∃ value ∈ [query.cursor, query.through, query.snapshotTail].reduceOption,
      value = [] ∨ 128 < value.length) ∨
    (∃ value ∈ [query.snapshot, query.snapshotCount].reduceOption, snapshotMax < value) ∨
    ∃ value ∈ query.activeRunId, value ≠ bytes "none" ∧ ¬ isRunId value) .unprocessable

structure Continuation where
  cursor : Key
  through : Key
  tail : Key
  header : Header

/-- The checks of `get_message_history_bundle`: all parameters are given or none is. -/
def Query.continuation (codec : Codec) (query : Query) : Except HistoryError (Option Continuation) :=
  match query.cursor, query.through, query.snapshot, query.snapshotCount, query.snapshotTail,
    query.activeRunId with
  | none, none, none, none, none, none => .ok none
  | some cursor, some through, some snapshot, some snapshotCount, some snapshotTail, some activeRunId => do
      rejectIf (snapshot = 0) invalidBundleCursor
      let decodedCursor ← decodeMessageHistoryCursor codec cursor
      let decodedThrough ← decodeMessageHistoryCursor codec through
      let decodedTail ← decodeMessageHistoryCursor codec snapshotTail
      rejectIf (decodedThrough ≤ decodedCursor) invalidBundleCursor
      pure (some ⟨decodedCursor, decodedThrough, decodedTail, ⟨some cursor, through, snapshot, snapshotCount,
        snapshotTail, if activeRunId = bytes "none" then none else some activeRunId⟩⟩)
  | _, _, _, _, _, _ => .error invalidBundleCursor

structure Range where
  after : Option Key
  through : Key
  header : Header

/-- The rows of the snapshot after the cursor, `ORDER BY created_at, id`. -/
def Range.rows (range : Range) (db : Database) (sessionId : Bytes) : List Message :=
  ordered ((db.messagesOf sessionId).filter fun row => row.rowid ≤ range.header.snapshot ∧
    (∀ cursor ∈ range.after, cursor < row.key) ∧ row.key ≤ range.through)

/-- `SELECT id FROM prompt_runs WHERE session_id = ? AND status IN (...)`. -/
def Database.activeRun (db : Database) (sessionId : Bytes) : Option Bytes :=
  (db.runs.find? fun run => run.sessionId = sessionId ∧ run.active = true).map (·.id)

def openSnapshot (db : Database) (sessionId : Bytes) : Except HistoryError (Option Range) := do
  let rows := db.messagesOf sessionId
  let snapshot := ((rows.map (·.rowid)).max?).getD 0
  rejectIf (snapshotMax < snapshot) outOfRange
  rejectIf (snapshotMax < rows.length) outOfRange
  match (ordered (rows.filter (·.rowid ≤ snapshot))).getLast?, rows.find? (·.rowid = snapshot) with
  | some throughRow, some tailRow => do
      let through ← encodeMessageHistoryCursor throughRow.createdAt throughRow.id
      let snapshotTail ← encodeMessageHistoryCursor tailRow.createdAt tailRow.id
      pure (some ⟨none, throughRow.key, ⟨none, through, snapshot, rows.length, snapshotTail,
        db.activeRun sessionId⟩⟩)
  | _, _ => pure none

def Database.remaining (db : Database) (sessionId : Bytes) (snapshot : Nat) : List Message :=
  (db.messagesOf sessionId).filter (·.rowid ≤ snapshot)

def resumeSnapshot (db : Database) (sessionId : Bytes) (continuation : Continuation) :
    Except HistoryError Range := do
  let header := continuation.header
  rejectIf (∃ run ∈ header.activeRunId, ¬ ∃ row ∈ db.runs, row.id = run ∧ row.sessionId = sessionId)
    snapshotChanged
  let rows := db.remaining sessionId header.snapshot
  rejectIf (rows.length ≠ header.snapshotCount ∨ (¬ ∃ row ∈ rows, row.key = continuation.through) ∨
    ¬ ∃ row ∈ rows, row.rowid = header.snapshot ∧ row.key = continuation.tail) snapshotChanged
  pure ⟨some continuation.cursor, continuation.through, header⟩

def locateBundle (codec : Codec) (request : Request) (db : Database) (sessionId : Bytes)
    (query : Query) : Except HistoryError (Option Range) := do
  query.validate
  let continuation ← query.continuation codec
  checkSession request db sessionId
  match continuation with
  | none => openSnapshot db sessionId
  | some continuation => some <$> resumeSnapshot db sessionId continuation

def emptyEnvelope (activeRunId : Option Bytes) : Envelope := ⟨[], none, none, none, 0, 0, none, activeRunId⟩

def getMessageHistoryBundle (codec : Codec) (request : Request) (db : Database) (sessionId : Bytes)
    (query : Query) : Except HistoryError Envelope := do
  let range ← locateBundle codec request db sessionId query
  match range with
  | none => pure (emptyEnvelope (db.activeRun sessionId))
  | some range => selectPage codec range.header (range.rows db sessionId)

section Selection
variable {codec : Codec} {header : Header} {rows : List Message} {envelope : Envelope}
variable {α : Type} {page : Nat → Except HistoryError Envelope} {turns low high : Nat}

theorem boundedFront_le {limit separator : Nat} {size : α → Nat} (count bytes : Nat) (xs : List α) :
    boundedFront limit separator size count bytes xs ≤ xs.length := by
  induction xs generalizing count bytes with
  | nil => exact Nat.zero_le _
  | cons x _ ih =>
    rw [boundedFront]
    by_cases full : limit < bytes + (if count = 0 then 0 else separator) + size x
    · simp [full]
    · simp [full, ih]

theorem boundedFront_eq_zero {limit separator : Nat} {size : α → Nat} {bytes : Nat} {x : α}
    {xs : List α} (none : boundedFront limit separator size 0 bytes (x :: xs) = 0) :
    limit < bytes + size x := by
  by_contra within
  simp [boundedFront, within] at none

theorem searchPage_ne_none (hd : searchPage codec page turns low high (some envelope) = .ok none) :
    False := by
  induction turns generalizing low high envelope with
  | zero => simp [searchPage] at hd
  | succ _ ih =>
    rw [searchPage] at hd
    split at hd
    next => simp at hd
    next =>
      simp only [bind_eq_ok] at hd
      obtain ⟨_, -, hd⟩ := hd
      split at hd
      next => exact ih hd
      next => exact ih hd

theorem searchPage_some {best : Option Envelope} (hp : 1 ≤ low)
    (hd : searchPage codec page turns low high best = .ok (some envelope)) :
    best = some envelope ∨ ∃ count, low ≤ count ∧ count ≤ high ∧ page count = .ok envelope := by
  induction turns generalizing low high best with
  | zero => exact .inl (by simpa [searchPage] using hd)
  | succ _ ih =>
    rw [searchPage] at hd
    split at hd
    next => exact .inl (by simpa using hd)
    next hw =>
      simp only [bind_eq_ok] at hd
      obtain ⟨_, hm, hd⟩ := hd
      split at hd
      next =>
        rcases ih (by omega) hd with hs | ⟨count, ha, hb, isPage⟩
        · cases hs
          exact .inr ⟨_, by omega, by omega, hm⟩
        · exact .inr ⟨count, by omega, hb, isPage⟩
      next =>
        rcases ih hp hd with hs | ⟨count, ha, _, isPage⟩
        · exact .inl hs
        · exact .inr ⟨count, ha, by omega, isPage⟩

theorem searchPage_none (some : 1 ≤ high) (enough : high ≤ turns)
    (hd : searchPage codec page turns 1 high none = .ok none) :
    ∃ alone, page 1 = .ok alone ∧ bundleResponseBytesMax < codec.responseBytes alone := by
  induction turns generalizing high with
  | zero => omega
  | succ _ ih =>
    rw [searchPage, if_neg (by omega)] at hd
    simp only [bind_eq_ok] at hd
    obtain ⟨hf, hm, hd⟩ := hd
    split at hd
    next => exact (searchPage_ne_none hd).elim
    next hl =>
      by_cases more : 1 ≤ (1 + high) / 2 - 1
      · exact ih more (by omega) hd
      · have one : (1 + high) / 2 = 1 := by omega
        rw [one] at hm
        exact ⟨hf, hm, Nat.lt_of_not_le hl⟩

theorem take_mapM {β : Type} {f : α → Option β} {xs : List α} {ys : List β}
    (mapped : xs.mapM f = some ys) (count : Nat) :
    (xs.take count).mapM f = some (ys.take count) := by
  induction xs generalizing ys count with
  | nil =>
    obtain rfl : ys = [] := by simpa using mapped.symm
    simp
  | cons _ _ ih =>
    simp only [mapM_cons, bind_eq_bind, bind_eq_some_iff, Option.pure_def, Option.some.injEq] at mapped
    obtain ⟨_, isY, _, isRest, rfl⟩ := mapped
    cases count with
    | zero => rfl
    | succ count => simp [mapM_cons, isY, ih isRest count]

theorem length_of_mapM {β : Type} {f : α → Option β} {xs : List α} {ys : List β}
    (mapped : xs.mapM f = some ys) : ys.length = xs.length := by
  induction xs generalizing ys with
  | nil =>
    obtain rfl : ys = [] := by simpa using mapped.symm
    rfl
  | cons _ _ ih =>
    simp only [mapM_cons, bind_eq_bind, bind_eq_some_iff, Option.pure_def, Option.some.injEq] at mapped
    obtain ⟨_, -, _, isRest, rfl⟩ := mapped
    rw [length_cons, length_cons, ih isRest]

theorem nextCursorAfter_ok {count : Nat} {next : Option Bytes} (hw : count ≤ rows.length)
    (paged : count ≤ bundlePageLimit) (hd : nextCursorAfter rows count = .ok next) :
    (count = rows.length ∧ next = none) ∨
    (count < rows.length ∧
      ∃ row cursor, rows[count - 1]? = some row ∧ next = some cursor ∧
        encodeMessageHistoryCursor row.createdAt row.id = .ok cursor) := by
  rw [nextCursorAfter] at hd
  split at hd
  next more =>
    rw [length_take] at more
    simp only [steps_ok] at hd
    obtain ⟨row, hr, hd⟩ := hd
    obtain ⟨cursor, encoded, rfl⟩ := map_eq_ok.mp hd
    exact .inr ⟨by omega, row, cursor, hr, rfl, encoded⟩
  next all =>
    rw [length_take] at all
    exact .inl ⟨by omega, (Except.ok.inj hd).symm⟩

theorem selectPage_ok (filled : rows ≠ []) (hd : selectPage codec header rows = .ok envelope) :
    ∃ count next, 1 ≤ count ∧ count ≤ rows.length ∧
      (rows.take count).mapM codec.dump = some envelope.records ∧
      envelope = header.envelope envelope.records next ∧ nextCursorAfter rows count = .ok next ∧
      count ≤ bundlePageLimit := by
  simp only [selectPage, steps_ok] at hd
  obtain ⟨candidate, records, dumped, _, best, searched, hf, rfl⟩ := hd
  have few := @boundedFront_le Message bundleRawBytesMax 0 Message.fieldBytes 0 2 (rows.take bundlePageLimit)
  generalize boundedFront bundleRawBytesMax 0 Message.fieldBytes 0 2 (rows.take bundlePageLimit) = total at *
  rw [length_take] at few
  have size := length_of_mapM dumped
  rw [length_take, Nat.min_eq_left (by omega)] at size
  have candidates : records ≠ [] := by
    intro empty
    rw [empty] at size
    exact candidate ⟨filled, size.symm⟩
  cases best with
  | none => exact absurd ⟨rfl, candidates⟩ hf
  | some page =>
    rcases searchPage_some le_rfl searched with none | ⟨count, ha, _, isPage⟩
    · simp at none
    · have front := @boundedFront_le Record bundleRawBytesMax 1 codec.recordBytes 0 2 records
      simp only [bundlePage, steps_ok] at isPage
      obtain ⟨next, hn, rfl⟩ := isPage
      refine ⟨count, next, ha, by omega, ?_, rfl, hn, by omega⟩
      have cut := take_mapM dumped count
      rw [take_take, Nat.min_eq_left (by omega)] at cut
      exact cut

/-- The first row does not fit by itself: its fields, its record or its page are too large. -/
def Unfit (codec : Codec) (header : Header) (rows : List Message) (first : Message) : Prop :=
  bundleRawBytesMax < 2 + first.fieldBytes ∨ ∃ record, codec.dump first = some record ∧
    (bundleRawBytesMax < 2 + codec.recordBytes record ∨ ∃ next, nextCursorAfter rows 1 = .ok next ∧
      bundleResponseBytesMax < codec.responseBytes (header.envelope [record] next))

theorem encode_ne_tooLarge {createdAt messageId : Bytes} :
    encodeMessageHistoryCursor createdAt messageId ≠ .error tooLarge := by
  intro hr
  simp [encodeMessageHistoryCursor, bind_eq_error, rejectIf_eq_error, orRaise_eq_error, tooLarge,
    pure, Except.pure] at hr

theorem nextCursorAfter_ne_tooLarge {count : Nat} : nextCursorAfter rows count ≠ .error tooLarge := by
  intro hr
  rw [nextCursorAfter] at hr
  split at hr
  next =>
    simp only [bind_eq_error, orRaise_eq_error, map_eq_error] at hr
    rcases hr with ⟨-, other⟩ | ⟨_, -, other⟩
    · simp [tooLarge] at other
    · exact encode_ne_tooLarge other
  next => simp [pure, Except.pure] at hr

theorem searchPage_ne_tooLarge {best : Option Envelope}
    (ha : ∀ count, page count ≠ .error tooLarge) :
    searchPage codec page turns low high best ≠ .error tooLarge := by
  induction turns generalizing low high best with
  | zero => simp [searchPage]
  | succ _ ih =>
    intro hr
    rw [searchPage] at hr
    split at hr
    next => simp at hr
    next =>
      rcases bind_eq_error.mp hr with other | ⟨_, -, other⟩
      · exact ha _ other
      · split at other
        next => exact ih other
        next => exact ih other

theorem selectPage_tooLarge (hr : selectPage codec header rows = .error tooLarge) :
    ∃ first rest, rows = first :: rest ∧ Unfit codec header rows first := by
  simp only [selectPage, bind_eq_error, steps_ok, rejectIf_eq_error, orRaise_eq_error] at hr
  generalize hc :
    boundedFront bundleRawBytesMax 0 Message.fieldBytes 0 2 (rows.take bundlePageLimit) = total at *
  cases rows with
  | nil =>
    exfalso
    simp [searchPage, boundedFront, pure, Except.pure, tooLarge] at hr
  | cons first rest =>
    refine ⟨first, rest, rfl, ?_⟩
    rcases hr with ⟨⟨-, rfl⟩, -⟩ | ⟨hf, ⟨-, other⟩ | ⟨records, dumped, hr⟩⟩
    · exact .inl (boundedFront_eq_zero hc)
    · simp [tooLarge] at other
    · -- The first record is the first row's.
      have hp : total ≠ 0 := fun zero => hf ⟨by simp, zero⟩
      obtain ⟨record, others, rfl, dump⟩ : ∃ record others, records = record :: others ∧
          codec.dump first = some record := by
        obtain ⟨_, rfl⟩ := Nat.exists_eq_succ_of_ne_zero hp
        simp only [take_succ_cons, mapM_cons, bind_eq_bind, bind_eq_some_iff,
          Option.pure_def, Option.some.injEq] at dumped
        obtain ⟨record, dump, others, -, rfl⟩ := dumped
        exact ⟨record, others, rfl, dump⟩
      refine .inr ⟨record, dump, ?_⟩
      rcases hr with ⟨⟨-, zero⟩, -⟩ | ⟨raw, hr⟩
      · exact .inl (boundedFront_eq_zero zero)
      · rcases hr with other | ⟨_, searched, ⟨⟨rfl, -⟩, -⟩ | ⟨-, other⟩⟩
        · refine absurd other (searchPage_ne_tooLarge fun count hr => ?_)
          simp only [bundlePage, bind_eq_error] at hr
          rcases hr with other | ⟨_, -, other⟩
          · exact nextCursorAfter_ne_tooLarge other
          · simp [pure, Except.pure] at other
        · have one : 1 ≤ boundedFront bundleRawBytesMax 1 codec.recordBytes 0 2 (record :: others) :=
            Nat.one_le_iff_ne_zero.mpr fun zero => raw ⟨by simp, zero⟩
          obtain ⟨_, hm, hl⟩ := searchPage_none one le_rfl searched
          simp only [bundlePage, steps_ok] at hm
          obtain ⟨next, hn, rfl⟩ := hm
          exact .inr ⟨next, hn, hl⟩
        · simp [pure, Except.pure] at other

end Selection

end Yinshi.History
