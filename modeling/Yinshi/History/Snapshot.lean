import Mathlib.Data.List.ReduceOption
import Yinshi.Base.Runs
import Yinshi.History.Bundle

/-! A client that follows the cursors of a history while messages come and go. The first page
fixes the snapshot by its highest row id; the later pages recognize it by that row, by the
number of rows and by the last row. Row ids are used again after a deletion, message ids are
not. -/

namespace Yinshi.History
open ByteText Encodings Keyed Checked Runs Relation List

/-! ### The client -/

/-- The tables and what the client has received. `used` holds the id of every message there
ever was, and `asked` the tables that the first page was read from. -/
structure Loading where
  db : Database
  used : List Bytes
  asked : Database
  pages : List Envelope
  refused : Option HistoryError := none

/-- The request after some pages; there is none after a page without a next cursor. -/
def nextQuery : List Envelope → Option Query
  | [] => some {}
  | first :: rest => (((first :: rest).getLast (by simp)).nextCursor).map fun cursor =>
    ⟨some cursor, first.through, some first.snapshot, some first.snapshotCount, first.snapshotTail,
      some (first.activeRunId.getD (bytes "none"))⟩

def Database.nextRowid (db : Database) : Nat := ((db.messages.map (·.rowid)).max?).getD 0 + 1

section Steps
variable (codec : Codec) (sessionId : Bytes)

/-- One step of the tables, or one request of the client. -/
inductive LoadStep : Loading → Loading → Prop
  | insert {s : Loading} (message : Message) (fresh : message.id ∉ s.used)
      (rowid : message.rowid = s.db.nextRowid) :
      LoadStep s { s with
        db := { s.db with messages := s.db.messages ++ [message] }, used := message.id :: s.used }
  | delete {s : Loading} (messageId : Bytes) :
      LoadStep s { s with db := { s.db with messages := s.db.messages.filter (·.id ≠ messageId) } }
  | elsewhere {s : Loading} (sessions : List Session) (runs : List Run) :
      LoadStep s { s with db := { s.db with sessions := sessions, runs := runs } }
  | answered {s : Loading} {request : Request} {query : Query} {page : Envelope}
      (waiting : s.refused = none) (asks : nextQuery s.pages = some query)
      (done : getMessageHistoryBundle codec request s.db sessionId query = .ok page) :
      LoadStep s { s with pages := s.pages ++ [page], asked := if s.pages = [] then s.db else s.asked }
  | refused {s : Loading} {request : Request} {query : Query} {error : HistoryError}
      (waiting : s.refused = none) (asks : nextQuery s.pages = some query)
      (done : getMessageHistoryBundle codec request s.db sessionId query = .error error) :
      LoadStep s { s with refused := some error }

end Steps

/-! ### The snapshot -/

/-- The rows of the snapshot in the tables now. Messages are never rewritten, and as long as the
row with the highest id is there, new rows have higher ids. -/
structure Tracks (sessionId : Bytes) (asked : Database) (tail : Message) (db : Database)
    (used : List Bytes) : Prop where
  known : ∀ row ∈ asked.messages, row.id ∈ used
  same : ∀ row ∈ asked.messages, ∀ other ∈ db.messages, other.id = row.id → other = row
  late : tail ∈ db.messages →
    ∀ row ∈ db.remaining sessionId tail.rowid, row ∈ asked.remaining sessionId tail.rowid

section Tracks
variable {sessionId : Bytes} {asked db : Database} {tail : Message} {used : List Bytes}
variable {row : Message}

theorem mem_remaining {snapshot : Nat} :
    row ∈ db.remaining sessionId snapshot ↔
    row ∈ db.messages ∧ row.sessionId = sessionId ∧ row.rowid ≤ snapshot := by
  simp only [Database.remaining, Database.messagesOf, mem_filter, decide_eq_true_eq, and_assoc]

theorem rowid_lt_nextRowid (hm : row ∈ db.messages) : row.rowid < db.nextRowid := by
  have hl : row.rowid ∈ db.messages.map (·.rowid) := mem_map_of_mem hm
  rw [Database.nextRowid]
  cases greatest : (db.messages.map (·.rowid)).max? with
  | none =>
    rw [max?_eq_none_iff.mp greatest] at hl
    simp at hl
  | some _ => exact Nat.lt_succ_of_le ((max?_eq_some_iff.mp greatest).2 _ hl)

theorem Tracks.insert (tracks : Tracks sessionId asked tail db used)
    (isTail : tail ∈ asked.messages) {message : Message} (hf : message.id ∉ used)
    (rowid : message.rowid = db.nextRowid) :
    Tracks sessionId asked tail { db with messages := db.messages ++ [message] }
      (message.id :: used) := by
  refine ⟨fun row hm => mem_cons_of_mem _ (tracks.known row hm), ?_, ?_⟩
  · intro row hm other hl hs
    rcases mem_append.mp hl with old | new
    · exact tracks.same row hm other old hs
    · rw [mem_singleton.mp new] at hs
      exact absurd (hs ▸ tracks.known row hm) hf
  · intro ht row hl
    have still : tail ∈ db.messages := by
      rcases mem_append.mp ht with old | new
      · exact old
      · rw [← mem_singleton.mp new] at hf
        exact absurd (tracks.known tail isTail) hf
    obtain ⟨hm, own, low⟩ := mem_remaining.1 hl
    rcases mem_append.mp hm with old | new
    · exact tracks.late still row (mem_remaining.2 ⟨old, own, low⟩)
    · rw [mem_singleton.mp new, rowid] at low
      exact absurd (rowid_lt_nextRowid still) (not_lt.mpr low)

theorem Tracks.delete (tracks : Tracks sessionId asked tail db used) (messageId : Bytes) :
    Tracks sessionId asked tail { db with messages := db.messages.filter (·.id ≠ messageId) }
      used := by
  refine ⟨tracks.known, fun row hm other hl => tracks.same row hm other (mem_of_mem_filter hl), ?_⟩
  intro ht row hl
  obtain ⟨hm, own, low⟩ := mem_remaining.1 hl
  exact tracks.late (mem_of_mem_filter ht) row (mem_remaining.2 ⟨mem_of_mem_filter hm, own, low⟩)

theorem Tracks.congr (tracks : Tracks sessionId asked tail db used) {db' : Database}
    (messages : db'.messages = db.messages) : Tracks sessionId asked tail db' used := by
  refine ⟨tracks.known, by rw [messages]; exact tracks.same, ?_⟩
  rw [messages]
  intro ht row hl
  refine tracks.late ht row ?_
  rw [mem_remaining] at hl ⊢
  rwa [← messages]

theorem Tracks.perm (ht : Tracks sessionId asked tail db used) (isTail : tail ∈ asked.messages)
    (ids : (db.messages.map (·.id)).Nodup)
    (count :
      (db.remaining sessionId tail.rowid).length = (asked.remaining sessionId tail.rowid).length)
    (hl : row ∈ db.remaining sessionId tail.rowid) (hs : row.id = tail.id) :
    (db.remaining sessionId tail.rowid).Perm (asked.remaining sessionId tail.rowid) := by
  obtain rfl := ht.same tail isTail row (mem_remaining.1 hl).1 hs
  have hw := ht.late (mem_remaining.1 hl).1
  have hd : (db.remaining sessionId row.rowid).Nodup :=
    ((Nodup.of_map _ ids).filter _).filter _
  exact (subperm_of_subset hd hw).perm_of_length_le count.ge

end Tracks

/-! ### Pages -/

def CursorAfter (rows : List Message) (count : Nat) (next : Option Bytes) : Prop :=
  (count = rows.length ∧ next = none) ∨ (count < rows.length ∧ ∃ row cursor, rows[count - 1]? = some row ∧
    next = some cursor ∧ encodeMessageHistoryCursor row.createdAt row.id = .ok cursor)

structure Served (codec : Codec) (rows : List Message) (through tail : Message) (first : Envelope)
    (pages : List Envelope) : Prop where
  last : rows.getLast? = some through
  isThrough : ∃ cursor, first.through = some cursor ∧
    encodeMessageHistoryCursor through.createdAt through.id = .ok cursor
  isTail : ∃ cursor, first.snapshotTail = some cursor ∧
      encodeMessageHistoryCursor tail.createdAt tail.id = .ok cursor
  snapshot : first.snapshot = tail.rowid
  count : first.snapshotCount = rows.length
  bounds : first.snapshot ≤ snapshotMax ∧ first.snapshotCount ≤ snapshotMax
  position : ∃ count, 1 ≤ count ∧ count ≤ rows.length ∧
    (rows.take count).mapM codec.dump = some (pages.flatMap (·.records)) ∧
    CursorAfter rows count (pages.getLast?.bind (·.nextCursor))
  each : ∀ page ∈ pages, page.through = first.through ∧ ∃ place row, rows[place]? = some row ∧
    page.records.getLast? = codec.dump row ∧ (page.nextCursor = none ↔ place + 1 = rows.length)

section Served
variable {codec : Codec} {rows : List Message} {through tail : Message} {first page : Envelope}
  {pages : List Envelope}
variable {header : Header} {count : Nat}

theorem map_some_of_mapM {α β : Type} {f : α → Option β} {xs : List α} {ys : List β}
    (mapped : xs.mapM f = some ys) : ys.map some = xs.map f := by
  induction xs generalizing ys with
  | nil =>
    obtain rfl : ys = [] := by simpa using mapped.symm
    rfl
  | cons _ _ ih =>
    simp only [mapM_cons, Option.bind_eq_bind, Option.bind_eq_some_iff, Option.pure_def,
      Option.some.injEq] at mapped
    obtain ⟨_, isY, _, isRest, rfl⟩ := mapped
    rw [map_cons, map_cons, isY, ih isRest]

theorem getElem?_mapM {α β : Type} {f : α → Option β} {xs : List α} {ys : List β}
    (mapped : xs.mapM f = some ys) (place : Nat) : ys[place]? = xs[place]?.bind f := by
  induction xs generalizing ys place with
  | nil =>
    obtain rfl : ys = [] := by simpa using mapped.symm
    simp
  | cons _ _ ih =>
    simp only [mapM_cons, Option.bind_eq_bind, Option.bind_eq_some_iff, Option.pure_def,
      Option.some.injEq] at mapped
    obtain ⟨_, isY, _, isRest, rfl⟩ := mapped
    cases place with
    | zero => simp [isY]
    | succ place => simpa using ih isRest place

theorem page_after (hf : count < rows.length)
    (hd : selectPage codec header (rows.drop count) = .ok page) :
    ∃ added, 1 ≤ added ∧ count + added ≤ rows.length ∧
      (rows.take (count + added)).mapM codec.dump =
        ((rows.take count).mapM codec.dump).map (· ++ page.records) ∧
      page = header.envelope page.records page.nextCursor ∧
      CursorAfter rows (count + added) page.nextCursor ∧
      ∃ row, rows[count + added - 1]? = some row ∧ page.records.getLast? = codec.dump row := by
  have filled : rows.drop count ≠ [] := by
    intro none
    have := congrArg length none
    simp at this
    omega
  obtain ⟨added, next, hp, hw, dumped, isPage, cursor, paged⟩ := selectPage_ok filled hd
  have after := nextCursorAfter_ok hw paged cursor
  rw [length_drop] at hw after
  have hn : page.nextCursor = next := by rw [isPage]; rfl
  have shown : (rows.drop count)[added - 1]? = rows[count + added - 1]? := by
    rw [getElem?_drop]
    congr 1
    omega
  refine ⟨added, hp, by omega, ?_, by rw [hn]; exact isPage, ?_, ?_⟩
  · rw [take_add, mapM_append, dumped]
    cases (rows.take count).mapM codec.dump <;> rfl
  · rw [hn]
    rcases after with ⟨_, rfl⟩ | ⟨_, row, text, hr, rfl, encoded⟩
    · exact .inl ⟨by omega, rfl⟩
    · exact .inr ⟨by omega, row, text, shown ▸ hr, rfl, encoded⟩
  · have hi : count + added - 1 < rows.length := by omega
    refine ⟨rows[count + added - 1], getElem?_eq_getElem hi, ?_⟩
    have size : page.records.length = added := by
      rw [length_of_mapM dumped, length_take, length_drop]
      omega
    rw [getLast?_eq_getElem?, getElem?_mapM dumped, size, getElem?_take_of_lt (by omega), shown,
      getElem?_eq_getElem hi, Option.bind_some]

theorem cursorAfter_none {next : Option Bytes} (after : CursorAfter rows count next)
    (hp : 1 ≤ count) : next = none ↔ count - 1 + 1 = rows.length := by
  rcases after with ⟨_, rfl⟩ | ⟨_, _, _, -, rfl, -⟩
  · simp only [true_iff]
    omega
  · simp only [reduceCtorEq, false_iff]
    omega

theorem Served.append (hs : Served codec rows through tail first pages) (hf : count < rows.length)
    (sent : (rows.take count).mapM codec.dump = some (pages.flatMap (·.records)))
    (same : first.through = some header.through)
    (hd : selectPage codec header (rows.drop count) = .ok page) :
    Served codec rows through tail first (pages ++ [page]) := by
  obtain ⟨added, _, hw, dumped, isPage, after, row, hr, ends⟩ := page_after hf hd
  refine ⟨hs.last, hs.isThrough, hs.isTail, hs.snapshot, hs.count, hs.bounds,
    ⟨count + added, by omega, hw, ?_, ?_⟩, ?_⟩
  · rw [dumped, sent, Option.map_some, flatMap_append, flatMap_singleton]
  · rw [getLast?_append]
    exact after
  · intro other hm
    rcases mem_append.mp hm with old | new
    · exact hs.each other old
    · rw [mem_singleton.mp new]
      refine ⟨?_, count + added - 1, row, hr, ends, cursorAfter_none after (by omega)⟩
      rw [isPage, same]
      rfl

theorem served_first (filled : rows ≠ []) (last : rows.getLast? = some through)
    (isThrough : encodeMessageHistoryCursor through.createdAt through.id = .ok header.through)
    (isTail : encodeMessageHistoryCursor tail.createdAt tail.id = .ok header.snapshotTail)
    (snapshot : header.snapshot = tail.rowid) (count : header.snapshotCount = rows.length)
    (hb : header.snapshot ≤ snapshotMax ∧ header.snapshotCount ≤ snapshotMax)
    (hd : selectPage codec header rows = .ok page) :
    Served codec rows through tail page [page] := by
  have start : selectPage codec header (rows.drop 0) = .ok page := hd
  obtain ⟨added, hp, hw, dumped, isPage, after, row, hr, ends⟩ :=
    page_after (length_pos_iff.mpr filled) start
  rw [Nat.zero_add] at hw dumped after hr
  have shared : page.through = some header.through ∧ page.snapshotTail = some header.snapshotTail ∧
      page.snapshot = header.snapshot ∧ page.snapshotCount = header.snapshotCount := by
    rw [isPage]
    exact ⟨rfl, rfl, rfl, rfl⟩
  refine ⟨last, ⟨_, shared.1, isThrough⟩, ⟨_, shared.2.1, isTail⟩, shared.2.2.1.trans snapshot,
    shared.2.2.2.trans count, by rw [shared.2.2.1, shared.2.2.2]; exact hb,
    ⟨added, hp, hw, by simpa using dumped, after⟩, ?_⟩
  intro _ hm
  rw [mem_singleton.mp hm]
  exact ⟨rfl, added - 1, row, hr, ends, cursorAfter_none after hp⟩

end Served

/-! ### Requests -/

section Requests
variable {codec : Codec} {request : Request} {sessionId : Bytes} {db asked : Database}
  {range : Range} {through tail : Message} {first page : Envelope} {rest : List Envelope}
  {query : Query}
variable {rows : List Message} {pages : List Envelope} {used : List Bytes}

theorem keys_nodup (ids : (rows.map (·.id)).Nodup) : (rows.map Message.key).Nodup := by
  refine List.Nodup.of_map (fun key : Key => (ofLex key).2) ?_
  rwa [List.map_map]

theorem remaining_keys (ids : (db.messages.map (·.id)).Nodup) (snapshot : Nat) :
    ((db.remaining sessionId snapshot).map Message.key).Nodup := by
  refine keys_nodup (ids.sublist ?_)
  exact (filter_sublist.trans filter_sublist).map _

theorem le_last (last : (ordered rows).getLast? = some through) :
    ∀ row ∈ ordered rows, row.key ≤ through.key := by
  obtain ⟨_, same⟩ := getLast?_eq_some_iff.mp last
  intro row hm
  have hs : (sortBy Message.key rows).Pairwise fun a b => a.key ≤ b.key := pairwise_sortBy
  rw [ordered] at same hm
  rw [same] at hs hm
  rcases mem_append.mp hm with early | late
  · exact (pairwise_append.mp hs).2.2 row early through (by simp)
  · rw [mem_singleton.mp late]

theorem range_rows (ids : (db.messages.map (·.id)).Nodup) :
    range.rows db sessionId =
      (ordered (db.remaining sessionId range.header.snapshot)).filter
        fun row => (∀ cursor ∈ range.after, cursor < row.key) ∧ row.key ≤ range.through := by
  rw [ordered, ← sortBy_filter (remaining_keys ids _), Range.rows, ordered, Database.remaining, filter_filter]
  congr 2
  funext row
  simp [Bool.and_comm, and_comm]

theorem openSnapshot_none (hd : openSnapshot db sessionId = .ok none) : db.messagesOf sessionId = [] := by
  by_contra filled
  simp only [openSnapshot, steps_ok] at hd
  cases greatest : ((db.messagesOf sessionId).map (·.rowid)).max? with
  | none =>
    rw [max?_eq_none_iff, map_eq_nil_iff] at greatest
    exact filled greatest
  | some _ =>
    obtain ⟨hl, _⟩ := max?_eq_some_iff.mp greatest
    obtain ⟨row, hm, rfl⟩ := mem_map.mp hl
    rw [greatest, Option.getD_some] at hd
    split at hd
    next => simp at hd
    next none =>
      have last : (ordered ((db.messagesOf sessionId).filter (·.rowid ≤ row.rowid))).getLast? ≠ Option.none := by
        rw [ne_eq, getLast?_eq_none_iff]
        intro empty
        have : row ∈ ordered ((db.messagesOf sessionId).filter (·.rowid ≤ row.rowid)) :=
          mem_sortBy.mpr (mem_filter.mpr ⟨hm, by simp⟩)
        rw [empty] at this
        simp at this
      have hf : (db.messagesOf sessionId).find? (·.rowid = row.rowid) ≠ Option.none := by
        intro missing
        exact find?_eq_none.mp missing row hm (by simp)
      obtain ⟨throughRow, isThrough⟩ := Option.ne_none_iff_exists'.mp last
      obtain ⟨tailRow, isTail⟩ := Option.ne_none_iff_exists'.mp hf
      exact none throughRow tailRow isThrough isTail

theorem openSnapshot_some (hd : openSnapshot db sessionId = .ok (some range)) :
    ∃ through tail, tail ∈ db.remaining sessionId tail.rowid ∧ range.after = none ∧
      range.through = through.key ∧
      (ordered (db.remaining sessionId tail.rowid)).getLast? = some through ∧
      encodeMessageHistoryCursor through.createdAt through.id = .ok range.header.through ∧
      encodeMessageHistoryCursor tail.createdAt tail.id = .ok range.header.snapshotTail ∧
      range.header.snapshot = tail.rowid ∧
      range.header.snapshotCount = (ordered (db.remaining sessionId tail.rowid)).length ∧
      range.header.snapshot ≤ snapshotMax ∧ range.header.snapshotCount ≤ snapshotMax := by
  simp only [openSnapshot, steps_ok, not_lt] at hd
  obtain ⟨low, few, hd⟩ := hd
  split at hd
  next through tail isThrough isTail =>
    simp only [steps_ok, Option.some.injEq] at hd
    obtain ⟨_, encoded, _, encodedTail, rfl⟩ := hd
    have chosen : tail.rowid = ((db.messagesOf sessionId).map (·.rowid)).max?.getD 0 := by
      simpa using find?_some isTail
    have hm := mem_of_find?_eq_some isTail
    rw [← chosen] at isThrough low
    have all : db.remaining sessionId tail.rowid = db.messagesOf sessionId := by
      refine filter_eq_self.mpr fun row hl => ?_
      have hr : row.rowid ∈ (db.messagesOf sessionId).map (·.rowid) := mem_map_of_mem hl
      cases greatest : ((db.messagesOf sessionId).map (·.rowid)).max? with
      | none =>
        rw [max?_eq_none_iff.mp greatest] at hr
        simp at hr
      | some _ =>
        rw [greatest, Option.getD_some] at chosen
        rw [chosen]
        simpa using (max?_eq_some_iff.mp greatest).2 _ hr
    refine ⟨through, tail, ?_, rfl, rfl, isThrough, encoded, encodedTail, chosen.symm,
      ?_, by rw [← chosen]; exact low,
      few⟩
    · rw [all]
      exact hm
    · rw [ordered, length_sortBy, all]
  next => simp at hd

theorem first_page (ids : (db.messages.map (·.id)).Nodup)
    (hd : getMessageHistoryBundle codec request db sessionId {} = .ok page) :
    (db.messagesOf sessionId = [] ∧ page.records = [] ∧ page.nextCursor = none) ∨
    ∃ through tail, tail ∈ db.remaining sessionId tail.rowid ∧
      Served codec (ordered (db.remaining sessionId tail.rowid)) through tail page [page] := by
  simp only [getMessageHistoryBundle, locateBundle, steps_ok] at hd
  obtain ⟨located, ⟨-, continuation, isContinuation, -, opened⟩, hd⟩ := hd
  obtain rfl : none = continuation := Except.ok.inj isContinuation
  cases located with
  | none =>
    cases hd
    exact .inl ⟨openSnapshot_none opened, rfl, rfl⟩
  | some range =>
    obtain ⟨through, tail, hm, after, isThrough, last, encoded, encodedTail, snapshot, count, hb⟩ :=
      openSnapshot_some opened
    have rows : range.rows db sessionId = ordered (db.remaining sessionId tail.rowid) := by
      rw [range_rows ids, snapshot]
      refine filter_eq_self.mpr fun row hl => ?_
      simpa [after, isThrough] using le_last last row hl
    change selectPage codec range.header (range.rows db sessionId) = _ at hd
    rw [rows] at hd
    refine .inr ⟨through, tail, hm, served_first ?_ last encoded encodedTail snapshot count hb hd⟩
    intro empty
    rw [empty] at last
    simp at last

theorem nextQuery_cons (asks : nextQuery (first :: rest) = some query) :
    ∃ cursor,
      (first :: rest).getLast?.bind (·.nextCursor) = some cursor ∧
      query =
        ⟨some cursor, first.through, some first.snapshot, some first.snapshotCount,
          first.snapshotTail, some (first.activeRunId.getD (bytes "none"))⟩ := by
  rw [nextQuery, Option.map_eq_some_iff] at asks
  obtain ⟨cursor, isCursor, rfl⟩ := asks
  refine ⟨cursor, ?_, rfl⟩
  exact isCursor

theorem resumeSnapshot_ok {continuation : Continuation}
    (hd : resumeSnapshot db sessionId continuation = .ok range) :
    range = ⟨some continuation.cursor, continuation.through, continuation.header⟩ ∧
    (db.remaining sessionId continuation.header.snapshot).length =
      continuation.header.snapshotCount ∧
    ∃ row ∈ db.remaining sessionId continuation.header.snapshot,
      row.rowid = continuation.header.snapshot ∧ row.key = continuation.tail := by
  simp only [resumeSnapshot, steps_ok, not_or, not_not] at hd
  obtain ⟨-, ⟨count, -, isTail⟩, rfl⟩ := hd
  exact ⟨rfl, count, isTail⟩

theorem resumeSnapshot_error {continuation : Continuation} {error : HistoryError}
    (hr : resumeSnapshot db sessionId continuation = .error error) : error = snapshotChanged := by
  simp only [resumeSnapshot, bind_eq_error, rejectIf_eq_error, exists_unit] at hr
  rcases hr with ⟨-, rfl⟩ | ⟨-, ⟨-, rfl⟩ | ⟨-, other⟩⟩
  · rfl
  · rfl
  · simp [pure, Except.pure] at other

theorem continuation_ok {cursor activeRunId throughText tailText : Bytes} {snapshot count : Nat}
    {continuation : Option Continuation}
    (decoded : Query.continuation codec ⟨some cursor, some throughText, some snapshot, some count,
            some tailText, some activeRunId⟩ = .ok continuation) :
    ∃ own, continuation = some own ∧ decodeMessageHistoryCursor codec cursor = .ok own.cursor ∧
      decodeMessageHistoryCursor codec throughText = .ok own.through ∧
      decodeMessageHistoryCursor codec tailText = .ok own.tail ∧ own.header.through = throughText ∧
      own.header.snapshot = snapshot ∧ own.header.snapshotCount = count := by
  simp only [Query.continuation, steps_ok] at decoded
  obtain ⟨-, _, isKey, _, hl, _, isTail, -, rfl⟩ := decoded
  exact ⟨_, rfl, isKey, hl, isTail, rfl, rfl, rfl⟩

theorem next_arguments (served : Served codec rows through tail first pages)
    (hw : pages = first :: rest) (asks : nextQuery pages = some query) :
    ∃ count row cursor throughText tailText, 1 ≤ count ∧ count < rows.length ∧
      (rows.take count).mapM codec.dump = some (pages.flatMap (·.records)) ∧
      rows[count - 1]? = some row ∧ encodeMessageHistoryCursor row.createdAt row.id = .ok cursor ∧
      first.through = some throughText ∧
      encodeMessageHistoryCursor through.createdAt through.id = .ok throughText ∧
      encodeMessageHistoryCursor tail.createdAt tail.id = .ok tailText ∧
      query =
        ⟨some cursor, some throughText, some first.snapshot, some first.snapshotCount,
          some tailText, some (first.activeRunId.getD (bytes "none"))⟩ := by
  obtain ⟨throughText, isThrough, encodedThrough⟩ := served.isThrough
  obtain ⟨tailText, isTailText, encodedTail⟩ := served.isTail
  obtain ⟨count, hp, _, sent, after⟩ := served.position
  rw [hw] at asks
  obtain ⟨cursor, isCursor, rfl⟩ := nextQuery_cons asks
  rw [hw, isCursor] at after
  rcases after with ⟨-, none⟩ | ⟨hf, row, _, hr, hs, encoded⟩
  · simp at none
  · cases hs
    exact ⟨count, row, cursor, throughText, tailText, hp, hf, sent, hr, encoded, isThrough,
      encodedThrough, encodedTail, by rw [isThrough, isTailText]⟩

theorem resumed_perm {own : Continuation} {tailText : Bytes} (ids : (db.messages.map (·.id)).Nodup)
    (isTail : tail ∈ asked.remaining sessionId tail.rowid)
    (ht : Tracks sessionId asked tail db used)
    (hs : Served codec (ordered (asked.remaining sessionId tail.rowid)) through tail first pages)
    (encodedTail : encodeMessageHistoryCursor tail.createdAt tail.id = .ok tailText)
    (tailKey : decodeMessageHistoryCursor codec tailText = .ok own.tail)
    (snapshot : own.header.snapshot = first.snapshot)
    (hc : own.header.snapshotCount = first.snapshotCount)
    (hd : resumeSnapshot db sessionId own = .ok range) :
    (db.remaining sessionId tail.rowid).Perm (asked.remaining sessionId tail.rowid) := by
  obtain ⟨-, size, _, hl, -, isFound⟩ := resumeSnapshot_ok hd
  rw [snapshot, hs.snapshot] at hl size
  rw [hc, hs.count, ordered, length_sortBy] at size
  exact ht.perm (mem_remaining.1 isTail).1 ids size hl
    (congrArg (fun key : Key => (ofLex key).2)
      (isFound.trans (decodeCursor_encodeCursor encodedTail tailKey)))

theorem rows_after (askedIds : (asked.messages.map (·.id)).Nodup) {snapshot count : Nat}
    (hp : 1 ≤ count) {row : Message}
    (hr : (ordered (asked.remaining sessionId snapshot))[count - 1]? = some row) :
    (ordered (asked.remaining sessionId snapshot)).filter (row.key < ·.key) =
      (ordered (asked.remaining sessionId snapshot)).drop count := by
  have hd : ((asked.remaining sessionId snapshot).map Message.key).Nodup := remaining_keys askedIds snapshot
  have hs := pairwise_lt_of_nodup (nodup_keys_sortBy.mpr hd) pairwise_sortBy
  have drops := filter_above hs hr
  rwa [Nat.sub_add_cancel hp] at drops

theorem next_page (ids : (db.messages.map (·.id)).Nodup)
    (askedIds : (asked.messages.map (·.id)).Nodup)
    (isTail : tail ∈ asked.remaining sessionId tail.rowid)
    (ht : Tracks sessionId asked tail db used)
    (hs : Served codec (ordered (asked.remaining sessionId tail.rowid)) through tail first pages)
    (hw : pages = first :: rest) (asks : nextQuery pages = some query)
    (hd : getMessageHistoryBundle codec request db sessionId query = .ok page) :
    Served codec (ordered (asked.remaining sessionId tail.rowid)) through tail first
      (pages ++ [page]) := by
  obtain ⟨count, _, _, _, _, hp, hf, sent, hr, encoded, isThrough,
    encodedThrough, encodedTail, rfl⟩ := next_arguments hs hw asks
  simp only [getMessageHistoryBundle, locateBundle, steps_ok] at hd
  obtain ⟨_, ⟨-, _, isContinuation, -, resumed⟩, hd⟩ := hd
  obtain ⟨own, rfl, key, last, tailKey, ownThrough, snapshot, hc⟩ := continuation_ok isContinuation
  obtain ⟨_, isRange, rfl⟩ := map_eq_ok.mp resumed
  have perm := resumed_perm ids isTail ht hs encodedTail tailKey snapshot hc isRange
  obtain ⟨rfl, -⟩ := resumeSnapshot_ok isRange
  change selectPage codec own.header
      (Range.rows ⟨some own.cursor, own.through, own.header⟩ db sessionId) = _ at hd
  have rows : Range.rows ⟨some own.cursor, own.through, own.header⟩ db sessionId =
      (ordered (asked.remaining sessionId tail.rowid)).drop count := by
    rw [range_rows ids]
    rw [snapshot, hs.snapshot, show ordered (db.remaining sessionId tail.rowid) =
      ordered (asked.remaining sessionId tail.rowid) from sortBy_eq_of_perm perm (remaining_keys ids _),
      ← rows_after askedIds hp hr]
    refine filter_congr fun other hm => ?_
    have hb := le_last hs.last other hm
    rw [decodeCursor_encodeCursor encodedThrough last, decodeCursor_encodeCursor encoded key]
    rw [Message.key, Message.key] at hb
    rw [Bool.eq_iff_iff]
    simp only [Message.key, Option.mem_def, Option.some.injEq, forall_eq', hb, and_true, decide_eq_true_eq]
    exact decide_eq_true_iff.symm
  rw [rows] at hd
  exact hs.append hf sent (by rw [isThrough, ownThrough]) hd

theorem encode_length {createdAt messageId cursor : Bytes}
    (encoded : encodeMessageHistoryCursor createdAt messageId = .ok cursor) :
    cursor ≠ [] ∧ cursor.length ≤ 128 := by
  obtain ⟨raw, -, length, _, _, -, rfl⟩ := encode_ok encoded
  have size := length_base64Url ([1, UInt8.ofNat createdAt.length] ++ createdAt ++ raw)
  simp only [length_append, length_cons, length_nil, length] at size
  exact ⟨ne_nil_of_length_pos (by omega), by omega⟩

/-- What the schema promises of the rows of a snapshot: timestamps, row ids and run ids as SQLite
makes them. -/
structure Regular (codec : Codec) (rows : List Message) (first : Envelope) : Prop where
  timestamps : ∀ row ∈ rows, codec.isTimestamp row.createdAt = true
  rowids : ∀ row ∈ rows, 0 < row.rowid
  run : ∀ run ∈ first.activeRunId, isRunId run

theorem deleted_refused (ids : (db.messages.map (·.id)).Nodup)
    (askedIds : (asked.messages.map (·.id)).Nodup)
    (isTail : tail ∈ asked.remaining sessionId tail.rowid)
    (ht : Tracks sessionId asked tail db used)
    (served :
      Served codec (ordered (asked.remaining sessionId tail.rowid)) through tail first pages)
    (hw : pages = first :: rest) (asks : nextQuery pages = some query)
    (regular : Regular codec (asked.remaining sessionId tail.rowid) first) {deleted : Message}
    (was : deleted ∈ asked.remaining sessionId tail.rowid) (gone : deleted ∉ db.messages)
    (checked : checkSession request db sessionId = .ok ()) :
    getMessageHistoryBundle codec request db sessionId query = .error snapshotChanged := by
  obtain ⟨count, row, cursor, throughText, tailText, hp, hf, -, isRow, encoded, _,
    encodedThrough, encodedTail, rfl⟩ := next_arguments served hw asks
  have rowMember : row ∈ asked.remaining sessionId tail.rowid := mem_sortBy.mp (mem_of_getElem? isRow)
  have lastMember : through ∈ asked.remaining sessionId tail.rowid :=
    mem_sortBy.mp (mem_of_getLast? served.last)
  have hv : Query.validate ⟨some cursor, some throughText, some first.snapshot, some first.snapshotCount,
      some tailText, some (first.activeRunId.getD (bytes "none"))⟩ = .ok () := by
    rw [Query.validate, rejectIf_eq_ok]
    have lengths : ∀ value ∈ [cursor, throughText, tailText], value ≠ [] ∧ value.length ≤ 128 := by
      simp [encode_length encoded, encode_length encodedThrough, encode_length encodedTail]
    simp only [not_or, not_exists, not_and, not_lt, Option.mem_def, Option.some.injEq]
    refine ⟨fun value hm => lengths value (by simpa [reduceOption_mem_iff] using hm), ?_, ?_⟩
    · intro value hm
      obtain rfl | rfl : value = first.snapshot ∨ value = first.snapshotCount := by
        simpa [reduceOption_mem_iff] using hm
      · exact served.bounds.1
      · exact served.bounds.2
    · rintro _ rfl other
      cases hr : first.activeRunId with
      | none => simp [hr] at other
      | some run => simpa [hr] using regular.run run hr
  have hb : row.key < through.key := by
    have after := rows_after askedIds hp isRow
    have hl : through ∈ (ordered (asked.remaining sessionId tail.rowid)).drop count := by
      obtain ⟨_, hs⟩ := getLast?_eq_some_iff.mp served.last
      rw [hs, length_append, length_singleton] at hf
      rw [hs, drop_append_of_le_length (by omega)]
      simp
    rw [← after] at hl
    simpa using (mem_filter.mp hl).2
  have continues : ∃ own, Query.continuation codec ⟨some cursor, some throughText,
      some first.snapshot, some first.snapshotCount, some tailText,
        some (first.activeRunId.getD (bytes "none"))⟩ = .ok (some own) := by
    have positiveSnapshot : first.snapshot ≠ 0 := by
      rw [served.snapshot]
      exact (regular.rowids tail isTail).ne'
    simp only [Query.continuation, steps_ok]
    exact ⟨_, positiveSnapshot, _, decode_of_encode encoded (regular.timestamps row rowMember), _,
      decode_of_encode encodedThrough (regular.timestamps through lastMember), _,
      decode_of_encode encodedTail (regular.timestamps tail isTail), not_le.mpr hb, rfl⟩
  obtain ⟨own, isOwn⟩ := continues
  obtain ⟨_, hs, -, -, tailKey, -, snapshot, hc⟩ := continuation_ok isOwn
  cases hs
  have refused : resumeSnapshot db sessionId own = .error snapshotChanged := by
    cases resumed : resumeSnapshot db sessionId own with
    | error _ => rw [resumeSnapshot_error resumed]
    | ok _ =>
      have perm := resumed_perm ids isTail ht served encodedTail tailKey snapshot hc resumed
      exact absurd (mem_remaining.1 (perm.mem_iff.mpr was)).1 gone
  rw [getMessageHistoryBundle, locateBundle, hv, isOwn, checked]
  simp only [bind, Except.bind, refused]
  rfl

theorem locate_ne_tooLarge : locateBundle codec request db sessionId query ≠ .error tooLarge := by
  intro hr
  have decode : ∀ cursor, decodeMessageHistoryCursor codec cursor ≠ .error tooLarge := by
    intro _ hr
    simp [decodeMessageHistoryCursor, bind_eq_error, rejectIf_eq_error, orRaise_eq_error,
      invalidCursor, tooLarge, pure, Except.pure] at hr
  simp only [locateBundle, bind_eq_error, exists_unit] at hr
  rcases hr with other | ⟨-, other | ⟨_, -, other | ⟨-, other⟩⟩⟩
  · simp [Query.validate, rejectIf_eq_error, tooLarge] at other
  · rw [Query.continuation] at other
    split at other
    next => simp at other
    next =>
      simp only [bind_eq_error, rejectIf_eq_error, decode, false_or] at other
      simp [invalidBundleCursor, tooLarge, pure, Except.pure] at other
    next => simp [invalidBundleCursor, tooLarge] at other
  · simp [checkSession, bind_eq_error, rejectIf_eq_error, orRaise_eq_error, tooLarge] at other
  · split at other
    next =>
      simp only [openSnapshot, bind_eq_error, rejectIf_eq_error, exists_unit] at other
      rcases other with ⟨-, other⟩ | ⟨-, ⟨-, other⟩ | ⟨-, other⟩⟩
      · simp [outOfRange, tooLarge] at other
      · simp [outOfRange, tooLarge] at other
      · split at other
        next =>
          simp only [bind_eq_error] at other
          simp [encode_ne_tooLarge, pure, Except.pure] at other
        next => simp [pure, Except.pure] at other
    next =>
      have := resumeSnapshot_error (map_eq_error.mp other)
      simp [tooLarge, snapshotChanged] at this

end Requests

/-! ### Every run -/

theorem dump_id {codec : Codec} {row : Message} {record : Record}
    (dumped : codec.dump row = some record) : record.id = row.id := by
  obtain ⟨_, -, rfl⟩ := Option.map_eq_some_iff.mp dumped
  rfl

theorem dump_last_iff {codec : Codec} {rows : List Message} {last row : Message} {place : Nat}
    (hd : (rows.map (·.id)).Nodup) (hl : rows.getLast? = some last) (hr : rows[place]? = some row)
    (hp : (codec.dump row).isSome) :
    place + 1 = rows.length ↔ codec.dump row = codec.dump last := by
  rw [getLast?_eq_getElem?] at hl
  constructor
  · intro final
    rw [← final, Nat.add_sub_cancel, hr] at hl
    rw [Option.some.inj hl]
  · intro dumps
    obtain ⟨_, isRecord⟩ := Option.isSome_iff_exists.mp hp
    have hs : row.id = last.id := (dump_id isRecord).symm.trans (dump_id (dumps ▸ isRecord))
    have equal : row = last :=
      key_inj_of_nodup hd (mem_of_getElem? hr) (mem_of_getElem? hl) hs
    have hi := (List.getElem?_eq_some_iff.mp hr).1
    have places := (getElem?_inj hi (Nodup.of_map _ hd)).mp (hr.trans (equal ▸ hl.symm))
    omega

def Shown (codec : Codec) (sessionId : Bytes) (s : Loading) (first : Envelope) : Prop :=
  (s.asked.messagesOf sessionId = [] ∧ s.pages = [first] ∧ first.records = [] ∧ first.nextCursor = none) ∨
  ∃ through tail, tail ∈ s.asked.remaining sessionId tail.rowid ∧
    (s.asked.messages.map (·.id)).Nodup ∧ Tracks sessionId s.asked tail s.db s.used ∧
    Served codec (ordered (s.asked.remaining sessionId tail.rowid)) through tail first s.pages

structure Consistent (codec : Codec) (sessionId : Bytes) (s : Loading) : Prop where
  ids : (s.db.messages.map (·.id)).Nodup
  used : ∀ row ∈ s.db.messages, row.id ∈ s.used
  shown : ∀ first rest, s.pages = first :: rest → Shown codec sessionId s first

structure Loading.Fresh (s : Loading) : Prop where
  ids : (s.db.messages.map (·.id)).Nodup
  used : ∀ row ∈ s.db.messages, row.id ∈ s.used
  idle : s.pages = []

section Runs
variable {codec : Codec} {sessionId : Bytes} {s t : Loading}

theorem Loading.Fresh.consistent (hf : s.Fresh) : Consistent codec sessionId s :=
  ⟨hf.ids, hf.used, by simp [hf.idle]⟩

theorem Shown.tables {first : Envelope} (shown : Shown codec sessionId s first)
    (asked : t.asked = s.asked) (pages : t.pages = s.pages)
    (ht : ∀ tail ∈ s.asked.messages,
        Tracks sessionId s.asked tail s.db s.used → Tracks sessionId s.asked tail t.db t.used) :
    Shown codec sessionId t first := by
  rcases shown with ⟨none, one, empty⟩ | ⟨through, tail, hm, ids, before, hs⟩
  · exact .inl ⟨by rw [asked, none], by rw [pages, one], empty⟩
  · refine .inr ⟨through, tail, ?_⟩
    rw [asked, pages]
    exact ⟨hm, ids, ht tail (mem_remaining.1 hm).1 before, hs⟩

theorem LoadStep.consistent (step : LoadStep codec sessionId s t)
    (before : Consistent codec sessionId s) : Consistent codec sessionId t := by
  cases step with
  | insert message hf rowid =>
    refine ⟨?_, ?_, fun first rest hw => (before.shown first rest hw).tables rfl rfl fun tail hm ht =>
      ht.insert hm hf rowid⟩
    · rw [map_append]
      refine nodup_append.mpr ⟨before.ids, by simp, ?_⟩
      intro _ hl other own
      obtain ⟨row, hm, rfl⟩ := mem_map.mp hl
      obtain rfl : other = message.id := by simpa using own
      rintro same
      exact hf (same ▸ before.used row hm)
    · intro row hm
      rcases mem_append.mp hm with old | new
      · exact mem_cons_of_mem _ (before.used row old)
      · rw [mem_singleton.mp new]
        exact mem_cons_self
  | delete messageId =>
    exact ⟨before.ids.sublist (filter_sublist.map _),
      fun row hm => before.used row (mem_of_mem_filter hm),
      fun first rest hw => (before.shown first rest hw).tables rfl rfl fun tail _ ht => ht.delete messageId⟩
  | elsewhere _ _ =>
    exact ⟨before.ids, before.used, fun first rest hw =>
      (before.shown first rest hw).tables rfl rfl fun tail _ ht => ht.congr rfl⟩
  | @answered _ query page waiting asks hd =>
    refine ⟨before.ids, before.used, ?_⟩
    intro first rest hw
    cases shape : s.pages with
    | nil =>
      rw [shape] at asks hw
      obtain rfl : ({} : Query) = query := Option.some.inj asks
      obtain ⟨rfl, -⟩ : page = first ∧ [] = rest := by simpa using hw
      rcases first_page before.ids hd with ⟨none, empty⟩ | ⟨through, tail, hm, hs⟩
      · exact .inl ⟨by simpa using none, by simp, empty⟩
      · refine .inr ⟨through, tail, ?_⟩
        exact ⟨hm, before.ids, ⟨before.used, fun _ hm _ hl hs => key_inj_of_nodup before.ids hl hm hs,
          fun _ _ hl => hl⟩, hs⟩
    | cons head pages =>
      obtain ⟨rfl, -⟩ : head = first ∧ _ = rest := by simpa [shape] using hw
      rcases before.shown head pages shape with ⟨-, one, -, last⟩ | ⟨through, tail, hm, ids, ht, hs⟩
      · rw [one, nextQuery] at asks
        simp [last] at asks
      · refine .inr ⟨through, tail, ?_⟩
        simp only [reduceCtorEq, if_false]
        rw [← shape]
        exact ⟨hm, ids, ht, next_page before.ids ids hm ht hs shape asks hd⟩
  | refused _ _ _ =>
    exact ⟨before.ids, before.used, fun first rest hw =>
      (before.shown first rest hw).tables rfl rfl fun tail _ ht => ht⟩

structure SnapshotConsistent (codec : Codec) (sessionId : Bytes) (t : Loading) : Prop where
  complete : ∀ first rest, t.pages = first :: rest → nextQuery t.pages = none →
    (t.pages.flatMap (·.records)).map some =
      (ordered (t.asked.remaining sessionId first.snapshot)).map codec.dump
  last : ∀ first rest, t.pages = first :: rest →
    ∀ page ∈ t.pages, page.records ≠ [] →
      ∃ row cursor,
        (ordered (t.asked.remaining sessionId first.snapshot)).getLast? = some row ∧
        page.through = some cursor ∧
        encodeMessageHistoryCursor row.createdAt row.id = .ok cursor ∧
        (page.nextCursor = none ↔ page.records.getLast? = codec.dump row)
  changed : ∀ first rest query, t.pages = first :: rest → nextQuery t.pages = some query →
    Regular codec (t.asked.remaining sessionId first.snapshot) first →
    (∃ row ∈ t.asked.remaining sessionId first.snapshot, row ∉ t.db.messages) →
    ∀ request, checkSession request t.db sessionId = .ok () →
      getMessageHistoryBundle codec request t.db sessionId query = .error snapshotChanged
  large : ∀ request db query,
    getMessageHistoryBundle codec request db sessionId query = .error tooLarge →
    ∃ range first rest, locateBundle codec request db sessionId query = .ok (some range) ∧
      range.rows db sessionId = first :: rest ∧ Unfit codec range.header (first :: rest) first

/-- A client that follows the cursors of a bundle to the end has the rows of its first snapshot,
each once and in order; a row of the snapshot that is gone is noticed, and a page is only
refused as too large for the sake of one row. -/
theorem bundle_snapshot_consistent (fresh : s.Fresh)
    (run : ReflTransGen (LoadStep codec sessionId) s t) : SnapshotConsistent codec sessionId t := by
  have consistent :=
    run_keeps (Consistent codec sessionId) (fun _ _ step => step.consistent) run fresh.consistent
  refine ⟨?_, ?_, ?_, ?_⟩
  · intro first rest hw complete
    rcases consistent.shown first rest hw with ⟨none, one, empty, -⟩ | ⟨through, tail, -, -, -, hs⟩
    · rw [Database.remaining, none, one]
      simp [empty, ordered, sortBy]
    · obtain ⟨_, -, -, sent, after⟩ := hs.position
      rw [hs.snapshot]
      rw [hw, nextQuery, Option.map_eq_none_iff] at complete
      have last : t.pages.getLast?.bind (·.nextCursor) = none := by
        rw [hw, getLast?_eq_some_getLast (by simp), Option.bind_some]
        exact complete
      rw [last] at after
      rcases after with ⟨all, -⟩ | ⟨-, _, _, -, other, -⟩
      · rw [all, take_length] at sent
        exact map_some_of_mapM sent
      · simp at other
  · intro first rest hw page hm filled
    rcases consistent.shown first rest hw with ⟨-, one, empty, -⟩ | ⟨through, tail, -, ids, -, hs⟩
    · rw [one, mem_singleton] at hm
      exact absurd (hm ▸ empty) filled
    · obtain ⟨cursor, isThrough, encoded⟩ := hs.isThrough
      obtain ⟨same, _, row, isRow, ends, closes⟩ := hs.each page hm
      refine ⟨through, cursor, hs.snapshot ▸ hs.last, same.trans isThrough, encoded, ?_⟩
      rw [closes, ends]
      have hd : ((ordered (t.asked.remaining sessionId tail.rowid)).map (·.id)).Nodup := by
        refine ((sortBy_perm.map _).nodup_iff).mpr (ids.sublist ?_)
        exact (filter_sublist.trans filter_sublist).map _
      refine dump_last_iff hd hs.last isRow ?_
      rw [← ends, getLast?_isSome]
      exact filled
  · intro first rest query hw asks regular ⟨_, was, gone⟩ request hc
    rcases consistent.shown first rest hw with ⟨none, -⟩ | ⟨_, _, hm, ids, ht, hs⟩
    · rw [Database.remaining, none] at was
      simp at was
    · rw [hs.snapshot] at regular was
      exact deleted_refused consistent.ids ids hm ht hs hw asks regular was gone hc
  · intro _ _ _ hr
    rw [getMessageHistoryBundle, bind_eq_error] at hr
    rcases hr with other | ⟨located, isLocated, hr⟩
    · exact absurd other locate_ne_tooLarge
    · cases located with
      | none => simp [pure, Except.pure] at hr
      | some range =>
        obtain ⟨first, rest, rows, unfit⟩ := selectPage_tooLarge hr
        exact ⟨range, first, rest, isLocated, rows, rows ▸ unfit⟩

end Runs

/-! ### A history of two pages -/

def sampleSession : Bytes := bytes "session"

/-- Timestamps as `CURRENT_TIMESTAMP` writes them, and sizes of short messages. -/
def sampleCodec : Codec where
  isTimestamp _ := true
  timestamp value := some (value.map fun digit => if digit = 32 then 84 else digit)
  recordBytes _ := 220
  responseBytes page := 260 + 220 * page.records.length

def sampleMessage (rowid : Nat) (id : String) : Message where
  rowid := rowid
  id := bytes id
  createdAt := bytes "2026-01-01 00:00:00"
  sessionId := sampleSession
  role := bytes "user"
  content := some (bytes "hello")

def manyMessages : List Message := (range 65).map fun n =>
  { sampleMessage (n + 1) "" with
    id := ([(n + 1) / 10, (n + 1) % 10].map fun digit => UInt8.ofNat (48 + digit)) ++ replicate 30 48 }

def laterMessage : Message := sampleMessage 66 "00000000000000000000000000000000"

def sampleTables : Database := { sessions := [⟨sampleSession, none⟩], messages := manyMessages }

def laterTables : Database := { sampleTables with messages := manyMessages ++ [laterMessage] }

def sampleStart : Loading := ⟨sampleTables, manyMessages.map (·.id), {}, [], none⟩

/-- A message comes between the two pages. -/
theorem sample_bundle :
    ∃ first second, nextQuery [first] ≠ none ∧ second.nextCursor = none ∧ first.snapshot = 65 ∧
      ReflTransGen (LoadStep sampleCodec sampleSession) sampleStart ⟨laterTables,
          laterMessage.id :: sampleStart.used, sampleTables, [first, second], none⟩ := by
  have pages : ((getMessageHistoryBundle sampleCodec {} sampleTables sampleSession {}).toOption.bind
        fun first =>
      (nextQuery [first]).bind fun query =>
        (getMessageHistoryBundle sampleCodec {} laterTables sampleSession query).toOption.map fun second =>
          (second.nextCursor, first.snapshot)) = some (none, 65) := by
    decide +kernel
  obtain ⟨first, opens, pages⟩ := Option.bind_eq_some_iff.mp pages
  obtain ⟨_, asks, pages⟩ := Option.bind_eq_some_iff.mp pages
  obtain ⟨second, resumes, ends⟩ := Option.map_eq_some_iff.mp pages
  obtain ⟨last, snapshot⟩ := Prod.mk.inj ends
  have hf : laterMessage.id ∉ sampleStart.used ∧ laterMessage.rowid = sampleTables.nextRowid := by
    decide +kernel
  have opened : LoadStep sampleCodec sampleSession sampleStart
      ⟨sampleTables, sampleStart.used, sampleTables, [first], none⟩ :=
    .answered rfl rfl (toOption_eq_some.mp opens)
  refine ⟨first, second, by simp [asks], last, snapshot, ?_⟩
  exact ((ReflTransGen.single opened).tail (.insert laterMessage hf.1 hf.2)).tail
    (.answered rfl asks (toOption_eq_some.mp resumes))

theorem bundle_snapshot_consistent_two : ∃ first second : Envelope, nextQuery [first] ≠ none ∧
    second.nextCursor = none ∧
    (first.records ++ second.records).map some = manyMessages.map sampleCodec.dump := by
  obtain ⟨first, second, more, last, snapshot, run⟩ := sample_bundle
  have hf : sampleStart.Fresh := ⟨by decide +kernel, by decide +kernel, rfl⟩
  have complete := (bundle_snapshot_consistent hf run).1 first [second] rfl (by simp [nextQuery, last])
  refine ⟨first, second, more, last, ?_⟩
  have rows : ordered (sampleTables.remaining sampleSession first.snapshot) = manyMessages := by
    rw [snapshot]
    decide +kernel
  rw [rows] at complete
  simpa using complete

end Yinshi.History
