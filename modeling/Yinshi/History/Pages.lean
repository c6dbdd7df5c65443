import Yinshi.History.Snapshot

/-! The page endpoint: keyset pages of the metadata of a session's messages, against the unpaged
endpoint. -/

namespace Yinshi.History
open ByteText Encodings Keyed Checked List

def pageLimit : Nat := 64
def pageBytesMax : Nat := 262144

structure PageMessage where
  id : Bytes
  createdAt : Bytes
  sessionId : Bytes
  role : Bytes
  contentLength : Option Nat
  fullMessageLength : Option Nat
  turnId : Option Bytes
  turnStatus : Option Bytes
  deriving DecidableEq

def utf8CharacterLength (value : Bytes) : Nat := value.countP fun byte => byte < 128 ∨ 192 ≤ byte

def Message.metadata (row : Message) : PageMessage :=
  ⟨row.id, row.createdAt, row.sessionId, row.role, row.content.map utf8CharacterLength,
    row.fullMessage.map utf8CharacterLength, row.turnId, row.turnStatus⟩

structure Page where
  messages : List PageMessage
  nextCursor : Option Bytes

/-- `get_messages`: equal times stay in the order of insertion. -/
def getMessages (db : Database) (sessionId : Bytes) : List Message :=
  sortBy (fun row => (toLex (row.createdAt, row.rowid) : Bytes ×ₗ Nat)) (db.messagesOf sessionId)

def pageRows (db : Database) (sessionId : Bytes) (cursor : Option Key) : List Message :=
  (ordered ((db.messagesOf sessionId).filter fun row => ∀ key ∈ cursor, key < row.key)).take (pageLimit + 1)

section Pages
variable (codec : Codec) (metadataBytes : PageMessage → Nat) (request : Request) (db : Database)
  (sessionId : Bytes)

/-- The loop over the rows; `metadataBytes` is the size of the JSON of a row. -/
def pageOf (rows : List Message) : Except HistoryError Page := do
  let count := boundedFront pageBytesMax 0 (fun row : Message => metadataBytes row.metadata) 0 32
      (rows.take pageLimit)
  rejectIf (rows ≠ [] ∧ count = 0) (.runtime "message history metadata exceeded the size limit")
  let nextCursor ← nextCursorAfter rows count
  pure ⟨(rows.take count).map Message.metadata, nextCursor⟩

def messageHistoryPage (cursor : Option Key) : Except HistoryError Page := do
  checkSession request db sessionId
  pageOf metadataBytes (pageRows db sessionId cursor)

def getMessageHistoryPage (cursor : Option Bytes) : Except HistoryError Page := do
  rejectIf (∃ text ∈ cursor, text = [] ∨ 128 < text.length) .unprocessable
  let decoded ← cursor.mapM (decodeMessageHistoryCursor codec)
  messageHistoryPage metadataBytes request db sessionId decoded

/-- The messages of the pages from a cursor on; nothing when the fuel does not last. -/
def followPages : (fuel : Nat) → Option Bytes → Except HistoryError (Option (List PageMessage))
  | 0, _ => pure none
  | fuel + 1, cursor => do
    let page ← getMessageHistoryPage codec metadataBytes request db sessionId cursor
    match page.nextCursor with
    | none => pure (some page.messages)
    | some next =>
      let rest ← followPages fuel (some next)
      pure (rest.map (page.messages ++ ·))

end Pages

/-- A session that the request may read, with the ids, row ids and times that SQLite gives its
messages. -/
structure Pageable (codec : Codec) (request : Request) (db : Database) (sessionId : Bytes) : Prop where
  allowed : checkSession request db sessionId = .ok ()
  ids : (db.messages.map (·.id)).Nodup
  rowids : (db.messages.map (·.rowid)).Nodup
  hexIds : ∀ row ∈ db.messagesOf sessionId, ∃ raw, unhex row.id = some raw ∧ raw.length = 16
  times : ∀ row ∈ db.messagesOf sessionId,
      codec.isTimestamp row.createdAt = true ∧ 1 ≤ row.createdAt.length ∧ row.createdAt.length ≤ 64

theorem fits_of_boundedFront {α : Type} {limit separator : Nat} {size : α → Nat} {x : α}
    (count bytes : Nat) (xs : List α)
    (hm : x ∈ xs.take (boundedFront limit separator size count bytes xs)) :
    bytes + size x ≤ limit := by
  induction xs generalizing count bytes with
  | nil => simp at hm
  | cons y _ ih =>
    rw [boundedFront] at hm
    by_cases full : limit < bytes + (if count = 0 then 0 else separator) + size y
    · simp [full] at hm
    · simp only [full, if_false, take_succ_cons] at hm
      rcases mem_cons.mp hm with rfl | hm
      · omega
      · have later := ih _ _ hm
        omega

/-- A cursor that lets the next page begin after the first `count` messages. -/
def Resumes (rows : List Message) (count : Nat) (cursor : Option Bytes) : Prop :=
  count = 0 ∧ cursor = none ∨ 1 ≤ count ∧ ∃ row text, rows[count - 1]? = some row ∧
    encodeMessageHistoryCursor row.createdAt row.id = .ok text ∧ cursor = some text

section Keyset
variable {metadataBytes : PageMessage → Nat}

def Fits (metadataBytes : PageMessage → Nat) (row : Message) : Prop :=
  32 + metadataBytes row.metadata ≤ pageBytesMax

theorem pageOf_full {first : Message} {rest : List Message} (hl : ¬ Fits metadataBytes first) :
    pageOf metadataBytes ((first :: rest).take (pageLimit + 1)) =
      .error (.runtime "message history metadata exceeded the size limit") := by
  have none : boundedFront pageBytesMax 0 (fun row : Message => metadataBytes row.metadata) 0 32
      (((first :: rest).take (pageLimit + 1)).take pageLimit) = 0 := by
    simpa [pageLimit, boundedFront, Fits] using hl
  unfold pageOf
  rw [none]
  rfl

variable {codec : Codec} {request : Request} {db : Database} {sessionId : Bytes}
variable (pageable : Pageable codec request db sessionId)
include pageable

theorem Pageable.distinct : ((db.messagesOf sessionId).map Message.key).Nodup :=
  keys_nodup (pageable.ids.sublist (filter_sublist.map _))

theorem Pageable.sorted :
    (ordered (db.messagesOf sessionId)).Pairwise fun first second => first.key < second.key :=
  pairwise_lt_of_nodup (nodup_keys_sortBy.mpr pageable.distinct) pairwise_sortBy

theorem Pageable.encodes {row : Message} (hm : row ∈ db.messagesOf sessionId) :
    ∃ text, encodeMessageHistoryCursor row.createdAt row.id = .ok text := by
  obtain ⟨raw, isRaw, length⟩ := pageable.hexIds row hm
  obtain ⟨-, long, short⟩ := pageable.times row hm
  refine ⟨base64Url ([1, UInt8.ofNat row.createdAt.length] ++ row.createdAt ++ raw), ?_⟩
  simp only [encodeMessageHistoryCursor, steps_ok, not_or, not_lt, not_not]
  exact ⟨⟨long, short⟩, raw, isRaw, length, rfl⟩

theorem Pageable.page_eq {count : Nat} {cursor : Option Bytes}
    (resumes : Resumes (ordered (db.messagesOf sessionId)) count cursor) :
    getMessageHistoryPage codec metadataBytes request db sessionId cursor =
      pageOf metadataBytes
        (((ordered (db.messagesOf sessionId)).drop count).take (pageLimit + 1)) := by
  unfold getMessageHistoryPage messageHistoryPage
  rw [pageable.allowed]
  obtain ⟨rfl, rfl⟩ | ⟨hp, row, text, hr, encoded, rfl⟩ := resumes
  · have rows : pageRows db sessionId none =
          ((ordered (db.messagesOf sessionId)).drop 0).take (pageLimit + 1) := by simp [pageRows]
    rw [← rows]
    rfl
  · obtain ⟨filled, short⟩ := encode_length encoded
    have hm : row ∈ db.messagesOf sessionId := mem_sortBy.mp (mem_of_getElem? hr)
    have decoded := decode_of_encode encoded (pageable.times row hm).1
    have rows : pageRows db sessionId (some row.key) =
          ((ordered (db.messagesOf sessionId)).drop count).take (pageLimit + 1) := by
      have ha := filter_above pageable.sorted hr
      rw [Nat.sub_add_cancel hp] at ha
      rw [pageRows, ← ha]
      congr 1
      simpa [ordered] using sortBy_filter pageable.distinct fun other => decide (row.key < other.key)
    have hi : ¬ ∃ other ∈ some text, other = [] ∨ 128 < other.length := by simp [filled, short]
    rw [← rows, rejectIf, if_neg hi, Option.mapM_some, decoded]
    rfl

theorem Pageable.pageOf_ok {count : Nat} {first : Message} {rest : List Message}
    (isRest : (ordered (db.messagesOf sessionId)).drop count = first :: rest)
    (hs : Fits metadataBytes first) :
    ∃ added next, pageOf metadataBytes ((first :: rest).take (pageLimit + 1)) =
          .ok ⟨((first :: rest).take added).map Message.metadata, next⟩ ∧ 1 ≤ added ∧
      (∀ row ∈ (first :: rest).take added, Fits metadataBytes row) ∧
      (next = none ∧ (first :: rest).length ≤ added ∨
        ∃ text, next = some text ∧
          Resumes (ordered (db.messagesOf sessionId)) (count + added) (some text)) := by
  let added := boundedFront pageBytesMax 0 (fun row : Message => metadataBytes row.metadata) 0 32
      ((first :: rest).take pageLimit)
  have cut : ((first :: rest).take (pageLimit + 1)).take pageLimit = (first :: rest).take pageLimit := by
    rw [take_take, Nat.min_eq_left (Nat.le_succ _)]
  have hb : added ≤ ((first :: rest).take pageLimit).length := boundedFront_le _ _ _
  rw [length_take] at hb
  have hp : 1 ≤ added := by
    by_contra none
    have hl := boundedFront_eq_zero (Nat.lt_one_iff.mp (not_le.mp none))
    unfold Fits at hs
    omega
  have shown : ((first :: rest).take (pageLimit + 1)).take added = (first :: rest).take added := by
    rw [take_take, Nat.min_eq_left (by omega)]
  have fit : ∀ row ∈ (first :: rest).take added, Fits metadataBytes row := by
    intro row _
    refine @fits_of_boundedFront _ _ 0 (fun row : Message => metadataBytes row.metadata) _ 0 32
      ((first :: rest).take pageLimit) ?_
    rwa [take_take, Nat.min_eq_left (by omega)]
  have page : ∀ next, nextCursorAfter ((first :: rest).take (pageLimit + 1)) added = .ok next →
      pageOf metadataBytes ((first :: rest).take (pageLimit + 1)) =
        .ok ⟨((first :: rest).take added).map Message.metadata, next⟩ := by
    intro _ cursor
    unfold pageOf
    rw [cut]
    change (do
      rejectIf (_ ∧ added = 0) _
      let nextCursor ← nextCursorAfter _ added
      pure (Page.mk ((((first :: rest).take (pageLimit + 1)).take added).map Message.metadata) nextCursor)) = _
    rw [cursor, shown, rejectIf, if_neg fun none => by omega]
    rfl
  by_cases all : (first :: rest).length ≤ added
  · refine ⟨added, none, page none ?_, hp, fit, .inl ⟨rfl, all⟩⟩
    refine if_neg (not_lt.mpr ?_)
    simp only [length_take]
    omega
  · have hi : added - 1 < (first :: rest).length := by omega
    have hr : (ordered (db.messagesOf sessionId))[count + added - 1]? = some (first :: rest)[added - 1] := by
      rw [Nat.add_sub_assoc hp, ← getElem?_drop, isRest, getElem?_eq_getElem hi]
    obtain ⟨text, encoded⟩ := pageable.encodes (mem_sortBy.mp (mem_of_getElem? hr))
    refine ⟨added, some text, page (some text) ?_, hp, fit,
      .inr ⟨text, rfl, .inr ⟨by omega, _, text, hr, encoded, rfl⟩⟩⟩
    have hw : added < (((first :: rest).take (pageLimit + 1)).take (bundlePageLimit + 1)).length := by
      simp only [length_take, pageLimit, bundlePageLimit] at hb ⊢
      omega
    rw [nextCursorAfter, if_pos hw, getElem?_take_of_lt (by omega), getElem?_eq_getElem hi]
    change some <$> encodeMessageHistoryCursor _ _ = _
    rw [encoded]
    rfl

theorem Pageable.followPages_eq {fuel count : Nat} {cursor : Option Bytes}
    (resumes : Resumes (ordered (db.messagesOf sessionId)) count cursor)
    (enough : ((ordered (db.messagesOf sessionId)).drop count).length < fuel) :
    ((∀ row ∈ (ordered (db.messagesOf sessionId)).drop count, Fits metadataBytes row) →
      followPages codec metadataBytes request db sessionId fuel cursor =
        .ok (some (((ordered (db.messagesOf sessionId)).drop count).map Message.metadata))) ∧
    ((∃ row ∈ (ordered (db.messagesOf sessionId)).drop count, ¬ Fits metadataBytes row) →
      followPages codec metadataBytes request db sessionId fuel cursor =
        .error (.runtime "message history metadata exceeded the size limit")) := by
  induction fuel generalizing count cursor with
  | zero => omega
  | succ fuel ih =>
    rw [followPages, pageable.page_eq resumes]
    cases isRest : (ordered (db.messagesOf sessionId)).drop count with
    | nil => exact ⟨fun _ => rfl, fun ⟨row, hm, _⟩ => absurd hm not_mem_nil⟩
    | cons first rest =>
      by_cases hs : Fits metadataBytes first
      · obtain ⟨added, _, page, _, fit, ends⟩ := pageable.pageOf_ok isRest hs
        rw [page]
        rcases ends with ⟨rfl, all⟩ | ⟨_, rfl, onward⟩
        · rw [take_of_length_le all] at fit ⊢
          exact ⟨fun _ => rfl, fun ⟨row, hm, hl⟩ => absurd (fit row hm) hl⟩
        · have later : (ordered (db.messagesOf sessionId)).drop (count + added) =
                (first :: rest).drop added := by
            rw [← isRest, drop_drop]
          have shorter : ((ordered (db.messagesOf sessionId)).drop (count + added)).length < fuel := by
            rw [isRest] at enough
            rw [later, length_drop]
            simp only [length_cons] at enough ⊢
            omega
          obtain ⟨loads, raises⟩ := ih onward shorter
          rw [later] at loads raises
          refine ⟨fun hf => ?_, fun ⟨row, hm, hl⟩ => ?_⟩
          · have loaded := loads fun row hm => hf row (mem_of_mem_drop hm)
            simp only [loaded, bind, Except.bind]
            rw [Option.map_some, ← map_append, take_append_drop]
            rfl
          · have behind : row ∈ (first :: rest).drop added := by
              rw [← take_append_drop added (first :: rest)] at hm
              exact (mem_append.mp hm).resolve_left fun early => hl (fit row early)
            simp only [raises ⟨row, behind, hl⟩, bind, Except.bind]
      · rw [pageOf_full hs]
        exact ⟨fun hf => absurd (hf first (mem_cons_self ..)) hs, fun _ => rfl⟩

theorem Pageable.same_order_iff :
    ordered (db.messagesOf sessionId) = getMessages db sessionId ↔
    ∀ first ∈ db.messagesOf sessionId, ∀ second ∈ db.messagesOf sessionId,
      first.createdAt = second.createdAt → first.rowid < second.rowid → first.id < second.id := by
  have inserted : (getMessages db sessionId).Pairwise fun first second =>
      first.createdAt < second.createdAt ∨
        first.createdAt = second.createdAt ∧ first.rowid ≤ second.rowid := by
    have hso : (getMessages db sessionId).Pairwise fun first second =>
      (toLex (first.createdAt, first.rowid) : Bytes ×ₗ Nat) ≤
          toLex (second.createdAt, second.rowid) := pairwise_sortBy
    exact hso.imp fun le => Prod.Lex.toLex_le_toLex.mp le
  constructor
  · intro hs first hf second isSecond tie before
    rw [← hs] at inserted
    have ties := List.Pairwise.forall_of_forall_of_flip
      (R := fun a b : Message => a.rowid < b.rowid → a.createdAt = b.createdAt → a.id < b.id)
        (fun _ _ less => absurd less (lt_irrefl _))
      (pageable.sorted.imp fun less _ tie => ?_) (inserted.imp fun hh less tie => ?_)
    · exact ties (mem_sortBy.mpr hf) (mem_sortBy.mpr isSecond) before tie
    · exact (Prod.Lex.toLex_lt_toLex.mp less).elim (fun less => absurd tie less.ne) And.right
    · rcases hh with less' | ⟨_, le⟩
      · exact absurd tie less'.ne'
      · omega
  · intro ties
    refine eq_of_sorted_perm (sortBy_perm.trans sortBy_perm.symm)
      (nodup_keys_sortBy.mpr pageable.distinct) pairwise_sortBy ?_
    refine (inserted.imp_of_mem fun {first second} hf isSecond hh => ?_)
    have hf' := mem_sortBy.mp hf
    have isSecond' := mem_sortBy.mp isSecond
    refine Prod.Lex.toLex_le_toLex.mpr (hh.imp_right fun ⟨tie, le⟩ => ⟨tie, ?_⟩)
    rcases le.lt_or_eq with less | hs
    · exact (ties first hf' second isSecond' tie less).le
    · rw [key_inj_of_nodup pageable.rowids (mem_filter.mp hf').1 (mem_filter.mp isSecond').1 hs]

theorem history_pages_follow_keys {fuel : Nat} (enough : (db.messagesOf sessionId).length < fuel) :
    ((∀ row ∈ db.messagesOf sessionId, Fits metadataBytes row) →
        followPages codec metadataBytes request db sessionId fuel none =
          .ok (some ((ordered (db.messagesOf sessionId)).map Message.metadata))) ∧
    ((∃ row ∈ db.messagesOf sessionId, ¬ Fits metadataBytes row) →
      followPages codec metadataBytes request db sessionId fuel none =
        .error (.runtime "message history metadata exceeded the size limit")) ∧
    (ordered (db.messagesOf sessionId) = getMessages db sessionId ↔
      ∀ first ∈ db.messagesOf sessionId, ∀ second ∈ db.messagesOf sessionId,
        first.createdAt = second.createdAt → first.rowid < second.rowid →
        first.id < second.id) := by
  obtain ⟨loads, raises⟩ := @Pageable.followPages_eq metadataBytes codec request db sessionId
        pageable fuel 0 none (.inl ⟨rfl, rfl⟩)
    (by rwa [drop_zero, ordered, length_sortBy])
  rw [drop_zero] at loads raises
  exact ⟨fun hf => loads fun row hm => hf row (mem_sortBy.mp hm),
    fun long => raises (long.imp fun _ h => ⟨mem_sortBy.mpr h.1, h.2⟩), pageable.same_order_iff⟩

end Keyset

theorem sample_pageable : Pageable sampleCodec {} laterTables sampleSession where
  allowed := by decide +kernel
  ids := by decide +kernel
  rowids := by decide +kernel
  hexIds := by decide +kernel
  times := by decide +kernel

theorem history_pages_follow_keys_two :
    followPages sampleCodec (fun _ => 200) {} laterTables sampleSession 1 none = .ok none ∧
    followPages sampleCodec (fun _ => 200) {} laterTables sampleSession 67 none =
      .ok (some ((laterMessage :: manyMessages).map Message.metadata)) := by
  have rows : ordered (laterTables.messagesOf sampleSession) = laterMessage :: manyMessages := by
    decide +kernel
  rw [← rows]
  exact ⟨by decide +kernel, (history_pages_follow_keys sample_pageable (by decide +kernel)).1
    fun _ _ => (by decide : 32 + 200 ≤ 262144)⟩

def twoTables : Database :=
    { sampleTables with messages := [sampleMessage 1 "fedcba9876543210fedcba9876543210",
  sampleMessage 2 "0123456789abcdef0123456789abcdef"] }

/-- A question and its answer of the same second, shown the other way round. -/
theorem pages_swap_equal_times :
    followPages sampleCodec (fun _ => 200) {} twoTables sampleSession 3 none ≠
      .ok (some ((getMessages twoTables sampleSession).map Message.metadata)) := by
  decide +kernel

end Yinshi.History
