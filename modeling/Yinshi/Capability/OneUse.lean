import Yinshi.Base.Runs
import Yinshi.Capability.Sessions

/-! A capability opens at most one session in every run whose calls come in time. -/

namespace Yinshi.Capability
open ByteText Checked Function List Option

variable {usable : Bytes → Bool} {noise : Noise}

section Call
variable {issued : List Issued} {session session' : Session} {rows rows' : List Row}
  {tokenId : Text} {expiresAt : Int} {currentTime : Nat} {message : Bytes} {outcome : Outcome}
  {verified : VerifiedRunnerCapability} {consumed : Bool} {result : Except Refusal Bytes}

theorem consume_spec (hd : consume rows tokenId expiresAt currentTime = .ok (rows', consumed)) :
    (consumed = false ∧ rows' = rows) ∨
    (consumed = true ∧ (currentTime : Int) < expiresAt ∧
      (∀ row ∈ rows, (currentTime : Int) < row.expiresAt → row.tokenId ≠ tokenId) ∧
      ∀ row, row ∈ rows' ↔
        (row ∈ rows ∧ (currentTime : Int) < row.expiresAt) ∨
        row = ⟨tokenId, expiresAt, currentTime⟩) := by
  simp only [consume, steps_ok, not_le] at hd
  obtain ⟨_, _, unexpired, result⟩ := hd
  split at result
  next =>
    cases result
    exact .inl ⟨rfl, rfl⟩
  next hf =>
    cases result
    refine .inr ⟨rfl, unexpired, fun row hl alive hs => hf ?_, fun row => by simp [Rows.mem_delete]⟩
    exact any_eq_true.mpr ⟨row, by simp [Rows.mem_delete, hl, alive], by simpa using hs⟩

theorem read_spec {payload : Bytes}
    (hd : session.readHandshakeMessage noise message = .ok (session', payload)) :
    session.firstMessageRead = false ∧ session'.firstMessageRead = true ∧
    session'.runnerId = session.runnerId ∧ session'.runnerPublicKey = session.runnerPublicKey ∧
    session'.signingKey = session.signingKey ∧ session'.capability = session.capability ∧
    session'.failed = session.failed := by
  simp only [Session.readHandshakeMessage, steps_ok, Bool.not_eq_true] at hd
  obtain ⟨first, _, _, _, _, hs⟩ := hd
  cases hs
  exact ⟨first, rfl, rfl, rfl, rfl, rfl, rfl⟩

theorem present_kept
    (hd : session.present usable noise issued message currentTime = (session', .ok verified)) :
    session'.firstMessageRead = true ∧ session'.runnerId = session.runnerId ∧
    session'.runnerPublicKey = session.runnerPublicKey ∧ session'.capability = session.capability ∧
    ∃ payload, session'.authorize usable issued payload currentTime = .ok verified := by
  unfold Session.present at hd
  split at hd
  next => cases (Prod.mk.inj hd).2
  next read payload reads =>
    obtain ⟨rfl, authorized⟩ := Prod.mk.inj hd
    obtain ⟨_, first, runner, key, _, capability, _⟩ := read_spec reads
    exact ⟨first, runner, key, capability, payload, authorized⟩

theorem present_spec
    (hd : session.present usable noise issued message currentTime = (session', .ok verified)) :
    session'.runnerId = session.runnerId ∧ session'.runnerPublicKey = session.runnerPublicKey ∧
    (currentTime : Int) < verified.expiresAt ∧
    ∃ entry ∈ issued, entry.claims.runnerId = session'.runnerId ∧
      entry.claims.runnerPublicKey = session'.runnerPublicKey ∧
      entry.claims.initiatorPublicKey = encodeBase64url session'.initiator ∧
      verified.tokenId = entry.claims.tokenId ∧ verified.expiresAt = entry.claims.expiresAt := by
  obtain ⟨_, runner, key, _, _, authorized⟩ := present_kept hd
  simp only [Session.authorize, steps_ok, not_not] at authorized
  obtain ⟨_, _, verifies, initiator, rfl⟩ := authorized
  obtain ⟨unexpired, entry, hl, _, _, runnerId, runnerKey, jti, exp, initiatorKey⟩ := verify_spec verifies
  exact ⟨runner, key, unexpired, entry, hl, runnerId, runnerKey,
    initiatorKey.symm.trans initiator.symm, jti, exp⟩

theorem present_refused {opened : Session} {refusal : Refusal} (hf : session.capability = none)
    (hd : session.present usable noise issued message currentTime = (opened, .error refusal)) :
    (opened.fail refusal).capability = none ∧
    ((opened.fail refusal).failed ∨ (opened.fail refusal).firstMessageRead) := by
  unfold Session.present at hd
  split at hd
  next refusal' reads =>
    obtain ⟨rfl, hs⟩ := Prod.mk.inj hd
    rw [← Except.error.inj hs]
    cases value : refusal'.isValue with
    | true => simp [Session.fail, value, hf]
    | false =>
      -- Only a first message that was read before is refused in this way.
      simp only [Session.readHandshakeMessage, bind_eq_error, pure, Except.pure, rejectIf_eq_error,
        orRaise_eq_error, reduceCtorEq, exists_false, and_false, or_false] at reads
      rcases reads with ⟨read, _⟩ | ⟨_, _, reads⟩
      · simp [Session.fail, value, hf, read]
      · exfalso
        rcases reads with ⟨_, rfl⟩ | ⟨_, _, ⟨_, rfl⟩ | ⟨_, _, _, rfl⟩⟩ <;> simp [Refusal.isValue] at value
  next read payload reads =>
    obtain ⟨rfl, _⟩ := Prod.mk.inj hd
    obtain ⟨_, first, _, _, _, capability, _⟩ := read_spec reads
    unfold Session.fail
    split <;> simp [capability, hf, first]

theorem present_unread
    (hd : session.present usable noise issued message currentTime = (session', .ok verified)) :
    session.firstMessageRead = false := by
  unfold Session.present at hd
  split at hd
  next => cases (Prod.mk.inj hd).2
  next read payload reads => exact (read_spec reads).1

def Stores (usable : Bytes → Bool) (noise : Noise) (issued : List Issued) (session : Session)
    (message : Bytes) (currentTime : Nat) (rows rows' : List Row) : Prop :=
  rows' = rows ∨ ∃ opened verified consumed,
    session.present usable noise issued message currentTime = (opened, .ok verified) ∧
      consume rows verified.tokenId verified.expiresAt currentTime = .ok (rows', consumed)

theorem acceptHandshake_cases
    (hd : session.acceptHandshake usable noise issued rows message currentTime outcome =
        (session', rows', result)) :
    (System.isOk result = false ∧ session'.capability = session.capability ∧
        (session.capability ≠ none → session' = session) ∧
        (session.capability = none → session'.failed ∨ session'.firstMessageRead) ∧
        Stores usable noise issued session message currentTime rows rows') ∨
    (System.isOk result = true ∧ session.capability = none ∧ session.failed = false ∧
      ∃ opened verified, session.present usable noise issued message currentTime =
            (opened, .ok verified) ∧
        consume rows verified.tokenId verified.expiresAt currentTime = .ok (rows', true) ∧
        session' = { opened with handshakeComplete := true, capability := some verified }) := by
  unfold Session.acceptHandshake at hd
  split at hd
  next used =>
    obtain ⟨rfl, rfl, rfl⟩ : session = session' ∧ rows = rows' ∧ _ = result := by simpa using hd
    refine .inl ⟨rfl, rfl, fun _ => rfl, fun none => .inl ?_, .inl rfl⟩
    simpa [none] using used
  next hu =>
    simp only [not_or, Bool.not_eq_true, isSome_eq_false_iff, isNone_iff_eq_none] at hu
    have hi : ∀ {t : Session}, session.capability ≠ none → t = session := fun some => absurd hu.2 some
    split at hd
    next opened refusal presents =>
      obtain ⟨rfl, rfl, rfl⟩ : opened.fail refusal = session' ∧ rows = rows' ∧ _ = result := by simpa using hd
      obtain ⟨capability, spent⟩ := present_refused hu.2 presents
      exact .inl ⟨rfl, capability.trans hu.2.symm, hi, fun _ => spent, .inl rfl⟩
    next opened verified presents =>
      obtain ⟨first, _, _, same, _⟩ := present_kept presents
      have hk : opened.capability = none := same.trans hu.2
      unfold Session.redeem at hd
      split at hd
      next refusal consumes =>
        obtain ⟨rfl, rfl, rfl⟩ : opened.fail refusal = session' ∧ rows = rows' ∧ _ = result := by
          simpa using hd
        refine .inl ⟨rfl, ?_, hi, fun _ => .inr ?_, .inl rfl⟩ <;> unfold Session.fail <;> split <;>
          simp [hk, hu.2, first]
      next consumes =>
        obtain ⟨rfl, rfl, rfl⟩ : opened = session' ∧ rows = rows' ∧ _ = result := by simpa using hd
        exact .inl ⟨rfl, hk.trans hu.2.symm, hi, fun _ => .inr first, .inl rfl⟩
      next hs consumed consumes =>
        obtain ⟨rfl, rfl, rfl⟩ : opened = session' ∧ hs = rows' ∧ _ = result := by simpa using hd
        exact .inl ⟨rfl, hk.trans hu.2.symm, hi, fun _ => .inr first, .inr ⟨_, _, _, presents, consumes⟩⟩
      next hs consumed consumes =>
        have stores : Stores usable noise issued session message currentTime rows hs :=
          .inr ⟨_, _, _, presents, consumes⟩
        split at hd
        next =>
          obtain ⟨rfl, rfl, rfl⟩ : _ = session' ∧ hs = rows' ∧ _ = result := by simpa using hd
          exact .inl ⟨rfl, hk.trans hu.2.symm, hi, fun _ => .inr first, stores⟩
        next first' =>
          rw [Bool.not_eq_true, Bool.not_eq_false] at first'
          split at hd
          next =>
            obtain ⟨rfl, rfl, rfl⟩ : _ = session' ∧ hs = rows' ∧ _ = result := by simpa using hd
            exact .inl ⟨rfl, hk.trans hu.2.symm, hi, fun _ => .inr first, stores⟩
          next =>
            obtain ⟨rfl, rfl, rfl⟩ : _ = session' ∧ hs = rows' ∧ _ = result := by simpa using hd
            rw [first'] at consumes
            exact .inr ⟨rfl, hu.2, hu.1, opened, verified, presents, consumes, rfl⟩

structure Session.Kept (session session' : Session) : Prop where
  capability : session'.capability = session.capability
  runnerId : session'.runnerId = session.runnerId
  runnerPublicKey : session'.runnerPublicKey = session.runnerPublicKey
  initiator : session'.initiator = session.initiator
  firstMessageRead : session'.firstMessageRead = session.firstMessageRead
  failed : session.failed → session'.failed

theorem Session.Kept.refl (session : Session) : session.Kept session := ⟨rfl, rfl, rfl, rfl, rfl, id⟩

theorem encrypt_kept (plaintext : Bytes) : session.Kept (session.encrypt noise plaintext).1 := by
  unfold Session.encrypt
  split
  · exact .refl session
  · split
    · exact ⟨rfl, rfl, rfl, rfl, rfl, fun _ => rfl⟩
    split
    · exact ⟨rfl, rfl, rfl, rfl, rfl, fun _ => rfl⟩
    · exact ⟨rfl, rfl, rfl, rfl, rfl, id⟩

theorem decrypt_kept (ciphertext : Bytes) : session.Kept (session.decrypt noise ciphertext).1 := by
  unfold Session.decrypt
  split
  · exact .refl session
  · split
    · exact ⟨rfl, rfl, rfl, rfl, rfl, fun _ => rfl⟩
    split
    · exact ⟨rfl, rfl, rfl, rfl, rfl, fun _ => rfl⟩
    split
    · exact ⟨rfl, rfl, rfl, rfl, rfl, fun _ => rfl⟩
    · exact ⟨rfl, rfl, rfl, rfl, rfl, id⟩

theorem requireTransport_spec (hd : session.requireTransport = .ok verified) :
    session.capability = some verified := by
  simp only [Session.requireTransport, steps_ok] at hd
  exact hd.2

theorem encrypt_refuses (none : session.capability = none) (plaintext : Bytes) :
    System.isOk (session.encrypt noise plaintext).2 = false := by
  unfold Session.encrypt
  split
  next => rfl
  next allowed =>
    simp only [Session.maySend, bind_eq_ok] at allowed
    obtain ⟨_, required, _⟩ := allowed
    exact absurd (requireTransport_spec required) (by simp [none])

theorem decrypt_refuses (none : session.capability = none) (ciphertext : Bytes) :
    System.isOk (session.decrypt noise ciphertext).2 = false := by
  unfold Session.decrypt
  split
  next => rfl
  next allowed =>
    simp only [Session.mayReceive, bind_eq_ok] at allowed
    obtain ⟨_, required, _⟩ := allowed
    exact absurd (requireTransport_spec required) (by simp [none])

end Call

structure Sound (s : System) : Prop where
  issued : (s.issued.map (·.claims.tokenId)).Nodup
  rows : ∀ row ∈ s.rows, ∃ entry ∈ s.issued,
      row.tokenId = entry.claims.tokenId ∧ row.expiresAt = entry.claims.expiresAt
  purged : ∀ row ∈ s.rows, ∀ clock ∈ s.clocks, (clock : Int) < row.expiresAt
  accepted : ∀ a ∈ s.accepted, ∃ session,
      s.sessions a.session = some session ∧ session.capability = some a.capability ∧
    ∃ entry ∈ s.issued, entry.claims.tokenId = a.capability.tokenId ∧
      entry.claims.expiresAt = a.capability.expiresAt ∧
      entry.claims.runnerId = session.runnerId ∧ entry.claims.runnerPublicKey = session.runnerPublicKey ∧
      entry.claims.initiatorPublicKey = encodeBase64url session.initiator ∧
        (a.currentTime : Int) < entry.claims.expiresAt
  kept : ∀ a ∈ s.accepted, (∀ clock ∈ s.clocks, (clock : Int) < a.capability.expiresAt) →
    ∃ row ∈ s.rows, row.tokenId = a.capability.tokenId
  once : (s.accepted.map (·.capability.tokenId)).Nodup
  refused : ∀ number ∈ s.refused, ∃ session, s.sessions number = some session ∧
    session.capability = none ∧ (session.failed ∨ session.firstMessageRead)
  transported : ∀ number ∈ s.transported, ∃ session,
      s.sessions number = some session ∧ session.capability ≠ none

section Steps
variable {s s' : System} {number : Nat} {session session' : Session}
variable {rows' : List Row} {call : Call}

theorem sessions_update {n : Nat} {holds : Session → Prop} (hh : s.sessions number = some session)
    (keeps : holds session → holds session') (hf : ∃ t, s.sessions n = some t ∧ holds t) :
    ∃ t, update s.sessions number (some session') n = some t ∧ holds t := by
  obtain ⟨t, ht, hk⟩ := hf
  by_cases hs : n = number
  · rw [hs] at ht ⊢
    rw [ht] at hh
    rw [some.inj hh] at hk
    exact ⟨session', update_self .., keeps hk⟩
  · exact ⟨t, by rwa [update_of_ne hs], hk⟩

theorem Sound.transport {done : Session × Except Refusal Bytes} (hs : Sound s)
    (hh : s.sessions number = some session) (hke : session.Kept done.1)
    (refuses : session.capability = none → System.isOk done.2 = false) :
    Sound (s.transport number done) where
  issued := hs.issued
  rows := hs.rows
  purged := hs.purged
  accepted a hl := by
    refine sessions_update hh (fun hk => ?_) (hs.accepted a hl)
    rw [hke.capability, hke.runnerId, hke.runnerPublicKey, hke.initiator]
    exact hk
  kept := hs.kept
  once := hs.once
  refused n hl := by
    refine sessions_update hh (fun hk => ?_) (hs.refused n hl)
    rw [hke.capability, hke.firstMessageRead]
    exact ⟨hk.1, hk.2.imp hke.failed id⟩
  transported n hl := by
    have old : ∀ m ∈ s.transported, ∃ t,
          update s.sessions number (some done.1) m = some t ∧ t.capability ≠ none := by
      intro m hm
      refine sessions_update hh (fun hk => ?_) (hs.transported m hm)
      rw [hke.capability]
      exact hk
    have hl : n ∈ if System.isOk done.2 then number :: s.transported else s.transported := hl
    split at hl
    next sent =>
      rcases mem_cons.mp hl with rfl | before
      · refine ⟨done.1, update_self .., fun none => ?_⟩
        rw [hke.capability] at none
        rw [refuses none] at sent
        cases sent
      · exact old n before
    next => exact old n hl

structure Stored (s : System) (table : List Row) (clocks : List Nat) : Prop where
  rows : ∀ row ∈ table, ∃ entry ∈ s.issued,
      row.tokenId = entry.claims.tokenId ∧ row.expiresAt = entry.claims.expiresAt
  purged : ∀ row ∈ table, ∀ clock ∈ clocks, (clock : Int) < row.expiresAt
  kept : ∀ a ∈ s.accepted, (∀ clock ∈ clocks, (clock : Int) < a.capability.expiresAt) →
    ∃ row ∈ table, row.tokenId = a.capability.tokenId

theorem Sound.consumes {clocks : List Nat} {verified : VerifiedRunnerCapability} {entry : Issued}
    {currentTime : Nat} (sound : Sound s) (hl : entry ∈ s.issued)
    (jti : verified.tokenId = entry.claims.tokenId)
    (exp : verified.expiresAt = entry.claims.expiresAt)
    (unexpired : (currentTime : Int) < verified.expiresAt)
    (timely : ∀ clock ∈ s.clocks, (clock : Int) < verified.expiresAt)
    (stored : ∀ row, row ∈ rows' ↔
        (row ∈ s.rows ∧ (currentTime : Int) < row.expiresAt) ∨
        row = ⟨verified.tokenId, verified.expiresAt, currentTime⟩) (before : s.clocks ⊆ clocks)
    (used : ∀ clock ∈ clocks, clock = currentTime ∨ clock ∈ s.clocks)
    (removes : currentTime ∈ clocks ∨ ∀ row ∈ s.rows, row ∈ rows') : Stored s rows' clocks where
  rows row hh := by
    rcases (stored row).mp hh with ⟨old, _⟩ | rfl
    · exact sound.rows row old
    · exact ⟨entry, hl, jti, exp⟩
  purged row hh clock hc := by
    rcases (stored row).mp hh with ⟨old, alive⟩ | rfl <;> rcases used clock hc with rfl | earlier
    · exact alive
    · exact sound.purged row old clock earlier
    · exact unexpired
    · exact timely clock earlier
  kept a hm alive := by
    obtain ⟨row, hh, hs⟩ := sound.kept a hm fun clock hc => alive clock (before hc)
    rcases removes with hc | hk
    · -- A row outlives the removal as the capability does.
      obtain ⟨e, issued, rowId, rowExp⟩ := sound.rows row hh
      obtain ⟨_, _, _, e', issued', accId, accExp, _⟩ := sound.accepted a hm
      have one : e = e' := Rows.eq_of_key sound.issued issued issued' (rowId.symm.trans (hs.trans accId.symm))
      have later : (currentTime : Int) < row.expiresAt := by
        rw [rowExp, one, accExp]
        exact alive currentTime hc
      exact ⟨row, (stored row).mpr (.inl ⟨hh, later⟩), hs⟩
    · exact ⟨row, hk row hh, hs⟩

theorem Sound.stored (hs : Sound s) : Stored s s.rows s.clocks := ⟨hs.rows, hs.purged, hs.kept⟩

section
variable (sound : Sound s) (timely : s.timely usable noise call session)
include sound timely

theorem Sound.stores
    (stores : Stores usable noise s.issued session call.message call.currentTime s.rows rows') :
    Stored s rows' (if s.rows.any (· ∉ rows') then call.currentTime :: s.clocks else s.clocks) := by
  have hu : rows' = s.rows →
      Stored s rows'
        (if s.rows.any (· ∉ rows') then call.currentTime :: s.clocks else s.clocks) := by
    rintro rfl
    rw [if_neg (by simp)]
    exact sound.stored
  rcases stores with hs | ⟨_, hv, _, presents, consumes⟩
  · exact hu hs
  rcases consume_spec consumes with ⟨_, hs⟩ | ⟨_, _, _, hst⟩
  · exact hu hs
  obtain ⟨_, _, unexpired, _, hl, _, _, _, jti, exp⟩ := present_spec presents
  have first : ∀ {clocks : List Nat},
        s.clocks ⊆ clocks → (∀ clock ∈ clocks, clock = call.currentTime ∨ clock ∈ s.clocks) →
      (call.currentTime ∈ clocks ∨ ∀ row ∈ s.rows, row ∈ rows') → Stored s rows' clocks :=
    sound.consumes hl jti exp unexpired (timely hv (congrArg Prod.snd presents)) hst
  split
  next => exact first (subset_cons_self _ _) (fun clock => mem_cons.mp) (.inl mem_cons_self)
  next hk =>
    refine first (Subset.refl _) (fun clock => .inr) (.inr fun row hh => ?_)
    by_contra gone
    exact hk (any_eq_true.mpr ⟨row, hh, by simpa using gone⟩)

theorem Sound.fresh {opened : Session} {verified : VerifiedRunnerCapability}
    (presents :
      session.present usable noise s.issued call.message call.currentTime = (opened, .ok verified))
    (consumes :
      consume s.rows verified.tokenId verified.expiresAt call.currentTime = .ok (rows', true)) :
    verified.tokenId ∉ s.accepted.map (·.capability.tokenId) := by
  intro used
  obtain ⟨a, hm, hs⟩ := mem_map.mp used
  obtain ⟨_, _, unexpired, entry, hl, _, _, _, jti, exp⟩ := present_spec presents
  obtain ⟨_, _, _, e, issued, accId, accExp, _⟩ := sound.accepted a hm
  have one : e = entry := Rows.eq_of_key sound.issued issued hl (accId.trans (hs.trans jti))
  have sameExp : a.capability.expiresAt = verified.expiresAt := by rw [← accExp, one, exp]
  obtain ⟨row, hh, rowId⟩ := sound.kept a hm fun clock used => by
    rw [sameExp]
    exact timely verified (congrArg Prod.snd presents) clock used
  obtain ⟨e', issued', rowId', rowExp⟩ := sound.rows row hh
  have two : e' = entry :=
    Rows.eq_of_key sound.issued issued' hl (rowId'.symm.trans (rowId.trans (hs.trans jti)))
  rcases consume_spec consumes with ⟨impossible, _⟩ | ⟨_, _, hu, _⟩
  · cases impossible
  · refine hu row hh ?_ (rowId.trans hs)
    rw [rowExp, two, ← exp]
    exact unexpired

theorem Sound.finish {outcome : Outcome} (here : s.sessions call.session = some session) :
    Sound (s.finish usable noise number call session outcome) := by
  obtain ⟨⟨session', rows', _⟩, done⟩ : ∃ done, session.acceptHandshake usable noise s.issued s.rows call.message
    call.currentTime outcome = done := ⟨_, rfl⟩
  unfold System.finish
  rw [done]
  dsimp only
  rcases acceptHandshake_cases done with ⟨hr, capability, hi, spent, stores⟩ |
    ⟨ha, hfr, sane, opened, hv, presents, consumes, rfl⟩
  · have hs := sound.stores timely stores
    rw [hr]
    simp only [Bool.false_eq_true, if_false, false_or]
    have keeps : ∀ {n : Nat} {hh : Session → Prop}, (session.capability = none → hh session → hh session') →
        (∃ t, s.sessions n = some t ∧ hh t) →
          ∃ t, update s.sessions call.session (some session') n = some t ∧ hh t := by
      intro n hh keeps hf
      refine sessions_update here (fun hk => ?_) hf
      by_cases none : session.capability = none
      · exact keeps none hk
      · rw [hi none]
        exact hk
    exact {
      issued := sound.issued
      rows := hs.rows
      purged := hs.purged
      accepted := fun a hl => keeps (fun none hk => by
        rw [none] at hk
        exact absurd hk.1 (by simp)) (sound.accepted a hl)
      kept := hs.kept
      once := sound.once
      refused := fun n hl => by
        have old : ∀ m ∈ s.refused, ∃ t,
              update s.sessions call.session (some session') m = some t ∧ t.capability = none ∧
            (t.failed ∨ t.firstMessageRead) := fun m hm =>
          keeps (fun none _ => ⟨capability.trans none, spent none⟩) (sound.refused m hm)
        split at hl
        next => exact old n hl
        next unset =>
          have none : session.capability = none := by simpa using unset
          rcases mem_cons.mp hl with rfl | before
          · exact ⟨session', update_self .., capability.trans none, spent none⟩
          · exact old n before
      transported := fun n hl => keeps (fun _ hk => by rwa [capability]) (sound.transported n hl) }
  · have stores : Stores usable noise s.issued session call.message call.currentTime s.rows rows' :=
      .inr ⟨opened, hv, true, presents, consumes⟩
    have hs := sound.stores timely stores
    have hu := sound.fresh timely presents consumes
    obtain ⟨_, _, unexpired, entry, hl, runnerId, runnerKey, initiator, jti, exp⟩ := present_spec presents
    rw [ha]
    -- Nothing was known of this session that a first acceptance could break.
    have keeps : ∀ {n : Nat} {hh : Session → Prop}, ¬ hh session →
        (∃ t, s.sessions n = some t ∧ hh t) → ∃ t, update s.sessions call.session
            (some { opened with handshakeComplete := true, capability := some hv }) n =
          some t ∧ hh t :=
      fun impossible hf => sessions_update here (fun hk => absurd hk impossible) hf
    exact {
      issued := sound.issued
      rows := hs.rows
      purged := hs.purged
      accepted := fun a hm => by
        rcases mem_cons.mp hm with rfl | before
        · refine ⟨_, update_self .., rfl, entry, hl, jti.symm, exp.symm, runnerId, runnerKey, initiator, ?_⟩
          rw [← exp]
          exact unexpired
        · refine keeps (fun hk => ?_) (sound.accepted a before)
          rw [hfr] at hk
          cases hk.1
      kept := fun a hm alive => by
        rcases mem_cons.mp hm with rfl | before
        · rcases consume_spec consumes with ⟨impossible, _⟩ | ⟨_, _, _, table⟩
          · cases impossible
          · exact ⟨_, (table _).mpr (.inr rfl), rfl⟩
        · exact hs.kept a before alive
      once := nodup_cons.mpr ⟨hu, sound.once⟩
      refused := fun n hm => keeps (fun hk => by
        rcases hk.2 with failed | read
        · exact absurd failed (by simp [sane])
        · exact absurd read (by simp [present_unread presents])) (sound.refused n hm)
      transported := fun n hm => keeps (fun hk => hk hfr) (sound.transported n hm) }

end

theorem sound_step {event : Event} (sound : Sound s) (fits : Timely usable noise s event)
    (next : s.step usable noise event = some s') : Sound s' := by
  cases event with
  | tick _ =>
    cases next
    exact ⟨sound.issued, sound.rows, sound.purged, sound.accepted, sound.kept, sound.once,
      sound.refused, sound.transported⟩
  | issue entry =>
    simp only [System.step] at next
    split at next
    next => cases next
    next hu =>
      cases next
      have hu : ∀ other ∈ s.issued, other.claims.tokenId ≠ entry.claims.tokenId := fun other hl hs =>
        hu (any_eq_true.mpr ⟨other, hl, by simp [hs]⟩)
      exact {
        issued := nodup_cons.mpr ⟨fun used => by
          obtain ⟨other, hl, hs⟩ := mem_map.mp used
          exact hu other hl hs, sound.issued⟩
        rows := fun row hh => by
          obtain ⟨e, hl, hk⟩ := sound.rows row hh
          exact ⟨e, mem_cons_of_mem _ hl, hk⟩
        purged := sound.purged
        accepted := fun a hm => by
          obtain ⟨t, ht, given, e, hl, hk⟩ := sound.accepted a hm
          exact ⟨t, ht, given, e, mem_cons_of_mem _ hl, hk⟩
        kept := sound.kept
        once := sound.once
        refused := sound.refused
        transported := sound.transported }
  | connect number _ _ _ =>
    simp only [System.step] at next
    split at next
    next => cases next
    next hf =>
      cases next
      have keeps : ∀ {n : Nat} {t' : Session} {holds : Session → Prop}, (∃ t, s.sessions n = some t ∧ holds t) →
          ∃ t, update s.sessions number (some t') n = some t ∧ holds t := by
        intro n _ _ found
        obtain ⟨t, ht, hk⟩ := found
        have other : n ≠ number := fun hs => hf (by simp [← hs, ht])
        exact ⟨t, by rwa [update_of_ne other], hk⟩
      exact {
        issued := sound.issued
        rows := sound.rows
        purged := sound.purged
        accepted := fun a hm => keeps (sound.accepted a hm)
        kept := sound.kept
        once := sound.once
        refused := fun n hm => keeps (sound.refused n hm)
        transported := fun n hm => keeps (sound.transported n hm) }
  | call number session _ =>
    simp only [System.step] at next
    split at next
    next => cases next
    next =>
      cases next
      exact ⟨sound.issued, sound.rows, sound.purged, sound.accepted, sound.kept, sound.once,
        sound.refused, sound.transported⟩
  | run number _ =>
    simp only [System.step, bind_eq_some_iff, map_eq_some_iff] at next
    obtain ⟨call, called, session, hh, rfl⟩ := next
    exact sound.finish (fits call called session hh) hh
  | encrypt number plaintext =>
    simp only [System.step, map_eq_some_iff] at next
    obtain ⟨session, hh, rfl⟩ := next
    exact sound.transport hh (encrypt_kept plaintext) fun none => encrypt_refuses none plaintext
  | decrypt _ ciphertext =>
    simp only [System.step, map_eq_some_iff] at next
    obtain ⟨_, hh, rfl⟩ := next
    exact sound.transport hh (decrypt_kept ciphertext) fun none => decrypt_refuses none ciphertext

end Steps

theorem sound_initial : Sound .initial where
  issued := nodup_nil
  rows _ here := absurd here not_mem_nil
  purged _ here := absurd here not_mem_nil
  accepted _ member := absurd member not_mem_nil
  kept _ member := absurd member not_mem_nil
  once := nodup_nil
  refused _ member := absurd member not_mem_nil
  transported _ member := absurd member not_mem_nil

theorem sound_reached {s : System} (hr : Reached usable noise (Timely usable noise) s) : Sound s := by
  induction hr with
  | initial => exact sound_initial
  | step _ hf next hs => exact sound_step hs hf next

structure UsedOnce (usable : Bytes → Bool) (noise : Noise) (s : System) : Prop where
  once : (s.accepted.map (·.capability.tokenId)).Nodup
  issued : ∀ a ∈ s.accepted, ∃ session, s.sessions a.session = some session ∧
    session.capability = some a.capability ∧
    ∃ entry ∈ s.issued, entry.claims.tokenId = a.capability.tokenId ∧
      entry.claims.expiresAt = a.capability.expiresAt ∧ entry.claims.runnerId = session.runnerId ∧
      entry.claims.runnerPublicKey = session.runnerPublicKey ∧
      entry.claims.initiatorPublicKey = encodeBase64url session.initiator ∧
      (a.currentTime : Int) < entry.claims.expiresAt
  unexpired : ∀ tokenId expiresAt currentTime rows,
    consume s.rows tokenId expiresAt currentTime = .ok (rows, true) →
    ∀ row ∈ rows, (currentTime : Int) < row.expiresAt
  fresh : ∀ call session opened verified rows, s.timely usable noise call session →
    session.present usable noise s.issued call.message call.currentTime = (opened, .ok verified) →
    verified.tokenId ∈ s.accepted.map (·.capability.tokenId) →
    consume s.rows verified.tokenId verified.expiresAt call.currentTime ≠ .ok (rows, true)
  refused : ∀ number ∈ s.refused, number ∉ s.transported ∧
    ∃ session, s.sessions number = some session ∧
      ∀ message, System.isOk (session.encrypt noise message).2 = false ∧
        System.isOk (session.decrypt noise message).2 = false

/-- Every run whose calls come in time uses a token once. -/
theorem capability_once {s : System} (reached : Reached usable noise (Timely usable noise) s) :
    UsedOnce usable noise s := by
  have hs := sound_reached reached
  refine ⟨hs.once, hs.accepted, ?_, ?_, ?_⟩
  · intro _ _ _ _ consumes row hh
    rcases consume_spec consumes with ⟨impossible, _⟩ | ⟨_, unexpired, _, stored⟩
    · cases impossible
    · rcases (stored row).mp hh with ⟨_, alive⟩ | rfl
      · exact alive
      · exact unexpired
  · exact fun _ _ _ _ _ timely presents used consumes => hs.fresh timely presents consumes used
  · intro number refused
    obtain ⟨session, hh, none, _⟩ := hs.refused number refused
    refine ⟨fun sent => ?_, session, hh,
      fun message => ⟨encrypt_refuses none message, decrypt_refuses none message⟩⟩
    obtain ⟨_, ht, some⟩ := hs.transported number sent
    rw [hh] at ht
    exact some (Option.some.inj ht ▸ none)

def exampleNoise : Noise where
  read _ message := some (message.take 32, message.drop 96)
  write _ payload := payload.map UInt8.ofNat
  encrypt _ _ plaintext := plaintext ++ List.replicate 16 0
  decrypt _ _ ciphertext := some (ciphertext.take (ciphertext.length - 16))

def exampleRunnerKey : Text := encodeBase64url (List.replicate 32 1)

def exampleEntry (token tokenId : String) (issuedAt : Int) : Issued where
  token := text token
  signingKey := List.replicate 32 0
  claims := {
    userId := text "user", runnerId := text "runner", runnerPublicKey := exampleRunnerKey
    initiatorPublicKey := encodeBase64url (List.replicate 32 2)
    transferId := text "00000000-0000-4000-8000-000000000000", tokenId := text tokenId,
    scopes := [text "terminal"]
    issuedAt := issuedAt, expiresAt := issuedAt + 300, maxFrameBytes := 65535, maxSessionBytes := 65536 }

def exampleMessage (token : String) : Bytes :=
  List.replicate 32 2 ++ List.replicate 64 0 ++ (text token).map UInt8.ofNat

def exampleConnect (number : Nat) : Event :=
  .connect number (text "runner") exampleRunnerKey (List.replicate 32 0)

def exampleCalls : List Event :=
  [.issue (exampleEntry "x" "AAAA" 0), exampleConnect 0, exampleConnect 1, .tick 10,
    .call 0 0 (exampleMessage "x"), .call 1 1 (exampleMessage "x"), .run 0 .done, .run 1 .done]

theorem timely_of_clocks {s : System} {event : Event} (hc : s.clocks = []) : Timely usable noise s event := by
  cases event <;> simp [Timely, System.timely, hc]

set_option maxRecDepth 8000 in
theorem capability_once_replayed : ∃ s : System, s.accepted.length = 1 ∧ s.refused = [1] ∧
    UsedOnce (fun _ => true) exampleNoise s := by
  have ends : (Runs.replay (System.step (fun _ => true) exampleNoise) (fun s _ => s.clocks = []) .initial
      exampleCalls).any fun s => s.accepted.length = 1 ∧ s.refused = [1] := by
    decide
  obtain ⟨s, replayed, ends⟩ := (Option.any_eq_true _ _).mp ends
  obtain ⟨used, refused⟩ := of_decide_eq_true ends
  have hr : Reached (fun _ => true) exampleNoise (Timely (fun _ => true) exampleNoise) s :=
    Runs.replay_keeps _
      (fun _ _ _ before hc next => before.step (timely_of_clocks (of_decide_eq_true hc)) next)
        .initial replayed
  exact ⟨s, used, refused, capability_once hr⟩

def staleRun : List Event :=
  [.issue (exampleEntry "x" "AAAA" 0), exampleConnect 0, exampleConnect 1, exampleConnect 2, .tick 10,
    .call 0 0 (exampleMessage "x"), .call 1 1 (exampleMessage "x"), .run 1 .done, .tick 290,
    .issue (exampleEntry "y" "AAAB" 300), .call 2 2 (exampleMessage "y"), .run 2 .done, .run 0 .done]

set_option maxRecDepth 8000 in
/-- The removal of an expired row makes its token acceptable to a call with an older clock. -/
theorem capability_twice : ¬ ∀ usable noise s, Reached usable noise (fun _ _ => True) s →
    (s.accepted.map (·.capability.tokenId)).Nodup := by
  intro once
  have twice : (Runs.replay (System.step (fun _ => true) exampleNoise) (fun _ _ => true) .initial
      staleRun).any fun s =>
      ¬ (s.accepted.map (·.capability.tokenId)).Nodup := by decide
  obtain ⟨s, runs, twice⟩ := (Option.any_eq_true _ _).mp twice
  exact of_decide_eq_true twice (once _ _ s (Runs.replay_keeps _
    (fun _ _ _ before _ next => before.step trivial next) .initial runs))

end Yinshi.Capability
