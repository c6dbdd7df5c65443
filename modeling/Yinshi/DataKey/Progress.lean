import Yinshi.DataKey.Uniqueness

/-! A call that runs alone returns a key, whatever careful calls before it have left. -/

namespace Yinshi.DataKey
open ByteText Links Links.Directory Function List Option

/-- The steps of one call while nothing else happens; a write takes the next count. -/
def System.alone (s : System) (n : Nat) : List Nat → System
  | [] => s
  | count :: counts => ((s.step (.act n count)).getD s).alone n counts

/-- What calls that have ended leave: no second link of the key, or no other temporary file. -/
def Settled (root : Root) : Prop :=
  ∀ inode, root.entry .key = some inode →
    (root.inode inode).links = 1 ∨ ∀ number, root.entry (.temporary number) ≠ none → number = inode

structure Linked (root : Root) (inode : Nat) : Prop where
  key : root.entry .key = some inode
  temporary : root.entry (.temporary inode) = some inode
  listed : temporaries root = [inode]
  links : (root.inode inode).links = 2

namespace Stage

def Track (root : Root) : Stage → Prop
  | .checking => Settled root
  | .creating => root.entry .key = none
  | .writing _ written => root.entry .key = none ∧ written < keyBytes
  | .syncing _ | .linking _ => root.entry .key = none
  | .openingRoot number | .publishing number | .unlinking number => root.entry (.temporary number) ≠ none
  | .finishing _ => True
  | .reading attempt => root.entry .key ≠ none ∧ Settled root ∧ attempt < publishReadAttempts
  | .checkingKey attempt _ => Settled root ∧ attempt < publishReadAttempts
  | .loading _ _ => True
  | .looking attempt => (∃ inode, root.entry .key = some inode ∧ (root.inode inode).links ≠ 1) ∧
      Settled root ∧ attempt < publishReadAttempts
  | .openingFinal => ∃ inode, Linked root inode
  | .checkingFinal inode => Linked root inode
  | .listing inode links => Linked root inode ∧ links = 2
  | .openingTemporary inode links names rest =>
    Linked root inode ∧ links = 2 ∧ names = [inode] ∧ rest = [inode]
  | .checkingTemporary inode links names opened rest =>
    Linked root inode ∧ links = 2 ∧ names = [inode] ∧ opened = inode ∧ rest = []
  | .readingFinal inode names => Linked root inode ∧ names = [inode]
  | .removing inode _ rest => Linked root inode ∧ rest = [inode]
  | .syncingFinal inode _ | .checkingAlone inode _ => (root.inode inode).links = 1
  | .returned _ => True
  | _ => False

def rank : Stage → Nat
  | .checking => 600
  | .creating => 590
  | .writing _ written => 550 + (keyBytes - written)
  | .syncing _ => 549
  | .linking _ => 548
  | .openingRoot _ => 547
  | .publishing _ => 546
  | .unlinking _ => 545
  | .finishing _ => 544
  | .reading attempt => 20 + 4 * (publishReadAttempts - attempt) + 3
  | .checkingKey attempt _ => 20 + 4 * (publishReadAttempts - attempt) + 2
  | .loading _ _ => 1
  | .looking attempt => 20 + 4 * (publishReadAttempts - attempt) + 1
  | .openingFinal => 10
  | .checkingFinal _ => 9
  | .listing _ _ => 8
  | .openingTemporary _ _ _ _ => 7
  | .checkingTemporary _ _ _ _ _ => 6
  | .readingFinal _ _ => 5
  | .removing _ _ _ => 4
  | .syncingFinal _ _ => 3
  | .checkingAlone _ _ => 2
  | _ => 0

end Stage

section Alone
variable {root : Root} {bytes : Bytes} {stage : Stage}

theorem mem_temporaries (hs : Sane root) {number : Nat} :
    number ∈ temporaries root ↔ root.entry (.temporary number) ≠ none := by
  simp only [temporaries, mem_filter, mem_range, isSome_iff_ne_none]
  refine ⟨And.right, fun hp => ⟨?_, hp⟩⟩
  obtain ⟨_, entry⟩ := ne_none_iff_exists'.mp hp
  have hb := hs.counted.used _ _ entry
  rwa [hs.named _ _ entry] at hb

theorem Sane.second {inode : Nat} (hs : Sane root) (key : root.entry .key = some inode)
    (more : (root.inode inode).links ≠ 1) : root.entry (.temporary inode) = some inode := by
  by_contra absent
  refine more (hs.counted.links_eq_one key fun other entry => ?_)
  cases other with
  | key => rfl
  | temporary _ =>
    obtain rfl := hs.named _ _ entry
    exact absurd entry absent

theorem Settled.linked {inode : Nat} (settled : Settled root) (hs : Sane root)
    (key : root.entry .key = some inode) (more : (root.inode inode).links ≠ 1) :
    Linked root inode := by
  have only := (settled inode key).resolve_left more
  have temporary := hs.second key more
  refine ⟨key, temporary, ?_, ?_⟩
  · have single : (temporaries root).Perm [inode] := by
      refine (perm_ext_iff_of_nodup (nodup_range.filter _) (nodup_singleton inode)).mpr fun number => ?_
      change number ∈ temporaries root ↔ _
      rw [mem_temporaries hs, mem_singleton]
      refine ⟨only number, ?_⟩
      rintro rfl
      simp [temporary]
    exact perm_singleton.mp single
  · rw [hs.counted.count]
    have names : root.namesOf inode = {.key, .temporary inode} := by
      ext name
      rw [mem_namesOf, Set.mem_insert_iff, Set.mem_singleton_iff]
      constructor
      · intro entry
        cases name with
        | key => exact .inl rfl
        | temporary _ => exact .inr (by rw [hs.named _ _ entry])
      · rintro (rfl | rfl)
        · exact key
        · exact temporary
    rw [names, Set.ncard_pair (by simp)]

theorem Stage.Track.act {count : Nat} (track : stage.Track root) (sane : Sane root)
    (fits : stage.Fits root bytes) (length : bytes.length = keyBytes) (positive : 0 < count)
    (working : stage.isWorking = true) :
    (stage.act root bytes count).2.Track (stage.act root bytes count).1 ∧
    (stage.act root bytes count).2.rank < stage.rank := by
  cases stage with
  | checking =>
    simp only [Stage.act]
    split
    next hp => exact ⟨⟨isSome_iff_ne_none.mp hp, track, by decide⟩, by simp [rank, publishReadAttempts]⟩
    next ha =>
      have hf : root.entry .key = none := by simpa using ha
      exact ⟨hf, by simp [rank]⟩
  | creating =>
    exact ⟨⟨(entry_create_of_ne (by simp)).trans track, by simp [keyBytes]⟩, by simp [Stage.act,
      rank, keyBytes]⟩
  | writing number _ =>
    obtain ⟨hf, _⟩ := track
    simp only [Stage.act, if_neg (Nat.ne_of_gt positive), length]
    split
    next => exact ⟨hf, by simp only [rank]; omega⟩
    next part => exact ⟨⟨hf, by omega⟩, by simp only [rank]; omega⟩
  | syncing number | syncingFinal inode key
  | openingRoot number | publishing number => exact ⟨track, by simp [Stage.act, rank]⟩
  | linking number =>
    simp only [Stage.act, show root.entry .key = none from track, fits.entry]
    exact ⟨by rw [Track, entry_link_of_ne (by simp), fits.entry]; simp, by simp [rank]⟩
  | unlinking number =>
    obtain ⟨inode, entry⟩ := ne_none_iff_exists'.mp track
    simp only [Stage.act, entry]
    exact ⟨trivial, by simp [rank]⟩
  | finishing _ => exact ⟨trivial, by simp [Stage.act, rank]⟩
  | reading attempt =>
    obtain ⟨hp, hs, more⟩ := track
    obtain ⟨inode, entry⟩ := ne_none_iff_exists'.mp hp
    simp only [Stage.act, entry]
    exact ⟨⟨hs, more⟩, by simp [rank]⟩
  | checkingKey attempt inode =>
    obtain ⟨hs, more⟩ := track
    simp only [Stage.act]
    split
    next => exact ⟨trivial, by simp only [rank]; omega⟩
    next links => exact ⟨⟨⟨inode, fits, links⟩, hs, more⟩, by simp [rank]⟩
  | loading attempt inode =>
    simp only [Stage.act, sane.whole inode fits, if_true]
    exact ⟨trivial, by simp [rank]⟩
  | looking _ =>
    obtain ⟨⟨inode, entry, links⟩, hs, _⟩ := track
    have linked := hs.linked sane entry links
    simp only [Stage.act, entry, linked.links]
    split
    next => omega
    next =>
      split
      next => exact ⟨⟨inode, linked⟩, by simp only [rank]; omega⟩
      next other => exact ⟨⟨by simp [entry], hs, by omega⟩, by simp only [rank]; omega⟩
  | openingFinal =>
    obtain ⟨inode, linked⟩ := track
    simp only [Stage.act, linked.key]
    exact ⟨linked, by simp [rank]⟩
  | checkingFinal inode =>
    simp only [Stage.act, sane.whole inode fits, if_true]
    exact ⟨⟨track, track.links⟩, by simp [rank]⟩
  | listing inode links =>
    obtain ⟨linked, rfl⟩ := track
    simp only [Stage.act, linked.listed, cons_ne_nil, if_false, checkNext]
    exact ⟨⟨linked, rfl, rfl, rfl⟩, by simp [rank]⟩
  | openingTemporary inode links names rest =>
    obtain ⟨linked, rfl, rfl, rfl⟩ := track
    simp only [Stage.act, linked.temporary]
    exact ⟨⟨linked, rfl, rfl, rfl, rfl⟩, by simp [rank]⟩
  | checkingTemporary inode _ names opened rest =>
    obtain ⟨linked, rfl, rfl, rfl, rfl⟩ := track
    simp only [Stage.act, sane.whole opened fits.1, linked.links, and_self, if_true, checkNext]
    exact ⟨⟨linked, rfl⟩, by simp [rank]⟩
  | readingFinal inode _ =>
    obtain ⟨linked, rfl⟩ := track
    simp only [Stage.act, sane.whole inode fits.1, if_true, removeNext]
    exact ⟨⟨linked, rfl⟩, by simp [rank]⟩
  | removing inode key _ =>
    obtain ⟨linked, rfl⟩ := track
    simp only [Stage.act, linked.temporary, removeNext]
    exact ⟨by rw [Track, links_unlink_self, linked.links], by simp [rank]⟩
  | checkingAlone inode key =>
    simp only [Stage.act, show (root.inode inode).links = 1 from track, if_true]
    exact ⟨trivial, by simp [rank]⟩
  | discarding | withdrawing | clearing | raised | stopped => exact track.elim
  | returned _ => cases working

theorem Stage.Track.ended (track : stage.Track root) (rank : stage.rank = 0) :
    ∃ key, stage = .returned key := by
  cases stage with
  | returned key => exact ⟨key, rfl⟩
  | discarding | withdrawing | clearing | raised | stopped => exact track.elim
  | _ => simp [Stage.rank] at rank

variable {s : System} {n : Nat} {call : Call}

theorem alone_ended (hf : s.calls n = some call) (he : call.stage.isWorking = false)
    (counts : List Nat) : s.alone n counts = s := by
  induction counts with
  | nil => rfl
  | cons count _ ih =>
    have rests : s.step (.act n count) = none := by simp [System.step, System.turn, hf, he]
    rw [System.alone, rests]
    exact ih

theorem alone_returns (counts : List Nat) (hs : Sane s.root) (hf : s.calls n = some call)
    (fits : call.stage.Fits s.root call.bytes) (length : call.bytes.length = keyBytes)
    (track : call.stage.Track s.root) (enough : call.stage.rank ≤ counts.length)
    (hp : ∀ count ∈ counts, 0 < count) :
    ∃ key, (s.alone n counts).calls n = some { call with stage := .returned key } := by
  induction counts generalizing s call with
  | nil =>
    obtain ⟨key, he⟩ := track.ended (Nat.le_zero.mp enough)
    exact ⟨key, by rw [System.alone, hf, ← he]⟩
  | cons count _ ih =>
    by_cases working : call.stage.isWorking = true
    · let after : Call := { call with stage := (call.stage.act s.root call.bytes count).2 }
      have step : s.step (.act n count) =
            some { s.put n after with root := (call.stage.act s.root call.bytes count).1 } := by
        simp [System.step, System.turn, hf, working, after]
      have hh : (s.put n after).calls n = some after := update_self _ _ _
      obtain ⟨next, less⟩ := track.act hs fits length (hp count (by simp)) working
      rw [System.alone, step]
      have ran := ih (s := { s.put n after with root := (call.stage.act s.root call.bytes count).1 })
        (hs.effect (Stage.act_effect _ _ count _) fits length) hh (fits.act count hs) length next
        (Nat.le_of_lt_succ (Nat.lt_of_lt_of_le less enough)) fun other hl => hp other (mem_cons_of_mem _ hl)
      exact ran
    · have he : call.stage.isWorking = false := by simpa using working
      rw [alone_ended hf he]
      have none : call.stage.rank = 0 := by
        revert he
        cases call.stage <;> simp [Stage.isWorking, Stage.rank]
      obtain ⟨key, hr⟩ := track.ended none
      exact ⟨key, by rw [hf, ← hr]⟩

end Alone

def Quiet (s : System) : Prop := ∀ n call, s.calls n = some call → call.stage.isWorking = false

theorem Sound.settled {s : System} (sound : Sound s) (hq : Quiet s) : Settled s.root := by
  intro inode key
  by_cases links : (s.root.inode inode).links = 1
  · exact .inl links
  · refine .inr fun number hp => ?_
    have abandoned : ∀ number, s.root.entry (.temporary number) ≠ none → Abandoned s number := by
      refine fun number hp => ⟨hp, fun n call hf hh => ?_⟩
      have rests := hq n call hf
      revert rests hh
      cases call.stage <;> simp [Stage.isWorking, Stage.holds]
    have second := sound.sane.second key links
    have hs := (sound.alike inode number (abandoned inode (by simp [second])) (abandoned number hp)).mp key
    exact some.inj (hs.symm.trans key)

structure OneKey (s : System) : Prop where
  same : ∀ n m call other key key', s.calls n = some call → s.calls m = some other →
    call.stage = .returned key → other.stage = .returned key' → key = key'
  stored : ∀ n call key, s.calls n = some call → call.stage = .returned key →
    key.length = keyBytes ∧
    ∃ inode, s.root.entry .key = some inode ∧ (s.root.inode inode).content = key
  returns : Quiet s → ∀ n bytes, s.calls n = none → bytes.length = keyBytes →
    ∀ counts : List Nat, 600 ≤ counts.length → (∀ count ∈ counts, 0 < count) →
      ∃ key, ((s.put n ⟨bytes, .checking⟩).alone n counts).calls n = some ⟨bytes, .returned key⟩

/-- In a careful run all calls return one key, it stays in its file, and the next call after any
calls that have ended returns a key. -/
theorem runner_data_key {s : System} (reached : Reached s) : OneKey s := by
  refine ⟨fun n m call other key key' hf hf' returned hr' => ?_, fun n call key hf returned => ?_,
    fun hq n bytes free length counts enough hp => ?_⟩
  · obtain ⟨-, _, entry, content⟩ := returned_key reached hf returned
    obtain ⟨-, _, entry', content'⟩ := returned_key reached hf' hr'
    rw [← content, ← content', some.inj (entry.symm.trans entry')]
  · exact returned_key reached hf returned
  · have hs := sound_reached reached
    exact alone_returns (s := s.put n ⟨bytes, .checking⟩) counts hs.sane
      (update_self _ _ _) trivial length (hs.settled hq) enough hp

def sampleBytes : Bytes := List.replicate 32 7

def System.run : List Event → System → Option System
  | [], s => some s
  | event :: events, s => (s.step event).bind (run events)

def otherBytes : Bytes := List.replicate 32 9

/-- Call 1 stops and leaves its temporary file; call 0 then publishes its key and returns. -/
def leftoverEvents : List Event :=
  [.call 1 otherBytes, .act 1 0, .act 1 0, .stop 1, .call 0 sampleBytes, .act 0 0, .act 0 0,
    .act 0 32, .act 0 0, .act 0 0, .act 0 0, .act 0 0, .act 0 0, .act 0 0]

theorem runner_data_key_leftover : ∃ s, System.run leftoverEvents .initial = some s ∧
    (s.root.entry (.temporary 0)).isSome ∧ (∃ inode, s.root.entry .key = some inode ∧
      (s.root.inode inode).content = sampleBytes) ∧
    ∃ key, ((s.put 2 ⟨otherBytes, .checking⟩).alone 2 (List.replicate 600 1)).calls 2 =
      some ⟨otherBytes, .returned key⟩ := by
  have next : ∀ {s s' : System} event, Reached s → Careful s event → s.step event = some s' → Reached s' :=
    fun _ before careful step => .step before careful step
  have created := next (.act 1 0) (next (.act 1 0) (next (.call 1 otherBytes) .initial trivial rfl)
    (by rintro _ _ ⟨⟩ ⟨⟩) rfl) (by rintro _ _ ⟨⟩ ⟨⟩) rfl
  have left := next (.stop 1) created (by rintro _ _ ⟨⟩ ⟨⟩ _ _ _; exact ⟨nofun, nofun⟩) rfl
  have written := next (.act 0 32) (next (.act 0 0) (next (.act 0 0)
        (next (.call 0 sampleBytes) left trivial rfl)
    (by rintro _ _ ⟨⟩ ⟨⟩) rfl) (by rintro _ _ ⟨⟩ ⟨⟩) rfl) (by rintro _ _ ⟨⟩ ⟨⟩) rfl
  have published := next (.act 0 0) (next (.act 0 0) (next (.act 0 0) (next (.act 0 0) written
    (by rintro _ _ ⟨⟩ ⟨⟩) rfl) (by rintro _ _ ⟨⟩ ⟨⟩) rfl) (by rintro _ _ ⟨⟩ ⟨⟩) rfl) (by rintro _ _ ⟨⟩ ⟨⟩) rfl
  have reached :=
    next (.act 0 0) (next (.act 0 0) published (by rintro _ _ ⟨⟩ ⟨⟩) rfl) (by rintro _ _ ⟨⟩ ⟨⟩) rfl
  obtain ⟨-, keeps, returns⟩ := runner_data_key reached
  refine ⟨_, rfl, rfl, (keeps 0 _ sampleBytes rfl rfl).2, returns ?_ 2 otherBytes rfl rfl _ ?_ ?_⟩
  · rintro (_ | _ | n) call found
    · cases found
      rfl
    · cases found
      rfl
    · cases found
  · exact Nat.le_of_eq length_replicate.symm
  · intro count hl
    rw [eq_of_mem_replicate hl]
    exact Nat.one_pos

def withdrawnEvents : List Event :=
  [.call 0 sampleBytes, .act 0 0, .act 0 0, .act 0 32, .act 0 0, .act 0 0, .call 1 sampleBytes,
    .act 1 0, .act 1 0, .fail 0, .act 0 0, .act 1 0, .act 1 0, .act 0 0]

/-- A key that was returned has no file. -/
theorem key_withdrawn :
    ¬ ∀ events s,
    System.run events .initial = some s →
    ∀ n call key,
      s.calls n = some call → call.stage = .returned key → (s.root.entry .key).isSome = true := by
  intro hk
  have ends : ((System.run withdrawnEvents .initial).any fun s =>
      s.calls 1 = some ⟨sampleBytes, .returned sampleBytes⟩ ∧ s.root.entry .key = none) = true := by decide
  cases ran : System.run withdrawnEvents .initial with
  | none =>
    rw [ran] at ends
    exact nomatch ends
  | some s =>
    rw [ran] at ends
    obtain ⟨hf, gone⟩ := of_decide_eq_true ends
    have ht := hk withdrawnEvents s ran 1 _ sampleBytes hf rfl
    rw [gone] at ht
    exact nomatch ht

end Yinshi.DataKey
