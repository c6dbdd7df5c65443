import Yinshi.Orchestration.Channel

/-! Every promise of a channel is settled once: an entry is pending, with its timer, until then. -/

namespace Yinshi.Orchestration
open ByteText Function List Option

namespace Channel
variable {settlement : Settlement}

structure Sound (channel : Channel) : Prop where
  unmade : ∀ number, channel.calls ≤ number → channel.entries number = none ∧ channel.promises number = []
  distinct : ∀ first second one two, channel.entries first = some one →
    channel.entries second = some two → one.requestId = two.requestId → first = second
  pending : ∀ id number, (id, number) ∈ channel.pending ↔ ∃ entry,
    channel.entries number = some entry ∧ entry.requestId = id ∧ entry.settled = false
  keys : (channel.pending.map Prod.fst).Nodup
  unsettled : ∀ number entry, channel.entries number = some entry → entry.settled = false →
    entry.timer = true ∧ channel.promises number = []
  settled : ∀ number < channel.calls, (∀ entry, channel.entries number = some entry → entry.settled = true) →
    (channel.promises number).length = 1
  closed : channel.closed = true → channel.pending = []
  bounded : channel.pending.length ≤ orchestrationPendingMax
  ids : ∀ number entry, channel.entries number = some entry → entry.requestId.length = 36

variable {channel : Channel} {number : Nat}

theorem settle_of_settled {entry : Entry} (hf : channel.entries number = some entry)
    (hs : entry.settled = true) : channel.settle number settlement = channel := by
  rw [settle, hf]
  simp only [hs, if_true]

theorem settle_of_unsettled {entry : Entry} (hf : channel.entries number = some entry)
    (hu : entry.settled = false) : channel.settle number settlement = { channel with
      pending := channel.pending.filter (· ≠ (entry.requestId, number))
      entries := update channel.entries number
        (some { entry with settled := true, timer := false, listening := false })
      promises := update channel.promises number (channel.promises number ++ [settlement]) } := by
  rw [settle, hf]
  simp only [hu, Bool.false_eq_true, if_false]

section Unsettled
variable {entry : Entry} {settlement : Settlement}

section
variable (hf : channel.entries number = some entry) (hu : entry.settled = false)
include hf hu

theorem settle_pending :
    (channel.settle number settlement).pending =
      channel.pending.filter (· ≠ (entry.requestId, number)) := by
  rw [settle_of_unsettled hf hu]

theorem settle_entries_self :
    (channel.settle number settlement).entries number =
    some { entry with settled := true, timer := false, listening := false } := by
  rw [settle_of_unsettled hf hu]
  exact update_self ..

theorem settle_promises_self :
    (channel.settle number settlement).promises number =
    channel.promises number ++ [settlement] := by
  rw [settle_of_unsettled hf hu]
  exact update_self ..

end

end Unsettled

theorem settle_of_ne {other : Nat} (settlement : Settlement) (ha : other ≠ number) :
    (channel.settle number settlement).entries other = channel.entries other ∧
    (channel.settle number settlement).promises other = channel.promises other := by
  unfold settle
  split
  · exact ⟨rfl, rfl⟩
  · split
    · exact ⟨rfl, rfl⟩
    · exact ⟨update_of_ne ha .., update_of_ne ha ..⟩

theorem settle_cases (channel : Channel) (number : Nat) (settlement : Settlement) :
    channel.settle number settlement = channel ∧
      (∀ entry, channel.entries number = some entry → entry.settled = true) ∨
    ∃ entry, channel.entries number = some entry ∧ entry.settled = false := by
  cases hf : channel.entries number with
  | none => exact .inl ⟨by rw [settle, hf], by simp⟩
  | some entry =>
    cases hs : entry.settled with
    | true => exact .inl ⟨settle_of_settled hf hs, by simp [hs]⟩
    | false => exact .inr ⟨entry, rfl, hs⟩

@[simp] theorem settle_closed : (channel.settle number settlement).closed = channel.closed := by
  unfold settle
  split
  · rfl
  · split <;> rfl

@[simp] theorem settle_calls : (channel.settle number settlement).calls = channel.calls := by
  unfold settle
  split
  · rfl
  · split <;> rfl

theorem settle_close (channel : Channel) (number : Nat) (settlement : Settlement) :
    Channel.settle { channel with closed := true } number settlement =
      { channel.settle number settlement with closed := true } := by
  cases hf : channel.entries number with
  | none => simp only [settle, hf]
  | some entry =>
    cases hs : entry.settled with
    | true => simp only [settle, hf, hs, if_true]
    | false => simp only [settle, hf, hs, Bool.false_eq_true, if_false]

theorem settle_all_close (channel : Channel) (numbers : List Nat) (settlement : Settlement) :
    numbers.foldl (fun rest number => rest.settle number settlement)
        { channel with closed := true } =
      { numbers.foldl (fun rest number => rest.settle number settlement) channel with
        closed := true } := by
  induction numbers generalizing channel with
  | nil => rfl
  | cons _ _ ih => rw [foldl_cons, foldl_cons, settle_close, ih]

theorem settle_entries (channel : Channel) (number : Nat) (settlement : Settlement) {other : Nat}
    {after : Entry} (hh : (channel.settle number settlement).entries other = some after) :
    ∃ before, channel.entries other = some before ∧ before.requestId = after.requestId ∧
      (after.settled = false → before = after) := by
  by_cases hs : other = number
  swap
  · rw [(settle_of_ne settlement hs).1] at hh
    exact ⟨after, hh, rfl, fun _ => rfl⟩
  subst hs
  rcases channel.settle_cases other settlement with ⟨unchanged, -⟩ | ⟨entry, hf, hu⟩
  · rw [unchanged] at hh
    exact ⟨after, hh, rfl, fun _ => rfl⟩
  · rw [settle_entries_self hf hu, some.injEq] at hh
    subst hh
    exact ⟨entry, hf, rfl, nofun⟩

theorem refusal_eq_none {call : Call} (ha : channel.refusal call = none) :
    channel.closed = false ∧ channel.pending.length < orchestrationPendingMax := by
  unfold refusal at ha
  split at ha
  · exact nomatch ha
  next isOpen =>
    split at ha
    · exact nomatch ha
    · split at ha
      · exact nomatch ha
      · split at ha
        · exact nomatch ha
        · split at ha
          · exact nomatch ha
          next room => exact ⟨Bool.eq_false_iff.mpr isOpen, Nat.lt_of_not_le room⟩

namespace Sound

theorem lt_calls (hs : channel.Sound) {entry : Entry} (hf : channel.entries number = some entry) :
    number < channel.calls := by
  by_contra above
  simp [(hs.unmade number (Nat.le_of_not_lt above)).1] at hf

theorem settle (sound : channel.Sound) (number : Nat) (settlement : Settlement) :
    (channel.settle number settlement).Sound := by
  rcases channel.settle_cases number settlement with ⟨hs, -⟩ | ⟨entry, hf, hu⟩
  · rw [hs]
    exact sound
  have hm := sound.lt_calls hf
  refine ⟨?_, ?_, ?_, ?_, ?_, ?_, ?_, ?_, ?_⟩
  · intro other above
    rw [settle_calls] at above
    have ha : other ≠ number := Nat.ne_of_gt (Nat.lt_of_lt_of_le hm above)
    rw [(settle_of_ne settlement ha).1, (settle_of_ne settlement ha).2]
    exact sound.unmade other above
  · intro first second _ _ isOne isTwo hs
    obtain ⟨one', isOne', sameOne, -⟩ := channel.settle_entries number settlement isOne
    obtain ⟨two', isTwo', sameTwo, -⟩ := channel.settle_entries number settlement isTwo
    exact sound.distinct first second one' two' isOne' isTwo' (sameOne.trans (hs.trans sameTwo.symm))
  · intro _ other
    rw [settle_pending hf hu, mem_filter, sound.pending]
    by_cases hs : other = number
    · subst hs
      simp only [hf, settle_entries_self hf hu, some.injEq, decide_eq_true_eq, ne_eq, Prod.mk.injEq, and_true]
      constructor
      · rintro ⟨⟨_, rfl, rfl, -⟩, ha⟩
        exact absurd rfl ha
      · rintro ⟨_, rfl, -, free⟩
        exact nomatch free
    · simp [(settle_of_ne settlement hs).1, hs]
  · rw [settle_pending hf hu]
    exact sound.keys.sublist (filter_sublist.map _)
  · intro other after hh free
    by_cases hs : other = number
    · subst hs
      rw [settle_entries_self hf hu, some.injEq] at hh
      simp [← hh] at free
    · rw [(settle_of_ne settlement hs).1] at hh
      rw [(settle_of_ne settlement hs).2]
      exact sound.unsettled other after hh free
  · intro other hb past
    rw [settle_calls] at hb
    by_cases hs : other = number
    · subst hs
      rw [settle_promises_self hf hu, (sound.unsettled other entry hf hu).2]
      rfl
    · rw [(settle_of_ne settlement hs).1] at past
      rw [(settle_of_ne settlement hs).2]
      exact sound.settled other hb past
  · intro hc
    rw [settle_closed] at hc
    rw [settle_pending hf hu, sound.closed hc]
    rfl
  · rw [settle_pending hf hu]
    exact Nat.le_trans (length_filter_le _ _) sound.bounded
  · intro other _ hh
    obtain ⟨before, was, hs, -⟩ := channel.settle_entries number settlement hh
    exact hs ▸ sound.ids other before was

theorem enter (sound : channel.Sound) {call : Call} (accepted : channel.refusal call = none)
    (isId : call.requestId.length = 36)
    (fresh :
      ∀ number entry, channel.entries number = some entry → entry.requestId ≠ call.requestId) :
    (channel.enter call).Sound := by
  obtain ⟨isOpen, room⟩ := refusal_eq_none accepted
  have unmade := sound.unmade channel.calls (Nat.le_refl _)
  have unknown : ∀ row ∈ channel.pending, row.1 ≠ call.requestId := by
    intro row hl
    obtain ⟨entry, hf, hs, -⟩ := (sound.pending row.1 row.2).mp hl
    exact hs ▸ fresh row.2 entry hf
  have pending : (channel.enter call).pending = channel.pending ++ [(call.requestId, channel.calls)] := by
    refine congrArg (· ++ _) (filter_eq_self.mpr fun row hl => ?_)
    simpa using unknown row hl
  have hh : (channel.enter call).entries channel.calls =
        some ⟨call.requestId, call.signal.isSome, true, false⟩ :=
    update_self ..
  have ht : ∀ {other}, other ≠ channel.calls →
      (channel.enter call).entries other = channel.entries other := fun ha => update_of_ne ha ..
  have hb : ∀ {other}, other < (channel.enter call).calls → other ≠ channel.calls → other < channel.calls :=
    fun hw ha => Nat.lt_of_le_of_ne (Nat.le_of_lt_succ hw) ha
  refine ⟨?_, ?_, ?_, ?_, ?_, ?_, ?_, ?_, ?_⟩
  · intro other above
    rw [ht (Nat.ne_of_gt above)]
    exact sound.unmade other (Nat.le_of_succ_le above)
  · intro first second one two isOne isTwo hs
    by_cases isFirst : first = channel.calls <;> by_cases isSecond : second = channel.calls
    · exact isFirst.trans isSecond.symm
    · subst isFirst
      rw [ht isSecond] at isTwo
      rw [hh, some.injEq] at isOne
      subst isOne
      exact absurd hs.symm (fresh second two isTwo)
    · subst isSecond
      rw [ht isFirst] at isOne
      rw [hh, some.injEq] at isTwo
      subst isTwo
      exact absurd hs (fresh first one isOne)
    · rw [ht isFirst] at isOne
      rw [ht isSecond] at isTwo
      exact sound.distinct first second one two isOne isTwo hs
  · intro _ other
    rw [pending, mem_append, mem_singleton, sound.pending]
    by_cases hn : other = channel.calls
    · subst hn
      constructor
      · rintro (⟨_, hf, -⟩ | hs)
        · cases unmade.1.symm.trans hf
        · cases hs
          exact ⟨_, hh, rfl, rfl⟩
      · rintro ⟨entry, hf, rfl, -⟩
        rw [hh, some.injEq] at hf
        exact .inr (hf ▸ rfl)
    · simp [ht hn, hn]
  · rw [pending, map_append]
    refine nodup_append.mpr ⟨sound.keys, nodup_singleton _, ?_⟩
    rintro _ hl _ hn rfl
    obtain ⟨row, old, hs⟩ := mem_map.mp hl
    exact unknown row old (hs.trans (mem_singleton.mp hn))
  · intro other entry hf free
    by_cases hn : other = channel.calls
    · subst hn
      rw [hh, some.injEq] at hf
      exact ⟨hf ▸ rfl, unmade.2⟩
    · rw [ht hn] at hf
      exact sound.unsettled other entry hf free
  · intro other hw hse
    by_cases hn : other = channel.calls
    · subst hn
      exact nomatch hse _ hh
    · rw [ht hn] at hse
      exact sound.settled other (hb hw hn) hse
  · intro hc
    exact absurd (isOpen.symm.trans hc) Bool.false_ne_true
  · rw [pending, length_append]
    exact room
  · intro other entry hf
    by_cases hn : other = channel.calls
    · subst hn
      rw [hh, some.injEq] at hf
      exact hf ▸ isId
    · rw [ht hn] at hf
      exact sound.ids other entry hf

theorem refuse (sound : channel.Sound) (error : RpcError) :
    Sound { channel with promises := update channel.promises channel.calls [.rejected error]
                         calls := channel.calls + 1 } := by
  refine ⟨?_, sound.distinct, sound.pending, sound.keys, ?_, ?_, sound.closed, sound.bounded, sound.ids⟩
  · intro other ha
    refine ⟨(sound.unmade other (Nat.le_of_succ_le ha)).1, ?_⟩
    exact (update_of_ne (Nat.ne_of_gt ha) ..).trans (sound.unmade other (Nat.le_of_succ_le ha)).2
  · intro other entry hf free
    have apart := Nat.ne_of_lt (sound.lt_calls hf)
    exact ⟨(sound.unsettled other entry hf free).1,
      (update_of_ne apart ..).trans (sound.unsettled other entry hf free).2⟩
  · intro other hw hs
    by_cases hn : other = channel.calls
    · subst hn
      show (update channel.promises channel.calls _ channel.calls).length = 1
      rw [update_self]
      rfl
    · show (update channel.promises channel.calls _ other).length = 1
      rw [update_of_ne hn]
      exact sound.settled other (Nat.lt_of_le_of_ne (Nat.le_of_lt_succ hw) hn) hs

theorem settle_all (sound : channel.Sound) (numbers : List Nat) (settlement : Settlement) :
    let after := numbers.foldl (fun rest number => rest.settle number settlement) channel
    after.Sound ∧ after.calls = channel.calls ∧ ∀ number entry, after.entries number = some entry →
      (∃ before, channel.entries number = some before ∧ before.requestId = entry.requestId ∧
        (entry.settled = false → before = entry)) ∧ (number ∈ numbers → entry.settled = true) := by
  induction numbers generalizing channel with
  | nil => exact ⟨sound, rfl, fun number entry found => ⟨⟨entry, found, rfl, fun _ => rfl⟩, nofun⟩⟩
  | cons first _ ih =>
    obtain ⟨after, calls, entries⟩ := ih (sound.settle first settlement)
    refine ⟨after, calls.trans settle_calls, fun number entry found => ?_⟩
    obtain ⟨⟨middle, isMiddle, sameMiddle, hs⟩, later⟩ := entries number entry found
    obtain ⟨before, isBefore, sameBefore, alsoStays⟩ := channel.settle_entries first settlement isMiddle
    refine ⟨⟨before, isBefore, sameBefore.trans sameMiddle, fun hf => ?_⟩, fun hl => ?_⟩
    · obtain rfl := hs hf
      exact alsoStays hf
    · rcases mem_cons.mp hl with rfl | other
      · by_contra hf
        obtain rfl := hs (Bool.eq_false_iff.mpr hf)
        rcases channel.settle_cases number settlement with ⟨same, hse⟩ | ⟨_, found', hu⟩
        · rw [same] at isMiddle
          exact hf (hse middle isMiddle)
        · rw [settle_entries_self found' hu, some.injEq] at isMiddle
          exact hf (isMiddle ▸ rfl)
      · exact later other

theorem dispose (sound : channel.Sound) : channel.dispose.Sound := by
  unfold Channel.dispose
  split
  · exact sound
  obtain ⟨after, -, entries⟩ := sound.settle_all (channel.pending.map Prod.snd) (.rejected .disconnected)
  simp only [settle_all_close]
  generalize (channel.pending.map Prod.snd).foldl
    (fun rest number => rest.settle number (.rejected .disconnected))
    channel = last at after entries
  have past : ∀ number entry, last.entries number = some entry → entry.settled = true := by
    intro number entry found
    by_contra hf
    obtain ⟨⟨before, isBefore, -, stays⟩, hs⟩ := entries number entry found
    obtain rfl := stays (Bool.eq_false_iff.mpr hf)
    have hl := (sound.pending before.requestId number).mpr ⟨before, isBefore, rfl, Bool.eq_false_iff.mpr hf⟩
    exact hf (hs (mem_map.mpr ⟨_, hl, rfl⟩))
  refine ⟨after.unmade, after.distinct, ?_, nodup_nil, after.unsettled, after.settled, fun _ => rfl,
    Nat.zero_le _, after.ids⟩
  intro _ number
  refine ⟨nofun, ?_⟩
  rintro ⟨entry, found, -, hf⟩
  exact absurd (past number entry found) (by simp [hf])

end Sound

def Later (channel next : Channel) : Prop :=
  ∀ number entry, channel.entries number = some entry →
    ∃ left, next.entries number = some left ∧ left.requestId = entry.requestId

theorem later_settle (channel : Channel) (number : Nat) (settlement : Settlement) :
    channel.Later (channel.settle number settlement) := by
  intro other entry hf
  by_cases hs : other = number
  · subst hs
    rcases channel.settle_cases other settlement with ⟨unchanged, -⟩ | ⟨_, hf', hu⟩
    · exact ⟨entry, unchanged.symm ▸ hf, rfl⟩
    · cases hf.symm.trans hf'
      exact ⟨_, settle_entries_self hf hu, rfl⟩
  · exact ⟨entry, (settle_of_ne settlement hs).1.trans hf, rfl⟩

theorem Later.trans {first second third : Channel} (front : first.Later second)
    (back : second.Later third) : first.Later third := by
  intro number entry hf
  obtain ⟨middle, isMiddle, hs⟩ := front number entry hf
  obtain ⟨last, hl, also⟩ := back number middle isMiddle
  exact ⟨last, hl, also.trans hs⟩

theorem later_dispose (channel : Channel) : channel.Later channel.dispose := by
  have all : ∀ (numbers : List Nat) (channel : Channel),
      channel.Later (numbers.foldl (fun rest number => rest.settle number (.rejected .disconnected))
          channel) := by
    intro numbers
    induction numbers with
    | nil => exact fun channel number entry hf => ⟨entry, hf, rfl⟩
    | cons first _ ih => exact fun channel => (channel.later_settle first _).trans (ih _)
  unfold dispose
  split
  · exact fun number entry hf => ⟨entry, hf, rfl⟩
  · exact all (channel.pending.map Prod.snd) { channel with closed := true }

theorem later_handleFrame (channel : Channel) (frame : Frame) (frameBytes : Option Nat) :
    channel.Later (channel.handleFrame frame frameBytes) := by
  unfold handleFrame
  split
  · exact fun number entry hf => ⟨entry, hf, rfl⟩
  · split
    · exact fun number entry hf => ⟨entry, hf, rfl⟩
    · exact channel.later_settle _ _

theorem Sound.handleFrame (hs : channel.Sound) (frame : Frame) (frameBytes : Option Nat) :
    (channel.handleFrame frame frameBytes).Sound := by
  unfold Channel.handleFrame
  split
  · exact hs
  · split
    · exact hs
    · exact hs.settle _ _

section Request
variable {call : Call}

theorem request_cases (channel : Channel) (call : Call) :
    (∃ error, channel.refusal call = some error ∧
        channel.request call =
          ({ channel with
            promises := update channel.promises channel.calls [.rejected error], calls := channel.calls + 1 },
            none)) ∨
    channel.refusal call = none ∧
    (call.sends = true ∧
      channel.request call = (channel.enter call, some (channel.requestFrame call)) ∨
      call.sends = false ∧
      channel.request call =
        ((channel.enter call).settle channel.calls (.rejected .sendFailed), none)) := by
  cases hr : channel.refusal call with
  | some error => exact .inl ⟨error, rfl, by rw [request, hr]⟩
  | none =>
    refine .inr ⟨rfl, ?_⟩
    cases sends : call.sends with
    | true => exact .inl ⟨rfl, by simp only [request, hr, sends, if_true]⟩
    | false => exact .inr ⟨rfl, by simp only [request, hr, sends, Bool.false_eq_true, if_false]⟩

theorem later_enter (hs : channel.Sound) : channel.Later (channel.enter call) := by
  intro _ entry hf
  exact ⟨entry, (update_of_ne (Nat.ne_of_lt (hs.lt_calls hf)) ..).trans hf, rfl⟩

theorem later_request (hs : channel.Sound) (call : Call) : channel.Later (channel.request call).1 := by
  rcases channel.request_cases call with ⟨_, -, hm⟩ | ⟨-, ⟨-, hm⟩ | ⟨-, hm⟩⟩
  · rw [hm]
    exact fun number entry hf => ⟨entry, hf, rfl⟩
  · rw [hm]
    exact later_enter hs
  · rw [hm]
    exact (later_enter hs).trans (later_settle _ _ _)

theorem Sound.request (hs : channel.Sound) (isId : call.requestId.length = 36)
    (hf : ∀ number entry, channel.entries number = some entry → entry.requestId ≠ call.requestId) :
    (channel.request call).1.Sound := by
  rcases channel.request_cases call with ⟨error, -, hm⟩ | ⟨ha, ⟨-, hm⟩ | ⟨-, hm⟩⟩
  · rw [hm]
    exact hs.refuse error
  · rw [hm]
    exact hs.enter ha isId hf
  · rw [hm]
    exact (hs.enter ha isId hf).settle _ _

end Request

end Channel

end Yinshi.Orchestration
