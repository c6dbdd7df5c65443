import Yinshi.Admission.Guarding

/-! Mutual exclusion. In an orderly run a claim passes and is granted only beside markers of
its own, and a marker goes only by its owner. Two runs that are not orderly end outside of
this. -/

namespace Yinshi.Admission
open ByteText Links Links.Directory Function Option

/-- What a step of an orderly run may do with leases and markers. -/
structure Proper (s : System) (event : Event) (s' : System) : Prop where
  /-- A claim goes on past the markers. -/
  passes : ∀ number call call' resume,
      s.calls number = some call → s'.calls number = some call' → call.task = .claim resume →
    (call.stage = .opening .admission ∨ ∃ inode, call.stage = .reading .admission inode) →
    (call'.stage = .creating ∨ call'.stage = .granted) →
      s.directory.entry (.marker .deletion call.key) = none ∧
      (s.directory.entry (.marker .admission call.key) = none ∨ resume ∧ Owned s.directory call)
  grants : ∀ number call call',
      s.calls number = some call → s'.calls number = some call' → call.stage ≠ .granted →
    call'.stage = .granted →
      s'.directory.entry (.marker .deletion call'.key) = none ∧ Owned s'.directory call'
  /-- A marker is gone or another one: its owner has taken it down. -/
  markers : ∀ role key inode payload, s.directory.entry (.marker role key) = some inode →
    (s.directory.inode inode).content = .whole payload →
    s'.directory.entry (.marker role key) = some inode ∧ (s'.directory.inode inode).content = .whole payload ∨
      ∃ number uuid count call, event = .act number uuid count ∧ s.calls number = some call ∧
        call.key = key ∧ call.task.role = role ∧ call.stage = .removing ∧ call.owner = payload

section Outcome
variable {s s' : System} {event : Event} {number : Nat} {call call' : Call}

theorem System.granted_of_step (next : s.step event = some s') (hf : s'.calls number = some call')
    (granted : call'.stage = .granted) :
    (∃ call, s.calls number = some call ∧ call.stage = .granted) ∨
    ∃ uuid count, event = .act number uuid count := by
  have hs : s'.calls number = s.calls number → ∃ call, s.calls number = some call ∧ call.stage = .granted :=
    fun same => ⟨call', same.symm.trans hf, granted⟩
  -- A call that is put into the table is not at its lease.
  have moves : ∀ other new, s'.calls = update s.calls other (some new) →
      (new.stage = .granted → ∃ call, s.calls other = some call ∧ call.stage = .granted) →
      ∃ call, s.calls number = some call ∧ call.stage = .granted := by
    intro other _ calls early
    rw [calls] at hf
    by_cases same : number = other
    · subst same
      rw [update_self] at hf
      rw [← some.inj hf] at granted
      exact early granted
    · rw [update_of_ne same] at hf
      exact ⟨call', hf, granted⟩
  cases event with
  | act acting uuid count =>
    by_cases same : acting = number
    · subst same
      exact .inr ⟨uuid, count, rfl⟩
    · rcases step_cases next with ⟨_, call, _, _, hn, ht, working, rfl⟩ | ⟨rest, _⟩
      · cases hn
        obtain ⟨_, acted⟩ := @act_acted s acting uuid count call ht working
        rcases acted.others number (Ne.symm same) with hk | ⟨_, _, _, hc⟩
        · exact .inl (hs hk)
        · rw [some.inj (hf.symm.trans hc)] at granted
          cases granted
      · exact absurd rfl (rest acting uuid count)
  | call other process _ _ task =>
    simp only [step] at next
    split at next
    · cases next
      refine .inl (moves _ _ rfl fun early => ?_)
      cases task <;> simp [Task.first] at early
    · cases next
  | enter other =>
    simp only [step] at next
    split at next
    · next call ht =>
        split at next
        · cases next
          refine .inl (moves _ _ rfl fun early => ?_)
          cases task : call.task <;> simp [task, Task.first] at early
        · cases next
    · cases next
  | leave other =>
    simp only [step] at next
    repeat' split at next
    all_goals cases next
    refine .inl (hs ?_)
    unfold leave
    split <;> rfl
  | close lease =>
    cases next
    rcases beside_closeLease (s := s) lease number with hk | ⟨_, _, _, hc⟩
    · exact .inl (hs hk)
    · rw [some.inj (hf.symm.trans hc)] at granted
      cases granted
  | cancel _ =>
    simp only [step] at next
    split at next
    · next call ht =>
        cases next
        unfold cancel leave at hs moves
        refine .inl ?_
        revert hs moves
        repeat' split
        · exact fun _ moves => moves _ _ rfl fun early => by cases early
        · exact fun _ moves => moves _ _ rfl fun early => ⟨call, ht, early⟩
        all_goals exact fun hs _ => hs rfl
    · cases next
  | exit _ =>
    cases next
    obtain ⟨call, ht, stopped⟩ := map_eq_some_iff.mp hf
    unfold stop at stopped
    split at stopped
    · rw [← stopped] at granted
      cases granted
    · rw [← stopped] at granted
      exact .inl ⟨call, ht, granted⟩

theorem Guarded.exclusive {other : Nat} (hg : Guarded s) (ha : Anchored s)
    (found : s.calls number = some call) (found' : s.calls other = some call')
    (granted : call.stage = .granted) (granted' : call'.stage = .granted)
    (hs : call.key = call'.key) : number = other := by
  have claims : ∀ number call, s.calls number = some call → call.stage = .granted →
        ∃ resume, call.task = .claim resume := by
    intro number call found granted
    have hf := (hg number call found).fits
    rw [granted] at hf
    cases task : call.task with
    | claim resume => exact ⟨resume, rfl⟩
    | release | publish | remove =>
      rw [task] at hf
      exact absurd hf (by simp [Task.fits])
  obtain ⟨inode, live, hh⟩ := (hg number call found).locked (claims _ _ found granted) (by rw [granted]; rfl)
  obtain ⟨inode', live', hh'⟩ :=
    (hg other call' found').locked (claims _ _ found' granted') (by rw [granted']; rfl)
  have entry := ha.live number call inode found live
  have entry' := ha.live other call' inode' found' live'
  rw [hs] at entry
  cases entry.symm.trans entry'
  exact some.inj (hh.symm.trans hh')

theorem Guard.passes {resume : Bool} {uuid count : Nat} (guard : Guard s number call) (hl : Laid s)
    (task : call.task = .claim resume)
    (own : (s.act number call uuid count).calls number = some call')
    (before : call.stage = .opening .admission ∨ ∃ inode, call.stage = .reading .admission inode)
    (after : call'.stage = .creating ∨ call'.stage = .granted) :
    s.directory.entry (.marker .deletion call.key) = none ∧
    (s.directory.entry (.marker .admission call.key) = none ∨ resume ∧ Owned s.directory call) := by
  have place := guard.place
  rcases before with hh | ⟨inode, hh⟩
  · simp only [Place, task, hh] at place
    refine ⟨place, .inl ?_⟩
    cases entry : s.directory.entry (.marker .admission call.key) with
    | none => rfl
    | some inode =>
      simp only [System.act, hh, entry, System.move, System.calls_put, update_self, some.injEq] at own
      rw [← own] at after
      exact absurd after (by simp)
  · simp only [Place, task, hh] at place
    refine ⟨place.1, .inr ?_⟩
    cases read : readMarker .admission (s.directory.inode inode).content with
    | none =>
      simp only [System.act, hh, read, System.move, System.calls_put, update_self, some.injEq] at own
      rw [← own] at after
      exact absurd after (by simp)
    | some payload =>
      simp only [System.act, hh, read, System.move, System.calls_put, update_self, some.injEq,
        Call.found, task] at own
      by_cases mine : resume ∧ payload = call.owner
      · exact ⟨mine.1, inode, place.2, mine.2 ▸ content_of_read hl.sound place.2 read⟩
      · rw [if_neg mine] at own
        rw [← own] at after
        exact absurd after (by simp)

theorem Guard.owner_of_removing {role : Role} {key : Text} {inode : Nat} {payload : Payload}
    (guard : Guard s number call) (hh : call.stage = .removing) (sameRole : call.task.role = role)
    (sameKey : call.key = key) (entry : s.directory.entry (.marker role key) = some inode)
    (content : (s.directory.inode inode).content = .whole payload) : call.owner = payload := by
  have hf := guard.fits
  have place := guard.place
  subst sameRole sameKey
  -- Both removals know the marker by its text.
  have hk : (∃ inode, s.directory.entry (.marker call.task.role call.key) = some inode ∧
      (s.directory.inode inode).content = .whole call.owner) → call.owner = payload := by
    rintro ⟨inode', entry', content'⟩
    cases entry.symm.trans entry'
    exact (Content.start.inj (content'.symm.trans content)).1
  rw [hh] at hf
  cases task : call.task with
  | release _ =>
    simp only [Place, task, hh] at place
    rw [task] at hk
    exact hk place
  | remove =>
    simp only [Place, task, hh] at place
    rw [task] at hk
    obtain ⟨inode', entry', _, content'⟩ := place
    exact hk ⟨inode', entry', content'⟩
  | claim | publish =>
    rw [task] at hf
    exact absurd hf (by simp [Task.fits])

theorem Guarded.marker_kept {role : Role} {key : Text} {inode : Nat} {payload : Payload}
    (hg : Guarded s) (laid : Laid s) (next : s.step event = some s')
    (entry : s.directory.entry (.marker role key) = some inode)
    (content : (s.directory.inode inode).content = .whole payload) :
    s'.directory.entry (.marker role key) = some inode ∧
      (s'.directory.inode inode).content = .whole payload ∨
    ∃ number uuid count call, event = .act number uuid count ∧ s.calls number = some call ∧
      call.key = key ∧ call.task.role = role ∧ call.stage = .removing ∧ call.owner = payload := by
  rcases System.step_cases next with ⟨number, call, uuid, count, rfl, hf, working, rfl⟩ | ⟨_, files⟩
  · obtain ⟨after, acted⟩ := @System.act_acted s number uuid count call hf working
    have owes := laid.owes number call hf
    have guard := hg number call hf
    by_cases turns : call.stage.isTurning ∧ Name.marker call.task.role call.key = .marker role key
    · obtain ⟨turning, hs⟩ := turns
      obtain ⟨sameRole, sameKey⟩ := Name.marker.inj hs
      have effect := acted.effect
      generalize after.stage = stage at effect
      generalize (s.act number call uuid count).directory = later at effect ⊢
      cases effect with
      | keep | refused => exact .inl ⟨entry, content⟩
      | live hh | create hh | write hh | written hh | unlink hh =>
        rw [hh] at turning
        exact absurd turning (by simp [Stage.isTurning])
      | link hh ha =>
        rw [hs, entry] at ha
        cases ha
      | remove hh _ =>
        refine .inr ⟨number, uuid, count, call, rfl, hf, sameKey, sameRole, hh, ?_⟩
        exact guard.owner_of_removing hh sameRole sameKey entry content
    · have frame := @Effect.frame _ _ _ _ role key acted.effect laid.sound owes
            fun turning hs => turns ⟨turning, hs⟩
      exact .inl ⟨frame.entry.trans entry, (frame.content inode entry).trans content⟩
  · rw [files]
    exact .inl ⟨entry, content⟩

theorem Guarded.proper (hg : Guarded s) (hl : Laid s) (ha : Anchored s) (ho : Orderly s event)
    (next : s.step event = some s') : Proper s event s' where
  passes number call call' resume found found' task before after := by
    have working : call.stage.isWorking := by rcases before with hh | ⟨inode, hh⟩ <;> rw [hh] <;> rfl
    rcases System.step_cases next with ⟨acting, other, uuid, count, rfl, ht, _, rfl⟩ | ⟨rest, _⟩
    · by_cases hs : number = acting
      · subst hs
        cases found.symm.trans ht
        exact (hg number call found).passes hl task found' before after
      · obtain ⟨_, acted⟩ := @System.act_acted s acting uuid count other ht ‹_›
        exfalso
        rcases acted.others number hs with hk | ⟨_, ht', granted, _⟩
        · cases found.symm.trans (hk.symm.trans found')
          rcases before with hh | ⟨inode, hh⟩ <;> rw [hh] at after <;> exact absurd after (by simp)
        · cases found.symm.trans ht'
          rw [granted] at working
          exact absurd working (by simp [Stage.isWorking])
    · exfalso
      rcases System.step_working next rest found working with rfl | ⟨_, ht, _, stage, _⟩
      · cases next
        have stopped : some (System.stop call.process call) = some call' := by
          have mapped := found'
          change (s.calls number).map (System.stop call.process) = some call' at mapped
          rwa [found] at mapped
        rw [← some.inj stopped, System.stop, if_pos rfl] at after
        exact absurd after (by simp)
      · cases ht.symm.trans found'
        rw [stage] at after
        rcases before with hh | ⟨_, hh⟩ <;> rw [hh] at after <;> exact absurd after (by simp)
  grants number call call' found found' fresh granted := by
    rcases System.granted_of_step next found' granted with ⟨_, ht, early⟩ | ⟨uuid, count, rfl⟩
    · cases found.symm.trans ht
      exact absurd early fresh
    · have guard' := hg.step hl ha ho next number call' found'
      rcases System.step_cases next with ⟨_, _, _, _, hn, ht, working, rfl⟩ | ⟨rest, _⟩
      · cases hn
        cases found.symm.trans ht
        obtain ⟨next', acted⟩ := @System.act_acted s number uuid count call found working
        obtain rfl := some.inj (acted.own.symm.trans found')
        have hf := guard'.fits
        have place := guard'.place
        rw [granted] at hf
        obtain ⟨_, key, _, sameTask⟩ := acted.same
        cases task : next'.task with
        | claim _ =>
          simp only [Place, task, granted] at place
          refine place ?_
          rw [System.lifecycle_act, key]
          exact (hg number call found).inside (by rw [← sameTask, task]; simp) working
        | release | publish | remove =>
          rw [task] at hf
          exact absurd hf (by simp [Task.fits])
      · exact absurd rfl (rest number uuid count)
  markers _ _ _ _ entry content := hg.marker_kept hl next entry content

end Outcome

/-- In every orderly run at most one lease of a key is open, and every step is proper. -/
theorem admission_exclusive {s : System} (reached : Reached Orderly s) :
    (∀ number other call call', s.calls number = some call → s.calls other = some call' →
        call.stage = .granted → call'.stage = .granted → call.key = call'.key → number = other) ∧
    ∀ event s', Orderly s event → s.step event = some s' → Proper s event s' := by
  refine ⟨fun number other call call' hf hf' granted granted' hs => ?_, fun event s' ho next => ?_⟩
  · exact reached.guarded.exclusive reached.anchored hf hf' granted granted' hs
  · exact reached.guarded.proper reached.laid reached.anchored ho next

def sampleDeletion : Payload := ⟨List.replicate 64 98, List.replicate 32 99, .deletion⟩

def otherDeletion : Payload := ⟨List.replicate 64 98, List.replicate 32 100, .deletion⟩

def acts (number uuid : Nat) : List Event :=
  [.act number uuid 0, .act number uuid 0, .act number uuid 1024, .act number uuid 0,
    .act number uuid 0, .act number uuid 0, .act number uuid 0, .leave number]

def overlappingEvents : List Event :=
  .call 0 0 sampleKey sampleDeletion .publish :: .enter 0 :: acts 0 7 ++
    [.call 1 1 sampleKey sampleDeletion .remove, .call 2 2 sampleKey sampleDeletion .remove,
      .act 1 0 0, .act 1 0 0, .act 1 0 0, .act 2 0 0, .act 2 0 0, .act 2 0 0, .act 2 0 0] ++
    .call 3 3 sampleKey otherDeletion .publish :: .enter 3 :: acts 3 8

def overlapping : System := (System.initial.run overlappingEvents).getD .initial

def abandonedEvents : List Event :=
  [.call 0 0 sampleKey sampleDeletion .publish, .enter 0, .act 0 7 0, .cancel 0,
    .call 1 1 sampleKey sampleOwner (.claim false), .enter 1, .act 1 8 0, .act 1 8 0, .act 1 8 0,
      .act 1 8 0, .act 1 8 0,
    .act 1 8 0, .act 1 8 1024, .act 1 8 0, .act 1 8 0, .act 0 7 0, .act 0 7 1024, .act 0 7 0]

def abandoned : System := (System.initial.run abandonedEvents).getD .initial

set_option maxRecDepth 4000

/-- A removal takes down the marker of another owner, and a lease is granted beside a deletion
marker. -/
theorem admission_broken :
    (∃ s event s', Reached (fun _ _ => True) s ∧ s.step event = some s' ∧
        ∃ key inode, s.directory.entry (.marker .deletion key) = some inode ∧
          (s.directory.inode inode).content = .whole otherDeletion ∧
          s'.directory.entry (.marker .deletion key) = none ∧ ¬ Proper s event s') ∧
    ∃ s event s', Reached (fun _ _ => True) s ∧ s.step event = some s' ∧
      ∃ number key, StandsAt number .granted s' ∧
        s'.directory.entry (.marker .deletion key) ≠ none ∧ ¬ Proper s event s' := by
  refine ⟨?_, ?_⟩
  · have hr := Reached.initial.run (fun _ _ _ => trivial)
          (run_getD (by decide : (System.initial.run overlappingEvents).isSome))
    obtain ⟨last, next⟩ : ∃ last, overlapping.step (.act 1 0 0) = some last :=
      isSome_iff_exists.mp (by decide)
    have entry : overlapping.directory.entry (.marker .deletion sampleKey) = some 1 := by decide
    have content : (overlapping.directory.inode 1).content = .whole otherDeletion := by decide
    have gone : last.directory.entry (.marker .deletion sampleKey) = none := by
      have read : (overlapping.step (.act 1 0 0)).map
              (fun s => s.directory.entry (.marker .deletion sampleKey)) = some none := by
        decide
      rw [next] at read
      exact some.inj read
    refine ⟨overlapping, .act 1 0 0, last, hr, next, sampleKey, 1, entry, content, gone, fun proper => ?_⟩
    rcases proper.markers .deletion sampleKey 1 otherDeletion entry
      content with ⟨hs, _⟩ | ⟨_, _, _, call, hn, hf, _, _, _, owner⟩
    · cases hs.symm.trans gone
    · cases hn
      have own : (overlapping.calls 1).map (fun call => call.owner) = some sampleDeletion := by decide
      rw [hf] at own
      have mine : call.owner = sampleDeletion := some.inj own
      exact absurd (mine.symm.trans owner) (by decide)
  · have hr := Reached.initial.run (fun _ _ _ => trivial)
          (run_getD (by decide : (System.initial.run abandonedEvents).isSome))
    obtain ⟨last, next⟩ : ∃ last, abandoned.step (.act 1 8 0) = some last :=
      isSome_iff_exists.mp (by decide)
    obtain ⟨call, hf⟩ : ∃ call, abandoned.calls 1 = some call := isSome_iff_exists.mp (by decide)
    have early : (abandoned.calls 1).map (fun call => call.stage) = some .syncing := by decide
    have grants : (abandoned.step (.act 1 8 0)).map
          (fun s => (s.calls 1).map fun call => (call.stage, call.key)) =
        some (some (.granted, sampleKey)) := by decide
    have stands : (abandoned.step (.act 1 8 0)).map
          (fun s => (s.directory.entry (.marker .deletion sampleKey)).isSome) =
        some true := by decide
    rw [next] at grants stands
    rw [hf] at early
    obtain ⟨call', hf', same⟩ := map_eq_some_iff.mp (some.inj grants)
    obtain ⟨granted, key⟩ := Prod.mk.inj same
    have hp : last.directory.entry (.marker .deletion sampleKey) ≠ none :=
      isSome_iff_ne_none.mp (some.inj stands)
    refine ⟨abandoned, .act 1 8 0, last, hr, next, 1, sampleKey, ⟨call', hf', granted⟩, hp, fun proper => ?_⟩
    have syncing : call.stage = .syncing := some.inj early
    have clear := (proper.grants 1 call call' hf hf' (by rw [syncing]; simp) granted).1
    rw [key] at clear
    exact hp clear

/-! A run in which there are claims only. -/

def Event.claims : Event → Bool
  | .call _ _ _ _ (.claim _) => true
  | .call _ _ _ _ _ => false
  | _ => true

def ClaimsOnly (s : System) : Prop :=
  ∀ number call, s.calls number = some call → ∃ resume, call.task = .claim resume

theorem orderly_of_claims {s : System} {event : Event} (claims : ClaimsOnly s) : Orderly s event where
  shielded number call _ found task := by
    obtain ⟨resume, claim⟩ := claims number call found
    cases claim.symm.trans task
  single number _ _ call _ found task := by
    obtain ⟨_, claim⟩ := claims number call found
    cases claim.symm.trans task

theorem ClaimsOnly.step {s s' : System} {event : Event} (claims : ClaimsOnly s) (hl : Laid s)
    (hst : event.claims) (next : s.step event = some s') : ClaimsOnly s' := by
  intro number new hf
  rcases System.step_cases next with ⟨acting, call, uuid, count, _, ht, working, rfl⟩ | ⟨rest, _⟩
  · obtain ⟨_, acted⟩ := @System.act_acted s acting uuid count call ht working
    by_cases hsa : number = acting
    · subst hsa
      cases acted.own.symm.trans hf
      rw [acted.same.2.2.2]
      exact claims number call ht
    · rcases acted.others number hsa with hk | ⟨old, before, _, after⟩
      · exact claims number new (hk.symm.trans hf)
      · rw [some.inj (hf.symm.trans after)]
        exact claims number old before
  · by_cases hs : event.starts number
    · cases event with
      | call _ _ _ _ task =>
        simp only [System.step] at next
        split at next
        · cases next
          simp only [Event.starts, beq_iff_eq] at hs
          subst hs
          simp only [System.calls_put, update_self, some.injEq] at hf
          rw [← hf]
          cases task with
          | claim resume => exact ⟨resume, rfl⟩
          | release | publish | remove => exact absurd hst (by simp [Event.claims])
        · cases next
      | enter | act | leave | close | cancel | exit => exact absurd hs (by simp [Event.starts])
    · cases old : s.calls number with
      | none =>
        have ha := step_absent next old (by simpa using hs)
        cases hf.symm.trans ha
      | some _ =>
        rcases System.step_follows hl next rest number new hf with ⟨before, ht, ⟨_, _, _, task⟩, _⟩ | ⟨ha, _⟩
        · rw [task]
          exact claims number before ht
        · cases old.symm.trans ha

theorem reached_of_claims {events : List Event} (claims : ∀ event ∈ events, event.claims) :
    ∀ {s last : System}, Reached Orderly s → ClaimsOnly s → s.run events = some last →
      Reached Orderly last ∧ ClaimsOnly last := by
  induction events with
  | nil =>
    intro s last hr only ran
    rw [← some.inj ran]
    exact ⟨hr, only⟩
  | cons event _ ih =>
    intro _ _ hr only ran
    obtain ⟨_, next, ran'⟩ := bind_eq_some_iff.mp ran
    refine ih (fun event hl => claims event (by simp [hl])) (hr.step (orderly_of_claims only) next) ?_ ran'
    exact only.step hr.laid (claims event (by simp)) next

def contendedEvents : List Event :=
  closingEvents.take 12 ++ [.call 1 1 sampleKey sampleOwner (.claim false)]

/-- A claim is granted while another one waits: no other lease is open, and the next steps are
proper. -/
theorem admission_exclusive_sample :
    (System.initial.run contendedEvents).isSome ∧
    ∀ s ∈ System.initial.run contendedEvents,
      StandsAt 0 .granted s ∧ StandsAt 1 .waiting s ∧
      (∀ other call,
        s.calls other = some call → call.stage = .granted → call.key = sampleKey → other = 0) ∧
      ∀ event s', s.step event = some s' → Proper s event s' := by
  have ran : (System.initial.run contendedEvents).isSome := by decide
  refine ⟨ran, fun s hh => ?_⟩
  have stage : (System.initial.run contendedEvents).map
        (fun s => (s.calls 0).map fun call => (call.stage, call.key)) =
      some (some (.granted, sampleKey)) := by decide
  have second : (System.initial.run contendedEvents).map
      (fun s => (s.calls 1).map (·.stage)) = some (some .waiting) := by decide
  rw [mem_def.mp hh] at stage second
  obtain ⟨call, hf, hs⟩ := map_eq_some_iff.mp (some.inj stage)
  obtain ⟨granted, key⟩ := Prod.mk.inj hs
  obtain ⟨hr, only⟩ := reached_of_claims (by decide) Reached.initial
      (fun _ _ ha => absurd ha (by simp [System.initial])) hh
  obtain ⟨exclusive, proper⟩ := admission_exclusive hr
  refine ⟨⟨call, hf, granted⟩, map_eq_some_iff.mp (some.inj second),
    fun other call' hf' granted' key' => ?_, fun event s' next => ?_⟩
  · exact exclusive other 0 call' call hf' hf granted' granted (key'.trans key.symm)
  · exact proper event s' (orderly_of_claims only) next

end Yinshi.Admission
