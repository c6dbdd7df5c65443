import Yinshi.Stopping.Coordinator

/-! A stop request finds the run it is meant for, as long as no release removes the registration
of another run. -/

namespace Yinshi.Stopping
open Function Option

variable {κ : Type} [DecidableEq κ] {sessionId : κ} {s s' : Session κ}

def Phase.holds : Phase → Bool
  | reserved | registered | ended => true
  | finalized | released | gone => false

def Phase.stores : Phase → Bool
  | registered | ended | finalized => true
  | reserved | released | gone => false

def Phase.left : Phase → Bool
  | released | gone => true
  | reserved | registered | ended | finalized => false

structure Inv (sessionId : κ) (s : Session κ) : Prop where
  claimed : ∀ run, ∀ phase ∈ s.phase run, phase.holds = true → s.status = .running ∧ s.turn = some run
  own : ∀ run, s.phase run = some .registered →
      ∃ object ∈ s.stored sessionId,
        s.coordinator.objects[object]? = some (RegisteredRun.mk run false)
  stored : ∀ object ∈ s.stored sessionId, ∃ run, s.coordinator.objects[object]? =
          some (RegisteredRun.mk run false) ∧ ∃ phase ∈ s.phase run, phase.stores = true
  left : ∀ object run : Nat, s.coordinator.objects[object]? = some (RegisteredRun.mk run true) →
      ∃ phase ∈ s.phase run, phase.left = true

omit [DecidableEq κ] in
theorem Inv.initial : Inv sessionId (.initial : Session κ) where
  claimed _ _ := nofun
  own _ := nofun
  stored _ := nofun
  left _ _ := nofun

omit [DecidableEq κ] in
theorem Inv.alone (inv : Inv sessionId s) {run run' : Nat} {phase phase' : Phase}
    (here : s.phase run = some phase) (hh : phase.holds = true) (here' : s.phase run' = some phase')
    (hh' : phase'.holds = true) : run = run' := by
  have turn := (inv.claimed run phase here hh).2
  have turn' := (inv.claimed run' phase' here' hh').2
  exact Option.some.inj (turn.symm.trans turn')

section Moves
variable {run : Nat} {old new : Phase} {status : Status}

theorem phase_update {phases : Nat → Option Phase} {other : Nat} {phase : Phase}
    (ht : update phases run (some new) other = some phase) :
    other = run ∧ phase = new ∨ other ≠ run ∧ phases other = some phase := by
  by_cases hs : other = run
  · subst hs
    rw [update_self] at ht
    exact .inl ⟨rfl, (some.inj ht).symm⟩
  · rw [update_of_ne hs] at ht
    exact .inr ⟨hs, ht⟩

theorem exists_phase_update {phases : Nat → Option Phase} {other : Nat} {holds : Phase → Bool}
    (hk : ∀ old ∈ phases run, holds old = true → holds new = true)
    (ht : ∃ phase ∈ phases other, holds phase = true) :
    ∃ phase ∈ update phases run (some new) other, holds phase = true := by
  obtain ⟨phase, hf, hh⟩ := ht
  by_cases hs : other = run
  · subst hs
    exact ⟨new, by rw [update_self]; rfl, hk phase hf hh⟩
  · exact ⟨phase, by rwa [update_of_ne hs], hh⟩

omit [DecidableEq κ] in
theorem Inv.move (inv : Inv sessionId s) (here : s.phase run = some old) (ha : new ≠ .registered)
    (claims : new.holds = true → old.holds = true) (stores : old.stores = true → new.stores = true)
    (leaves : old.left = true → new.left = true)
    (hk : status = s.status ∨ old.holds = true ∧ new.holds = false) :
    Inv sessionId { s with status := status, phase := update s.phase run (some new) } where
  claimed other phase ht hho := by
    rcases phase_update ht with ⟨rfl, rfl⟩ | ⟨hd, ht'⟩
    · rcases hk with rfl | ⟨-, free⟩
      · exact inv.claimed other old here (claims hho)
      · exact nomatch free.symm.trans hho
    · rcases hk with rfl | ⟨hh, -⟩
      · exact inv.claimed other phase ht' hho
      · exact absurd (inv.alone ht' hho here hh) hd
  own other ht := by
    rcases phase_update ht with ⟨-, hs⟩ | ⟨-, ht⟩
    · exact absurd hs.symm ha
    · exact inv.own other ht
  stored object ht := by
    obtain ⟨other, entry, phase⟩ := inv.stored object ht
    exact ⟨other, entry,
      exists_phase_update (fun _ hf => Option.some.inj (here.symm.trans hf) ▸ stores) phase⟩
  left object other ht := exists_phase_update
      (fun _ hf => Option.some.inj (here.symm.trans hf) ▸ leaves) (inv.left object other ht)

end Moves

omit [DecidableEq κ] in
theorem Inv.reserve (inv : Inv sessionId s) {run : Nat} (fresh : s.phase run = none)
    (hi : s.status = .idle) :
    Inv sessionId { s with
        status := .running, turn := some run, phase := update s.phase run (some .reserved) } where
  claimed other phase ht hh := by
    rcases phase_update ht with ⟨rfl, -⟩ | ⟨-, ht⟩
    · exact ⟨rfl, rfl⟩
    · exact nomatch hi.symm.trans (inv.claimed other phase ht hh).1
  own other ht := by
    rcases phase_update ht with ⟨-, hs⟩ | ⟨-, ht⟩
    · exact nomatch hs
    · exact inv.own other ht
  stored object ht := by
    obtain ⟨other, entry, phase⟩ := inv.stored object ht
    exact ⟨other, entry, exists_phase_update (fun _ hf => nomatch fresh.symm.trans hf) phase⟩
  left object other ht :=
    exists_phase_update (fun _ hf => nomatch fresh.symm.trans hf) (inv.left object other ht)

theorem Inv.register (inv : Inv sessionId s) {run : Nat} (here : s.phase run = some .reserved) :
    Inv sessionId { s with
        coordinator := s.coordinator.register sessionId run,
        phase := update s.phase run (some .registered) } where
  claimed other phase ht hh := by
    rcases phase_update ht with ⟨rfl, -⟩ | ⟨-, ht⟩
    · exact inv.claimed other _ here rfl
    · exact inv.claimed other phase ht hh
  own other ht := by
    rcases phase_update ht with ⟨rfl, -⟩ | ⟨hd, ht⟩
    · exact ⟨_, update_self .., List.getElem?_concat_length⟩
    · exact absurd (inv.alone ht rfl here rfl) hd
  stored object ht := by
    obtain rfl : s.coordinator.objects.length = object := some.inj (Coordinator.register_runs.symm.trans ht)
    exact ⟨run, List.getElem?_concat_length, .registered, update_self .., rfl⟩
  left object other ht := by
    have old := (Coordinator.of_register ht).resolve_right fun hs => nomatch (RegisteredRun.mk.inj hs).2
    exact exists_phase_update (fun _ hf => some.inj (here.symm.trans hf) ▸ id) (inv.left object other old)

theorem Inv.release (inv : Inv sessionId s) {run : Nat} (here : s.phase run = some .finalized)
    (ho : Orderly sessionId s (.release run)) :
    Inv sessionId { s with
        coordinator := s.coordinator.release sessionId,
        phase := update s.phase run (some .released) } where
  claimed other phase ht hh := by
    rcases phase_update ht with ⟨-, rfl⟩ | ⟨-, ht⟩
    · exact nomatch hh
    · exact inv.claimed other phase ht hh
  own other ht := by
    rcases phase_update ht with ⟨-, same⟩ | ⟨hd, ht⟩
    · exact nomatch same
    · obtain ⟨object, hs, entry⟩ := inv.own other ht
      exact absurd (ho object hs _ entry) hd
  stored object ht := nomatch Coordinator.release_runs.symm.trans ht
  left object other ht := by
    have hf := Coordinator.release_objects.symm.trans ht
    split at hf
    next hs =>
      obtain ⟨entry, old, same⟩ := map_eq_some_iff.mp hf
      obtain rfl : entry.sidecar = run := ho object hs entry old
      obtain rfl : entry.sidecar = other := (RegisteredRun.mk.inj same).1
      exact ⟨.released, update_self .., rfl⟩
    next => exact exists_phase_update (fun _ _ _ => rfl) (inv.left object other hf)

theorem Inv.step (inv : Inv sessionId s) {event : Event} (ho : Orderly sessionId s event)
    (hs : step sessionId s event = some s') : Inv sessionId s' := by
  cases event with
  | reserve run =>
    obtain ⟨⟨hf, hi⟩, ⟨⟩⟩ := ite_none_right_eq_some.mp hs
    exact inv.reserve hf hi
  | abandon run =>
    obtain ⟨hh, ⟨⟩⟩ := ite_none_right_eq_some.mp hs
    exact inv.move hh nofun nofun nofun nofun (.inr ⟨rfl, rfl⟩)
  | register run =>
    obtain ⟨hh, ⟨⟩⟩ := ite_none_right_eq_some.mp hs
    exact inv.register hh
  | miss run =>
    obtain ⟨hh, ⟨⟩⟩ := ite_none_right_eq_some.mp hs
    exact inv.move hh nofun id nofun nofun (.inl rfl)
  | finish run =>
    obtain ⟨hh, ⟨⟩⟩ := ite_none_right_eq_some.mp hs
    exact inv.move hh nofun id (fun _ => rfl) nofun (.inl rfl)
  | finalize run _ =>
    obtain ⟨hh, ⟨⟩⟩ := ite_none_right_eq_some.mp hs
    exact inv.move hh nofun nofun (fun _ => rfl) nofun (.inr ⟨rfl, rfl⟩)
  | release run =>
    obtain ⟨hh, ⟨⟩⟩ := ite_none_right_eq_some.mp hs
    exact inv.release hh ho
  | disconnect _ =>
    obtain ⟨hh, ⟨⟩⟩ := ite_none_right_eq_some.mp hs
    exact inv.move hh nofun nofun nofun (fun _ => rfl) (.inl rfl)
  | ask call =>
    obtain ⟨_, ⟨⟩⟩ := ite_none_right_eq_some.mp hs
    exact ⟨inv.claimed, inv.own, inv.stored, inv.left⟩
  | reply _ _ =>
    simp only [Stopping.step] at hs
    split at hs
    next =>
      cases hs
      exact ⟨inv.claimed, inv.own, inv.stored, inv.left⟩
    next => exact nomatch hs

theorem Reached.inv (hr : Reached sessionId s) : Inv sessionId s := by
  induction hr with
  | initial => exact .initial
  | step _ ho hs ih => exact ih.step ho hs

/-- What one event says of the run that a stop is meant for. -/
structure Finds (sessionId : κ) (s : Session κ) (event : Event) (s' : Session κ) : Prop where
  /-- A release leaves the registrations of other runs alone. -/
  others : ∀ run, event = .release run →
      ∀ (object : Nat) entry, s.coordinator.objects[object]? = some entry → entry.sidecar ≠ run →
    s'.coordinator.objects[object]? = some entry ∧
      (s.stored sessionId = some object → s'.stored sessionId = some object)
  absent : ∀ call, s.asked call ≠ some (.answered .absent) →
      s'.asked call = some (.answered .absent) → ∀ run, s.phase run ≠ some .registered
  calls : ∀ call object, s.asked call ≠ some (.calling object) →
      s'.asked call = some (.calling object) → s.stored sessionId = some object ∧
    ∀ run, s.phase run = some .registered → ∃ entry ∈ s.coordinator.objects[object]?, entry.sidecar = run
  requested : ∀ call, s.asked call ≠ some (.answered .requested) →
      s'.asked call = some (.answered .requested) → event = .reply call true
  finished : ∀ call, s.asked call ≠ some (.answered .finished) →
      s'.asked call = some (.answered .finished) → ∃ object entry,
    s.asked call = some (.calling object) ∧ s.coordinator.objects[object]? = some entry ∧
      (s.phase entry.sidecar = some .released ∨ s.phase entry.sidecar = some .gone)

section Finds
variable {event : Event}

omit [DecidableEq κ] in
theorem Finds.of_asked (hs : s'.asked = s.asked) (ha : ∀ run, event ≠ .release run) :
    Finds sessionId s event s' where
  others run release := absurd release (ha run)
  absent _ before after := absurd (hs ▸ after) before
  calls _ _ before after := absurd (hs ▸ after) before
  requested _ before after := absurd (hs ▸ after) before
  finished _ before after := absurd (hs ▸ after) before

theorem Finds.release {run : Nat} (ho : Orderly sessionId s (.release run))
    {phase : Nat → Option Phase} :
    Finds sessionId s (.release run)
      { s with coordinator := s.coordinator.release sessionId, phase := phase } where
  others other same object entry there apart := by
    cases same
    have elsewhere : s.coordinator.runs sessionId ≠ some object := fun hs => apart (ho object hs entry there)
    refine ⟨?_, fun hs => absurd hs elsewhere⟩
    rw [← there]
    exact Coordinator.release_objects.trans (if_neg elsewhere)
  absent _ before after := absurd after before
  calls _ _ before after := absurd after before
  requested _ before after := absurd after before
  finished _ before after := absurd after before

theorem asked_update {call other : Nat} {old new : Asked} {asked : Nat → Option Asked}
    (before : asked other ≠ some new) (after : update asked call (some old) other = some new) :
    other = call ∧ old = new := by
  by_cases hs : other = call
  · subst hs
    rw [update_self] at after
    exact ⟨rfl, some.inj after⟩
  · rw [update_of_ne hs] at after
    exact absurd after before

omit [DecidableEq κ] in
theorem Finds.ask (inv : Inv sessionId s) {call : Nat} : Finds sessionId s (.ask call)
    { s with asked := update s.asked call (some (match s.coordinator.runs sessionId with
      | none => .answered .absent
      | some object => .calling object)) } where
  others _ := nofun
  absent other before after run hh := by
    obtain ⟨-, hs⟩ := asked_update before after
    obtain ⟨object, stored, -⟩ := inv.own run hh
    rw [show s.coordinator.runs sessionId = some object from stored] at hs
    exact nomatch hs
  calls other object before after := by
    obtain ⟨-, hs⟩ := asked_update before after
    split at hs
    next => exact nomatch hs
    next hf stored =>
      cases hs
      refine ⟨stored, fun run hh => ?_⟩
      obtain ⟨_, stored', entry⟩ := inv.own run hh
      cases stored.symm.trans stored'
      exact ⟨_, entry, rfl⟩
  requested other before after := by
    obtain ⟨-, hs⟩ := asked_update before after
    split at hs
    next => exact nomatch hs
    next => exact nomatch hs
  finished other before after := by
    obtain ⟨-, hs⟩ := asked_update before after
    split at hs
    next => exact nomatch hs
    next => exact nomatch hs

omit [DecidableEq κ] in
theorem Finds.reply (inv : Inv sessionId s) {call object : Nat} {succeeded : Bool}
    (calling : s.asked call = some (.calling object)) :
    Finds sessionId s (.reply call succeeded)
      { s with
        asked := update s.asked call (some (if succeeded then .answered .requested
          else if s.coordinator.wasReleased object then .answered .finished else .raised)) } where
  others _ := nofun
  absent other before after := by
    obtain ⟨-, hs⟩ := asked_update before after
    split at hs
    next => exact nomatch hs
    next =>
      split at hs
      next => exact nomatch hs
      next => exact nomatch hs
  calls other object' before after := by
    obtain ⟨-, hs⟩ := asked_update before after
    split at hs
    next => exact nomatch hs
    next =>
      split at hs
      next => exact nomatch hs
      next => exact nomatch hs
  requested other before after := by
    obtain ⟨rfl, hs⟩ := asked_update before after
    split at hs
    next yes => rw [yes]
    next =>
      split at hs
      next => exact nomatch hs
      next => exact nomatch hs
  finished other before after := by
    obtain ⟨rfl, hs⟩ := asked_update before after
    split at hs
    next => exact nomatch hs
    next =>
      split at hs
      next hr =>
        obtain ⟨⟨sidecar, _⟩, ht, rfl⟩ := (Option.any_eq_true _ _).mp hr
        obtain ⟨phase, hf, left⟩ := inv.left object sidecar ht
        refine ⟨object, ⟨sidecar, true⟩, calling, ht, ?_⟩
        cases phase with
        | released => exact .inl hf
        | gone => exact .inr hf
        | reserved | registered | ended | finalized => exact nomatch left
      next => exact nomatch hs

end Finds

/-- As long as no release meets the registration of another run, a registered run is the one
that is stored until its query has ended, and every request to cancel is about it. -/
theorem stop_finds_run (sessionId : κ) (s : Session κ) (reached : Reached sessionId s) :
    (∀ run, s.phase run = some .registered →
        ∃ object, s.stored sessionId = some object ∧
          s.coordinator.objects[object]? = some (RegisteredRun.mk run false)) ∧
    ∀ event s', Orderly sessionId s event → step sessionId s event = some s' →
      Finds sessionId s event s' := by
  have inv := reached.inv
  refine ⟨inv.own, fun event s' ho hs => ?_⟩
  cases event with
  | reserve run | abandon run | register run | miss run | finish run | finalize run persisted
  | disconnect run =>
    obtain ⟨-, ⟨⟩⟩ := ite_none_right_eq_some.mp hs
    exact .of_asked rfl fun _ => nofun
  | release run =>
    obtain ⟨-, ⟨⟩⟩ := ite_none_right_eq_some.mp hs
    exact .release ho
  | ask call =>
    obtain ⟨-, ⟨⟩⟩ := ite_none_right_eq_some.mp hs
    exact .ask inv
  | reply _ _ =>
    simp only [Stopping.step] at hs
    split at hs
    next object calling =>
      cases hs
      exact .reply inv calling
    next => exact nomatch hs

def sampleEvents : List Event :=
  [.reserve 0, .register 0, .finish 0, .finalize 0 true, .reserve 1, .register 1, .release 0, .ask 0]

theorem release_of_other_run :
    (replay () .initial sampleEvents).map (fun s => (s.phase 1, s.asked 0)) =
      some (some .registered, some (.answered .absent)) := by
  decide

/-- One run that is asked to stop, and is released before its sidecar answers. -/
def stoppedEvents : List Event := [.reserve 0, .register 0, .ask 0, .finish 0, .finalize 0 true, .release 0]

theorem stop_finds_run_sample :
    ∃ s s' : Session Unit, replay () .initial stoppedEvents = some s ∧ s.phase 0 = some .released ∧
      step () s (.reply 0 false) = some s' ∧ s'.asked 0 = some (.answered .finished) ∧
      Finds () s (.reply 0 false) s' := by
  refine ⟨_, _, rfl, rfl, rfl, rfl, (stop_finds_run () _ ?_).2 (.reply 0 false) _ trivial rfl⟩
  have next : ∀ {s s' : Session Unit} event, Reached () s → Orderly () s event → step () s event = some s' →
      Reached () s' := fun _ before orderly stepped => .step before orderly stepped
  have stored := next (.register 0) (next (.reserve 0) .initial trivial rfl) trivial rfl
  have ended := next (.finish 0) (next (.ask 0) stored trivial rfl) trivial rfl
  refine next (.release 0) (next (.finalize 0 true) ended trivial rfl) ?_ rfl
  intro object own entry found
  cases own
  cases found
  rfl

end Yinshi.Stopping
