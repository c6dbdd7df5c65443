import Mathlib.Data.Nat.Basic
import Yinshi.Base.Runs
import Yinshi.Owners.Traffic

/-! What claims of owner ids guarantee, in every state that documents can bring about. -/

namespace Yinshi.Owners
open Function Relation Option

namespace Browser
variable {δ ω : Type} [LinearOrder δ] [DecidableEq ω]
variable {browser next : Browser δ ω}

section Steps
variable {browser next : Browser δ ω} {event : Event δ ω} {document : δ} {id : ω}

theorem step_established (stepped : browser.step event = some next) (before : browser.Sound)
    (stays : event ≠ .closes document) (ho : browser.established document id) :
    next.established document id ∨
    ∃ other, other ≠ document ∧ (other, id) ∈ browser.candidates := by
  rcases step_cases stepped before with ⟨hc, rfl, rfl⟩ | ⟨me, _, _, _, result, cause, taken⟩
  · have ha : document ≠ hc := fun hs => stays (hs ▸ rfl)
    obtain ⟨claimant, hf, ho⟩ := ho
    exact .inl ⟨claimant, by simpa [close, ha] using hf, ho⟩
  · by_cases mine : document = me
    swap
    · refine .inl ?_
      rwa [established, taken.documents_of_ne mine]
    subst mine
    cases cause with
    | loop _ unestablished => exact absurd ho (unestablished id)
    | @message _ _ copy claimant _ _ atPosition recipient hf _ reaction =>
      have hi : copy ∈ browser.flight := List.mem_of_getElem? atPosition
      obtain ⟨other, ht, ho⟩ := ho
      obtain rfl : claimant = other := by simpa [hf] using ht
      rcases reaction.established ho with hs | about
      · exact .inl ⟨result.1, taken.documents_me, hs⟩
      · refine .inr ⟨copy.message.documentId, ?_, about ▸ before.sent copy hi⟩
        exact recipient ▸ (before.recipients copy hi).2

theorem step_candidates (hs : browser.step event = some next) (before : browser.Sound)
    {row : δ × ω} (hl : row ∈ browser.candidates) : row ∈ next.candidates := by
  rcases step_cases hs before with ⟨_, -, rfl⟩ | ⟨_, _, _, _, _, -, taken⟩
  · exact hl
  · exact taken.mem_candidates.mpr (.inl hl)

theorem step_audience (hs : browser.step event = some next) (before : browser.Sound) {k : Nat}
    (root : k < browser.roots) : next.audience k = browser.audience k ∧ k < next.roots := by
  rcases step_cases hs before with ⟨_, -, rfl⟩ | ⟨_, _, _, _, _, cause, _⟩
  · exact ⟨rfl, root⟩
  · cases cause with
    | loop _ _ roots audience =>
      rw [audience, update_of_ne (Nat.ne_of_lt root), roots]
      exact ⟨rfl, Nat.lt_succ_of_lt root⟩
    | message _ _ _ _ _ _ roots audience =>
      rw [audience, roots]
      exact ⟨rfl, root⟩

end Steps

structure Invariant (browser : Browser δ ω) : Prop where
  sound : browser.Sound
  unheard : browser.Unheard
  paid : browser.Paid

omit [DecidableEq ω] in
theorem initial_invariant : (initial : Browser δ ω).Invariant := by
  refine ⟨⟨?_, List.nodup_nil, ?_, ?_, ?_, ?_⟩, ?_, ?_, ?_, ?_⟩
  all_goals simp [initial, held, debt, Unheard]

theorem step_invariant {event : Event δ ω}
    (stepped : browser.step event = some next) (before : browser.Invariant) : next.Invariant := by
  have hs := step_sound stepped before.sound
  rcases step_cases stepped before.sound with ⟨document, -, rfl⟩ | ⟨_, _, _, _, _, cause, taken⟩
  · exact ⟨hs, close_unheard document before.unheard, close_paid document before.paid⟩
  · exact ⟨hs, taken.unheard cause before.sound before.unheard, taken.paid cause before.unheard before.paid⟩

/-- The states of runs in which no claim comes too late. -/
inductive Reached : Browser δ ω → Prop
  | initial : Reached initial
  | step {browser next : Browser δ ω} {event : Event δ ω} (reached : Reached browser)
      (stepped : browser.step event = some next) (timely : ¬ browser.Late event) : Reached next

theorem Reached.holds (hr : Reached browser) : browser.Invariant ∧ browser.Settling := by
  induction hr with
  | initial => exact ⟨initial_invariant, by rintro _ _ _ _ ⟨_, hf, -⟩; simp [Browser.initial] at hf⟩
  | step _ hs timely ih => exact ⟨step_invariant hs ih.1, step_settling hs ih.1.sound ih.2 timely⟩

def Goes (stay : δ → Prop) (browser next : Browser δ ω) : Prop :=
  ∃ event, browser.step event = some next ∧ ∀ document, stay document → event ≠ .closes document

theorem run_caused {stay : δ → Prop} (run : ReflTransGen (Goes stay) browser next)
    (before : browser.Invariant) {k : Nat} (root : k < browser.roots) :
    next.caused k ≤ 3 * browser.audience k := by
  have hk : next.Invariant ∧ next.audience k = browser.audience k ∧ k < next.roots := by
    refine Runs.run_keeps (fun s => s.Invariant ∧ s.audience k = browser.audience k ∧ k < s.roots) ?_ run
      ⟨before, rfl, root⟩
    rintro _ _ ⟨_, hs, -⟩ ⟨invariant, same, root⟩
    obtain ⟨hu, root⟩ := step_audience hs invariant.sound root
    exact ⟨step_invariant hs invariant, hu.trans same, root⟩
  have hw := hk.1.paid.within k
  omega

theorem run_established {document : δ} {id : ω}
    (run : ReflTransGen (Goes (· = document)) browser next) (before : browser.Invariant)
    (ho : browser.established document id)
    (alone : ∀ other, other ≠ document → (other, id) ∉ next.candidates) :
    next.established document id := by
  have hk : next.Invariant ∧ (next.established document id ∨
      ∃ other, other ≠ document ∧ (other, id) ∈ next.candidates) := by
    refine Runs.run_keeps (fun s => s.Invariant ∧ (s.established document id ∨
      ∃ other, other ≠ document ∧ (other, id) ∈ s.candidates)) ?_ run ⟨before, .inl ho⟩
    rintro s t ⟨_, hs, stays⟩ ⟨invariant, hh⟩
    refine ⟨step_invariant hs invariant, ?_⟩
    have moved : s.established document id → t.established document id ∨
        ∃ other, other ≠ document ∧ (other, id) ∈ s.candidates := fun ho =>
      step_established hs invariant.sound (stays document rfl) ho
    rcases hh.elim moved .inr with ho | ⟨other, ha, hl⟩
    · exact .inl ho
    · exact .inr ⟨other, ha, step_candidates hs invariant.sound hl⟩
  refine hk.2.resolve_right ?_
  rintro ⟨other, ha, hl⟩
  exact alone other ha hl

/-- As long as no claim comes too late, owner ids end up distinct, a message has a bounded number
of consequences, and an id that no other document held is kept. -/
theorem owners_end_distinct {browser : Browser δ ω} (reached : Reached browser) :
    (browser.Quiet →
        ∀ first second id,
          browser.established first id → browser.established second id → first = second) ∧
    (∀ next, ReflTransGen (Goes fun _ => False) browser next →
      ∀ k < browser.roots, next.caused k ≤ 3 * browser.audience k) ∧
    ∀ next document id, ReflTransGen (Goes (· = document)) browser next →
      browser.established document id →
      (∀ other, other ≠ document → (other, id) ∉ next.candidates) →
      next.established document id := by
  obtain ⟨invariant, settling⟩ := reached.holds
  refine ⟨fun hq first second id one two => settling.distinct hq.1 one two, ?_, ?_⟩
  · intro next run _ root
    exact run_caused run invariant root
  · intro _ _ _ run ho alone
    exact run_established run invariant ho alone

instance (claimant : Claimant ω) (id : ω) : Decidable (claimant.keeps id) :=
  inferInstanceAs (Decidable (_ ∨ _))

instance (browser : Browser δ ω) (document : δ) (id : ω) : Decidable (browser.keeps document id) :=
  inferInstanceAs (Decidable (∃ claimant ∈ _, Claimant.keeps claimant id))

instance (browser : Browser δ ω) (document : δ) (id : ω) : Decidable (browser.established document id) :=
  inferInstanceAs (Decidable (∃ claimant ∈ _, Claimant.establishedOwnerId claimant = some id))

instance (browser : Browser δ ω) (event : Event δ ω) : Decidable (browser.Late event) :=
  match event with
  | .delivers _ _ => inferInstanceAs (Decidable (∃ copy ∈ _, _))
  | .opens _ _ _ _ => inferInstanceAs (Decidable False)
  | .elapses _ _ => inferInstanceAs (Decidable False)
  | .closes _ => inferInstanceAs (Decidable False)

instance (browser : Browser δ ω) : Decidable browser.Quiet := inferInstanceAs (Decidable (_ ∧ _))

def clonedTabs : List (Event Nat Nat) :=
  [.opens 1 (some 7) none 0, .opens 2 (some 7) none 0, .delivers 0 0, .delivers 0 0, .elapses 2 8,
    .delivers 0 0, .elapses 1 0, .elapses 2 0]

theorem owners_end_distinct_sample :
    ∃ browser, Reached browser ∧ browser.Quiet ∧ browser.established 1 7 ∧ browser.established 2 8 ∧
      ∀ first second id,
        browser.established first id → browser.established second id → first = second := by
  have ends : (Runs.replay step (fun browser event => ¬ browser.Late event) initial
      clonedTabs).any (fun browser =>
        browser.Quiet ∧ browser.established 1 7 ∧ browser.established 2 8) = true := by decide
  obtain ⟨browser, replayed, hs⟩ := any_eq_true _ _ |>.mp ends
  have hr : Reached browser :=
    Runs.replay_keeps Reached (fun _ _ _ before hl hs => before.step hs (of_decide_eq_true hl))
      .initial replayed
  obtain ⟨hq, one, two⟩ := of_decide_eq_true hs
  exact ⟨browser, hr, hq, one, two, (owners_end_distinct hr).1 hq⟩

def lateClaim : List (Event Nat Nat) :=
  [.opens 1 (some 7) none 0, .opens 2 (some 7) none 0, .delivers 0 0, .elapses 2 0, .delivers 0 0,
    .elapses 1 0]

theorem late_claim_shares :
    ∃ browser : Browser Nat Nat, ReflTransGen (Goes fun _ => False) initial browser ∧
      browser.Quiet ∧ browser.established 1 7 ∧ browser.established 2 7 := by
  have ends : (Runs.replay step (fun _ _ => true) initial lateClaim).any (fun browser => browser.Quiet ∧
      browser.established 1 7 ∧ browser.established 2 7) = true := by decide
  obtain ⟨browser, replayed, hs⟩ := any_eq_true _ _ |>.mp ends
  exact ⟨browser, Runs.replay_keeps _ (fun _ event _ run _ hs => run.tail ⟨event, hs, nofun⟩) .refl replayed,
    of_decide_eq_true hs⟩

end Browser

end Yinshi.Owners
