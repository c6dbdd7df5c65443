import Mathlib.Data.List.Perm.Basic
import Yinshi.Owners.Turns

/-! Two documents that keep one id have a message on its way that makes one of them give it up.
So when nothing is in flight and no claim is pending, established ids are distinct. -/

namespace Yinshi.Owners
open Function List

namespace Browser
variable {δ ω : Type} [LinearOrder δ]
variable {browser : Browser δ ω}

namespace Taken
variable {browser next : Browser δ ω} {me : δ} {left : List (Copy δ ω)} {root depth : Nat}
  {result : Claimant ω × List (OwnerMessage δ ω)}
  (taken : Taken browser next me left root depth result)
variable {document : δ}
include taken

theorem documents_of_ne (ha : document ≠ me) : next.documents document = browser.documents document := by
  rw [taken.documents, update_of_ne ha]

theorem documents_me : next.documents me = some result.1 := by
  rw [taken.documents, update_self]

theorem held_of_ne (ha : document ≠ me) : next.held document = browser.held document := by
  funext id
  simp only [held, taken.documents_of_ne ha]

theorem keeps_of_ne (ha : document ≠ me) : next.keeps document = browser.keeps document := by
  funext id
  simp only [keeps, taken.documents_of_ne ha]

theorem mem_flight {copy : Copy δ ω} :
    copy ∈ next.flight ↔
    copy ∈ left ∨
    copy.message ∈ result.2 ∧ copy.recipient ∈ next.opened ∧ copy.recipient ≠ me ∧
    copy.root = root ∧ copy.depth = depth := by
  rw [taken.flight, mem_append, mem_copies]

theorem mem_candidates {id : ω} : (document, id) ∈ next.candidates ↔
    (document, id) ∈ browser.candidates ∨ document = me ∧ result.1.holds id := by
  rw [taken.candidates]
  simp only [mem_append, mem_map, Claimant.mem_ids, Prod.mk.injEq]
  constructor
  · rintro (old | ⟨_, hh, rfl, rfl⟩)
    · exact .inl old
    · exact .inr ⟨rfl, hh⟩
  · rintro (old | ⟨rfl, hh⟩)
    · exact .inl old
    · exact .inr ⟨id, hh, rfl, rfl⟩

theorem sound (before : browser.Sound) : next.Sound := by
  obtain ⟨_, turn, -⟩ := taken.turn
  refine ⟨?_, taken.nodup, ?_, ?_, ?_, ?_⟩
  · intro document
    rw [taken.opened]
    by_cases hs : document = me
    · simp [hs, taken.documents_me]
    · rw [taken.documents_of_ne hs, before.opened]
      simp [hs]
  · intro document claimant hf
    by_cases hs : document = me
    · subst hs
      obtain rfl : result.1 = claimant := by simpa [taken.documents_me] using hf
      exact turn.proper
    · rw [taken.documents_of_ne hs] at hf
      exact before.proper document claimant hf
  · intro copy hi
    rcases taken.mem_flight.mp hi with old | ⟨posted, isOpen, ha, -⟩
    · obtain ⟨isOpen, foreign⟩ := before.recipients copy (taken.kept copy old)
      exact ⟨(taken.opened _).mpr (.inr isOpen), foreign⟩
    · rw [(turn.posts _ posted).1]
      exact ⟨isOpen, ha.symm⟩
  · intro document id hh
    rw [taken.mem_candidates]
    by_cases hs : document = me
    · subst hs
      rw [held_eq taken.documents_me] at hh
      exact .inr ⟨rfl, hh⟩
    · rw [taken.held_of_ne hs] at hh
      exact .inl (before.known document id hh)
  · intro copy hi
    rw [taken.mem_candidates]
    rcases taken.mem_flight.mp hi with old | ⟨posted, -⟩
    · exact .inl (before.sent copy (taken.kept copy old))
    · obtain ⟨isMine, hh | hh⟩ := turn.posts _ posted
      · exact .inl (isMine ▸ before.known me _ hh)
      · exact .inr ⟨isMine, hh⟩

end Taken

theorem close_sound (document : δ) (before : browser.Sound) : (browser.close document).Sound := by
  have other : ∀ d, (browser.close document).documents d ≠ none → d ≠ document ∧
      (browser.close document).documents d = browser.documents d := by
    intro d hf
    by_cases hs : d = document
    · simp [close, hs] at hf
    · exact ⟨hs, by simp [close, hs]⟩
  refine ⟨?_, before.nodup.filter _, ?_, ?_, ?_, ?_⟩
  · intro d
    by_cases hs : d = document
    · simp [close, others, hs]
    · simp [close, others, hs, before.opened]
  · intro d claimant hf
    rw [(other d (by simp [Option.mem_def.mp hf])).2] at hf
    exact before.proper d claimant hf
  · intro copy hi
    obtain ⟨hi, ha⟩ := mem_filter.mp hi
    obtain ⟨isOpen, foreign⟩ := before.recipients copy hi
    exact ⟨mem_filter.mpr ⟨isOpen, ha⟩, foreign⟩
  · rintro d id ⟨claimant, hf, hh⟩
    rw [(other d (by simp [Option.mem_def.mp hf])).2] at hf
    exact before.known d id ⟨claimant, hf, hh⟩
  · intro copy hi
    exact before.sent copy (mem_of_mem_filter hi)

theorem step_sound [DecidableEq ω] {next : Browser δ ω} {event : Event δ ω}
    (hs : browser.step event = some next) (before : browser.Sound) : next.Sound := by
  rcases step_cases hs before with ⟨document, -, rfl⟩ | ⟨_, _, _, _, _, -, taken⟩
  · exact close_sound document before
  · exact taken.sound before

def resolves (copy : Copy δ ω) (first second : δ) (id : ω) : Prop :=
  copy.message.ownerId = id ∧
    (copy.message.documentId = first ∧ copy.recipient = second ∧
        (copy.message.type = .probe ∨ copy.message.targetDocumentId = some second) ∨
      copy.message.documentId = second ∧ copy.recipient = first ∧ copy.message.type = .probe)

def Settling (browser : Browser δ ω) : Prop :=
  ∀ first second id, first < second → browser.keeps first id → browser.keeps second id →
    ∃ copy ∈ browser.flight, resolves copy first second id

def Late (browser : Browser δ ω) : Event δ ω → Prop
  | .delivers position _ => ∃ copy ∈ browser.flight[position]?,
      copy.message.type = .claim ∧ copy.message.targetDocumentId = some copy.recipient ∧
      copy.message.established ≠ some true ∧ copy.message.documentId < copy.recipient ∧
      browser.keeps copy.message.documentId copy.message.ownerId ∧
      browser.established copy.recipient copy.message.ownerId
  | _ => False

section Settled
variable [DecidableEq ω] {browser next : Browser δ ω} {event : Event δ ω} {me : δ}
  {left : List (Copy δ ω)} {root depth : Nat} {result : Claimant ω × List (OwnerMessage δ ω)}

omit [DecidableEq ω] in
theorem Taken.kept_before (taken : Taken browser next me left root depth result)
    (before : browser.Sound) {other : δ} {id : ω} (ha : other ≠ me) (hk : next.keeps me id)
    (others : next.keeps other id) :
    browser.keeps me id ∨
    ∃ copy ∈ next.flight, copy.message = probe me id ∧ copy.recipient = other := by
  obtain ⟨_, turn, announced⟩ := taken.turn
  rw [keeps_eq taken.documents_me] at hk
  rcases turn.keeps id hk with old | new
  · exact .inl old
  · have isOpen : other ∈ browser.opened := by
      rw [taken.keeps_of_ne ha] at others
      obtain ⟨claimant, hf, -⟩ := others
      exact (before.opened other).mpr (by simp [Option.mem_def.mp hf])
    rcases announced id new with hu | ⟨posted, -⟩
    · rw [taken.keeps_of_ne ha] at others
      obtain ⟨claimant, hf, hh⟩ := others
      exact absurd (.inl ⟨other, isOpen, claimant, hf, hh.holds⟩) hu
    · exact .inr ⟨⟨probe me id, other, root, depth⟩,
        taken.mem_flight.mpr (.inr ⟨posted, (taken.opened other).mpr (.inr isOpen), ha, rfl, rfl⟩),
        rfl, rfl⟩

theorem Taken.settling (taken : Taken browser next me left root depth result)
    (cause : Cause browser next event me left root depth result) (before : browser.Sound)
    (settling : browser.Settling) (timely : ¬ browser.Late event) : next.Settling := by
  intro first second id less keepsFirst keepsSecond
  have ha : first ≠ second := ne_of_lt less
  -- an announced id is on its way to the other document
  have first_before : browser.keeps first id ∨ ∃ copy ∈ next.flight, resolves copy first second id := by
    by_cases mine : first = me
    · subst mine
      rcases taken.kept_before before ha.symm keepsFirst keepsSecond with old | ⟨copy, hl, posted, sent⟩
      · exact .inl old
      · exact .inr ⟨copy, hl, by simp [resolves, posted, sent, probe]⟩
    · rw [taken.keeps_of_ne mine] at keepsFirst
      exact .inl keepsFirst
  have second_before : browser.keeps second id ∨ ∃ copy ∈ next.flight, resolves copy first second id := by
    by_cases mine : second = me
    · subst mine
      rcases taken.kept_before before ha keepsSecond keepsFirst with old | ⟨copy, hl, posted, sent⟩
      · exact .inl old
      · exact .inr ⟨copy, hl, by simp [resolves, posted, sent, probe]⟩
    · rw [taken.keeps_of_ne mine] at keepsSecond
      exact .inl keepsSecond
  rcases first_before with keptFirst | hd
  swap
  · exact hd
  rcases second_before with keptSecond | hd
  swap
  · exact hd
  obtain ⟨copy, hi, settles⟩ := settling first second id less keptFirst keptSecond
  cases cause with
  | loop => exact ⟨copy, taken.mem_flight.mpr (.inl hi), settles⟩
  | @message _ random delivered claimant _ isEvent atPosition recipient hf fresh reaction =>
    obtain ⟨hb, rfl⟩ := List.getElem?_eq_some_iff.mp atPosition
    have split := getElem_cons_eraseIdx_perm hb
    rcases mem_cons.mp (split.mem_iff.mpr hi) with delivered | remains
    swap
    · exact ⟨copy, taken.mem_flight.mpr (.inl remains), settles⟩
    rw [← delivered] at atPosition recipient fresh reaction
    have proper := before.proper me claimant hf
    obtain ⟨hs, ⟨sender, sent, heard⟩ | ⟨sender, sent, isProbe⟩⟩ := settles
    · -- the second document reads what the first has sent
      obtain rfl : me = second := recipient.symm.trans sent
      subst hs
      have hu : rotates me claimant copy.message → random ≠ copy.message.ownerId := fun moves hs =>
        fresh moves (.inr ⟨copy, hi, hs.symm⟩)
      rw [keeps_eq taken.documents_me] at keepsSecond
      rw [keeps_eq hf] at keptSecond
      obtain ⟨isClaim, target, unestablished, ho⟩ :=
        reaction.late proper (sender ▸ less) heard hu keptSecond keepsSecond
      refine absurd ?_ timely
      subst isEvent
      exact ⟨copy, atPosition, isClaim, recipient ▸ target, unestablished,
        by rw [sender, recipient]; exact less, sender ▸ keptFirst,
        recipient ▸ ⟨claimant, hf, ho⟩⟩
    · -- the first document answers the probe of the second
      obtain rfl : me = first := recipient.symm.trans sent
      subst hs
      rw [keeps_eq hf] at keptFirst
      obtain ⟨he, posted⟩ := reaction.replies isProbe keptFirst.holds
      have isOpen : second ∈ next.opened := by
        obtain ⟨_, ht, -⟩ := keepsSecond
        exact ((taken.sound before).opened second).mpr (by simp [Option.mem_def.mp ht])
      refine ⟨⟨reply me he copy.message, second, _, _⟩,
        taken.mem_flight.mpr (.inr ⟨posted, isOpen, ha.symm, rfl, rfl⟩), rfl, .inl ?_⟩
      exact ⟨rfl, rfl, .inr (by simp [reply, sender])⟩

omit [DecidableEq ω] in
theorem close_settling (document : δ) (settling : browser.Settling) : (browser.close document).Settling := by
  have old : ∀ other id,
        (browser.close document).keeps other id → other ≠ document ∧ browser.keeps other id := by
    rintro other id ⟨claimant, hf, hk⟩
    have ha : other ≠ document := by
      rintro rfl
      simp [close] at hf
    exact ⟨ha, claimant, by simpa [close, ha] using hf, hk⟩
  intro first second id less keepsFirst keepsSecond
  obtain ⟨apartFirst, keepsFirst⟩ := old first id keepsFirst
  obtain ⟨apartSecond, keepsSecond⟩ := old second id keepsSecond
  obtain ⟨copy, hi, hs⟩ := settling first second id less keepsFirst keepsSecond
  refine ⟨copy, List.mem_filter.mpr ⟨hi, ?_⟩, hs⟩
  obtain ⟨-, ⟨-, sent, -⟩ | ⟨-, sent, -⟩⟩ := hs
  · simpa [sent] using apartSecond
  · simpa [sent] using apartFirst

theorem step_settling (hs : browser.step event = some next) (before : browser.Sound)
    (settling : browser.Settling) (timely : ¬ browser.Late event) : next.Settling := by
  rcases step_cases hs before with ⟨document, -, rfl⟩ | ⟨_, _, _, _, _, cause, taken⟩
  · exact close_settling document settling
  · exact taken.settling cause before settling timely

end Settled

def Quiet (browser : Browser δ ω) : Prop :=
  browser.flight = [] ∧ ∀ document ∈ browser.opened, ∀ claimant ∈ browser.documents document,
    claimant.pendingOwnerId = none

theorem Settling.distinct (settling : browser.Settling) (hq : browser.flight = [])
    {first second : δ} {id : ω} (one : browser.established first id)
    (two : browser.established second id) : first = second := by
  have apart : ∀ a b, browser.established a id → browser.established b id → ¬ a < b := by
    intro a b ha hb less
    obtain ⟨_, hi, -⟩ := settling a b id less ha.keeps hb.keeps
    simp [hq] at hi
  exact le_antisymm (not_lt.mp (apart second first two one)) (not_lt.mp (apart first second one two))

end Browser

end Yinshi.Owners
