import Mathlib.Algebra.Order.Ring.Nat
import Mathlib.Data.List.Nodup
import Mathlib.Logic.Relation
import Yinshi.Owners.Distinct

/-! What a message brings about. A probe of a claim loop is answered by claims, a claim or a probe
can make a document rotate, and the probe of a fresh id is answered by nobody. -/

namespace Yinshi.Owners
open Function List

namespace Browser
variable {δ ω : Type} [LinearOrder δ]

def Unheard (browser : Browser δ ω) : Prop :=
  ∀ copy ∈ browser.flight, copy.depth ≠ 0 → copy.message.type = .probe →
    ¬ browser.held copy.recipient copy.message.ownerId

section Steps
variable [DecidableEq ω] {browser next : Browser δ ω} {event : Event δ ω} {me : δ}
  {left : List (Copy δ ω)} {root depth : Nat} {result : Claimant ω × List (OwnerMessage δ ω)}

theorem Taken.unheard (taken : Taken browser next me left root depth result)
    (cause : Cause browser next event me left root depth result) (before : browser.Sound)
    (unheard : browser.Unheard) : next.Unheard := by
  intro copy hi deep isProbe
  rcases taken.mem_flight.mp hi with old | ⟨posted, isOpen, ha, -, isDepth⟩
  · have ht := taken.kept copy old
    by_cases mine : copy.recipient = me
    · obtain ⟨hf, turn, announced⟩ := taken.turn
      intro hh
      rw [mine, held_eq taken.documents_me] at hh
      rcases turn.holds _ hh with earlier | new
      · exact unheard copy ht deep isProbe (mine ▸ earlier)
      · rcases announced _ new with hu | ⟨-, hc⟩
        · exact hu (.inr ⟨copy, ht, rfl⟩)
        · exact hc (mine ▸ (before.recipients copy ht).1)
    · rw [taken.held_of_ne mine]
      exact unheard copy ht deep isProbe
  · rw [taken.held_of_ne ha]
    cases cause with
    | loop => exact absurd isDepth deep
    | message _ _ _ _ hf reaction =>
      obtain ⟨rotates, hs⟩ := reaction.posts_probe posted isProbe
      rintro ⟨claimant, hp, hho⟩
      have wasOpen : copy.recipient ∈ browser.opened :=
        ((taken.opened _).mp isOpen).resolve_left ha
      exact hf rotates (.inl ⟨copy.recipient, wasOpen, claimant, hp, hs ▸ hho⟩)

omit [DecidableEq ω] in
theorem close_unheard (document : δ) (unheard : browser.Unheard) : (browser.close document).Unheard := by
  intro copy hi deep isProbe
  obtain ⟨ht, ha⟩ := List.mem_filter.mp hi
  have hs : (browser.close document).documents copy.recipient = browser.documents copy.recipient :=
    update_of_ne (by simpa using ha) ..
  rintro ⟨claimant, hf, hh⟩
  exact unheard copy ht deep isProbe ⟨claimant, hs ▸ hf, hh⟩

end Steps

def price (copy : Copy δ ω) : Nat :=
  if copy.depth = 0 then 3 else if copy.message.targetDocumentId = some copy.recipient then 1 else 0

def debt (flight : List (Copy δ ω)) (k : Nat) : Nat :=
  ((flight.filter (·.root = k)).map price).sum

theorem debt_append (front back : List (Copy δ ω)) (k : Nat) :
    debt (front ++ back) k = debt front k + debt back k := by
  simp [debt]

theorem debt_cons (copy : Copy δ ω) (flight : List (Copy δ ω)) (k : Nat) :
    debt (copy :: flight) k = (if copy.root = k then price copy else 0) + debt flight k := by
  by_cases hs : copy.root = k <;> simp [debt, hs]

theorem debt_perm {front back : List (Copy δ ω)} (perm : front.Perm back) (k : Nat) :
    debt front k = debt back k :=
  ((perm.filter _).map _).sum_nat

theorem debt_filter_le (flight : List (Copy δ ω)) (p : Copy δ ω → Bool) (k : Nat) :
    debt (flight.filter p) k ≤ debt flight k := by
  induction flight with
  | nil => simp
  | cons _ _ _ =>
    rw [filter_cons]
    split
    next =>
      rw [debt_cons, debt_cons]
      omega
    next =>
      rw [debt_cons]
      omega

theorem debt_eq_zero {flight : List (Copy δ ω)} {k : Nat} (ha : ∀ copy ∈ flight, copy.root ≠ k) :
    debt flight k = 0 := by
  have none : flight.filter (·.root = k) = [] := by simpa [filter_eq_nil_iff] using ha
  simp [debt, none]

theorem debt_le {flight : List (Copy δ ω)} {k bound : Nat}
    (hb : ∀ copy ∈ flight, price copy ≤ bound) : debt flight k ≤ bound * flight.length := by
  induction flight with
  | nil => simp [debt]
  | cons _ _ ih =>
    obtain ⟨_, rest⟩ := forall_mem_cons.mp hb
    have ih := ih rest
    rw [debt_cons, length_cons, Nat.mul_succ]
    split <;> omega

theorem sum_target_le (target : Option δ) {recipients : List δ} (hd : recipients.Nodup) :
    (recipients.map fun recipient => if target = some recipient then 1 else 0).sum ≤
      if target.isSome then 1 else 0 := by
  have zero : ∀ {others : List δ}, (∀ other ∈ others, target ≠ some other) →
      (others.map fun other => if target = some other then 1 else 0).sum = 0 := by
    intro others ha
    induction others with
    | nil => rfl
    | cons other _ ih =>
      obtain ⟨first, rest⟩ := forall_mem_cons.mp ha
      simp [first, ih rest]
  induction recipients with
  | nil => simp
  | cons recipient recipients ih =>
    obtain ⟨hf, hd⟩ := nodup_cons.mp hd
    rw [map_cons, sum_cons]
    by_cases hh : target = some recipient
    · have ha : ∀ other ∈ recipients, target ≠ some other := by
        rintro other hm ht
        obtain rfl : recipient = other := Option.some.inj (hh.symm.trans ht)
        exact hf hm
      rw [zero ha, if_pos hh, hh]
      exact Nat.le_refl 1
    · simpa [hh] using ih hd

theorem length_copies (browser : Browser δ ω) (me : δ) (root depth : Nat)
    (messages : List (OwnerMessage δ ω)) :
    (browser.copies me root depth messages).length =
      messages.length * (browser.others me).length := by
  induction messages with
  | nil => simp [copies]
  | cons _ _ ih =>
    simp only [copies, flatMap_cons, length_append, length_map] at ih ⊢
    rw [ih, length_cons, Nat.succ_mul, Nat.add_comm]

theorem debt_copies_le {browser : Browser δ ω} (hd : browser.opened.Nodup) (me : δ)
    (root depth k : Nat) (messages : List (OwnerMessage δ ω)) :
    debt (browser.copies me root (depth + 1) messages) k ≤
      if root = k then messages.countP (·.targetDocumentId.isSome) else 0 := by
  by_cases hs : root = k
  · subst hs
    rw [if_pos rfl]
    induction messages with
    | nil => simp [copies, debt]
    | cons message messages ih =>
      have hh : debt ((browser.others me).map fun recipient =>
          (⟨message, recipient, root, depth + 1⟩ : Copy δ ω)) root ≤
            if message.targetDocumentId.isSome then 1 else 0 := by
        have all : ∀ recipients : List δ, debt (recipients.map fun recipient =>
            (⟨message, recipient, root, depth + 1⟩ : Copy δ ω)) root =
            (recipients.map fun recipient =>
              if message.targetDocumentId = some recipient then 1 else 0).sum := by
          intro _
          simp [debt, filter_map, Function.comp_def, price]
        rw [all]
        exact sum_target_le _ (hd.filter _)
      simp only [copies, flatMap_cons, debt_append] at ih ⊢
      rw [countP_cons]
      omega
  · have other : ∀ copy ∈ browser.copies me root (depth + 1) messages, copy.root ≠ k := by
      intro _ hl
      exact (mem_copies.mp hl).2.2.2.1 ▸ hs
    rw [if_neg hs]
    exact Nat.le_of_eq (debt_eq_zero other)

theorem price_pays {me : δ} {random : ω} {claimant : Claimant ω} {copy : Copy δ ω}
    {result : Claimant ω × List (OwnerMessage δ ω)} (recipient : copy.recipient = me)
    (reaction : Reaction me random claimant copy.message result)
    (unheard : copy.depth ≠ 0 → copy.message.type = .probe →
      ¬ claimant.holds copy.message.ownerId) :
    result.2.length + result.2.countP (·.targetDocumentId.isSome) ≤ price copy := by
  have root : copy.message.type = .probe → claimant.holds copy.message.ownerId → copy.depth = 0 := by
    intro isProbe hho
    by_contra deep
    exact unheard deep isProbe hho
  cases reaction with
  | ignored _ _ => simp
  | answered he isProbe _ hh => simp [price, root isProbe hh, reply]
  | yielded he isProbe pending => simp [price, root isProbe (.inl pending), reply]
  | rotated _ isProbe ho rotates => simp [price, root isProbe (.inr ho), reply, probe]
  | collided isClaim target _ => simp
  | replaced isClaim _ rotates =>
    have target : copy.message.targetDocumentId = some copy.recipient := by
      rw [recipient]
      simpa [isClaim] using rotates.2.2.elim (fun isProbe => by simp [isClaim] at isProbe) And.left
    have paid : 1 ≤ price copy := by
      simp only [price, target, if_true]
      split <;> omega
    simpa [probe] using paid

structure Paid (browser : Browser δ ω) : Prop where
  roots : ∀ copy ∈ browser.flight, copy.root < browser.roots
  unused : ∀ k, browser.roots ≤ k → browser.caused k = 0
  within : ∀ k, browser.caused k + debt browser.flight k ≤ 3 * browser.audience k

section Steps
variable [DecidableEq ω] {browser next : Browser δ ω} {event : Event δ ω} {me : δ}
  {left : List (Copy δ ω)} {root depth : Nat} {result : Claimant ω × List (OwnerMessage δ ω)}

theorem Taken.paid (taken : Taken browser next me left root depth result)
    (cause : Cause browser next event me left root depth result) (unheard : browser.Unheard)
    (paid : browser.Paid) : next.Paid := by
  cases cause with
  | loop few _ roots audience caused =>
    have hf : debt browser.flight browser.roots = 0 :=
      debt_eq_zero fun copy hi => Nat.ne_of_lt (paid.roots copy hi)
    refine ⟨?_, ?_, ?_⟩
    · intro copy hi
      rw [roots]
      rcases taken.mem_flight.mp hi with old | ⟨-, -, -, hr, -⟩
      · exact Nat.lt_succ_of_lt (paid.roots copy old)
      · omega
    · intro k above
      rw [caused]
      exact paid.unused k (by omega)
    · intro k
      rw [taken.flight, debt_append, caused, audience]
      by_cases hs : k = browser.roots
      · subst hs
        rw [update_self, paid.unused _ (Nat.le_refl _), hf]
        have few : (next.copies me browser.roots 0 result.2).length ≤ (next.others me).length := by
          rw [length_copies]
          simpa using Nat.mul_le_mul_right (next.others me).length few
        have hb : debt (next.copies me browser.roots 0 result.2) browser.roots ≤
            3 * (next.copies me browser.roots 0 result.2).length :=
          debt_le fun copy _ => by
            unfold price
            split
            next => exact Nat.le_refl 3
            next => split <;> omega
        omega
      · have other : debt (next.copies me browser.roots 0 result.2) k = 0 :=
          debt_eq_zero fun copy hl => (mem_copies.mp hl).2.2.2.1 ▸ Ne.symm hs
        rw [update_of_ne hs, other]
        exact paid.within k
  | @message position random copy claimant _ isEvent atPosition recipient found hf reaction roots
      audience caused =>
      obtain ⟨hb, isCopy⟩ := List.getElem?_eq_some_iff.mp atPosition
      have hi : copy ∈ browser.flight := mem_of_getElem? atPosition
      have split : ∀ k, debt browser.flight k =
          (if copy.root = k then price copy else 0) + debt (browser.flight.eraseIdx position) k := by
        intro k
        rw [← debt_perm (getElem_cons_eraseIdx_perm hb), debt_cons, isCopy]
      refine ⟨?_, ?_, ?_⟩
      · intro other hl
        rw [roots]
        rcases taken.mem_flight.mp hl with old | ⟨-, -, -, hr, -⟩
        · exact paid.roots other (taken.kept other old)
        · exact hr ▸ paid.roots copy hi
      · intro k _
        have ha : k ≠ copy.root := by
          have := paid.roots copy hi
          omega
        rw [caused, update_of_ne ha]
        exact paid.unused k (by omega)
      · intro k
        have hw := paid.within k
        have posted := debt_copies_le taken.nodup me copy.root copy.depth k result.2
        have pays := price_pays recipient reaction fun deep isProbe hh =>
          unheard copy hi deep isProbe (recipient ▸ ⟨claimant, found, hh⟩)
        rw [split] at hw
        rw [taken.flight, debt_append, caused, audience]
        by_cases hs : copy.root = k
        · subst hs
          rw [if_pos rfl] at hw posted
          rw [update_self]
          omega
        · rw [if_neg hs] at hw posted
          rw [update_of_ne (Ne.symm hs)]
          omega

omit [DecidableEq ω] in
theorem close_paid (document : δ) (paid : browser.Paid) : (browser.close document).Paid where
  roots copy inFlight := paid.roots copy (List.mem_of_mem_filter inFlight)
  unused := paid.unused
  within k := Nat.le_trans (Nat.add_le_add_left (debt_filter_le _ _ k) _) (paid.within k)

end Steps

end Browser

end Yinshi.Owners
