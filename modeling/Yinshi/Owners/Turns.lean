import Yinshi.Owners.Claims

/-! What one turn of a document can do, and what holds in every state of the browser. -/

namespace Yinshi.Owners
open Function List Option

namespace Claimant
variable {ω : Type}

def Proper (claimant : Claimant ω) : Prop :=
  claimant.pendingOwnerId = none ∨
    claimant.pendingOwnerId = some claimant.candidateOwnerId ∧ claimant.establishedOwnerId = none

def keeps (claimant : Claimant ω) (id : ω) : Prop :=
  claimant.establishedOwnerId = some id ∨
    claimant.pendingOwnerId = some id ∧ claimant.collisionDetected = false

theorem keeps.holds {claimant : Claimant ω} {id : ω} (hk : claimant.keeps id) : claimant.holds id :=
  hk.elim .inr fun pending => .inl pending.1

end Claimant

section Outcomes
variable {δ ω : Type} {me : δ} {random : ω} {claimant : Claimant ω}

structure Turn (me : δ) (fresh before keepsBefore : ω → Prop)
    (result : Claimant ω × List (OwnerMessage δ ω)) : Prop where
  proper : result.1.Proper
  holds : ∀ id, result.1.holds id → before id ∨ fresh id
  keeps : ∀ id, result.1.keeps id → keepsBefore id ∨ fresh id
  posts : ∀ post ∈ result.2, post.documentId = me ∧ (before post.ownerId ∨ result.1.holds post.ownerId)

@[simp] theorem rotated_holds {candidate id : ω} {collision : Bool} {attempt : Nat} :
    (⟨candidate, none, some random, collision, attempt⟩ : Claimant ω).holds id ↔ id = random := by
  simp [Claimant.holds, eq_comm]

theorem collided_keeps {candidate id : ω} {pending established : Option ω} {attempt : Nat}
    (hk : (⟨candidate, pending, established, true, attempt⟩ : Claimant ω).keeps id) :
    established = some id := by
  simpa [Claimant.keeps] using hk

theorem claimElapsed_collided (collided : claimant.collisionDetected = true) :
    claimElapsed me random claimant =
      if claimant.attempt + 1 < claimAttemptsMax then
      (⟨random, some random, claimant.establishedOwnerId, false, claimant.attempt + 1⟩,
        [probe me random]) else (⟨random, none, some random, true, claimant.attempt + 1⟩, []) := by
  simp [claimElapsed, collided, beginAttempt]

theorem claimElapsed_turn (waiting : claimant.pendingOwnerId ≠ none) (proper : claimant.Proper) :
    Turn me (fun id => claimant.collisionDetected = true ∧ id = random) claimant.holds
      claimant.keeps (claimElapsed me random claimant) := by
  obtain ⟨pending, hf⟩ := proper.resolve_left waiting
  by_cases collision : claimant.collisionDetected = false
  · have hs : ∀ id, claimant.candidateOwnerId = id → claimant.keeps id := fun id same =>
      .inr ⟨by rw [pending, same], collision⟩
    have hd : ∀ id, (claimElapsed me random claimant).1.holds id → claimant.candidateOwnerId = id := by
      intro id hh
      simpa [claimElapsed, collision, Claimant.holds] using hh
    exact ⟨.inl (by simp [claimElapsed, collision]),
      fun id hh => .inl (hs id (hd id hh)).holds,
      fun id hk => .inl (hs id (hd id hk.holds)), by simp [claimElapsed, collision]⟩
  · have collided : claimant.collisionDetected = true := by simpa using collision
    have taken : ∀ id, (claimElapsed me random claimant).1.holds id ↔ id = random := by
      intro id
      rw [claimElapsed_collided collided]
      split
      next => simp [Claimant.holds, hf, eq_comm]
      next => simp
    refine ⟨?_, fun id hh => .inr ⟨collided, (taken id).mp hh⟩,
      fun id hk => .inr ⟨collided, (taken id).mp hk.holds⟩, ?_⟩
    · rw [claimElapsed_collided collided]
      split
      next => exact .inr ⟨rfl, hf⟩
      next => exact .inl rfl
    · intro post hl
      have posted : post = probe me random := by
        rw [claimElapsed_collided collided] at hl
        split at hl
        next => simpa using hl
        next => simp at hl
      subst posted
      exact ⟨rfl, .inr ((taken random).mpr rfl)⟩

theorem claimElapsed_few : (claimElapsed me random claimant).2.length ≤ 1 := by
  by_cases collision : claimant.collisionDetected = false
  · simp [claimElapsed, collision]
  · rw [claimElapsed_collided (by simpa using collision)]
    split
    next => exact Nat.le_refl 1
    next => exact Nat.zero_le 1

theorem claimTerminalOwnerId_turn (before keepsBefore : ω → Prop) (stored inMemory : Option ω) :
    Turn me (· = (stored <|> inMemory).getD random) before keepsBefore
      (claimTerminalOwnerId me stored inMemory random) := by
  refine ⟨.inr ⟨rfl, rfl⟩, fun id hh => .inr ?_, fun id hk => .inr ?_, ?_⟩
  · simpa [claimTerminalOwnerId, beginAttempt, Claimant.holds, eq_comm] using hh
  · simpa [claimTerminalOwnerId, beginAttempt, Claimant.holds, eq_comm] using hk.holds
  · simp [claimTerminalOwnerId, beginAttempt, Claimant.holds, probe]

end Outcomes

section Document
variable {δ ω : Type} [LinearOrder δ]
variable {result : Claimant ω × List (OwnerMessage δ ω)}

inductive Reaction (me : δ) (random : ω) (claimant : Claimant ω) (message : OwnerMessage δ ω) :
    Claimant ω × List (OwnerMessage δ ω) → Prop
  | ignored (unheld : message.type = .probe → ¬ claimant.holds message.ownerId)
      (unmoved : message.type = .claim → message.targetDocumentId = some me →
        message.documentId < me → claimant.keeps message.ownerId →
          claimant.establishedOwnerId = some message.ownerId ∧ message.established ≠ some true) :
      Reaction me random claimant message (claimant, [])
  | answered (established : Bool) (isProbe : message.type = .probe)
      (wins : ¬ message.documentId < me) (held : claimant.holds message.ownerId) :
      Reaction me random claimant message (claimant, [reply me established message])
  | yielded (established : Bool) (isProbe : message.type = .probe)
      (pending : claimant.pendingOwnerId = some message.ownerId) :
      Reaction me random claimant message
        ({ claimant with collisionDetected := true }, [reply me established message])
  | rotated (established : Bool) (isProbe : message.type = .probe)
      (owned : claimant.establishedOwnerId = some message.ownerId) (rotates : rotates me claimant message) :
      Reaction me random claimant message
        ({ claimant with establishedOwnerId := some random, pendingOwnerId := none },
          [reply me established message, probe me random])
  | collided (isClaim : message.type = .claim) (target : message.targetDocumentId = some me)
      (pending : claimant.pendingOwnerId = some message.ownerId) :
      Reaction me random claimant message ({ claimant with collisionDetected := true }, [])
  | replaced (isClaim : message.type = .claim)
      (owned : claimant.establishedOwnerId = some message.ownerId) (rotates : rotates me claimant message) :
      Reaction me random claimant message
        ({ claimant with establishedOwnerId := some random, pendingOwnerId := none }, [probe me random])

variable {me : δ} {random : ω} {claimant : Claimant ω} {message : OwnerMessage δ ω}

theorem Reaction.turn (proper : claimant.Proper)
    (reaction : Reaction me random claimant message result) :
    Turn me (fun id => rotates me claimant message ∧ id = random) claimant.holds claimant.keeps
      result := by
  cases reaction with
  | ignored _ _ => exact ⟨proper, fun _ => .inl, fun _ => .inl, by simp⟩
  | answered he isProbe _ hh => exact ⟨proper, fun _ => .inl, fun _ => .inl, by simpa [reply] using hh⟩
  | yielded he isProbe pending =>
    refine ⟨proper, fun _ => .inl, fun id hk => .inl (.inl (collided_keeps hk)), ?_⟩
    simp [reply, Claimant.holds, pending]
  | rotated _ _ ho rotates =>
    refine ⟨.inl rfl, fun id hh => .inr ⟨rotates, rotated_holds.1 hh⟩,
      fun id hk => .inr ⟨rotates, rotated_holds.1 hk.holds⟩, ?_⟩
    simp [reply, probe, Claimant.holds, ho]
  | collided isClaim _ _ =>
    exact ⟨proper, fun _ => .inl, fun id hk => .inl (.inl (collided_keeps hk)), by simp⟩
  | replaced _ _ rotates =>
    refine ⟨.inl rfl, fun id hh => .inr ⟨rotates, rotated_holds.1 hh⟩,
      fun id hk => .inr ⟨rotates, rotated_holds.1 hk.holds⟩, ?_⟩
    simp [probe]

theorem Reaction.late (proper : claimant.Proper)
    (reaction : Reaction me random claimant message result) (wins : message.documentId < me)
    (heard : message.type = .probe ∨ message.targetDocumentId = some me)
    (other : rotates me claimant message → random ≠ message.ownerId)
    (hk : claimant.keeps message.ownerId) (hs : result.1.keeps message.ownerId) :
    message.type = .claim ∧ message.targetDocumentId = some me ∧ message.established ≠ some true ∧
    claimant.establishedOwnerId = some message.ownerId := by
  have waiting : claimant.pendingOwnerId = some message.ownerId →
      claimant.establishedOwnerId ≠ some message.ownerId := by
    intro pending he
    rcases proper with none | ⟨-, none⟩
    · simp [none] at pending
    · simp [none] at he
  cases reaction with
  | ignored unheld unmoved =>
    cases isType : message.type with
    | probe => exact absurd hk.holds (unheld isType)
    | claim =>
      have target : message.targetDocumentId = some me := by simpa [isType] using heard
      obtain ⟨ho, unestablished⟩ := unmoved isType target wins hk
      exact ⟨rfl, target, unestablished, ho⟩
  | answered he isProbe loses _ => exact absurd wins loses
  | yielded he isProbe pending
  | collided isClaim _ pending => exact absurd (collided_keeps hs) (waiting pending)
  | rotated he isProbe ho rotates | replaced isClaim ho rotates =>
    exact absurd (rotated_holds.1 hs.holds).symm (other rotates)

section
variable (reaction : Reaction me random claimant message result)
include reaction

theorem Reaction.replies (isProbe : message.type = .probe) (hh : claimant.holds message.ownerId) :
    ∃ established, reply me established message ∈ result.2 := by
  cases reaction with
  | ignored unheld _ => exact absurd hh (unheld isProbe)
  | answered established | rotated established | yielded established => exact ⟨established, by simp⟩
  | collided isClaim | replaced isClaim => simp [isProbe] at isClaim

theorem Reaction.established {id : ω} (owned : claimant.establishedOwnerId = some id) :
    result.1.establishedOwnerId = some id ∨ message.ownerId = id := by
  cases reaction with
  | rotated established isProbe about
  | replaced _ about => exact .inr (some.inj (about.symm.trans owned))
  | ignored | collided | yielded | answered => exact .inl owned

theorem Reaction.posts_probe {post : OwnerMessage δ ω} (posted : post ∈ result.2)
    (isProbe : post.type = .probe) : rotates me claimant message ∧ post.ownerId = random := by
  have notReply : ∀ he, post ≠ reply me he message := by
    rintro he rfl
    simp [reply] at isProbe
  cases reaction with
  | ignored unheld unmoved | collided isClaim => simp at posted
  | answered he | yielded he => simp [notReply] at posted
  | rotated _ _ ho rotates =>
    obtain rfl : post = probe me random := by simpa [notReply] using posted
    exact ⟨rotates, rfl⟩
  | replaced _ _ rotates =>
    obtain rfl : post = probe me random := by simpa using posted
    exact ⟨rotates, rfl⟩

end

variable [DecidableEq ω]

theorem onProbe_reaction (isProbe : message.type = .probe) (proper : claimant.Proper) :
    Reaction me random claimant message (onProbe me random claimant message) := by
  have notClaim : message.type ≠ .claim := by simp [isProbe]
  by_cases he : claimant.establishedOwnerId = some message.ownerId
  · have pending : claimant.pendingOwnerId = none := by
      rcases proper with none | ⟨-, other⟩
      · exact none
      · simp [other] at he
    by_cases wins : message.documentId < me
    · simpa [onProbe, he, pending, wins, rotateEstablishedOwner] using
        Reaction.rotated true isProbe he ⟨he, wins, .inl isProbe⟩
    · simpa [onProbe, he, pending, wins] using Reaction.answered true isProbe wins (.inr he)
  · by_cases pending : claimant.pendingOwnerId = some message.ownerId
    · by_cases wins : message.documentId < me
      · simpa [onProbe, he, pending, wins] using Reaction.yielded false isProbe pending
      · simpa [onProbe, he, pending, wins] using Reaction.answered false isProbe wins (.inl pending)
    · have unheld : ¬ claimant.holds message.ownerId := not_or.mpr ⟨pending, he⟩
      simpa [onProbe, he, pending] using
        Reaction.ignored (fun _ => unheld) fun isClaim => absurd isClaim notClaim

theorem onClaim_reaction (isClaim : message.type = .claim) :
    Reaction me random claimant message (onClaim me random claimant message) := by
  have notProbe : message.type ≠ .probe := by simp [isClaim]
  by_cases target : message.targetDocumentId = some me
  · by_cases pending : claimant.pendingOwnerId = some message.ownerId
    · by_cases beaten : message.established = some true ∨ message.documentId < me
      · simpa [onClaim, target, pending, beaten] using Reaction.collided isClaim target pending
      · have ignored : onClaim me random claimant message = (claimant, []) := by
          simp [onClaim, target, pending, beaten]
        rw [ignored]
        exact .ignored (fun isProbe => absurd isProbe notProbe) fun _ _ wins => absurd (.inr wins) beaten
    · by_cases moved : claimant.establishedOwnerId = some message.ownerId ∧
          message.established = some true ∧ message.documentId < me
      · obtain ⟨ho, he, wins⟩ := moved
        have hr : onClaim me random claimant message = rotateEstablishedOwner me random claimant := by
          simp [onClaim, target, Ne.symm pending, ho, he, wins]
        rw [hr]
        exact .replaced isClaim ho ⟨ho, wins, .inr ⟨target, he⟩⟩
      · have ignored : onClaim me random claimant message = (claimant, []) := by
          simp only [onClaim, target, ne_eq, not_true_eq_false, if_false, Ne.symm pending, eq_comm, moved]
        rw [ignored]
        refine .ignored (fun isProbe => absurd isProbe notProbe) fun _ _ wins hk => ?_
        have ho : claimant.establishedOwnerId = some message.ownerId :=
          hk.elim id fun other => absurd other.1 pending
        exact ⟨ho, fun he => moved ⟨ho, he, wins⟩⟩
  · have ignored : onClaim me random claimant message = (claimant, []) := by simp [onClaim, target]
    rw [ignored]
    exact .ignored (fun isProbe => absurd isProbe notProbe) fun _ hs => absurd hs target

theorem onMessage_reaction (foreign : message.documentId ≠ me) (proper : claimant.Proper) :
    Reaction me random claimant message (onMessage me random claimant message) := by
  unfold onMessage
  rw [if_neg foreign]
  cases isType : message.type with
  | probe => exact onProbe_reaction isType proper
  | claim => exact onClaim_reaction isType

end Document

namespace Browser
variable {δ ω : Type}

def held (browser : Browser δ ω) (document : δ) (id : ω) : Prop :=
  ∃ claimant ∈ browser.documents document, claimant.holds id

def keeps (browser : Browser δ ω) (document : δ) (id : ω) : Prop :=
  ∃ claimant ∈ browser.documents document, claimant.keeps id

def established (browser : Browser δ ω) (document : δ) (id : ω) : Prop :=
  ∃ claimant ∈ browser.documents document, claimant.establishedOwnerId = some id

theorem established.keeps {browser : Browser δ ω} {document : δ} {id : ω}
    (ho : browser.established document id) : browser.keeps document id := by
  obtain ⟨claimant, hf, ho⟩ := ho
  exact ⟨claimant, hf, .inl ho⟩

section Found
variable {browser : Browser δ ω} {document : δ} {claimant : Claimant ω}
  (found : browser.documents document = some claimant)
include found

theorem held_eq : browser.held document = claimant.holds := by
  funext id
  simp [held, found]

theorem keeps_eq : browser.keeps document = claimant.keeps := by
  funext id
  simp [keeps, found]

end Found

variable [LinearOrder δ]

structure Sound (browser : Browser δ ω) : Prop where
  opened : ∀ document, document ∈ browser.opened ↔ browser.documents document ≠ none
  nodup : browser.opened.Nodup
  proper : ∀ document, ∀ claimant ∈ browser.documents document, claimant.Proper
  recipients : ∀ copy ∈ browser.flight,
    copy.recipient ∈ browser.opened ∧ copy.message.documentId ≠ copy.recipient
  known : ∀ document id, browser.held document id → (document, id) ∈ browser.candidates
  sent : ∀ copy ∈ browser.flight,
    (copy.message.documentId, copy.message.ownerId) ∈ browser.candidates

structure Taken (browser next : Browser δ ω) (me : δ) (left : List (Copy δ ω)) (root depth : Nat)
    (result : Claimant ω × List (OwnerMessage δ ω)) : Prop where
  documents : next.documents = update browser.documents me (some result.1)
  opened : ∀ document, document ∈ next.opened ↔ document = me ∨ document ∈ browser.opened
  nodup : next.opened.Nodup
  flight : next.flight = left ++ next.copies me root depth result.2
  kept : ∀ copy ∈ left, copy ∈ browser.flight
  candidates : next.candidates = browser.candidates ++ result.1.ids.map (me, ·)
  turn : ∃ fresh : ω → Prop, Turn me fresh (browser.held me) (browser.keeps me) result ∧
    ∀ id, fresh id → ¬ browser.InUse id ∨ probe me id ∈ result.2 ∧ me ∉ browser.opened

inductive Cause [DecidableEq ω] (browser next : Browser δ ω) (event : Event δ ω) (me : δ) :
    List (Copy δ ω) → Nat → Nat → Claimant ω × List (OwnerMessage δ ω) → Prop
  | loop {result : Claimant ω × List (OwnerMessage δ ω)} (few : result.2.length ≤ 1)
      (unestablished : ∀ id, ¬ browser.established me id) (roots : next.roots = browser.roots + 1)
      (audience : next.audience = update browser.audience browser.roots (next.others me).length)
      (caused : next.caused = browser.caused) :
      Cause browser next event me browser.flight browser.roots 0 result
  | message {position : Nat} {random : ω} {copy : Copy δ ω} {claimant : Claimant ω}
      {result : Claimant ω × List (OwnerMessage δ ω)} (isEvent : event = .delivers position random)
      (inFlight : browser.flight[position]? = some copy) (recipient : copy.recipient = me)
      (found : browser.documents me = some claimant)
      (fresh : rotates me claimant copy.message → ¬ browser.InUse random)
      (reaction : Reaction me random claimant copy.message result)
      (roots : next.roots = browser.roots) (audience : next.audience = browser.audience)
      (caused : next.caused =
        update browser.caused copy.root (browser.caused copy.root + result.2.length)) :
      Cause browser next event me (browser.flight.eraseIdx position) copy.root (copy.depth + 1) result

theorem mem_copies {browser : Browser δ ω} {me : δ} {root depth : Nat}
    {messages : List (OwnerMessage δ ω)} {copy : Copy δ ω} :
    copy ∈ browser.copies me root depth messages ↔
    copy.message ∈ messages ∧ copy.recipient ∈ browser.opened ∧ copy.recipient ≠ me ∧
    copy.root = root ∧ copy.depth = depth := by
  obtain ⟨message, recipient, _, _⟩ := copy
  simp only [copies, others, mem_flatMap, List.mem_map, mem_filter, Copy.mk.injEq,
    decide_eq_true_eq]
  constructor
  · rintro ⟨_, hl, _, ⟨isOpen, ha⟩, rfl, rfl, rfl, rfl⟩
    exact ⟨hl, isOpen, ha, rfl, rfl⟩
  · rintro ⟨hl, isOpen, ha, rfl, rfl⟩
    exact ⟨message, hl, recipient, ⟨isOpen, ha⟩, rfl, rfl, rfl, rfl⟩

section Steps
variable [DecidableEq ω] {browser next : Browser δ ω}

theorem step_cases {event : Event δ ω} (stepped : browser.step event = some next)
    (sound : browser.Sound) :
    (∃ document, event = .closes document ∧ next = browser.close document) ∨
    ∃ me left root depth result, Cause browser next event me left root depth result ∧
      Taken browser next me left root depth result := by
  cases event with
  | closes document =>
    obtain ⟨-, ⟨⟩⟩ := ite_none_right_eq_some.mp stepped
    exact .inl ⟨document, rfl, rfl⟩
  | opens document hs inMemory random =>
    obtain ⟨⟨hc, -⟩, ⟨⟩⟩ := ite_none_right_eq_some.mp stepped
    have ha : browser.documents document = none := by
      by_contra ht
      exact hc ((sound.opened document).mpr ht)
    refine .inr ⟨document, browser.flight, browser.roots, 0,
        claimTerminalOwnerId document hs inMemory random, ?_, ?_⟩
    · refine .loop (Nat.le_refl 1) ?_ rfl rfl rfl
      rintro id ⟨claimant, hf, -⟩
      simp [ha] at hf
    · refine ⟨rfl, fun _ => mem_cons, nodup_cons.mpr ⟨hc, sound.nodup⟩, rfl,
        fun _ => id, rfl, _, claimTerminalOwnerId_turn _ _ hs inMemory, ?_⟩
      rintro id rfl
      exact .inr ⟨mem_cons_self, hc⟩
  | elapses document random =>
    obtain ⟨claimant, hf, stepped⟩ := bind_eq_some_iff.mp stepped
    obtain ⟨⟨waiting, fresh⟩, ⟨⟩⟩ := ite_none_right_eq_some.mp stepped
    have isOpen : document ∈ browser.opened := (sound.opened document).mpr (by simp [hf])
    have proper := sound.proper document claimant hf
    refine .inr ⟨document, browser.flight, browser.roots, 0, claimElapsed document random claimant, ?_, ?_⟩
    · refine .loop claimElapsed_few ?_ rfl rfl rfl
      rintro id ⟨other, ht, ho⟩
      obtain rfl : claimant = other := by simpa [hf] using ht
      simp [(proper.resolve_left waiting).2] at ho
    · refine ⟨rfl, fun _ => ⟨.inr, fun h => h.elim (· ▸ isOpen) id⟩, sound.nodup, rfl,
        fun _ => id, rfl, ?_⟩
      rw [held_eq hf, keeps_eq hf]
      refine ⟨_, claimElapsed_turn waiting proper, ?_⟩
      rintro id ⟨collided, rfl⟩
      exact .inl (fresh collided)
  | delivers position random =>
    obtain ⟨copy, hi, stepped⟩ := bind_eq_some_iff.mp stepped
    obtain ⟨claimant, hf, stepped⟩ := bind_eq_some_iff.mp stepped
    obtain ⟨fresh, ⟨⟩⟩ := ite_none_right_eq_some.mp stepped
    obtain ⟨isOpen, foreign⟩ := sound.recipients copy (mem_of_getElem? hi)
    have proper := sound.proper copy.recipient claimant hf
    have reaction : Reaction copy.recipient random claimant copy.message _ :=
      onMessage_reaction foreign proper
    refine .inr ⟨copy.recipient, browser.flight.eraseIdx position, copy.root, copy.depth + 1,
      onMessage copy.recipient random claimant copy.message,
      .message rfl hi rfl hf fresh reaction rfl rfl rfl, ?_⟩
    refine ⟨rfl, fun _ => ⟨.inr, fun h => h.elim (· ▸ isOpen) id⟩, sound.nodup, rfl,
      fun _ => mem_of_mem_eraseIdx, rfl, ?_⟩
    rw [held_eq hf, keeps_eq hf]
    refine ⟨_, reaction.turn proper, ?_⟩
    rintro _ ⟨rotates, rfl⟩
    exact .inl (fresh rotates)

end Steps

end Browser

end Yinshi.Owners
