import Mathlib.Data.List.Nodup
import Mathlib.Data.List.Pairwise
import Mathlib.Data.List.Perm.Subperm
import Yinshi.Base.ByteText
import Yinshi.Base.Runs

/-! Admission of terminal channels: `start` with its owner claim, its reservation and its
commit, against closes, idle reaping, reader termination and `close_all`. A section under the
channels lock is one step; everything a start does between its sections may fail. -/

namespace Yinshi.Terminal
open ByteText Runs Relation List Option
variable {n : Nat}

def terminalsPerUserMax : Nat := 8

inductive AdmissionError
  | limit (message : String)
  | runtime (message : String)

/-- A `_TerminalChannel`; `ref` is the identity of the object. -/
structure Channel where
  ref : Nat
  id : Text
  userId : Text
  ownerId : Option Text
  closed : Bool := false
  deriving DecidableEq

/-- A call of `start` in flight, after its validation. -/
inductive Phase
  | claiming
  | claimed
  | reserved (replaced : Option Nat)
  | committed
  deriving DecidableEq

structure Start where
  userId : Text
  ownerId : Option Text
  phase : Phase

/-- The state of a `TerminalJournal`, with the calls of `start` in flight. -/
structure Terminals where
  channels : List Channel := []
  startingByUser : Text → Nat := fun _ => 0
  startingByOwner : List (Text × Text) := []
  closing : Bool := false
  starts : List Start := []
  nextRef : Nat := 0

def Start.ownerKey (start : Start) : Option (Text × Text) :=
  start.ownerId.map fun ownerId => (start.userId, ownerId)

def Channel.isOpen (userId : Text) (channel : Channel) : Prop :=
  channel.userId = userId ∧ channel.closed = false

instance (userId : Text) (channel : Channel) : Decidable (channel.isOpen userId) :=
  inferInstanceAs (Decidable (_ ∧ _))

namespace Terminals

/-! ### Sections under the lock -/

/-- The first section of `start`: the state and the channel to replace. Closed channels are
removed even when the limit is reached. -/
def reserve (s : Terminals) (userId : Text) (ownerId : Option Text) :
    Terminals × Except AdmissionError (Option Channel) :=
  if s.closing then (s, .error (.runtime "terminal journal is closing"))
  else
    let channels := s.channels.filter fun channel => ¬ (channel.userId = userId ∧ channel.closed = true)
    let replaced := ownerId.bind fun ownerId =>
      channels.find? fun channel => channel.userId = userId ∧ channel.ownerId = some ownerId
    let activeCount := channels.countP fun channel => channel.isOpen userId
    if terminalsPerUserMax + replaced.isSome.toNat ≤ activeCount + s.startingByUser userId then
      ({ s with channels := channels }, .error (.limit "terminal limit reached"))
    else
      ({ s with
          channels := channels
          startingByUser := Function.update s.startingByUser userId (s.startingByUser userId + 1) },
        .ok replaced)

/-- The second section of `start`. The replaced channel is removed if it is still registered. -/
def commit (s : Terminals) (start : Start) (replaced : Option Nat) (terminalId : Text) :
    Except AdmissionError Terminals :=
  if s.closing then .error (.runtime "terminal journal is closing")
  else if ∃ channel ∈ s.channels, channel.id = terminalId then
    .error (.runtime "terminal ID collision")
  else
    .ok { s with
      channels := s.channels.filter (fun channel => some channel.ref ≠ replaced) ++
        [{ ref := s.nextRef, id := terminalId, userId := start.userId, ownerId := start.ownerId }]
      nextRef := s.nextRef + 1 }

def releaseStartState (s : Terminals) (userId : Text) (reservationHeld : Bool)
    (ownerKey : Option (Text × Text)) : Except AdmissionError Terminals :=
  if reservationHeld ∧ s.startingByUser userId = 0 then
    .error (.runtime "terminal start reservation is missing")
  else
    let startingByUser := if reservationHeld then
      Function.update s.startingByUser userId (s.startingByUser userId - 1) else s.startingByUser
    match ownerKey with
    | none => .ok { s with startingByUser := startingByUser }
    | some key =>
      if key ∉ s.startingByOwner then
        .error (.runtime "terminal owner start reservation is missing")
      else .ok { s with
        startingByUser := startingByUser
        startingByOwner := s.startingByOwner.filter (· ≠ key) }

end Terminals

/-! ### Steps -/

def Phase.reservationHeld : Phase → Bool
  | .reserved _ | .committed => true
  | .claiming | .claimed => false

inductive AdmissionStep : Terminals → Terminals → Prop
  | begin {s : Terminals} (userId : Text) (ownerId : Option Text) :
      AdmissionStep s { s with starts := s.starts ++
        [⟨userId, ownerId, if ownerId.isSome then .claiming else .claimed⟩] }
  | claim {s : Terminals} {before after : List Start} {userId ownerId : Text}
      (inFlight : s.starts = before ++ ⟨userId, some ownerId, .claiming⟩ :: after)
      (free : (userId, ownerId) ∉ s.startingByOwner) :
      AdmissionStep s { s with
        startingByOwner := (userId, ownerId) :: s.startingByOwner
        starts := before ++ ⟨userId, some ownerId, .claimed⟩ :: after }
  -- cancelled while it waits for its owner
  | abandon {s : Terminals} {before after : List Start} {userId : Text} {ownerId : Option Text}
      (inFlight : s.starts = before ++ ⟨userId, ownerId, .claiming⟩ :: after) :
      AdmissionStep s { s with starts := before ++ after }
  | refuse {s next : Terminals} {before after : List Start} {userId : Text} {ownerId : Option Text}
      {error : AdmissionError}
      (inFlight : s.starts = before ++ ⟨userId, ownerId, .claimed⟩ :: after)
      (refused : s.reserve userId ownerId = (next, .error error)) : AdmissionStep s next
  | reserve {s next : Terminals} {before after : List Start} {userId : Text} {ownerId : Option Text}
      {replaced : Option Channel}
      (inFlight : s.starts = before ++ ⟨userId, ownerId, .claimed⟩ :: after)
      (reserved : s.reserve userId ownerId = (next, .ok replaced)) :
      AdmissionStep s { next with
        starts := before ++ ⟨userId, ownerId, .reserved (replaced.map (·.ref))⟩ :: after }
  | commit {s next : Terminals} {before after : List Start} {userId : Text} {ownerId : Option Text}
      {replaced : Option Nat} {terminalId : Text}
      (inFlight : s.starts = before ++ ⟨userId, ownerId, .reserved replaced⟩ :: after)
      (committed : s.commit ⟨userId, ownerId, .reserved replaced⟩ replaced terminalId = .ok next) :
      AdmissionStep s { next with starts := before ++ ⟨userId, ownerId, .committed⟩ :: after }
  -- the `finally` of a start that returned, failed or was cancelled
  | release {s next : Terminals} {before after : List Start} {start : Start}
      (inFlight : s.starts = before ++ start :: after) (past : start.phase ≠ .claiming)
      (released : s.releaseStartState start.userId start.phase.reservationHeld start.ownerKey =
        .ok next) :
      AdmissionStep s { next with starts := before ++ after }
  -- the reader ends, or the channel is closed
  | close {s : Terminals} (ref : Nat) :
      AdmissionStep s { s with channels := s.channels.map fun channel =>
        if channel.ref = ref then { channel with closed := true } else channel }
  -- `close` and `_reap_idle_channels` remove channels
  | remove {s : Terminals} (removed : Channel → Bool) :
      AdmissionStep s { s with channels := s.channels.filter fun channel => ¬ removed channel }
  | closeAll {s : Terminals} : AdmissionStep s { s with closing := true, channels := [] }

/-! ### Counts -/

def Start.target (start : Start) : Option Nat :=
  match start.phase with
  | .reserved replaced => replaced
  | _ => none

def Start.claim (start : Start) : Option (Text × Text) :=
  if start.phase = .claiming then none else start.ownerKey

def Start.isReserved (userId : Text) (start : Start) : Bool :=
  start.userId = userId ∧ start.phase.reservationHeld ∧ start.phase ≠ .committed

def Start.isHeld (userId : Text) (start : Start) : Bool :=
  start.userId = userId ∧ start.phase.reservationHeld

def Channel.isKept (userId : Text) (targets : List Nat) (channel : Channel) : Bool :=
  channel.isOpen userId ∧ channel.ref ∉ targets

theorem Channel.isKept_iff {userId : Text} {targets : List Nat} {channel : Channel} :
    channel.isKept userId targets = true ↔ channel.isOpen userId ∧ channel.ref ∉ targets :=
  decide_eq_true_iff

namespace Terminals
variable {userId : Text} {ownerId : Option Text} {next : Terminals}

def targets (s : Terminals) : List Nat := s.starts.filterMap Start.target

def claims (s : Terminals) : List (Text × Text) := s.starts.filterMap Start.claim

def openCount (s : Terminals) (userId : Text) : Nat :=
  s.channels.countP fun channel => channel.isOpen userId

/-- The open channels of a user that no start in flight is going to replace. -/
def retained (s : Terminals) (userId : Text) : Nat :=
  s.channels.countP (Channel.isKept userId s.targets)

/-- The starts of a user that hold a reservation and have not committed. -/
def uncommitted (s : Terminals) (userId : Text) : Nat := s.starts.countP (Start.isReserved userId)

def inFlight (s : Terminals) (userId : Text) : Nat := s.starts.countP (Start.isHeld userId)

def SameOwner (first second : Channel) : Prop :=
  first.userId = second.userId ∧ first.ownerId = second.ownerId ∧ first.ownerId ≠ none

structure Sound (s : Terminals) : Prop where
  refs : (s.channels.map (·.ref)).Nodup
  fresh : ∀ channel ∈ s.channels, channel.ref < s.nextRef
  targets : ∀ ref ∈ s.targets, ref < s.nextRef
  owners : ∀ start ∈ s.starts, ∀ ref, start.target = some ref →
    ∀ channel ∈ s.channels, channel.ref = ref → channel.userId = start.userId
  claims : s.claims.Nodup
  claimed : ∀ key, key ∈ s.startingByOwner ↔ key ∈ s.claims
  /-- Only the channel that is replaced has the owner of a reserved start. -/
  replaced : ∀ start ∈ s.starts, ∀ replaced, start.phase = .reserved replaced →
    ∀ channel ∈ s.channels, channel.userId = start.userId → channel.ownerId = start.ownerId →
      channel.ownerId ≠ none → replaced = some channel.ref
  single : s.channels.Pairwise fun first second => ¬ SameOwner first second
  capacity : ∀ userId, s.retained userId + s.uncommitted userId ≤ terminalsPerUserMax
  reserved : ∀ userId, s.startingByUser userId = s.inFlight userId
  closed : s.closing = true → s.channels = []

/-! ### Fewer channels -/

def Shrinks (channels smaller : List Channel) : Prop :=
  ∃ keep close : Channel → Bool, smaller = (channels.filter keep).map fun channel =>
    if close channel then { channel with closed := true } else channel

section Shrinking
variable {channels smaller : List Channel}

theorem shrinks_filter (keep : Channel → Bool) : Shrinks channels (channels.filter keep) :=
  ⟨keep, fun _ => false, by simp⟩

section
variable (shrinks : Shrinks channels smaller)
include shrinks

theorem Shrinks.refs : (smaller.map (·.ref)).Sublist (channels.map (·.ref)) := by
  obtain ⟨_, close, rfl⟩ := shrinks
  have hs : (fun channel : Channel => channel.ref) ∘ (fun channel : Channel =>
      if close channel then { channel with closed := true } else channel) = (·.ref) := by
    funext channel
    simp only [Function.comp_apply]
    split <;> rfl
  rw [List.map_map, hs]
  exact List.filter_sublist.map _

theorem Shrinks.member {channel : Channel} (hm : channel ∈ smaller) :
    ∃ old ∈ channels,
      channel.ref = old.ref ∧ channel.userId = old.userId ∧ channel.ownerId = old.ownerId := by
  obtain ⟨_, _, rfl⟩ := shrinks
  obtain ⟨old, hl, rfl⟩ := mem_map.mp hm
  refine ⟨old, (mem_filter.mp hl).1, ?_⟩
  split <;> exact ⟨rfl, rfl, rfl⟩

theorem Shrinks.count (userId : Text) (targets : List Nat) : smaller.countP
    (Channel.isKept userId targets) ≤ channels.countP (Channel.isKept userId targets) := by
  obtain ⟨_, _, rfl⟩ := shrinks
  rw [countP_map]
  refine le_trans (countP_mono_left ?_) (Sublist.countP_le filter_sublist)
  intro _ _
  simp only [Function.comp_apply, Channel.isKept, Channel.isOpen]
  split
  · simp
  · exact fun isKept => isKept

theorem Shrinks.single (single : channels.Pairwise fun first second => ¬ SameOwner first second) :
    smaller.Pairwise fun first second => ¬ SameOwner first second := by
  obtain ⟨_, _, rfl⟩ := shrinks
  rw [pairwise_map]
  refine (single.sublist filter_sublist).imp ?_
  intro _ _ ha
  split <;> split <;> exact ha

end

end Shrinking

variable {s : Terminals} {before after : List Start} {start : Start}

theorem Sound.shrink {channels : List Channel} (sound : s.Sound)
    (shrinks : Shrinks s.channels channels) : Sound { s with channels := channels } where
  refs := sound.refs.sublist shrinks.refs
  fresh := fun channel hm => by
    obtain ⟨old, hl, hs, -⟩ := shrinks.member hm
    exact hs ▸ sound.fresh old hl
  targets := sound.targets
  owners := fun start hl ref ht channel hm hs => by
    obtain ⟨old, ho, sameRef, sameUser, -⟩ := shrinks.member hm
    exact sameUser ▸ sound.owners start hl ref ht old ho (sameRef ▸ hs)
  claims := sound.claims
  claimed := sound.claimed
  replaced := fun start hl hr isReserved channel hm user owner some => by
    obtain ⟨old, ho, sameRef, sameUser, sameOwner⟩ := shrinks.member hm
    rw [sameRef]
    exact sound.replaced start hl hr isReserved old ho (sameUser ▸ user)
      (sameOwner ▸ owner) (sameOwner ▸ some)
  single := shrinks.single sound.single
  capacity := fun userId => by
    have hf := shrinks.count userId s.targets
    exact le_trans (Nat.add_le_add_right hf _) (sound.capacity userId)
  reserved := sound.reserved
  closed := fun closing => by
    obtain ⟨keep, close, rfl⟩ := shrinks
    simp [sound.closed closing]

/-! ### Starts without reservation -/

theorem Sound.restart {starts : List Start} {owners : List (Text × Text)} (sound : s.Sound)
    (targets : starts.filterMap Start.target = s.targets)
    (uncommitted : ∀ userId, starts.countP (Start.isReserved userId) = s.uncommitted userId)
    (hin : ∀ userId, starts.countP (Start.isHeld userId) = s.inFlight userId)
    (members : ∀ start ∈ starts, start ∈ s.starts ∨ start.phase.reservationHeld = false)
    (claims : (starts.filterMap Start.claim).Nodup)
    (claimed : ∀ key, key ∈ owners ↔ key ∈ starts.filterMap Start.claim) :
    Sound { s with starts := starts, startingByOwner := owners } where
  refs := sound.refs
  fresh := sound.fresh
  targets := by
    unfold Terminals.targets
    rw [targets]
    exact sound.targets
  owners := fun start hl ref ht => by
    rcases members start hl with old | hi
    · exact sound.owners start old ref ht
    · revert ht hi
      unfold Start.target Phase.reservationHeld
      cases start.phase <;> simp
  claims := claims
  claimed := claimed
  replaced := fun start hl hr hre => by
    rcases members start hl with old | hi
    · exact sound.replaced start old hr hre
    · simp [hre, Phase.reservationHeld] at hi
  single := sound.single
  capacity := fun userId => by
    have hs := sound.capacity userId
    unfold Terminals.retained Terminals.uncommitted Terminals.targets at hs ⊢
    rw [targets, uncommitted]
    exact hs
  reserved := fun userId => by
    unfold Terminals.inFlight
    rw [hin]
    exact sound.reserved userId
  closed := sound.closed

attribute [local simp] Terminals.uncommitted Terminals.inFlight

theorem Sound.begin (hs : s.Sound) (userId : Text) (ownerId : Option Text) :
    Sound { s with
      starts := s.starts ++ [⟨userId, ownerId, if ownerId.isSome then .claiming else .claimed⟩] } := by
  generalize isStart : Start.mk userId ownerId (if ownerId.isSome then .claiming else .claimed) = start
  have hi : start.target = none ∧ start.claim = none ∧ start.phase.reservationHeld = false := by
    rw [← isStart]
    cases ownerId <;> exact ⟨rfl, rfl, rfl⟩
  have claims : (s.starts ++ [start]).filterMap Start.claim = s.claims := by simp [Terminals.claims, hi]
  refine hs.restart ?_ ?_ ?_ ?_ (claims ▸ hs.claims) (claims ▸ hs.claimed)
  · simp [Terminals.targets, hi]
  · intro user
    simp [countP_append, Start.isReserved, hi]
  · intro _
    simp [countP_append, Start.isHeld, hi]
  · intro _ hm
    rcases mem_append.mp hm with old | new
    · exact .inl old
    · rw [mem_singleton.mp new]
      exact .inr hi.2.2

attribute [local simp] filterMap_cons

theorem Sound.claim {ownerId : Text} (hs : s.Sound)
    (hi : s.starts = before ++ ⟨userId, some ownerId, .claiming⟩ :: after)
    (hf : (userId, ownerId) ∉ s.startingByOwner) :
    Sound { s with
      startingByOwner := (userId, ownerId) :: s.startingByOwner
      starts := before ++ ⟨userId, some ownerId, .claimed⟩ :: after } := by
  have old : s.claims = before.filterMap Start.claim ++ after.filterMap Start.claim := by
    simp [Terminals.claims, hi, Start.claim]
  have new : (before ++ ⟨userId, some ownerId, .claimed⟩ :: after).filterMap Start.claim =
      before.filterMap Start.claim ++ (userId, ownerId) :: after.filterMap Start.claim := by
    simp [Start.claim, Start.ownerKey]
  have hf := mt (hs.claimed _).mpr hf
  have claims := hs.claims
  rw [old] at hf claims
  refine hs.restart ?_ ?_ ?_ ?_ ?_ ?_
  · simp [Terminals.targets, hi, Start.target]
  · intro user
    simp [hi, Start.isReserved, Phase.reservationHeld]
  · intro _
    simp [hi, Start.isHeld, Phase.reservationHeld]
  · intro _ hm
    rw [hi]
    rcases mem_append.mp hm with left | hr
    · exact .inl (by simp [left])
    · rcases mem_cons.mp hr with rfl | hr
      · exact .inr rfl
      · exact .inl (by simp [hr])
  · rw [new, nodup_middle, nodup_cons]
    exact ⟨hf, claims⟩
  · intro _
    rw [new, mem_cons, hs.claimed, old]
    simp only [mem_append, mem_cons]
    tauto

theorem Sound.abandon (hs : s.Sound)
    (hi : s.starts = before ++ ⟨userId, ownerId, .claiming⟩ :: after) :
    Sound { s with starts := before ++ after } := by
  have claims : (before ++ after).filterMap Start.claim = s.claims := by
    simp [Terminals.claims, hi, Start.claim]
  refine hs.restart ?_ ?_ ?_ ?_ (claims ▸ hs.claims) (claims ▸ hs.claimed)
  · simp [Terminals.targets, hi, Start.target]
  · intro user
    simp [hi, Start.isReserved, Phase.reservationHeld]
  · intro _
    simp [hi, Start.isHeld, Phase.reservationHeld]
  · intro _ hm
    rw [hi]
    rcases mem_append.mp hm with left | hr
    · exact .inl (by simp [left])
    · exact .inl (by simp [hr])

/-! ### Reservations -/

theorem countP_lt_of_mem {α : Type} {p q : α → Bool} {xs : List α} {x : α}
    (weaker : ∀ y, p y = true → q y = true) (hm : x ∈ xs) (only : q x = true) (not : p x = false) :
    xs.countP p < xs.countP q := by
  induction xs with
  | nil => simp at hm
  | cons y ys ih =>
    have rest : ys.countP p ≤ ys.countP q := countP_mono_left fun z _ => weaker z
    rw [countP_cons, countP_cons]
    rcases mem_cons.mp hm with rfl | later
    · simp only [not, only, Bool.false_eq_true, ↓reduceIte]
      omega
    · have := ih later
      have := weaker y
      by_cases first : p y = true
      · simp only [first, this first, ↓reduceIte]
        omega
      · simp only [first, Bool.false_eq_true, ↓reduceIte]
        omega

theorem Sound.sameOwner (sound : s.Sound) {first second : Channel} (one : first ∈ s.channels)
    (two : second ∈ s.channels) (hs : SameOwner first second) : first = second := by
  by_contra ha
  have : Std.Symm fun first second : Channel => ¬ SameOwner first second := by
    refine ⟨fun a b ha hs => ?_⟩
    exact ha ⟨hs.1.symm, hs.2.1.symm, hs.2.1 ▸ hs.2.2⟩
  exact sound.single.forall one two ha hs

theorem Sound.hold {replaced : Option Channel}
    (sound : s.Sound) (hi : s.starts = before ++ ⟨userId, ownerId, .claimed⟩ :: after)
    (found : replaced = ownerId.bind fun ownerId =>
      s.channels.find? fun channel => channel.userId = userId ∧ channel.ownerId = some ownerId)
    (opened : ∀ channel ∈ s.channels, channel.userId = userId → channel.closed = false)
    (room : s.openCount userId + s.startingByUser userId <
      terminalsPerUserMax + replaced.isSome.toNat) :
    Sound { s with
      startingByUser := Function.update s.startingByUser userId (s.startingByUser userId + 1)
      starts := before ++ ⟨userId, ownerId, .reserved (replaced.map (·.ref))⟩ :: after } := by
  have isChannel : ∀ channel, replaced = some channel →
      channel ∈ s.channels ∧ channel.userId = userId ∧ channel.ownerId = ownerId := by
    intro channel isReplaced
    rw [found] at isReplaced
    obtain ⟨owner, rfl, isFound⟩ := bind_eq_some_iff.mp isReplaced
    exact ⟨mem_of_find?_eq_some isFound, by simpa using find?_some isFound⟩
  have oldTargets : s.targets = before.filterMap Start.target ++ after.filterMap Start.target := by
    simp [Terminals.targets, hi, Start.target]
  have newTargets : ∀ ref, ref ∈ (before ++ ⟨userId, ownerId,
      .reserved (replaced.map (·.ref))⟩ :: after).filterMap Start.target ↔
      ref ∈ s.targets ∨ replaced.map (·.ref) = some ref := by
    intro ref
    rw [oldTargets]
    cases isReplaced : replaced <;>
      simp [Start.target, mem_append, or_comm, or_left_comm, eq_comm]
  have members : ∀ start ∈ before ++ ⟨userId, ownerId, .reserved (replaced.map (·.ref))⟩ :: after,
      start ∈ s.starts ∨ start = ⟨userId, ownerId, .reserved (replaced.map (·.ref))⟩ := by
    intro start hl
    rw [hi]
    simp only [mem_append, mem_cons] at hl ⊢
    tauto
  have claims : (before ++ ⟨userId, ownerId,
      .reserved (replaced.map (·.ref))⟩ :: after).filterMap Start.claim = s.claims := by
    simp [Terminals.claims, hi, Start.claim, Start.ownerKey]
  have uncommitted : ∀ user, (before ++ ⟨userId, ownerId,
      .reserved (replaced.map (·.ref))⟩ :: after).countP (Start.isReserved user) =
      s.uncommitted user + if userId = user then 1 else 0 := by
    intro user
    simp [hi, countP_cons, Start.isReserved, Phase.reservationHeld]
    omega
  have hh : ∀ user, (before ++ ⟨userId, ownerId,
      .reserved (replaced.map (·.ref))⟩ :: after).countP (Start.isHeld user) =
      s.inFlight user + if userId = user then 1 else 0 := by
    intro user
    simp [hi, countP_cons, Start.isHeld, Phase.reservationHeld]
    omega
  refine ⟨sound.refs, sound.fresh, ?_, ?_, ?_, ?_, ?_, sound.single, ?_, ?_, sound.closed⟩
  · intro ref hm
    rcases (newTargets ref).mp hm with old | new
    · exact sound.targets ref old
    · obtain ⟨channel, isReplaced, rfl⟩ := map_eq_some_iff.mp new
      exact sound.fresh channel (isChannel channel isReplaced).1
  · intro start hl ref ht channel hm hs
    rcases members start hl with old | rfl
    · exact sound.owners start old ref ht channel hm hs
    · obtain ⟨target, isReplaced, rfl⟩ := map_eq_some_iff.mp ht
      obtain ⟨isMember, user, -⟩ := isChannel target isReplaced
      rw [inj_on_of_nodup_map sound.refs hm isMember hs]
      exact user
  · unfold Terminals.claims
    rw [claims]
    exact sound.claims
  · intro key
    unfold Terminals.claims
    rw [claims]
    exact sound.claimed key
  · intro start hl target hr channel hm user owner some
    rcases members start hl with old | rfl
    · exact sound.replaced start old target hr channel hm user owner some
    · obtain rfl : replaced.map (·.ref) = target := Phase.reserved.inj hr
      obtain ⟨name, isName⟩ := ne_none_iff_exists'.mp some
      have hn : ownerId = Option.some name := owner.symm.trans isName
      cases isReplaced : replaced with
      | none =>
        rw [found, hn, bind_some, find?_eq_none] at isReplaced
        have unlike := isReplaced channel hm
        simp only [decide_eq_true_eq, not_and] at unlike
        exact absurd isName (unlike user)
      | some target =>
        obtain ⟨isMember, sameUser, sameOwner⟩ := isChannel target isReplaced
        have hs := sound.sameOwner isMember hm
          ⟨sameUser.trans user.symm, sameOwner.trans owner.symm, sameOwner ▸ hn ▸ by simp⟩
        rw [hs]
        rfl
  · intro user
    unfold Terminals.retained Terminals.uncommitted Terminals.targets
    rw [uncommitted]
    by_cases own : userId = user
    · subst own
      have starting : s.uncommitted userId ≤ s.startingByUser userId := by
        rw [sound.reserved]
        refine countP_mono_left fun start _ => ?_
        simp only [Start.isReserved, Start.isHeld, decide_eq_true_eq]
        exact fun hr => ⟨hr.1, hr.2.1⟩
      have weaker : ∀ (targets : List Nat) (channel : Channel),
          channel.isKept userId targets = true → decide (channel.isOpen userId) = true :=
        fun targets channel isKept => decide_eq_true (Channel.isKept_iff.1 isKept).1
      have credited : s.channels.countP (Channel.isKept userId
          ((before ++ ⟨userId, ownerId, .reserved (replaced.map (·.ref))⟩ ::
            after).filterMap Start.target)) + replaced.isSome.toNat ≤ s.openCount userId := by
        cases isReplaced : replaced with
        | none => exact countP_mono_left fun channel _ => weaker _ channel
        | some channel =>
          obtain ⟨hm, isUser, -⟩ := isChannel channel isReplaced
          refine countP_lt_of_mem (x := channel) (weaker _) hm ?_ ?_
          · simpa using ⟨isUser, opened channel hm isUser⟩
          · rw [← Bool.not_eq_true, Channel.isKept_iff, ← isReplaced, newTargets, isReplaced]
            simp
      simp only [↓reduceIte]
      omega
    · have hf : s.channels.countP (Channel.isKept user
          ((before ++ ⟨userId, ownerId, .reserved (replaced.map (·.ref))⟩ ::
            after).filterMap Start.target)) ≤ s.retained user := by
        refine countP_mono_left fun channel _ => ?_
        rw [Channel.isKept_iff, Channel.isKept_iff, newTargets, not_or]
        exact fun hre => ⟨hre.1, hre.2.1⟩
      have := sound.capacity user
      simp only [own, ↓reduceIte]
      omega
  · intro user
    unfold Terminals.inFlight
    rw [hh]
    by_cases own : userId = user
    · subst own
      simp [sound.reserved]
    · simp [own, Function.update_of_ne (Ne.symm own), sound.reserved]

theorem shrinks_reserve {error : AdmissionError}
    (hr : s.reserve userId ownerId = (next, .error error)) :
    ∃ channels, Shrinks s.channels channels ∧ next = { s with channels := channels } := by
  rw [Terminals.reserve] at hr
  split at hr
  · obtain ⟨rfl, -⟩ := Prod.mk.inj hr
    exact ⟨s.channels, ⟨fun _ => true, fun _ => false, by simp⟩, rfl⟩
  · dsimp only at hr
    split at hr
    · cases hr
      exact ⟨_, shrinks_filter _, rfl⟩
    · simp at hr

theorem Sound.reserve {replaced : Option Channel} (hs : s.Sound)
    (hi : s.starts = before ++ ⟨userId, ownerId, .claimed⟩ :: after)
    (hr : s.reserve userId ownerId = (next, .ok replaced)) :
    Sound { next with
      starts := before ++ ⟨userId, ownerId, .reserved (replaced.map (·.ref))⟩ :: after } := by
  rw [Terminals.reserve] at hr
  split at hr
  · simp at hr
  · dsimp only at hr
    split at hr
    · simp at hr
    next room =>
      obtain ⟨rfl, hf⟩ := Prod.mk.inj hr
      have live := hs.shrink (shrinks_filter fun channel =>
        ¬ (channel.userId = userId ∧ channel.closed = true))
      rw [Except.ok.inj hf] at room
      refine live.hold hi (Except.ok.inj hf).symm ?_ (Nat.not_le.mp room)
      intro _ hm user
      have := (mem_filter.mp hm).2
      simpa [user] using this

/-! ### Commits -/

theorem Sound.commit {replaced : Option Nat} {terminalId : Text} (sound : s.Sound)
    (hi : s.starts = before ++ ⟨userId, ownerId, .reserved replaced⟩ :: after)
    (hc : s.commit ⟨userId, ownerId, .reserved replaced⟩ replaced terminalId = .ok next) :
    Sound { next with starts := before ++ ⟨userId, ownerId, .committed⟩ :: after } := by
  rw [Terminals.commit] at hc
  split at hc
  · simp at hc
  next isOpen =>
    split at hc
    · simp at hc
    next =>
      cases hc
      have hk : Shrinks s.channels (s.channels.filter fun channel => some channel.ref ≠ replaced) :=
        shrinks_filter _
      have shrunk := sound.shrink hk
      have oldTargets : ∀ ref, ref ∈ s.targets ↔ replaced = some ref ∨
          ref ∈ (before ++ ⟨userId, ownerId, .committed⟩ :: after).filterMap Start.target := by
        intro ref
        rw [Terminals.targets, hi]
        cases replaced <;>
          simp [Start.target, mem_append, or_left_comm, eq_comm]
      have members : ∀ start ∈ before ++ ⟨userId, ownerId, .committed⟩ :: after,
          (start ∈ before ∨ start ∈ after) ∨ start = ⟨userId, ownerId, .committed⟩ := by
        intro start hl
        simp only [mem_append, mem_cons] at hl
        tauto
      have others : ∀ start, start ∈ before ∨ start ∈ after → start ∈ s.starts := by
        intro start hl
        rw [hi]
        simp only [mem_append, mem_cons]
        tauto
      have ht : ∀ start ref, start ∈ s.starts → start.target = some ref → ref < s.nextRef :=
        fun start ref hl own => sound.targets ref (mem_filterMap.mpr ⟨start, hl, own⟩)
      have claims : (before ++ ⟨userId, ownerId, .committed⟩ :: after).filterMap Start.claim = s.claims := by
        simp [Terminals.claims, hi, Start.claim, Start.ownerKey]
      have uncommitted : ∀ user, s.uncommitted user =
          (before ++ ⟨userId, ownerId, .committed⟩ :: after).countP (Start.isReserved user) +
            if userId = user then 1 else 0 := by
        intro user
        simp [hi, countP_cons, Start.isReserved, Phase.reservationHeld]
        omega
      have hh : ∀ user, (before ++ ⟨userId, ownerId, .committed⟩ :: after).countP
          (Start.isHeld user) = s.inFlight user := by
        intro user
        simp [hi, countP_cons, Start.isHeld, Phase.reservationHeld]
      refine ⟨?_, ?_, ?_, ?_, ?_, ?_, ?_, ?_, ?_, ?_, fun closing => absurd closing isOpen⟩
      · rw [map_append, nodup_append']
        refine ⟨shrunk.refs, by simp, ?_⟩
        intro ref old new
        obtain ⟨channel, hm, rfl⟩ := mem_map.mp old
        have := shrunk.fresh channel hm
        simp only [map_cons, map_nil, mem_singleton] at new this
        omega
      · intro channel hm
        rcases mem_append.mp hm with old | new
        · exact Nat.lt_succ_of_lt (shrunk.fresh channel old)
        · rw [mem_singleton.mp new]
          exact Nat.lt_succ_self _
      · intro ref hm
        exact Nat.lt_succ_of_lt (sound.targets ref ((oldTargets ref).mpr (.inr hm)))
      · intro start hl ref own channel hm hs
        rcases members start hl with old | rfl
        · rcases mem_append.mp hm with hk | new
          · exact shrunk.owners start (others start old) ref own channel hk hs
          · rw [mem_singleton.mp new] at hs
            have := ht start ref (others start old) own
            dsimp only at hs
            omega
        · simp [Start.target] at own
      · unfold Terminals.claims
        rw [claims]
        exact sound.claims
      · intro key
        unfold Terminals.claims
        rw [claims]
        exact sound.claimed key
      · intro start hl target hr channel hm user owner some
        rcases members start hl with old | rfl
        · rcases mem_append.mp hm with hk | new
          · exact shrunk.replaced start (others start old) target hr channel hk user owner some
          · -- no other start holds the claim of this owner
            rw [mem_singleton.mp new] at user owner some
            obtain ⟨name, isName⟩ := ne_none_iff_exists'.mp some
            dsimp only at isName
            have hn := sound.claims
            rw [← claims, filterMap_append, filterMap_cons_some (b := (userId, name))
              (by simp [Start.claim, Start.ownerKey, isName]), nodup_middle, nodup_cons]
              at hn
            refine absurd ?_ hn.1
            have claim : start.claim = Option.some (userId, name) := by
              simp only [Start.claim, Start.ownerKey, hr, reduceCtorEq, ↓reduceIte]
              rw [← owner, ← user, isName]
              rfl
            rcases old with left | right
            · exact mem_append_left _ (mem_filterMap.mpr ⟨start, left, claim⟩)
            · exact mem_append_right _ (mem_filterMap.mpr ⟨start, right, claim⟩)
        · simp at hr
      · rw [pairwise_append]
        refine ⟨shrunk.single, pairwise_singleton _ _, fun channel hm new isNew hs => ?_⟩
        rw [mem_singleton.mp isNew] at hs
        obtain ⟨old, isKept⟩ := mem_filter.mp hm
        have gone := sound.replaced ⟨userId, ownerId, .reserved replaced⟩ (by rw [hi]; simp)
          replaced rfl channel old hs.1 hs.2.1 hs.2.2
        simp [gone] at isKept
      · intro user
        have hf : (s.channels.filter fun channel => some channel.ref ≠ replaced).countP
            (Channel.isKept user
              ((before ++ ⟨userId, ownerId, .committed⟩ :: after).filterMap Start.target)) ≤
            s.retained user := by
          rw [countP_filter]
          refine countP_mono_left fun channel _ => ?_
          simp only [Bool.and_eq_true, decide_eq_true_eq, Channel.isKept_iff, oldTargets, not_or]
          exact fun ⟨hre, ha⟩ => ⟨hre.1, fun hs => ha hs.symm, hre.2⟩
        have capacity := sound.capacity user
        rw [uncommitted] at capacity
        unfold Terminals.retained Terminals.uncommitted Terminals.targets
        rw [countP_append]
        by_cases own : userId = user
        · have one : countP (Channel.isKept user
              ((before ++ ⟨userId, ownerId, .committed⟩ :: after).filterMap Start.target))
              [⟨s.nextRef, terminalId, userId, ownerId, false⟩] ≤ 1 := countP_le_length
          rw [if_pos own] at capacity
          dsimp only at one ⊢
          omega
        · have none : countP (Channel.isKept user
              ((before ++ ⟨userId, ownerId, .committed⟩ :: after).filterMap Start.target))
              [⟨s.nextRef, terminalId, userId, ownerId, false⟩] = 0 := by
            simp [Channel.isKept, Channel.isOpen, own]
          dsimp only at none ⊢
          omega
      · intro user
        unfold Terminals.inFlight
        rw [hh]
        exact sound.reserved user

/-! ### Releases -/

theorem countP_le_add {α : Type} {p q r : α → Bool} {xs : List α}
    (hc : ∀ x ∈ xs, p x = true → q x = true ∨ r x = true) :
    xs.countP p ≤ xs.countP q + xs.countP r := by
  induction xs with
  | nil => simp
  | cons _ _ _ =>
    rw [countP_cons, countP_cons, countP_cons]
    split <;> split <;> split <;> simp_all <;> omega

theorem Sound.targeted (sound : s.Sound) (hl : start ∈ s.starts) (userId : Text) :
    s.channels.countP
        (fun channel : Channel => channel.isOpen userId ∧ start.target = some channel.ref) ≤
      if start.isReserved userId then 1 else 0 := by
  cases ht : start.target with
  | none => simp
  | some ref =>
    by_cases own : start.userId = userId
    · have hr : start.isReserved userId = true := by
        revert ht
        unfold Start.target Start.isReserved Phase.reservationHeld
        cases start.phase <;> simp [own]
      rw [if_pos hr]
      have one := nodup_iff_count_le_one.mp sound.refs ref
      rw [count, countP_map] at one
      refine le_trans (countP_mono_left fun channel _ => ?_) one
      simp only [decide_eq_true_eq, Function.comp_apply, beq_iff_eq, some.injEq]
      exact fun target => target.2.symm
    · rw [countP_eq_zero.mpr]
      · exact Nat.zero_le _
      · intro channel hm
        simp only [decide_eq_true_eq, some.injEq]
        rintro ⟨⟨user, -⟩, hs⟩
        exact own ((sound.owners start hl ref ht channel hm hs.symm).symm.trans user)

theorem Sound.release {byUser : Text → Nat} {owners : List (Text × Text)} (sound : s.Sound)
    (hi : s.starts = before ++ start :: after) (past : start.phase ≠ .claiming)
    (hre : ∀ userId, s.startingByUser userId = byUser userId + if start.isHeld userId then 1 else 0)
    (claimed : ∀ key, key ∈ owners ↔ key ∈ s.startingByOwner ∧ start.ownerKey ≠ some key) :
    Sound { s with
        startingByUser := byUser, startingByOwner := owners, starts := before ++ after } := by
  have others : ∀ other ∈ before ++ after, other ∈ s.starts := by
    intro other hl
    rw [hi]
    simp only [mem_append, mem_cons] at hl ⊢
    tauto
  have hm : start ∈ s.starts := by
    rw [hi]
    simp
  have targets : ∀ ref, ref ∈ s.targets ↔ start.target = some ref ∨
      ref ∈ (before ++ after).filterMap Start.target := by
    intro ref
    rw [Terminals.targets, hi]
    simp only [mem_filterMap, mem_append, mem_cons]
    constructor
    · rintro ⟨other, left | rfl | hr, own⟩
      · exact .inr ⟨other, .inl left, own⟩
      · exact .inl own
      · exact .inr ⟨other, .inr hr, own⟩
    · rintro (own | ⟨other, left | hr, own⟩)
      · exact ⟨start, .inr (.inl rfl), own⟩
      · exact ⟨other, .inl left, own⟩
      · exact ⟨other, .inr (.inr hr), own⟩
  have claim : start.claim = start.ownerKey := by rw [Start.claim, if_neg past]
  have uncommitted : ∀ userId, s.uncommitted userId =
      (before ++ after).countP (Start.isReserved userId) +
        if start.isReserved userId then 1 else 0 := by
    intro userId
    rw [Terminals.uncommitted, hi, countP_append, countP_cons, countP_append, Nat.add_assoc]
  refine ⟨sound.refs, sound.fresh, ?_, ?_, ?_, ?_, ?_, sound.single, ?_, ?_, sound.closed⟩
  · intro ref hl
    exact sound.targets ref ((targets ref).mpr (.inr hl))
  · exact fun other hl => sound.owners other (others other hl)
  · have hn := sound.claims
    rw [Terminals.claims, hi] at hn
    exact hn.sublist ((Sublist.append_left (sublist_cons_self start after) before).filterMap Start.claim)
  · intro _
    rw [claimed, sound.claimed]
    have hn := sound.claims
    rw [Terminals.claims, hi, filterMap_append] at hn ⊢
    unfold Terminals.claims
    rw [filterMap_append]
    cases isKey : start.ownerKey with
    | none =>
      rw [filterMap_cons_none (claim.trans isKey)]
      simp
    | some _ =>
      rw [filterMap_cons_some (claim.trans isKey), nodup_middle, nodup_cons] at hn
      rw [filterMap_cons_some (claim.trans isKey)]
      simp only [mem_append, mem_cons, ne_eq, some.injEq] at hn ⊢
      constructor
      · tauto
      · rintro rest
        refine ⟨by tauto, ?_⟩
        rintro rfl
        exact hn.1 rest
  · exact fun other hl => sound.replaced other (others other hl)
  · intro userId
    have hf : s.channels.countP (Channel.isKept userId
        ((before ++ after).filterMap Start.target)) ≤ s.retained userId +
        s.channels.countP
          (fun channel : Channel => channel.isOpen userId ∧ start.target = some channel.ref) := by
      refine countP_le_add fun channel _ => ?_
      simp only [decide_eq_true_eq, Channel.isKept_iff, targets, not_or]
      tauto
    have one := sound.targeted hm userId
    have capacity := sound.capacity userId
    rw [uncommitted] at capacity
    unfold Terminals.retained Terminals.uncommitted Terminals.targets
    dsimp only at hf one capacity ⊢
    omega
  · intro userId
    have hs := sound.reserved userId
    rw [hre, Terminals.inFlight, hi, countP_append, countP_cons] at hs
    unfold Terminals.inFlight
    rw [countP_append]
    dsimp only
    omega

theorem releaseStartState_ok {held : Bool} {ownerKey : Option (Text × Text)}
    (hr : s.releaseStartState userId held ownerKey = .ok next) :
    ∃ byUser owners, next = { s with startingByUser := byUser, startingByOwner := owners } ∧
      (∀ user, s.startingByUser user = byUser user + if userId = user ∧ held = true then 1 else 0) ∧
      ∀ key, key ∈ owners ↔ key ∈ s.startingByOwner ∧ ownerKey ≠ some key := by
  rw [releaseStartState] at hr
  split at hr
  · simp at hr
  next hp =>
    have counts : ∀ user, s.startingByUser user =
        (if held then Function.update s.startingByUser userId (s.startingByUser userId - 1)
          else s.startingByUser) user + if userId = user ∧ held = true then 1 else 0 := by
      intro user
      cases held with
      | false => simp
      | true =>
        by_cases own : userId = user
        · subst own
          have : s.startingByUser userId ≠ 0 := fun zero => hp ⟨rfl, zero⟩
          simp
          omega
        · simp [own, Function.update_of_ne (Ne.symm own)]
    dsimp only at hr
    split at hr
    next isNone =>
      cases hr
      exact ⟨_, s.startingByOwner, rfl, counts, by simp⟩
    next _ key =>
      split at hr
      · simp at hr
      · cases hr
        refine ⟨_, _, rfl, counts, fun other => ?_⟩
        simp only [mem_filter, decide_eq_true_eq, ne_eq, some.injEq, @eq_comm _ key other]

theorem Sound.releases (hs : s.Sound) (hl : start ∈ s.starts) (past : start.phase ≠ .claiming) :
    ∃ next,
      s.releaseStartState start.userId start.phase.reservationHeld start.ownerKey = .ok next := by
  have hp : ¬ (start.phase.reservationHeld = true ∧ s.startingByUser start.userId = 0) := by
    rintro ⟨hh, zero⟩
    rw [hs.reserved, Terminals.inFlight, countP_eq_zero] at zero
    exact zero start hl (by simp [Start.isHeld, hh])
  rw [releaseStartState, if_neg hp]
  cases isKey : start.ownerKey with
  | none => exact ⟨_, rfl⟩
  | some key =>
    have claimed : key ∈ s.startingByOwner := by
      rw [hs.claimed]
      refine mem_filterMap.mpr ⟨start, hl, ?_⟩
      rw [Start.claim, if_neg past, isKey]
    exact ⟨_, if_neg (not_not.mpr claimed)⟩

theorem Sound.openCount_le (hs : s.Sound) (userId : Text) :
    s.openCount userId ≤ s.retained userId + s.uncommitted userId := by
  have hc : s.openCount userId ≤ s.retained userId +
      s.channels.countP (fun channel : Channel => channel.isOpen userId ∧ channel.ref ∈ s.targets) := by
    refine countP_le_add fun channel _ isOpen => ?_
    simp only [Channel.isKept_iff, decide_eq_true_eq] at isOpen ⊢
    tauto
  refine le_trans hc (Nat.add_le_add_left ?_ _)
  -- the refs of the targeted channels are distinct targets of starts of this user
  rw [countP_eq_length_filter, Terminals.uncommitted, countP_eq_length_filter,
    ← length_map fun channel : Channel => channel.ref]
  have hn : ((s.channels.filter fun channel : Channel =>
      channel.isOpen userId ∧ channel.ref ∈ s.targets).map (·.ref)).Nodup :=
    hs.refs.sublist (filter_sublist.map _)
  have targets : ∀ ref ∈ (s.channels.filter fun channel : Channel =>
      channel.isOpen userId ∧ channel.ref ∈ s.targets).map (·.ref),
      ref ∈ (s.starts.filter (Start.isReserved userId)).filterMap Start.target := by
    intro _ hm
    obtain ⟨channel, hl, rfl⟩ := mem_map.mp hm
    obtain ⟨hr, ht⟩ := mem_filter.mp hl
    simp only [decide_eq_true_eq] at ht
    obtain ⟨start, hi, own⟩ := mem_filterMap.mp ht.2
    refine mem_filterMap.mpr ⟨start, mem_filter.mpr ⟨hi, ?_⟩, own⟩
    have user := hs.owners start hi _ own channel hr rfl
    revert own
    unfold Start.target Start.isReserved Phase.reservationHeld
    cases start.phase <;> simp [← user, ht.1.1]
  exact le_trans (Subperm.length_le (subperm_of_subset hn targets)) (length_filterMap_le _ _)

theorem sound_initial : Sound {} := by
  refine ⟨by simp, by simp, by simp [targets], by simp, by simp [claims], by simp [claims], by simp,
    by simp, fun _ => ?_, fun _ => rfl, fun _ => rfl⟩
  simp [retained, uncommitted]

end Terminals

theorem AdmissionStep.sound (s next : Terminals) (step : AdmissionStep s next) (hs : s.Sound) :
    next.Sound := by
  cases step with
  | begin userId ownerId => exact hs.begin userId ownerId
  | claim hi hf => exact hs.claim hi hf
  | abandon hi => exact hs.abandon hi
  | refuse hi hr =>
    obtain ⟨channels, shrinks, rfl⟩ := Terminals.shrinks_reserve hr
    exact hs.shrink shrinks
  | reserve hi hre => exact hs.reserve hi hre
  | commit hi hc => exact hs.commit hi hc
  | release hi past released =>
    obtain ⟨_, _, rfl, counts, keys⟩ := Terminals.releaseStartState_ok released
    refine hs.release hi past (fun userId => ?_) keys
    rw [counts]
    simp [Start.isHeld]
  | close ref => exact hs.shrink ⟨fun _ => true, fun channel => channel.ref = ref, by simp⟩
  | remove _ => exact hs.shrink (Terminals.shrinks_filter _)
  | closeAll =>
    have gone := @Terminals.Sound.shrink s [] hs ⟨fun _ => false, fun _ => false, by simp⟩
    exact ⟨gone.refs, gone.fresh, gone.targets, gone.owners, gone.claims, gone.claimed,
      gone.replaced, gone.single, gone.capacity, gone.reserved, fun _ => rfl⟩

/-- In every interleaving: at most eight open channels of a user, at most eight with those of
the starts that have not committed, not counting the channels these replace; one channel of an
owner; as many reservations as starts that hold one, so that a release never misses its own;
no channel after `close_all`. -/
theorem admission_bounded {s : Terminals} (run : ReflTransGen AdmissionStep {} s) :
    (∀ userId, s.openCount userId ≤ terminalsPerUserMax ∧
        s.retained userId + s.uncommitted userId ≤ terminalsPerUserMax ∧
        s.startingByUser userId = s.inFlight userId) ∧
    (∀ userId ownerId,
      (s.channels.filter
          fun channel => channel.userId = userId ∧ channel.ownerId = some ownerId).length ≤ 1) ∧
    (∀ start ∈ s.starts, start.phase ≠ .claiming →
      ∃ next,
        s.releaseStartState start.userId start.phase.reservationHeld start.ownerKey = .ok next) ∧
    (s.closing = true → s.channels = []) := by
  have hs := run_keeps Terminals.Sound AdmissionStep.sound run Terminals.sound_initial
  refine ⟨fun userId => ⟨?_, hs.capacity userId, hs.reserved userId⟩, fun userId ownerId => ?_,
    fun start hl past => hs.releases hl past, hs.closed⟩
  · exact le_trans (hs.openCount_le userId) (hs.capacity userId)
  · have single := hs.single.sublist (filter_sublist
      (p := fun channel : Channel => channel.userId = userId ∧ channel.ownerId = some ownerId))
    generalize isOwned : s.channels.filter (fun channel : Channel =>
      channel.userId = userId ∧ channel.ownerId = some ownerId) = owned at single
    have members : ∀ channel ∈ owned, channel.userId = userId ∧ channel.ownerId = some ownerId := by
      intro _ hm
      rw [← isOwned] at hm
      simpa using (mem_filter.mp hm).2
    match owned with
    | [] | [_] => simp
    | first :: second :: _ =>
      have one := members first (by simp)
      have two := members second (by simp)
      refine absurd ?_ ((pairwise_cons.mp single).1 second (by simp))
      exact ⟨one.1.trans two.1.symm, one.2.trans two.2.symm, by simp [one.2]⟩

/-! ### A crowded user -/

def crowdChannel (i : Nat) : Channel := ⟨i, List.replicate i 97, text "user", none, false⟩

def crowdWith (n : Nat) (startingByUser : Text → Nat) (starts : List Start) : Terminals :=
  ⟨(List.range n).map crowdChannel, startingByUser, [], false, starts, n⟩

def crowd (n : Nat) : Terminals := crowdWith n (fun _ => 0) []

def crowding (n : Nat) : Terminals :=
  crowdWith (n + 1) (Function.update (fun _ => 0) (text "user") 1) [⟨text "user", none, .committed⟩]

theorem crowd_reserves (room : n < terminalsPerUserMax) (starts : List Start) :
    (crowdWith n (fun _ => 0) starts).reserve (text "user") none =
      (crowdWith n (Function.update (fun _ => 0) (text "user") 1) starts, .ok none) := by
  have live : ((range n).map crowdChannel).filter (fun channel =>
      ¬ (channel.userId = text "user" ∧ channel.closed = true)) = (range n).map crowdChannel := by
    refine filter_eq_self.mpr fun channel hm => ?_
    obtain ⟨i, -, rfl⟩ := mem_map.mp hm
    simp [crowdChannel]
  have count : ((range n).map crowdChannel).countP (fun channel => channel.isOpen (text "user")) = n := by
    rw [countP_eq_length.mpr, length_map, length_range]
    intro _ hm
    obtain ⟨_, -, rfl⟩ := mem_map.mp hm
    simp [crowdChannel, Channel.isOpen]
  rw [Terminals.reserve, if_neg (by simp [crowdWith])]
  simp only [crowdWith, live, count, bind_none, isSome_none, Bool.toNat_false]
  rw [if_neg (by simpa using room)]

theorem crowd_commits (n : Nat) (byUser : Text → Nat) (starts : List Start) :
    (crowdWith n byUser starts).commit ⟨text "user", none, .reserved none⟩ none
        (List.replicate n 97) = .ok (crowdWith (n + 1) byUser starts) := by
  rw [Terminals.commit, if_neg (by simp [crowdWith]), if_neg]
  · simp [crowdWith, range_succ, crowdChannel]
  · rintro ⟨_, hm, hs⟩
    obtain ⟨_, hb, rfl⟩ := mem_map.mp hm
    have := congrArg length hs
    simp only [crowdChannel, length_replicate] at this
    exact absurd (mem_range.mp hb) (by omega)

theorem crowd_crowding (room : n < terminalsPerUserMax) :
    ReflTransGen AdmissionStep (crowd n) (crowding n) := by
  have begun := @AdmissionStep.begin (crowd n) (text "user") none
  have hr := @AdmissionStep.reserve _ _ [] [] (text "user") none none rfl
    (crowd_reserves room [⟨text "user", none, .claimed⟩])
  have hc := @AdmissionStep.commit _ _ [] [] (text "user") none none (replicate n 97) rfl
    (crowd_commits n (Function.update (fun _ => 0) (text "user") 1) [⟨text "user", none, .reserved none⟩])
  exact .tail (.tail (.single begun) hr) hc

theorem crowd_grows (room : n < terminalsPerUserMax) :
    ReflTransGen AdmissionStep (crowd n) (crowd (n + 1)) := by
  have zero : Function.update (Function.update (fun _ => 0) (text "user") 1) (text "user") 0 =
      (fun _ => 0 : Text → Nat) := by
    rw [Function.update_idem, Function.update_eq_self_iff]
  have hr := @AdmissionStep.release (crowding n)
    (crowdWith (n + 1) (fun _ => 0) [⟨text "user", none, .committed⟩]) [] []
    ⟨text "user", none, .committed⟩ rfl (by simp) (by
      rw [Terminals.releaseStartState, if_neg (by simp [crowding, crowdWith])]
      simp [crowding, crowdWith, Phase.reservationHeld, Start.ownerKey, zero])
  exact .tail (crowd_crowding room) hr

theorem crowd_reached (room : n ≤ terminalsPerUserMax) : ReflTransGen AdmissionStep {} (crowd n) := by
  induction n with
  | zero => exact .refl
  | succ _ ih => exact (ih (by omega)).trans (crowd_grows (by omega))

theorem admission_bounded_crowd : (crowd 8).openCount (text "user") ≤ terminalsPerUserMax :=
  ((admission_bounded (crowd_reached (by decide))).1 (text "user")).1

/-- After the commit of the eighth channel and before its release, eight channels are open and
one reservation is still held. -/
theorem reservation_outlives_commit : ∃ s : Terminals, ReflTransGen AdmissionStep {} s ∧
    terminalsPerUserMax < s.retained (text "user") + s.startingByUser (text "user") :=
  ⟨crowding 7, (crowd_reached (by decide)).trans (crowd_crowding (by decide)), by decide⟩

end Yinshi.Terminal
