import Yinshi.Admission.Calls

/-! What every run keeps of the files: markers are whole, a file that is still being
written has no name but its temporary one, and nobody else writes to it. -/

namespace Yinshi.Admission
open ByteText Links Links.Directory Function Option
variable {files later : Files} {call next : Call} {s s' : System} {number : Nat} {event : Event}

/-! ### What one call does to the files -/

/-- The temporary name that a call has created and not yet removed. -/
def Stage.uuid : Stage → Option Nat
  | .writing uuid _ _ | .linking uuid _ | .unlinking uuid _ => some uuid
  | _ => none

def Stage.descriptor : Stage → Option Nat
  | .checkingLive inode | .locking inode => some inode
  | _ => none

def Call.Same (call next : Call) : Prop :=
  next.process = call.process ∧ next.key = call.key ∧ next.owner = call.owner ∧ next.task = call.task

theorem Call.Same.refl (call : Call) : call.Same call := ⟨rfl, rfl, rfl, rfl⟩

/-- The effect of an operating-system call of `call`, which stands at `stage` after it. -/
inductive Effect (files : Files) (call : Call) : Stage → Files → Prop
  | keep {stage : Stage} (plain : stage.uuid = none)
      (gone : ∀ uuid linked, call.stage = .unlinking uuid linked → files.entry (.temporary uuid) = none) :
      Effect files call stage files
  | live (here : call.stage = .openingLive) (absent : files.entry (.live call.key) = none) :
      Effect files call (.checkingLive files.next) (files.create (.live call.key) .empty)
  | create {uuid : Nat} (here : call.stage = .creating) (absent : files.entry (.temporary uuid) = none) :
      Effect files call (.writing uuid files.next 0) (files.create (.temporary uuid) (.start call.owner 0))
  | write {uuid inode written total : Nat} (here : call.stage = .writing uuid inode written) :
      Effect files call (.writing uuid inode total) (files.write inode (.start call.owner total))
  | written {uuid inode written : Nat} (here : call.stage = .writing uuid inode written) :
      Effect files call (.linking uuid inode) (files.write inode (.whole call.owner))
  | link {uuid inode : Nat} (here : call.stage = .linking uuid inode)
      (absent : files.entry (.marker call.task.role call.key) = none) :
      Effect files call (.unlinking uuid true) (files.link inode (.marker call.task.role call.key))
  | refused {uuid inode : Nat} (here : call.stage = .linking uuid inode)
      (taken : files.entry (.marker call.task.role call.key) ≠ none) :
      Effect files call (.unlinking uuid false) files
  | unlink {uuid inode : Nat} {linked : Bool} {stage : Stage} (here : call.stage = .unlinking uuid linked)
      (entry : files.entry (.temporary uuid) = some inode) (plain : stage.uuid = none) :
      Effect files call stage (files.unlink inode (.temporary uuid))
  | remove {inode : Nat} (here : call.stage = .removing)
      (entry : files.entry (.marker call.task.role call.key) = some inode) :
      Effect files call .syncing (files.unlink inode (.marker call.task.role call.key))

theorem Effect.stay {old stage : Stage} (hh : call.stage = old) (hp : stage.uuid = none)
    (ha : ∀ uuid linked, old ≠ .unlinking uuid linked) : Effect files call stage files := by
  refine .keep hp fun uuid linked ht => ?_
  exact absurd (hh.symm.trans ht) (ha uuid linked)

theorem uuid_granting (call : Call) : call.granting.uuid = none := by
  unfold Call.granting
  split <;> rfl

theorem descriptor_granting (call : Call) : call.granting.descriptor = none := by
  unfold Call.granting
  split <;> rfl

theorem uuid_found (call : Call) (role : Role) (existing : Option Payload) :
    (call.found role existing).uuid = none := by
  unfold Call.found
  repeat' split
  all_goals first
    | rfl
    | exact uuid_granting call

theorem descriptor_found (call : Call) (role : Role) (existing : Option Payload) :
    (call.found role existing).descriptor = none := by
  unfold Call.found
  repeat' split
  all_goals first
    | rfl
    | exact descriptor_granting call

namespace System
variable {s : System} {number uuid count : Nat} {call : Call}
variable {inode : Nat}

@[simp] theorem directory_unlock : (s.unlock number).directory = s.directory := rfl
@[simp] theorem calls_unlock : (s.unlock number).calls = s.calls := rfl
@[simp] theorem lifecycle_unlock : (s.unlock number).lifecycle = s.lifecycle := rfl
@[simp] theorem directory_put : (s.put number call).directory = s.directory := rfl
@[simp] theorem lifecycle_put : (s.put number call).lifecycle = s.lifecycle := rfl
@[simp] theorem flock_put : (s.put number call).flock = s.flock := rfl
@[simp] theorem calls_put : (s.put number call).calls = update s.calls number (some call) := rfl

@[simp] theorem directory_closeLease (lease : Nat) : (s.closeLease lease).directory = s.directory := by
  unfold closeLease
  repeat' split
  all_goals rfl

def Beside (old new : Option Call) : Prop :=
  new = old ∨ ∃ call, old = some call ∧ call.stage = .granted ∧ new = some { call with stage := .ended true }

theorem beside_closeLease (lease other : Nat) :
    Beside (s.calls other) ((s.closeLease lease).calls other) := by
  unfold closeLease
  split
  · next call hf =>
      split
      · next granted =>
          by_cases hs : other = lease
          · subst hs
            exact .inr ⟨call, hf, granted, by simp [move]⟩
          · exact .inl (by simp [move, hs])
      · exact .inl rfl
  · exact .inl rfl

theorem flock_unlock {holder : Nat} (hh : (s.unlock number).flock inode = some holder) :
    s.flock inode = some holder ∧ holder ≠ number := by
  simp only [unlock, filter_eq_some_iff, bne_iff_ne] at hh
  exact hh

theorem flock_closeLease {lease holder : Nat}
    (hh : (s.closeLease lease).flock inode = some holder) : s.flock inode = some holder := by
  unfold closeLease at hh
  repeat' split at hh
  · exact (flock_unlock hh).1
  · exact hh
  · exact hh

/-- `s'` is `s` after an operating-system call of the call `number`, which was `call`. -/
structure Acted (s : System) (number : Nat) (call next : Call) (s' : System) : Prop where
  same : call.Same next
  own : s'.calls number = some next
  others : ∀ other, other ≠ number → Beside (s.calls other) (s'.calls other)
  effect : Effect s.directory call next.stage s'.directory
  anchor : next.live = call.live ∧
    (next.stage.descriptor = none ∨ next.stage.descriptor = call.stage.descriptor) ∨
    ∃ inode, next.live = some inode ∧ next.stage = .checkingLive inode ∧
      s'.directory.entry (.live call.key) = some inode
  locks : ∀ inode holder, s'.flock inode = some holder → s.flock inode = some holder ∨
    call.stage = .locking inode ∧ holder = number

theorem acted_move {s' : System} {stage : Stage}
    (calls : s'.calls = update s.calls number (some { call with stage := stage }))
    (effect : Effect s.directory call stage s'.directory)
    (hp : stage.descriptor = none ∨ stage.descriptor = call.stage.descriptor)
    (locks : ∀ inode holder, s'.flock inode = some holder →
        s.flock inode = some holder ∨ call.stage = .locking inode ∧ holder = number) :
    Acted s number call { call with stage := stage } s' where
  same := Call.Same.refl call
  own := by rw [calls, update_self]
  others other apart := .inl (by rw [calls, update_of_ne apart])
  effect := effect
  anchor := .inl ⟨rfl, hp⟩
  locks := locks

theorem acted_live {s' : System}
    (calls : s'.calls =
        update s.calls number (some { call with live := some inode, stage := .checkingLive inode }))
    (effect : Effect s.directory call (.checkingLive inode) s'.directory)
    (entry : s'.directory.entry (.live call.key) = some inode) (flock : s'.flock = s.flock) :
    Acted s number call { call with live := some inode, stage := .checkingLive inode } s' where
  same := ⟨rfl, rfl, rfl, rfl⟩
  own := by rw [calls, update_self]
  others other apart := .inl (by rw [calls, update_of_ne apart])
  effect := effect
  anchor := .inr ⟨inode, rfl, rfl, entry⟩
  locks _ _ held := .inl (flock ▸ held)

theorem act_acted (hf : s.calls number = some call) (working : call.stage.isWorking) :
    ∃ next, Acted s number call next (s.act number call uuid count) := by
  have hs : ∀ inode holder, s.flock inode = some holder → s.flock inode = some holder ∨
      call.stage = .locking inode ∧ holder = number := fun _ _ held => .inl held
  unfold act
  split
  · next hh =>
      split
      · refine ⟨_, acted_move rfl (.stay hh ?_ (by simp)) (.inl ?_) hs⟩
        all_goals split <;> rfl
      · exact ⟨call, Call.Same.refl call, hf, fun _ _ => .inl rfl, .stay hh (by rw [hh]; rfl) (by simp),
          .inl ⟨rfl, .inr rfl⟩, hs⟩
  · next hh =>
      split
      · exact ⟨_, acted_move rfl (.stay hh (uuid_found _ _ _) (by simp)) (.inl (descriptor_found _ _ _)) hs⟩
      · exact ⟨_, acted_move rfl (.stay hh rfl (by simp)) (.inl rfl) hs⟩
  · next hh =>
      refine ⟨_, acted_move rfl (.stay hh ?_ (by simp)) (.inl ?_) hs⟩
      all_goals split <;> rfl
  · next hh =>
      split
      · exact ⟨_, acted_move rfl (.stay hh rfl (by simp)) (.inl rfl) hs⟩
      · exact ⟨_, acted_move rfl (.stay hh (uuid_found _ _ _) (by simp)) (.inl (descriptor_found _ _ _)) hs⟩
  · next hh =>
      split
      · next entry => exact ⟨_, acted_live rfl (.stay hh rfl (by simp)) entry rfl⟩
      · next ha => exact ⟨_, acted_live rfl (.live hh ha) (update_self _ _ _) rfl⟩
  · next hh =>
      split
      · exact ⟨_, acted_move rfl (.stay hh rfl (by simp)) (.inr (by rw [hh]; rfl)) hs⟩
      · exact ⟨_, acted_move rfl (.stay hh rfl (by simp)) (.inl rfl) hs⟩
  · next target hh =>
      split
      · refine ⟨_, acted_move rfl (.stay hh rfl (by simp)) (.inl rfl) fun inode holder held => ?_⟩
        change update s.flock target (some number) inode = some holder at held
        by_cases same : inode = target
        · subst same
          rw [update_self] at held
          exact .inr ⟨hh, (some.inj held).symm⟩
        · rw [update_of_ne same] at held
          exact .inl held
      · exact ⟨_, acted_move rfl (.stay hh rfl (by simp)) (.inl rfl) hs⟩
  · next hh =>
      split
      · exact ⟨_, acted_move rfl (.stay hh rfl (by simp)) (.inl rfl) hs⟩
      · next ha => exact ⟨_, acted_move rfl (.create hh ha) (.inl rfl) hs⟩
  · next written hh =>
      split
      · exact ⟨_, acted_move rfl (.stay hh rfl (by simp)) (.inl rfl) hs⟩
      · by_cases hw : min (written + count) call.owner.dumps.length = call.owner.dumps.length
        · simp only [hw, ↓reduceIte]
          exact ⟨_, acted_move rfl (.written hh) (.inl rfl) hs⟩
        · simp only [hw, ↓reduceIte]
          exact ⟨_, acted_move rfl (.write hh) (.inl rfl) hs⟩
  · next hh =>
      split
      · next taken => exact ⟨_, acted_move rfl (.refused hh (by simp [taken])) (.inl rfl) hs⟩
      · next ha => exact ⟨_, acted_move rfl (.link hh ha) (.inl rfl) hs⟩
  · next hh =>
      split
      · next ha =>
          refine ⟨_, acted_move rfl (.keep rfl fun other linked ht => ?_) (.inl rfl) hs⟩
          rw [hh] at ht
          rw [← (Stage.unlinking.inj ht).1]
          exact ha
      · next entry =>
          refine ⟨_, acted_move rfl (.unlink hh entry ?_) (.inl ?_) hs⟩
          all_goals split <;> rfl
  · next hh =>
      split
      · exact ⟨_, acted_move rfl (.stay hh rfl (by simp)) (.inl rfl) hs⟩
      · next entry => exact ⟨_, acted_move rfl (.remove hh entry) (.inl rfl) hs⟩
  · next hh =>
      split
      · exact ⟨_, acted_move rfl (.stay hh (uuid_granting call) (by simp)) (.inl (descriptor_granting call)) hs⟩
      · exact ⟨_, acted_move rfl (.stay hh rfl (by simp)) (.inl rfl) hs⟩
  · next ok hh =>
      split
      · next lease _ =>
          refine ⟨{ call with stage := .ended ok },
            Call.Same.refl call, by simp [move], ?_, ?_, .inl ⟨rfl, .inl rfl⟩, ?_⟩
          · intro other apart
            simpa [move, apart] using beside_closeLease (s := s) lease other
          · simpa [move] using Effect.stay hh rfl (by simp)
          · exact fun inode holder held => .inl (flock_closeLease held)
      · refine ⟨_, acted_move rfl (.stay hh rfl (by simp)) (.inl rfl) ?_⟩
        exact fun inode holder held => .inl (flock_unlock held).1
  all_goals
    next hh =>
      rw [hh] at working
      exact absurd working (by simp [Stage.isWorking])

end System

/-! ### The layout -/

def Owes (files : Files) (call : Call) : Prop :=
  match call.stage with
  | .writing uuid inode _ =>
    files.entry (.temporary uuid) = some inode ∧
      ∀ name, files.entry name = some inode → name = .temporary uuid
  | .linking uuid inode =>
    files.entry (.temporary uuid) = some inode ∧
      (∀ name, files.entry name = some inode → name = .temporary uuid) ∧
      (files.inode inode).content = .whole call.owner
  | .unlinking uuid linked =>
    ∃ inode, files.entry (.temporary uuid) = some inode ∧
      ∀ name, files.entry name = some inode →
        name = .temporary uuid ∨ linked ∧ name = .marker call.task.role call.key
  | _ => True

theorem owes_of_plain (hp : call.stage.uuid = none) : Owes files call := by
  unfold Owes
  split
  all_goals first
    | trivial
    | next hh =>
      rw [hh] at hp
      exact absurd hp (by simp [Stage.uuid])

def Keeps (files later : Files) (uuid : Nat) : Prop :=
  ∀ inode, files.entry (.temporary uuid) = some inode →
    later.entry (.temporary uuid) = some inode ∧
      (∀ name, later.entry name = some inode → files.entry name = some inode) ∧
      (later.inode inode).content = (files.inode inode).content

theorem Owes.keep (owes : Owes files call)
    (keeps : ∀ uuid, call.stage.uuid = some uuid → Keeps files later uuid) : Owes later call := by
  unfold Owes at owes ⊢
  split at owes
  · next uuid inode _ hh =>
      obtain ⟨entry, only⟩ := owes
      obtain ⟨hk, names, _⟩ := keeps uuid (by rw [hh]; rfl) inode entry
      exact ⟨hk, fun name hn => only name (names name hn)⟩
  · next uuid inode hh =>
      obtain ⟨entry, only, content⟩ := owes
      obtain ⟨hk, names, sameContent⟩ := keeps uuid (by rw [hh]; rfl) inode entry
      exact ⟨hk, fun name hn => only name (names name hn), sameContent.trans content⟩
  · next uuid _ hh =>
      obtain ⟨inode, entry, only⟩ := owes
      obtain ⟨hk, names, _⟩ := keeps uuid (by rw [hh]; rfl) inode entry
      exact ⟨inode, hk, fun name hn => only name (names name hn)⟩
  · trivial

/-- The part of the layout that is about the files alone. -/
structure Sound (files : Files) : Prop where
  counted : files.Counted
  single : ∀ name other inode, files.entry name = some inode → files.entry other = some inode →
    name.isTemporary = other.isTemporary → name = other
  marked : ∀ role key inode, files.entry (.marker role key) = some inode →
    ∃ payload : Payload, payload.isOwner role ∧ (files.inode inode).content = .whole payload
  lived : ∀ key inode, files.entry (.live key) = some inode → (files.inode inode).content = .empty

structure Laid (s : System) : Prop where
  sound : Sound s.directory
  owners : ∀ number call, s.calls number = some call → call.owner.isOwner call.task.role
  owes : ∀ number call, s.calls number = some call → Owes s.directory call
  apart : ∀ number other call call' uuid, s.calls number = some call → s.calls other = some call' →
    call.stage.uuid = some uuid → call'.stage.uuid = some uuid → number = other

attribute [local simp] System.initial

theorem laid_initial : Laid .initial where
  sound := by
    refine ⟨Directory.counted_empty _, ?_, ?_, ?_⟩
    · intro _ _ inode entry
      simp [Directory.empty] at entry
    · intro _ key inode entry
      simp [Directory.empty] at entry
    · intro _ _ entry
      simp [Directory.empty] at entry
  owners _ _ found := by simp at found
  owes _ _ found := by simp at found
  apart _ _ _ _ _ found := by simp at found

/-! ### What the calls keep of it -/

section Files
variable {files : Files} {name : Name} {inode : Nat} {content : Content}
variable {uuid target : Nat}

theorem Sound.create (sound : Sound files) (ha : files.entry name = none)
    (hp : ∀ role key, name ≠ .marker role key) (live : ∀ key, name = .live key → content = .empty) :
    Sound (files.create name content) where
  counted := sound.counted.create ha content
  single one two inode entry entry' kind := by
    rcases entry_create entry with ⟨rfl, hf⟩ | ⟨_, old⟩
    · rcases entry_create entry' with ⟨rfl, _⟩ | ⟨_, old⟩
      · rfl
      · exact absurd (sound.counted.used _ _ old) (by omega)
    · rcases entry_create entry' with ⟨rfl, _⟩ | ⟨_, old'⟩
      · exact absurd (sound.counted.used _ _ old) (by omega)
      · exact sound.single one two inode old old' kind
  marked role key inode entry := by
    rcases entry_create entry with ⟨hs, _⟩ | ⟨_, old⟩
    · exact absurd hs.symm (hp role key)
    · rw [content_create (sound.counted.used _ _ old)]
      exact sound.marked role key inode old
  lived key inode entry := by
    rcases entry_create entry with ⟨hs, rfl⟩ | ⟨_, old⟩
    · rw [content_create_next]
      exact live key hs.symm
    · rw [content_create (sound.counted.used _ _ old)]
      exact sound.lived key inode old

theorem Sound.write (hs : Sound files)
    (only : ∀ name, files.entry name = some inode → name = .temporary uuid) (content : Content) :
    Sound (files.write inode content) where
  counted := hs.counted.write inode content
  single := hs.single
  marked role key target entry := by
    have ha : target ≠ inode := by
      rintro rfl
      cases only _ entry
    rw [content_write ha]
    exact hs.marked role key target entry
  lived key target entry := by
    have ha : target ≠ inode := by
      rintro rfl
      cases only _ entry
    rw [content_write ha]
    exact hs.lived key target entry

theorem Sound.link (sound : Sound files) {role : Role} {key : Text} {payload : Payload}
    (entry : files.entry (.temporary uuid) = some inode)
    (only : ∀ name, files.entry name = some inode → name = .temporary uuid)
    (content : (files.inode inode).content = .whole payload) (owner : payload.isOwner role)
    (ha : files.entry (.marker role key) = none) : Sound (files.link inode (.marker role key)) where
  counted := sound.counted.link ha (sound.counted.used _ _ entry)
  single one two target entry' entry'' kind := by
    rcases entry_link entry' with ⟨rfl, rfl⟩ | ⟨_, old⟩
    · rcases entry_link entry'' with ⟨rfl, _⟩ | ⟨_, old⟩
      · rfl
      · rw [only _ old] at kind
        exact absurd kind (by simp [Name.isTemporary])
    · rcases entry_link entry'' with ⟨rfl, rfl⟩ | ⟨_, old'⟩
      · rw [only _ old] at kind
        exact absurd kind (by simp [Name.isTemporary])
      · exact sound.single one two target old old' kind
  marked role' key' target entry' := by
    rw [content_link]
    rcases entry_link entry' with ⟨hs, rfl⟩ | ⟨_, old⟩
    · cases hs
      exact ⟨payload, owner, content⟩
    · exact sound.marked role' key' target old
  lived key' target entry' := by
    rw [content_link]
    rcases entry_link entry' with ⟨hs, _⟩ | ⟨_, old⟩
    · cases hs
    · exact sound.lived key' target old

theorem Sound.unlink (hs : Sound files) (entry : files.entry name = some inode) :
    Sound (files.unlink inode name) where
  counted := hs.counted.unlink entry
  single one two target entry' entry'' kind :=
    hs.single one two target (entry_unlink entry').2 (entry_unlink entry'').2 kind
  marked role key target entry' := by
    rw [content_unlink]
    exact hs.marked role key target (entry_unlink entry').2
  lived key target entry' := by
    rw [content_unlink]
    exact hs.lived key target (entry_unlink entry').2

/-! Every effect leaves the temporary files of the other calls alone. -/

theorem keeps_refl (uuid : Nat) : Keeps files files uuid := fun _ entry => ⟨entry, fun _ hn => hn, rfl⟩

theorem keeps_create (hs : Sound files) (absent : files.entry name = none) (uuid : Nat) :
    Keeps files (files.create name content) uuid := by
  intro _ entry
  have hb := hs.counted.used _ _ entry
  have ha : Name.temporary uuid ≠ name := by
    rintro rfl
    cases entry.symm.trans absent
  refine ⟨(entry_create_of_ne ha).trans entry, fun other hn => ?_, content_create hb⟩
  rcases entry_create hn with ⟨_, _⟩ | ⟨_, old⟩
  · omega
  · exact old

theorem keeps_write {other : Nat}
    (only : ∀ name, files.entry name = some target → name = .temporary uuid) (ha : other ≠ uuid) :
    Keeps files (files.write target content) other := by
  intro _ entry
  refine ⟨entry, fun _ hn => hn, content_write ?_⟩
  rintro rfl
  exact ha (Name.temporary.inj (only _ entry))

theorem keeps_link {other : Nat} {role : Role} {key : Text}
    (only : ∀ name, files.entry name = some target → name = .temporary uuid) (ha : other ≠ uuid) :
    Keeps files (files.link target (.marker role key)) other := by
  intro _ entry
  have foreign : Name.temporary other ≠ .marker role key := by simp
  refine ⟨(entry_link_of_ne foreign).trans entry, fun name hn => ?_, content_link _⟩
  rcases entry_link hn with ⟨_, rfl⟩ | ⟨_, old⟩
  · exact absurd (Name.temporary.inj (only _ entry)) ha
  · exact old

theorem keeps_unlink (ha : Name.temporary uuid ≠ name) : Keeps files (files.unlink target name) uuid := by
  intro _ entry
  exact ⟨(entry_unlink_of_ne ha).trans entry, fun other hn => (entry_unlink hn).2, content_unlink _⟩

end Files

theorem Effect.lays (effect : Effect files call next.stage later) (sound : Sound files)
    (owner : call.owner.isOwner call.task.role) (owes : Owes files call) (hs : call.Same next) :
    Sound later ∧ Owes later next ∧ (∀ uuid, call.stage.uuid ≠ some uuid → Keeps files later uuid) ∧
    ∀ uuid, next.stage.uuid = some uuid →
      call.stage.uuid = some uuid ∨ files.entry (.temporary uuid) = none := by
  obtain ⟨_, sameKey, sameOwner, sameTask⟩ := hs
  have stageNext : ∃ stage, next.stage = stage := ⟨_, rfl⟩
  obtain ⟨stage, stands⟩ := stageNext
  rw [stands] at effect
  cases effect with
  | keep hp _ =>
    rw [← stands] at hp
    exact ⟨sound, owes_of_plain hp, fun _ _ => keeps_refl _, fun uuid hh => nomatch hh.symm.trans hp⟩
  | live here ha =>
    refine ⟨sound.create ha (by simp) (fun _ _ => rfl), owes_of_plain (by rw [stands]; rfl),
      fun _ _ => keeps_create sound ha _, fun uuid hh => ?_⟩
    rw [stands] at hh
    exact absurd hh (by simp [Stage.uuid])
  | @create uuid here ha =>
    refine ⟨sound.create ha (by simp) (fun _ wrong => nomatch wrong), ?_,
      fun _ _ => keeps_create sound ha _, fun other hh => ?_⟩
    · unfold Owes
      rw [stands]
      refine ⟨update_self _ _ _, fun name hn => ?_⟩
      rcases entry_create hn with ⟨hs, _⟩ | ⟨_, old⟩
      · exact hs
      · exact absurd (sound.counted.used _ _ old) (lt_irrefl _)
    · rw [stands] at hh
      rw [← some.inj hh]
      exact .inr ha
  | @write uuid inode written _ here =>
    unfold Owes at owes
    rw [here] at owes
    refine ⟨sound.write owes.2 _, ?_, fun other apart => ?_, fun other hh => ?_⟩
    · unfold Owes
      rw [stands]
      exact owes
    · refine keeps_write owes.2 fun hs => apart ?_
      rw [here, hs]
      rfl
    · rw [stands] at hh
      rw [here]
      exact .inl hh
  | @written uuid inode _ here =>
    unfold Owes at owes
    rw [here] at owes
    refine ⟨sound.write owes.2 _, ?_, fun other apart => ?_, fun other hh => ?_⟩
    · unfold Owes
      rw [stands, sameOwner]
      exact ⟨owes.1, owes.2, content_write_self⟩
    · refine keeps_write owes.2 fun hs => apart ?_
      rw [here, hs]
      rfl
    · rw [stands] at hh
      rw [here]
      exact .inl hh
  | @link uuid inode here ha =>
    unfold Owes at owes
    rw [here] at owes
    obtain ⟨entry, only, content⟩ := owes
    refine ⟨sound.link entry only content owner ha, ?_, fun other apart => ?_, fun other hh => ?_⟩
    · unfold Owes
      rw [stands, sameTask, sameKey]
      have foreign : Name.temporary uuid ≠ .marker call.task.role call.key := by simp
      refine ⟨inode, (entry_link_of_ne foreign).trans entry, fun name hn => ?_⟩
      rcases entry_link hn with ⟨hs, _⟩ | ⟨_, old⟩
      · exact .inr ⟨rfl, hs⟩
      · exact .inl (only _ old)
    · refine keeps_link only fun hs => apart ?_
      rw [here, hs]
      rfl
    · rw [stands] at hh
      rw [here]
      exact .inl hh
  | @refused uuid inode here _ =>
    unfold Owes at owes
    rw [here] at owes
    refine ⟨sound, ?_, fun _ _ => keeps_refl _, fun other hh => ?_⟩
    · unfold Owes
      rw [stands]
      exact ⟨inode, owes.1, fun name hn => .inl (owes.2.1 name hn)⟩
    · rw [stands] at hh
      rw [here]
      exact .inl hh
  | @unlink _ inode _ _ here entry hp =>
    rw [← stands] at hp
    refine ⟨sound.unlink entry, owes_of_plain hp, fun other apart => ?_, fun other hh => ?_⟩
    · refine keeps_unlink fun hs => apart ?_
      rw [here, Name.temporary.inj hs]
      rfl
    · cases hh.symm.trans hp
  | @remove _ _ entry =>
    refine ⟨sound.unlink entry, owes_of_plain (by rw [stands]; rfl),
      fun other _ => keeps_unlink (by simp), fun other hh => ?_⟩
    rw [stands] at hh
    exact absurd hh (by simp [Stage.uuid])

theorem Owes.entry {uuid : Nat} (owes : Owes files call) (held : call.stage.uuid = some uuid) :
    files.entry (.temporary uuid) ≠ none := by
  unfold Owes at owes
  split at owes
  · next hh =>
      rw [hh] at held
      rw [← some.inj held, owes.1]
      simp
  · next hh =>
      rw [hh] at held
      rw [← some.inj held, owes.1]
      simp
  · next hh =>
      rw [hh] at held
      obtain ⟨_, entry, _⟩ := owes
      rw [← some.inj held, entry]
      simp
  · next hh _ _ =>
      exfalso
      revert held
      unfold Stage.uuid
      split <;> simp_all

def Follows (old : Option Call) (new : Call) : Prop :=
  (∃ call, old = some call ∧ call.Same new ∧ new.live = call.live ∧
      (new.stage = call.stage ∨ new.stage.uuid = none ∧ new.stage.descriptor = none)) ∨
    old = none ∧ new.owner.isOwner new.task.role ∧ new.live = none ∧ new.stage.uuid = none ∧
      new.stage.descriptor = none

theorem Laid.follow (hl : Laid s) (files : s'.directory = s.directory)
    (follows : ∀ number call, s'.calls number = some call → Follows (s.calls number) call) :
    Laid s' where
  sound := files ▸ hl.sound
  owners number call hf := by
    rcases follows number call hf with ⟨old, before, ⟨_, _, owner, task⟩, _, _⟩ | ⟨_, owner, _⟩
    · rw [owner, task]
      exact hl.owners number old before
    · exact owner
  owes number call hf := by
    rw [files]
    rcases follows number call
      hf with ⟨old, before, ⟨_, key, owner, task⟩, _, stage | ⟨hp, _⟩⟩ | ⟨_, _, _, hp, _⟩
    · have owes := hl.owes number old before
      unfold Owes at owes ⊢
      rw [stage, owner, task, key]
      exact owes
    · exact owes_of_plain hp
    · exact owes_of_plain hp
  apart number other call call' uuid hf found' hh held' := by
    have traced : ∀ number call, s'.calls number = some call → call.stage.uuid = some uuid →
        ∃ old, s.calls number = some old ∧ old.stage.uuid = some uuid := by
      intro number call hf hh
      rcases follows number call hf with ⟨old, before, _, _, stage | ⟨hp, _⟩⟩ | ⟨_, _, _, hp, _⟩
      · exact ⟨old, before, stage ▸ hh⟩
      · cases hh.symm.trans hp
      · cases hh.symm.trans hp
    obtain ⟨old, before, holds⟩ := traced number call hf hh
    obtain ⟨old', before', holds'⟩ := traced other call' found' held'
    exact hl.apart number other old old' uuid before before' holds holds'

theorem follows_beside {old : Option Call} {new : Call} (beside : System.Beside old (some new)) :
    Follows old new := by
  rcases beside with hs | ⟨call, before, _, after⟩
  · exact .inl ⟨new, hs.symm, Call.Same.refl new, rfl, .inl rfl⟩
  · rw [some.inj after]
    exact .inl ⟨call, before, Call.Same.refl call, rfl, .inr ⟨rfl, rfl⟩⟩

theorem Laid.acted (hl : Laid s) (found : s.calls number = some call)
    (acted : System.Acted s number call next s') : Laid s' := by
  obtain ⟨hso, owes, hk, hf⟩ :=
    acted.effect.lays hl.sound (hl.owners number call found) (hl.owes number call found) acted.same
  have others : ∀ other new, other ≠ number → s'.calls other = some new →
      (∃ old, s.calls other = some old ∧ old.Same new ∧ (new.stage = old.stage ∨ new.stage.uuid = none)) := by
    intro other new ha hh
    have beside := acted.others other ha
    rw [hh] at beside
    rcases beside with hs | ⟨old, before, _, after⟩
    · exact ⟨new, hs.symm, Call.Same.refl new, .inl rfl⟩
    · rw [some.inj after]
      exact ⟨old, before, Call.Same.refl old, .inr rfl⟩
  -- The name of another call is neither the one in use here nor the one just created.
  have strange : ∀ other new uuid, other ≠ number → s'.calls other = some new →
      new.stage.uuid = some uuid → next.stage.uuid ≠ some uuid := by
    intro other new uuid ha hh held own
    obtain ⟨old, before, _, stage | hp⟩ := others other new ha hh
    · rw [stage] at held
      rcases hf uuid own with mine | absent
      · exact ha (hl.apart other number old call uuid before found held mine)
      · exact (hl.owes other old before).entry held absent
    · cases held.symm.trans hp
  refine ⟨hso, ?_, ?_, ?_⟩
  · intro other new hh
    by_cases hs : other = number
    · subst hs
      cases acted.own.symm.trans hh
      obtain ⟨_, _, owner, task⟩ := acted.same
      rw [owner, task]
      exact hl.owners _ call found
    · obtain ⟨old, before, ⟨_, _, owner, task⟩, _⟩ := others other new hs hh
      rw [owner, task]
      exact hl.owners other old before
  · intro other new hh
    by_cases hs : other = number
    · subst hs
      cases acted.own.symm.trans hh
      exact owes
    · obtain ⟨old, before, ⟨_, key, owner, task⟩, stage | hp⟩ := others other new hs hh
      · have still : Owes s.directory new := by
          have owed := hl.owes other old before
          unfold Owes at owed ⊢
          rw [stage, owner, task, key]
          exact owed
        refine still.keep fun uuid held => hk uuid fun mine => hs ?_
        rw [stage] at held
        exact hl.apart other number old call uuid before found held mine
      · exact owes_of_plain hp
  · intro one two new new' uuid hh hh' held held'
    by_cases first : one = number
    · subst first
      cases acted.own.symm.trans hh
      by_contra ha
      exact strange two new' uuid (fun hs => ha hs.symm) hh' held' held
    · by_cases second : two = number
      · subst second
        cases acted.own.symm.trans hh'
        exact absurd held' (strange one new uuid first hh held)
      · obtain ⟨old, before, _, stage | hp⟩ := others one new first hh
        · obtain ⟨old', before', _, stage' | hp'⟩ := others two new' second hh'
          · exact hl.apart one two old old' uuid before before' (stage ▸ held) (stage' ▸ held')
          · cases held'.symm.trans hp'
        · cases held.symm.trans hp

theorem follows_refl (call : Call) : Follows (some call) call :=
  .inl ⟨call, rfl, Call.Same.refl call, rfl, .inl rfl⟩

theorem follows_update {new : Call} (own : Follows (s.calls number) new) :
    ∀ other call,
      update s.calls number (some new) other = some call → Follows (s.calls other) call := by
  intro other call hf
  by_cases hs : other = number
  · subst hs
    rw [update_self] at hf
    rw [← some.inj hf]
    exact own
  · rw [update_of_ne hs] at hf
    rw [hf]
    exact follows_refl call

theorem System.step_cases (next : s.step event = some s') :
    (∃ number call uuid count, event = .act number uuid count ∧ s.calls number = some call ∧
        call.stage.isWorking ∧ s' = s.act number call uuid count) ∨
    (∀ number uuid count, event ≠ .act number uuid count) ∧ s'.directory = s.directory := by
  cases event with
  | call number process _ _ _ =>
    refine .inr ⟨by simp, ?_⟩
    simp only [step] at next
    split at next
    · rw [← some.inj next]
      rfl
    · cases next
  | enter number =>
    refine .inr ⟨by simp, ?_⟩
    simp only [step] at next
    repeat' split at next
    all_goals cases next
    rfl
  | act number uuid count =>
    simp only [step] at next
    split at next
    · next call hf =>
        split at next
        · next working => exact .inl ⟨number, call, uuid, count, rfl, hf, working, (some.inj next).symm⟩
        · cases next
    · cases next
  | leave number =>
    refine .inr ⟨by simp, ?_⟩
    simp only [step] at next
    repeat' split at next
    all_goals cases next
    unfold leave
    split <;> rfl
  | close lease =>
    refine .inr ⟨by simp, ?_⟩
    rw [← some.inj next]
    exact directory_closeLease lease
  | cancel _ =>
    refine .inr ⟨by simp, ?_⟩
    simp only [step] at next
    split at next
    · rw [← some.inj next]
      unfold cancel leave
      repeat' split
      all_goals rfl
    · cases next
  | exit _ =>
    refine .inr ⟨by simp, ?_⟩
    rw [← some.inj next]
    rfl

theorem plain_first (task : Task) : task.first.uuid = none ∧ task.first.descriptor = none := by
  cases task <;> exact ⟨rfl, rfl⟩

theorem System.step_follows (hl : Laid s) (next : s.step event = some s')
    (rest : ∀ number uuid count, event ≠ .act number uuid count) :
    ∀ number call, s'.calls number = some call → Follows (s.calls number) call := by
  cases event with
  | act number uuid count => exact absurd rfl (rest number uuid count)
  | call number process _ owner task =>
    simp only [step] at next
    split at next
    · next ha =>
        rw [← some.inj next]
        refine follows_update (.inr ⟨ha.1, ?_, rfl, ?_⟩)
        · cases task with
          | release lease =>
            have claim := ha.2
            simp only [accepts, any_eq_true, Bool.and_eq_true, Bool.or_eq_true, beq_iff_eq] at claim
            obtain ⟨call, hf, ⟨⟨⟨task, _⟩, _⟩, rfl⟩⟩ := claim
            have owner := hl.owners lease call hf
            have role : call.task.role = .admission := by rcases task with ht | ht <;> rw [ht] <;> rfl
            rw [role] at owner
            exact owner
          | claim resume | remove | publish => exact ha.2
        · split
          · exact plain_first task
          · exact ⟨rfl, rfl⟩
    · cases next
  | enter number =>
    simp only [step] at next
    split at next
    · next call hf =>
        split at next
        · rw [← some.inj next]
          exact follows_update (.inl ⟨call, hf, Call.Same.refl call, rfl, .inr (plain_first call.task)⟩)
        · cases next
    · cases next
  | leave number =>
    simp only [step] at next
    repeat' split at next
    all_goals cases next
    intro other call hf
    have hs : s.calls other = some call := by
      unfold leave at hf
      split at hf <;> exact hf
    rw [hs]
    exact follows_refl call
  | close lease =>
    rw [← some.inj next]
    intro other call hf
    have beside := beside_closeLease (s := s) lease other
    rw [hf] at beside
    exact follows_beside beside
  | cancel _ =>
    simp only [step] at next
    split at next
    · next call hf =>
        rw [← some.inj next]
        unfold cancel leave
        repeat' split
        · exact follows_update (.inl ⟨call, hf, Call.Same.refl call, rfl, .inr ⟨rfl, rfl⟩⟩)
        · exact follows_update (.inl ⟨call, hf, Call.Same.refl call, rfl, .inl rfl⟩)
        all_goals
          intro other new hh
          have hs : s.calls other = some new := hh
          rw [hs]
          exact follows_refl new
    · cases next
  | exit _ =>
    rw [← some.inj next]
    intro _ _ hh
    obtain ⟨call, hf, rfl⟩ := map_eq_some_iff.mp hh
    rw [hf]
    unfold stop
    split
    · exact .inl ⟨call, rfl, Call.Same.refl call, rfl, .inr ⟨rfl, rfl⟩⟩
    · exact follows_refl call

theorem System.step_working (next : s.step event = some s')
    (rest : ∀ number uuid count, event ≠ .act number uuid count) (hf : s.calls number = some call)
    (working : call.stage.isWorking) :
    event = .exit call.process ∨
    ∃ call', s'.calls number = some call' ∧ call.Same call' ∧ call'.stage = call.stage ∧
      call'.live = call.live := by
  have hs : s'.calls number = s.calls number → ∃ call', s'.calls number = some call' ∧
      call.Same call' ∧ call'.stage = call.stage ∧ call'.live = call.live :=
    fun same => ⟨call, same.trans hf, Call.Same.refl call, rfl, rfl⟩
  cases event with
  | act number uuid count => exact absurd rfl (rest number uuid count)
  | call other process _ _ _ =>
    simp only [step] at next
    split at next
    · next accepted =>
        rw [← some.inj next]
        have ha : number ≠ other := by
          rintro rfl
          cases hf.symm.trans accepted.1
        exact .inr ⟨call, by simp [ha, hf], Call.Same.refl call, rfl, rfl⟩
    · cases next
  | enter other =>
    simp only [step] at next
    split at next
    · next call' hf' =>
        split at next
        · next hw =>
            rw [← some.inj next]
            have ha : number ≠ other := by
              rintro rfl
              cases hf.symm.trans hf'
              rw [hw.1] at working
              exact absurd working (by simp [Stage.isWorking])
            exact .inr ⟨call, by simp [move, ha, hf], Call.Same.refl call, rfl, rfl⟩
        · cases next
    · cases next
  | leave other =>
    simp only [step] at next
    repeat' split at next
    all_goals cases next
    refine .inr (hs ?_)
    unfold leave
    split <;> rfl
  | close lease =>
    rw [← some.inj next] at hs ⊢
    rcases beside_closeLease (s := s) lease number with same | ⟨call', hf', granted, _⟩
    · exact .inr (hs same)
    · cases hf.symm.trans hf'
      rw [granted] at working
      exact absurd working (by simp [Stage.isWorking])
  | cancel other =>
    simp only [step] at next
    split at next
    · next call' hf' =>
        rw [← some.inj next] at hs ⊢
        by_cases ha : number = other
        · subst ha
          cases hf.symm.trans hf'
          unfold cancel leave at hs ⊢
          split
          · next hw =>
              rw [hw] at working
              exact absurd working (by simp [Stage.isWorking])
          · exact .inr ⟨{ call with cancelled := true }, by simp, Call.Same.refl call, rfl, rfl⟩
          · refine .inr ⟨call, ?_, Call.Same.refl call, rfl, rfl⟩
            split <;> exact hf
          · exact .inr ⟨call, hf, Call.Same.refl call, rfl, rfl⟩
        · refine .inr (hs ?_)
          unfold cancel leave
          repeat' split
          all_goals simp [move, ha]
    · cases next
  | exit process =>
    rw [← some.inj next]
    by_cases mine : call.process = process
    · exact .inl (by rw [mine])
    · refine .inr ⟨call, ?_, Call.Same.refl call, rfl, rfl⟩
      simp [exit, hf, stop, mine]

theorem Laid.step (hl : Laid s) (next : s.step event = some s') : Laid s' := by
  rcases System.step_cases next with ⟨_, _, _, _, _, hf, working, rfl⟩ | ⟨rest, files⟩
  · obtain ⟨_, acted⟩ := System.act_acted hf working
    exact hl.acted hf acted
  · exact hl.follow files (System.step_follows hl next rest)

/-! ### Locks -/

/-- Every open descriptor of a `.live` file is of the one that the name stands for. -/
structure Anchored (s : System) : Prop where
  live : ∀ number call inode, s.calls number = some call → call.live = some inode →
    s.directory.entry (.live call.key) = some inode
  stage : ∀ number call inode,
      s.calls number = some call → call.stage.descriptor = some inode → call.live = some inode
  lock : ∀ inode holder,
      s.flock inode = some holder → ∃ call, s.calls holder = some call ∧ call.live = some inode

theorem anchored_initial : Anchored .initial where
  live _ _ _ found := by simp at found
  stage _ _ _ found := by simp at found
  lock _ _ held := by simp at held

theorem Effect.live_kept {stage : Stage} {key : Text} {inode : Nat}
    (effect : Effect files call stage later) (entry : files.entry (.live key) = some inode) :
    later.entry (.live key) = some inode := by
  cases effect with
  | keep | refused | write | written => exact entry
  | live _ ha =>
    have apart : Name.live key ≠ .live call.key := by
      intro hs
      rw [hs] at entry
      cases entry.symm.trans ha
    exact (entry_create_of_ne apart).trans entry
  | create => exact (entry_create_of_ne (by simp)).trans entry
  | link => exact (entry_link_of_ne (by simp)).trans entry
  | unlink | remove => exact (entry_unlink_of_ne (by simp)).trans entry

theorem Anchored.acted (anchored : Anchored s) (hf : s.calls number = some call)
    (acted : System.Acted s number call next s') : Anchored s' := by
  -- The descriptors of the calls stay, but for the one that is opened.
  have others : ∀ other new, other ≠ number → s'.calls other = some new → ∃ old, s.calls other = some old ∧
      new.key = old.key ∧ new.live = old.live ∧ (new.stage = old.stage ∨ new.stage.descriptor = none) := by
    intro other new ha hh
    have beside := acted.others other ha
    rw [hh] at beside
    rcases beside with hs | ⟨old, before, _, after⟩
    · exact ⟨new, hs.symm, rfl, rfl, .inl rfl⟩
    · rw [some.inj after]
      exact ⟨old, before, rfl, rfl, .inr rfl⟩
  have key := acted.same.2.1
  refine ⟨?_, ?_, ?_⟩
  · intro other new inode hh live
    by_cases hs : other = number
    · subst hs
      cases acted.own.symm.trans hh
      rw [key]
      rcases acted.anchor with ⟨hk, _⟩ | ⟨opened, isLive, _, entry⟩
      · exact acted.effect.live_kept (anchored.live _ call inode hf (hk ▸ live))
      · rw [entry, ← isLive, live]
    · obtain ⟨old, before, sameKey, hk, _⟩ := others other new hs hh
      rw [sameKey]
      exact acted.effect.live_kept (anchored.live other old inode before (hk ▸ live))
  · intro other new inode hh descriptor
    by_cases hs : other = number
    · subst hs
      cases acted.own.symm.trans hh
      rcases acted.anchor with ⟨hk, none | hk'⟩ | ⟨opened, isLive, stage, _⟩
      · cases descriptor.symm.trans none
      · rw [hk]
        exact anchored.stage _ call inode hf (hk' ▸ descriptor)
      · rw [stage] at descriptor
        rw [isLive, ← some.inj descriptor]
    · obtain ⟨old, before, _, hk, stage | none⟩ := others other new hs hh
      · rw [hk]
        exact anchored.stage other old inode before (stage ▸ descriptor)
      · cases descriptor.symm.trans none
  · intro inode holder held
    rcases acted.locks inode holder held with old | ⟨stage, rfl⟩
    · obtain ⟨owner, before, live⟩ := anchored.lock inode holder old
      by_cases hs : holder = number
      · subst hs
        cases hf.symm.trans before
        refine ⟨next, acted.own, ?_⟩
        rcases acted.anchor with ⟨hk, _⟩ | ⟨opened, isLive, _, entry⟩
        · rw [hk, live]
        · rw [isLive, ← entry]
          exact acted.effect.live_kept (anchored.live _ call inode hf live)
      · rcases acted.others holder hs with hk | ⟨_, before', _, after⟩
        · exact ⟨owner, hk.trans before, live⟩
        · cases before.symm.trans before'
          exact ⟨_, after, live⟩
    · refine ⟨next, acted.own, ?_⟩
      have mine := anchored.stage _ call inode hf (by rw [stage]; rfl)
      rcases acted.anchor with ⟨hk, _⟩ | ⟨_, isLive, _, entry⟩
      · rw [hk, mine]
      · rw [isLive, ← entry]
        exact acted.effect.live_kept (anchored.live _ call inode hf mine)

theorem System.step_persists (next : s.step event = some s')
    (rest : ∀ number uuid count, event ≠ .act number uuid count) :
    (∀ number call, s.calls number = some call →
        ∃ call', s'.calls number = some call' ∧ call'.live = call.live) ∧
    ∀ inode holder, s'.flock inode = some holder → s.flock inode = some holder := by
  have stays : ∀ number call, s.calls number = some call →
        ∃ call', s.calls number = some call' ∧ call'.live = call.live :=
    fun number call hf => ⟨call, hf, rfl⟩
  -- One call is replaced by another with its descriptor.
  have moves : ∀ number new, (∀ call, s.calls number = some call → new.live = call.live) →
      ∀ other call, s.calls other = some call →
        ∃ call', update s.calls number (some new) other = some call' ∧ call'.live = call.live := by
    intro number new kept other call hf
    by_cases hs : other = number
    · subst hs
      exact ⟨new, update_self _ _ _, kept call hf⟩
    · exact ⟨call, by rw [update_of_ne hs, hf], rfl⟩
  have hk : ∀ number call stage, s.calls number = some call → ∀ call', s.calls number = some call' →
      ({ call with stage := stage } : Call).live = call'.live := by
    intro number call _ hf call' hf'
    rw [some.inj (hf.symm.trans hf')]
  cases event with
  | act number uuid count => exact absurd rfl (rest number uuid count)
  | call number process _ _ _ =>
    simp only [step] at next
    split at next
    · next ha =>
        rw [← some.inj next]
        refine ⟨moves _ _ fun call hf => ?_, fun _ _ hh => hh⟩
        cases hf.symm.trans ha.1
    · cases next
  | enter number =>
    simp only [step] at next
    split at next
    · next call hf =>
        split at next
        · rw [← some.inj next]
          exact ⟨moves _ _ (hk number call _ hf), fun _ _ hh => hh⟩
        · cases next
    · cases next
  | leave number =>
    simp only [step] at next
    repeat' split at next
    all_goals cases next
    unfold leave
    split
    all_goals exact ⟨stays, fun _ _ hh => hh⟩
  | close lease =>
    rw [← some.inj next]
    refine ⟨fun number call hf => ?_, fun _ _ hh => flock_closeLease hh⟩
    rcases beside_closeLease (s := s) lease number with hs | ⟨call', hf', _, after⟩
    · exact ⟨call, hs.trans hf, rfl⟩
    · cases hf.symm.trans hf'
      exact ⟨_, after, rfl⟩
  | cancel number =>
    simp only [step] at next
    split at next
    · next call hf =>
        rw [← some.inj next]
        unfold cancel leave
        repeat' split
        · exact ⟨moves _ _ (hk number call _ hf), fun _ _ hh => hh⟩
        · refine ⟨moves _ _ fun call' hf' => ?_, fun _ _ hh => hh⟩
          rw [some.inj (hf.symm.trans hf')]
        all_goals exact ⟨stays, fun _ _ hh => hh⟩
    · cases next
  | exit process =>
    rw [← some.inj next]
    refine ⟨fun number call hf => ⟨stop process call, by simp [exit, hf], ?_⟩, fun inode holder hh => ?_⟩
    · unfold stop
      split <;> rfl
    · exact (filter_eq_some_iff.mp hh).1

theorem Anchored.step (ha : Anchored s) (hl : Laid s) (next : s.step event = some s') : Anchored s' := by
  rcases System.step_cases next with ⟨number, call, _, _, _, hf, working, rfl⟩ | ⟨rest, files⟩
  · obtain ⟨_, acted⟩ := System.act_acted hf working
    exact ha.acted hf acted
  · have follows := System.step_follows hl next rest
    obtain ⟨persists, locks⟩ := System.step_persists next rest
    refine ⟨?_, ?_, ?_⟩
    · intro number call inode hf live
      rw [files]
      rcases follows number call hf with ⟨old, before, ⟨_, key, _, _⟩, hk, _⟩ | ⟨_, _, none, _⟩
      · rw [key]
        exact ha.live number old inode before (hk ▸ live)
      · cases live.symm.trans none
    · intro number call inode hf descriptor
      rcases follows number call hf with ⟨old, before, _, hk, stage | ⟨_, none⟩⟩ | ⟨_, _, _, _, none⟩
      · rw [hk]
        exact ha.stage number old inode before (stage ▸ descriptor)
      · cases descriptor.symm.trans none
      · cases descriptor.symm.trans none
    · intro inode holder hh
      obtain ⟨call, hf, live⟩ := ha.lock inode holder (locks inode holder hh)
      obtain ⟨call', hf', hk⟩ := persists holder call hf
      exact ⟨call', hf', hk.trans live⟩

end Yinshi.Admission
