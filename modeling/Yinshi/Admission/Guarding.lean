import Yinshi.Admission.Recovery

/-! What guards each call. Claims, releases and publications of a key work inside its lifecycle
lock, and a lease holds the lock of its `.live` file. The worker of a publication that was
cancelled, and removals that overlap, work outside of both. -/

namespace Yinshi.Admission
open ByteText Links Links.Directory Function Option

/-! ### Orderly runs -/

def Stage.isRemoval : Stage → Bool
  | .reading _ _ | .removing => true
  | _ => false

/-- No publication is cancelled at work, and no removal unlinks a marker that another removal
of the key has checked. -/
structure Orderly (s : System) (event : Event) : Prop where
  shielded : ∀ number call, event = .cancel number → s.calls number = some call →
    call.task = .publish → call.stage.isWorking = false
  single : ∀ number uuid count call,
      event = .act number uuid count → s.calls number = some call → call.task = .remove →
    call.stage = .removing →
      ∀ other call', other ≠ number → s.calls other = some call' → call'.task = .remove →
    call'.key = call.key → call'.stage.isRemoval = false

/-! ### What holds of each call -/

def Task.fits : Task → Stage → Bool
  | .claim _, .removing | .claim _, .checkingLease => false
  | .claim _, _ => true
  | .release _, .checkingLease | .release _, .opening .admission | .release _, .checking .admission _
  | .release _, .reading .admission _ | .release _, .removing | .release _, .syncing => true
  | .publish, .opening .deletion | .publish, .checking .deletion _ | .publish, .reading .deletion _
  | .publish, .creating | .publish, .writing _ _ _ | .publish, .linking _ _ | .publish, .unlinking _ _
  | .publish, .syncing => true
  | .remove, .opening .deletion | .remove, .checking .deletion _ | .remove, .reading .deletion _
  | .remove, .removing | .remove, .syncing => true
  | _, .waiting | _, .closing _ | _, .ended _ | _, .stopped => true
  | _, _ => false

attribute [local simp] Task.fits

theorem Task.fits_ended (task : Task) (ok : Bool) : task.fits (.ended ok) := by
  cases task <;> simp

def Stage.isLocked : Stage → Bool
  | .opening .admission | .checking .admission _ | .reading .admission _ | .creating | .writing _ _
    _ | .linking _ _
  | .unlinking _ _ | .syncing | .granted => true
  | _ => false

def Owned (files : Files) (call : Call) : Prop :=
  ∃ inode, files.entry (.marker .admission call.key) = some inode ∧
    (files.inode inode).content = .whole call.owner

/-- What a call has seen and still holds; `inside` says that it has the lifecycle lock. -/
def Place (files : Files) (call : Call) (inside : Prop) : Prop :=
  let clear := files.entry (.marker .deletion call.key) = none
  match call.task, call.stage with
  | .claim _, .openingLive | .claim _, .checkingLive _ | .claim _, .locking _ | .claim _,
    .opening .admission =>
    clear
  | .claim _, .checking .admission inode | .claim _, .reading .admission inode =>
    clear ∧ files.entry (.marker .admission call.key) = some inode
  | .claim _, .creating | .claim _, .writing _ _ _ | .claim _, .linking _ _ =>
    clear ∧ files.entry (.marker .admission call.key) = none
  | .claim _, .unlinking _ linked => clear ∧ linked ∧ Owned files call
  | .claim _, .syncing => clear ∧ Owned files call
  | .claim _, .granted => inside → clear ∧ Owned files call
  | .release _, .checking _ inode | .release _, .reading _ inode =>
    files.entry (.marker .admission call.key) = some inode
  | .release _, .removing => Owned files call
  | .remove, .checking _ inode =>
    files.entry (.marker .deletion call.key) = some inode ∨ inode < files.next ∧ (files.inode inode).links = 0
  | .remove, .reading _ inode =>
    files.entry (.marker .deletion call.key) = some inode ∧ (files.inode inode).links = 1
  | .remove,
      .removing =>
        ∃ inode,
          files.entry (.marker .deletion call.key) = some inode ∧ (files.inode inode).links = 1 ∧
      (files.inode inode).content = .whole call.owner
  | _, _ => True

variable {call : Call}

attribute [local simp] Place

attribute [local simp] Stage.isWorking

theorem place_idle {files : Files} {inside : Prop} (hi : call.stage.isWorking = false)
    (never : ¬ inside) : Place files call inside := by
  unfold Place
  split
  all_goals first
    | trivial
    | exact fun hh => absurd hh never
    | (next _ stage =>
      rw [stage] at hi
      exact absurd hi (by simp))

structure Guard (s : System) (number : Nat) (call : Call) : Prop where
  fits : call.task.fits call.stage
  inside : call.task ≠ .remove → call.stage.isWorking → s.lifecycle call.key = some number
  locked : (∃ resume, call.task = .claim resume) → call.stage.isLocked → ∃ inode,
    call.live = some inode ∧ s.flock inode = some number
  place : Place s.directory call (s.lifecycle call.key = some number)

abbrev Guards (s : System) (number : Nat) : Prop :=
  ∃ call, s.calls number = some call ∧ Guard s number call

def Guarded (s : System) : Prop := ∀ number call, s.calls number = some call → Guard s number call

/-! ### Steps of other calls -/

structure Frame (files later : Files) (name : Name) : Prop where
  entry : later.entry name = files.entry name
  content : ∀ inode, files.entry name = some inode → (later.inode inode).content = (files.inode inode).content
  single : ∀ inode,
      files.entry name = some inode → (files.inode inode).links = 1 → (later.inode inode).links = 1

def Forgets (files later : Files) : Prop :=
  ∀ inode, inode < files.next → (files.inode inode).links = 0 →
    inode < later.next ∧ (later.inode inode).links = 0

variable {files later : Files}

theorem Owned.frame (frame : Frame files later (.marker .admission call.key))
    (ho : Owned files call) : Owned later call := by
  obtain ⟨inode, entry, content⟩ := ho
  exact ⟨inode, frame.entry.trans entry, (frame.content inode entry).trans content⟩

theorem Place.frame {inside inside' : Prop}
    (frame : ∀ role, Frame files later (.marker role call.key)) (forgets : Forgets files later)
    (hk : inside' → inside) (place : Place files call inside) : Place later call inside' := by
  have entries := fun role => (frame role).entry
  unfold Place at place ⊢
  dsimp only at place ⊢
  split at place
  · rwa [entries]
  · rwa [entries]
  · rwa [entries]
  · rwa [entries]
  · rwa [entries, entries]
  · rwa [entries, entries]
  · rwa [entries, entries]
  · rwa [entries, entries]
  · rwa [entries, entries]
  · rw [entries]
    exact ⟨place.1, place.2.1, place.2.2.frame (frame _)⟩
  · rw [entries]
    exact ⟨place.1, place.2.frame (frame _)⟩
  · rw [entries]
    exact fun hh => ⟨(place (hk hh)).1, (place (hk hh)).2.frame (frame _)⟩
  · rwa [entries]
  · rwa [entries]
  · exact place.frame (frame _)
  · rw [entries]
    rcases place with entry | ⟨hb, none⟩
    · exact .inl entry
    · exact .inr (forgets _ hb none)
  · rw [entries]
    exact ⟨place.1, (frame _).single _ place.1 place.2⟩
  · obtain ⟨inode, entry, links, content⟩ := place
    exact ⟨inode, (entries _).trans entry, (frame _).single _ entry links,
      ((frame _).content _ entry).trans content⟩
  · trivial

theorem Place.frame_remove {inside inside' : Prop} (task : call.task = .remove)
    (frame : Frame files later (.marker .deletion call.key)) (forgets : Forgets files later)
    (place : Place files call inside) : Place later call inside' := by
  unfold Place at place ⊢
  rw [task] at place ⊢
  split at place
  all_goals first
    | trivial
    | skip
  · rw [frame.entry]
    rcases place with entry | ⟨hb, none⟩
    · exact .inl entry
    · exact .inr (forgets _ hb none)
  · rw [frame.entry]
    exact ⟨place.1, frame.single _ place.1 place.2⟩
  · obtain ⟨inode, entry, links, content⟩ := place
    exact ⟨inode, frame.entry.trans entry, frame.single _ entry links, (frame.content _ entry).trans content⟩

section Frames
variable {files : Files} {name : Name} {role : Role} {key : Text} {target uuid : Nat} {content : Content}

theorem frame_refl (files : Files) (name : Name) : Frame files files name :=
  ⟨rfl, fun _ _ => rfl, fun _ _ links => links⟩

theorem forgets_refl (files : Files) : Forgets files files := fun _ hb none => ⟨hb, none⟩

theorem frame_create (hs : Sound files) (hp : name ≠ .marker role key) :
    Frame files (files.create name content) (.marker role key) := by
  refine ⟨entry_create_of_ne hp.symm, fun inode entry => content_create (hs.counted.used _ _ entry),
    fun inode entry links => ?_⟩
  rw [inode_create_of_ne (Nat.ne_of_lt (hs.counted.used _ _ entry))]
  exact links

theorem forgets_create : Forgets files (files.create name content) := by
  refine fun inode hb none => ⟨Nat.lt_succ_of_lt hb, ?_⟩
  rw [inode_create_of_ne (Nat.ne_of_lt hb)]
  exact none

theorem forgets_write : Forgets files (files.write target content) := by
  refine fun inode hb none => ⟨hb, ?_⟩
  rw [links_write]
  exact none

theorem frame_link (only : ∀ name, files.entry name = some target → name = .temporary uuid)
    (ha : name ≠ .marker role key) : Frame files (files.link target name) (.marker role key) := by
  refine ⟨entry_link_of_ne ha.symm, fun inode _ => content_link _, fun inode hh links => ?_⟩
  have strange : inode ≠ target := by
    rintro rfl
    cases only _ hh
  rw [inode_link_of_ne strange]
  exact links

theorem forgets_link (hs : Sound files) (entry : files.entry (.temporary uuid) = some target) :
    Forgets files (files.link target name) := by
  refine fun inode hb none => ⟨hb, ?_⟩
  have strange : inode ≠ target := by
    rintro rfl
    exact hs.counted.nameless none entry
  rw [inode_link_of_ne strange]
  exact none

theorem frame_unlink (hs : Sound files) (entry : files.entry name = some target)
    (ha : name ≠ .marker role key) : Frame files (files.unlink target name) (.marker role key) := by
  refine ⟨entry_unlink_of_ne ha.symm, fun inode _ => content_unlink _, fun inode hh links => ?_⟩
  have strange : inode ≠ target := by
    rintro rfl
    exact ha (hs.counted.eq_of_single links hh entry)
  rw [inode_unlink_of_ne strange]
  exact links

theorem forgets_unlink (hs : Sound files) (entry : files.entry name = some target) :
    Forgets files (files.unlink target name) := by
  refine fun inode hb none => ⟨hb, ?_⟩
  have strange : inode ≠ target := by
    rintro rfl
    exact hs.counted.nameless none entry
  rw [inode_unlink_of_ne strange]
  exact none

end Frames

def Stage.isTurning : Stage → Bool
  | .linking _ _ | .removing => true
  | _ => false

variable {files later : Files}

theorem Effect.forgets {call : Call} {stage : Stage} (effect : Effect files call stage later)
    (hs : Sound files) (owes : Owes files call) : Forgets files later := by
  cases effect with
  | keep | refused => exact forgets_refl files
  | live | create => exact forgets_create
  | write | written => exact forgets_write
  | link hh =>
    unfold Owes at owes
    rw [hh] at owes
    exact forgets_link hs owes.1
  | unlink _ entry | remove _ entry => exact forgets_unlink hs entry

theorem Effect.frame {call : Call} {stage : Stage} {role : Role} {key : Text}
    (effect : Effect files call stage later) (hs : Sound files) (owes : Owes files call)
    (ha : call.stage.isTurning → Name.marker call.task.role call.key ≠ .marker role key) :
    Frame files later (.marker role key) := by
  cases effect with
  | keep | refused => exact frame_refl files _
  | live | create => exact frame_create hs (by simp)
  | write hh | written hh =>
    unfold Owes at owes
    rw [hh] at owes
    refine ⟨rfl, fun inode entry => content_write ?_, fun inode entry links => ?_⟩
    · rintro rfl
      cases owes.2 _ entry
    · rw [links_write]
      exact links
  | link hh =>
    unfold Owes at owes
    rw [hh] at owes ha
    exact frame_link owes.2.1 (ha rfl)
  | unlink _ entry => exact frame_unlink hs entry (by simp)
  | remove hh entry =>
    rw [hh] at ha
    exact frame_unlink hs entry (ha rfl)

theorem Place.unless_clear {call : Call} {inside : Prop} {inode : Nat}
    (entry : files.entry (.marker .deletion call.key) = some inode) (task : call.task ≠ .remove)
    (frame : Frame files later (.marker .admission call.key)) (place : Place files call inside) :
    Place later call inside := by
  have hp : ¬ files.entry (.marker .deletion call.key) = none := by
    rw [entry]
    simp
  unfold Place at place ⊢
  split at place
  all_goals first
    | trivial
    | exact absurd place hp
    | exact absurd place.1 hp
    | exact fun hh => absurd (place hh).1 hp
    | exact frame.entry.trans place
    | exact place.frame frame

theorem Place.turning {s : System} {number other : Nat} {call call' : Call} {stage : Stage}
    {later : Files} (hl : Laid s) (guard : Guard s number call) (guard' : Guard s other call')
    (found : s.calls number = some call) (apart : other ≠ number)
    (effect : Effect s.directory call stage later) (turning : call.stage.isTurning)
    (same : call'.key = call.key)
    (alone : call.task = .remove → call'.task = .remove → call'.stage.isRemoval = false) :
    Place later call' (s.lifecycle call'.key = some other) := by
  have owes := hl.owes number call found
  have forgets := effect.forgets hl.sound owes
  -- Inside the lock there is nobody else but removals.
  have hi : call.task ≠ .remove → call.stage.isWorking → call'.task ≠ .remove →
      Place later call' (s.lifecycle call'.key = some other) := by
    intro task working task'
    have mine := guard.inside task working
    rw [← same] at mine
    have never : ¬ s.lifecycle call'.key = some other := by
      intro held
      exact apart (some.inj (held.symm.trans mine))
    refine place_idle ?_ never
    by_contra working'
    exact never (guard'.inside task' (by simpa using working'))
  have place' := guard'.place
  cases effect with
  | keep | refused => exact place'
  | live hh | create hh | write hh | written hh | unlink hh =>
    rw [hh] at turning
    exact absurd turning (by simp [Stage.isTurning])
  | @link _ inode hh ha =>
    have task : call.task ≠ .remove := by
      intro removes
      have hf := guard.fits
      rw [removes, hh] at hf
      exact absurd hf (by simp)
    by_cases task' : call'.task = .remove
    · unfold Owes at owes
      rw [hh] at owes
      cases role : call.task.role with
      | admission => exact place'.frame_remove task' (frame_link owes.2.1 (by simp)) forgets
      | deletion =>
        -- The removal has seen a marker that is not there any more.
        rw [role, ← same] at ha
        unfold Place at place' ⊢
        rw [task'] at place' ⊢
        split at place'
        all_goals first
          | trivial
          | skip
        · rcases place' with entry | ⟨hb, none⟩
          · cases entry.symm.trans ha
          · exact .inr (forgets _ hb none)
        · cases place'.1.symm.trans ha
        · obtain ⟨_, entry, _⟩ := place'
          cases entry.symm.trans ha
    · exact hi task (by rw [hh]; rfl) task'
  | @remove inode hh entry =>
    by_cases task : call.task = .remove
    · have place := guard.place
      unfold Place at place
      rw [task, hh] at place
      obtain ⟨_, entry', links, _⟩ := place
      have own : s.directory.entry (.marker .deletion call.key) = some inode := by
        rw [task] at entry
        exact entry
      cases own.symm.trans entry'
      by_cases task' : call'.task = .remove
      · have early := alone task task'
        unfold Place at place' ⊢
        rw [task'] at place' ⊢
        split at place'
        all_goals first
          | trivial
          | skip
        · rcases place' with hs | ⟨hb, none⟩
          · rw [same] at hs
            cases entry'.symm.trans hs
            refine .inr ⟨hl.sound.counted.used _ _ entry', ?_⟩
            rw [links_unlink_self, links]
          · exact .inr (forgets _ hb none)
        · next stage =>
            rw [stage] at early
            exact absurd early (by simp [Stage.isRemoval])
        · next stage =>
            rw [stage] at early
            exact absurd early (by simp [Stage.isRemoval])
      · rw [← same] at entry'
        refine place'.unless_clear entry' task' (frame_unlink hl.sound entry ?_)
        rw [task]
        simp [Task.role]
    · by_cases task' : call'.task = .remove
      · refine place'.frame_remove task' (frame_unlink hl.sound entry ?_) forgets
        have hf := guard.fits
        cases own : call.task <;> simp_all [Task.role]
      · exact hi task (by rw [hh]; rfl) task'

/-! ### Own steps -/

section Own
variable {s : System} {number uuid count : Nat} {call : Call}

theorem Guard.onward {s' : System} {stage : Stage} {live : Option Nat} (guard : Guard s number call)
    (working : call.stage.isWorking)
    (calls : s'.calls number = some { call with stage := stage, live := live })
    (lifecycle : s'.lifecycle = s.lifecycle) (hf : call.task.fits stage)
    (locked : (∃ resume, call.task = .claim resume) → stage.isLocked →
      ∃ inode, live = some inode ∧ s'.flock inode = some number)
    (place : Place s'.directory { call with stage := stage, live := live }
        (s.lifecycle call.key = some number)) : Guards s' number := by
  refine ⟨_, calls, hf, fun task _ => ?_, locked, ?_⟩
  · rw [lifecycle]
    exact guard.inside task working
  · rw [lifecycle]
    exact place

theorem content_of_read {files : Files} {role : Role} {key : Text} {inode : Nat} {payload : Payload}
    (hs : Sound files) (entry : files.entry (.marker role key) = some inode)
    (read : readMarker role (files.inode inode).content = some payload) :
    (files.inode inode).content = .whole payload := by
  obtain ⟨_, owner, content⟩ := hs.marked role key inode entry
  rw [content, readMarker_whole owner] at read
  rw [content, some.inj read]

attribute [local simp] Call.found

theorem Guard.goes (guard : Guard s number call) (working : call.stage.isWorking)
    (unclaimed : ∀ resume, call.task ≠ .claim resume) (s' : System) (stage : Stage)
    (calls : s'.calls number = some { call with stage := stage })
    (lifecycle : s'.lifecycle = s.lifecycle) (hf : call.task.fits stage)
    (place : Place s'.directory { call with stage := stage } (s.lifecycle call.key = some number)) :
    Guards s' number :=
  guard.onward working calls lifecycle hf (fun ⟨resume, claims⟩ => absurd claims (unclaimed resume)) place

theorem guard_publish (guard : Guard s number call) (working : call.stage.isWorking)
    (task : call.task = .publish) :
    Guards (s.act number call uuid count) number := by
  have hf := guard.fits
  -- A publication relies on nothing that it has seen.
  have onward := fun s' stage calls lifecycle hf' =>
    guard.goes working (by simp [task]) s' stage calls lifecycle hf' (by simp [Place, task])
  cases hh : call.stage with
  | opening role | checking role _ | reading role _ =>
    rw [task, hh] at hf
    obtain rfl : role = .deletion := by cases role <;> simp_all
    simp only [System.act, hh]
    repeat' split
    all_goals exact onward _ _ (update_self _ _ _) rfl (by simp [task])
  | creating | writing | linking | unlinking | syncing | closing =>
    simp only [System.act, hh, task]
    repeat' split
    all_goals exact onward _ _ (update_self _ _ _) rfl (by simp [task])
  | checkingLease | openingLive | checkingLive | locking | removing => simp [task, hh] at hf
  | waiting | granted | ended | stopped => simp [hh, Stage.isWorking] at working

theorem guard_remove (hl : Laid s) (guard : Guard s number call) (working : call.stage.isWorking)
    (task : call.task = .remove) :
    Guards (s.act number call uuid count) number := by
  have hf := guard.fits
  have place := guard.place
  have onward := guard.goes working (by simp [task])
  cases hh : call.stage with
  | opening role =>
    obtain rfl : role = .deletion := by cases role <;> simp_all
    simp only [System.act, hh]
    split
    · exact onward _ _ (update_self _ _ _) rfl (by simp [task]) (by simp [task])
    · next entry =>
        refine onward _ _ (update_self _ _ _) rfl (by simp [task]) ?_
        simp only [Place, task]
        exact .inl entry
  | checking role inode =>
    obtain rfl : role = .deletion := by cases role <;> simp_all
    simp only [Place, task, hh] at place
    simp only [System.act, hh]
    by_cases hv : validateFile (s.directory.inode inode)
    · rw [if_pos hv]
      refine onward _ _ (update_self _ _ _) rfl (by simp [task]) ?_
      simp only [Place, task]
      have links : (s.directory.inode inode).links = 1 := by
        simp only [validateFile, Bool.and_eq_true, beq_iff_eq] at hv
        exact hv.1
      rcases place with entry | ⟨_, none⟩
      · exact ⟨entry, links⟩
      · cases links.symm.trans none
    · rw [if_neg hv]
      exact onward _ _ (update_self _ _ _) rfl (by simp [task]) (by simp [task])
  | reading role inode =>
    obtain rfl : role = .deletion := by cases role <;> simp_all
    simp only [Place, task, hh] at place
    simp only [System.act, hh]
    split
    · exact onward _ _ (update_self _ _ _) rfl (by simp [task]) (by simp [task])
    · next payload read =>
        by_cases mine : payload = call.owner
        · refine onward _ _ (update_self _ _ _) rfl (by simp [task, mine]) ?_
          simp only [Call.found, Place, task, mine, ↓reduceIte]
          exact ⟨inode, place.1, place.2, mine ▸ content_of_read hl.sound place.1 read⟩
        · exact onward _ _ (update_self _ _ _) rfl (by simp [task, mine])
            (by simp [task, mine])
  | removing | syncing | closing =>
    simp only [System.act, hh, task]
    repeat' split
    all_goals exact onward _ _ (update_self _ _ _) rfl (by simp [task]) (by simp [task])
  | checkingLease | openingLive | checkingLive | locking | creating | writing | linking | unlinking =>
    simp [task, hh] at hf
  | waiting | granted | ended | stopped => simp [hh, Stage.isWorking] at working

theorem guard_release {lease : Nat} (hl : Laid s) (guard : Guard s number call)
    (working : call.stage.isWorking) (task : call.task = .release lease) :
    Guards (s.act number call uuid count) number := by
  have hf := guard.fits
  have place := guard.place
  have onward := guard.goes working (by simp [task])
  cases hh : call.stage with
  | opening role =>
    obtain rfl : role = .admission := by cases role <;> simp_all
    simp only [System.act, hh]
    split
    · exact onward _ _ (update_self _ _ _) rfl (by simp [task]) (by simp [task])
    · next entry =>
        refine onward _ _ (update_self _ _ _) rfl (by simp [task]) ?_
        simp only [Place, task]
        exact entry
  | checking role inode =>
    obtain rfl : role = .admission := by cases role <;> simp_all
    simp only [Place, task, hh] at place
    simp only [System.act, hh]
    split
    · refine onward _ _ (update_self _ _ _) rfl (by simp [task]) ?_
      simp only [Place, task]
      exact place
    · exact onward _ _ (update_self _ _ _) rfl (by simp [task]) (by simp [task])
  | reading role inode =>
    obtain rfl : role = .admission := by cases role <;> simp_all
    simp only [Place, task, hh] at place
    simp only [System.act, hh]
    split
    · exact onward _ _ (update_self _ _ _) rfl (by simp [task]) (by simp [task])
    · next payload read =>
        by_cases mine : payload = call.owner
        · refine onward _ _ (update_self _ _ _) rfl (by simp [task, mine]) ?_
          simp only [Call.found, Place, task, mine, ↓reduceIte]
          exact ⟨inode, place, mine ▸ content_of_read hl.sound place read⟩
        · exact onward _ _ (update_self _ _ _) rfl (by simp [task, mine])
            (by simp [task, mine])
  | checkingLease | removing | syncing =>
    simp only [System.act, hh, task]
    repeat' split
    all_goals exact onward _ _ (update_self _ _ _) rfl (by simp [task]) (by simp [task])
  | closing _ =>
    simp only [System.act, hh, task]
    refine onward _ _ (update_self _ _ _) ?_ (by simp [task]) (by simp [task])
    unfold System.closeLease
    repeat' split
    all_goals rfl
  | openingLive | checkingLive | locking | creating | writing | linking | unlinking => simp [task, hh] at hf
  | waiting | granted | ended | stopped => simp [hh, Stage.isWorking] at working

theorem guard_claim {resume : Bool} (hl : Laid s) (anchored : Anchored s)
    (hfo : s.calls number = some call) (guard : Guard s number call)
    (working : call.stage.isWorking) (task : call.task = .claim resume) :
    Guards (s.act number call uuid count) number := by
  have hf := guard.fits
  have place := guard.place
  have locked := guard.locked ⟨resume, task⟩
  have owes := hl.owes number call hfo
  have onward : ∀ (s' : System) (stage : Stage), s'.calls number = some { call with stage := stage } →
      s'.lifecycle = s.lifecycle → call.task.fits stage →
      (stage.isLocked → ∃ inode, call.live = some inode ∧ s'.flock inode = some number) →
      Place s'.directory { call with stage := stage } (s.lifecycle call.key = some number) →
      Guards s' number :=
    fun s' stage calls lifecycle hf' locked' place' =>
      guard.onward working calls lifecycle hf' (fun _ => locked') place'
  -- A claim that gives up keeps nothing.
  have gives : ∀ (s' : System) (ok : Bool), s'.calls number = some { call with stage := .closing ok } →
      s'.lifecycle = s.lifecycle → Guards s' number := by
    intro s' ok calls lifecycle
    exact onward s' (.closing ok) calls lifecycle (by simp [task]) (by simp [Stage.isLocked]) (by simp [task])
  have grants : ∀ s' : System,
        s'.calls number = some { call with stage := call.granting } → s'.lifecycle = s.lifecycle →
      (∃ inode, call.live = some inode ∧ s'.flock inode = some number) →
      s'.directory.entry (.marker .deletion call.key) = none → Owned s'.directory call →
      Guards s' number := by
    intro s' calls lifecycle holds clear ho
    unfold Call.granting at calls
    split at calls
    · exact gives s' true calls lifecycle
    · refine onward s' .granted calls lifecycle (by simp [task]) (fun _ => holds) ?_
      simp only [Place, task]
      exact fun _ => ⟨clear, ho⟩
  cases hh : call.stage with
  | opening role =>
    cases role with
    | deletion =>
      simp only [System.act, hh]
      split
      · next clear =>
          refine onward _ _ (update_self _ _ _) rfl (by simp [task])
            (by simp [task, Stage.isLocked]) ?_
          simp only [Call.found, task, Place, isSome_none, Bool.false_eq_true, ↓reduceIte]
          exact clear
      · exact onward _ _ (update_self _ _ _) rfl (by simp [task]) (by simp [Stage.isLocked]) (by simp [task])
    | admission =>
      simp only [Place, task, hh] at place
      rw [hh] at locked
      simp only [System.act, hh]
      split
      · next absent =>
          refine onward _ _ (update_self _ _ _) rfl (by simp [task]) (fun _ => locked rfl) ?_
          simp only [Call.found, task, Place]
          exact ⟨place, absent⟩
      · next entry =>
          refine onward _ _ (update_self _ _ _) rfl (by simp [task]) (fun _ => locked rfl) ?_
          simp only [Place, task]
          exact ⟨place, entry⟩
  | checking role inode =>
    cases role with
    | deletion =>
      simp only [System.act, hh]
      split
      · exact onward _ _ (update_self _ _ _) rfl (by simp [task]) (by simp [Stage.isLocked]) (by simp [task])
      · exact gives _ _ (update_self _ _ _) rfl
    | admission =>
      simp only [Place, task, hh] at place
      rw [hh] at locked
      simp only [System.act, hh]
      split
      · refine onward _ _ (update_self _ _ _) rfl (by simp [task]) (fun _ => locked rfl) ?_
        simp only [Place, task]
        exact place
      · exact gives _ _ (update_self _ _ _) rfl
  | reading role inode =>
    cases role with
    | deletion =>
      simp only [System.act, hh]
      split
      · exact gives _ _ (update_self _ _ _) rfl
      · simp only [Call.found, task, isSome_some, ↓reduceIte]
        exact gives _ _ (update_self _ _ _) rfl
    | admission =>
      simp only [Place, task, hh] at place
      rw [hh] at locked
      simp only [System.act, hh]
      split
      · exact gives _ _ (update_self _ _ _) rfl
      · next payload read =>
          simp only [Call.found, task]
          split
          · next mine =>
              refine grants _ (update_self _ _ _) rfl (locked rfl) place.1 ⟨inode, place.2, ?_⟩
              exact mine.2 ▸ content_of_read hl.sound place.2 read
          · exact gives _ _ (update_self _ _ _) rfl
  | openingLive =>
    simp only [Place, task, hh] at place
    simp only [System.act, hh]
    split
    · refine guard.onward working (update_self _ _ _) rfl (by simp [task]) (by simp [Stage.isLocked]) ?_
      simp only [Place, task]
      exact place
    · refine guard.onward working (update_self _ _ _) rfl (by simp [task]) (by simp [Stage.isLocked]) ?_
      simp only [Place, task]
      exact (entry_create_of_ne (by simp)).trans place
  | checkingLive inode =>
    simp only [Place, task, hh] at place
    simp only [System.act, hh]
    split
    · refine onward _ _ (update_self _ _ _) rfl (by simp [task]) (by simp [Stage.isLocked]) ?_
      simp only [Place, task]
      exact place
    · exact gives _ _ (update_self _ _ _) rfl
  | locking inode =>
    simp only [Place, task, hh] at place
    simp only [System.act, hh]
    split
    · refine onward _ _ (update_self _ _ _) rfl (by simp [task]) (fun _ => ⟨inode, ?_, update_self _ _ _⟩) ?_
      · exact anchored.stage number call inode hfo (by rw [hh]; rfl)
      · simp only [Place, task]
        exact place
    · exact gives _ _ (update_self _ _ _) rfl
  | creating =>
    simp only [Place, task, hh] at place
    rw [hh] at locked
    simp only [System.act, hh]
    split
    · exact gives _ _ (update_self _ _ _) rfl
    · refine onward _ _ (update_self _ _ _) rfl (by simp [task]) (fun _ => locked rfl) ?_
      simp only [Place, task]
      exact ⟨(entry_create_of_ne (by simp)).trans place.1, (entry_create_of_ne (by simp)).trans place.2⟩
  | writing own inode _ =>
    simp only [Place, task, hh] at place
    rw [hh] at locked
    simp only [System.act, hh]
    split
    · exact gives _ _ (update_self _ _ _) rfl
    · refine onward _ _ (update_self _ _ _) rfl ?_ (fun _ => locked rfl) ?_
      · split <;> simp [task]
      · split
        all_goals
          simp only [Place, task]
          exact place
  | linking own inode =>
    simp only [Place, task, hh] at place
    rw [hh] at locked
    unfold Owes at owes
    rw [hh] at owes
    have role : call.task.role = .admission := by rw [task]; rfl
    have ha : s.act number call uuid count = { s.move number call (.unlinking own true) with
        directory := s.directory.link inode (.marker .admission call.key) } := by
      simp only [System.act, hh, role, place.2]
    rw [ha]
    refine onward _ (.unlinking own true) (update_self _ _ _) rfl (by simp [task]) (fun _ => locked rfl) ?_
    simp only [Place, task]
    refine ⟨(entry_link_of_ne (by simp)).trans place.1, trivial, inode, update_self _ _ _, ?_⟩
    exact (content_link _).trans owes.2.2
  | unlinking _ _ =>
    simp only [Place, task, hh] at place
    rw [hh] at locked
    obtain ⟨clear, rfl, ho⟩ := place
    simp only [System.act, hh]
    split
    · exact gives _ _ (update_self _ _ _) rfl
    · next entry =>
        refine onward _ _ (update_self _ _ _) rfl (by simp [task]) (fun _ => locked rfl) ?_
        simp only [Place, task, ↓reduceIte]
        refine ⟨(entry_unlink_of_ne (by simp)).trans clear, ?_⟩
        exact Owned.frame (frame_unlink hl.sound entry (by simp)) ho
  | syncing =>
    simp only [Place, task, hh] at place
    rw [hh] at locked
    simp only [System.act, hh, task]
    exact grants _ (update_self _ _ _) rfl (locked rfl) place.1 place.2
  | closing _ =>
    simp only [System.act, hh, task]
    exact onward _ _ (update_self _ _ _) rfl (by simp [task]) (by simp [Stage.isLocked])
      (by simp [task])
  | checkingLease | removing => simp [task, hh] at hf
  | waiting | granted | ended | stopped => simp [hh, Stage.isWorking] at working

theorem guard_act (hl : Laid s) (ha : Anchored s) (hf : s.calls number = some call)
    (guard : Guard s number call) (working : call.stage.isWorking) :
    Guards (s.act number call uuid count) number := by
  cases task : call.task with
  | claim _ => exact guard_claim hl ha hf guard working task
  | release _ => exact guard_release hl guard working task
  | publish => exact guard_publish guard working task
  | remove => exact guard_remove hl guard working task

end Own

/-! ### Whole steps -/

section Steps
variable {s s' : System} {number other uuid count : Nat} {call call' : Call}

theorem System.lifecycle_closeLease (lease : Nat) : (s.closeLease lease).lifecycle = s.lifecycle := by
  unfold closeLease
  repeat' split
  all_goals rfl

theorem System.lifecycle_act : (s.act number call uuid count).lifecycle = s.lifecycle := by
  unfold act
  repeat' split
  all_goals first
    | rfl
    | exact lifecycle_closeLease _

theorem System.flock_unlock_of_ne {inode : Nat} (hh : s.flock inode = some other)
    (ha : other ≠ number) : (s.unlock number).flock inode = some other := by
  simp [unlock, hh, ha]

theorem System.flock_closeLease_kept {lease inode : Nat} (hh : s.flock inode = some other)
    (hf : s.calls other = some call') :
    (s.closeLease lease).flock inode = some other ∨
    (s.closeLease lease).calls other = some { call' with stage := .ended true } := by
  unfold closeLease
  split
  · next opened ht =>
      split
      · by_cases hs : other = lease
        · subst hs
          cases hf.symm.trans ht
          exact .inr (update_self _ _ _)
        · exact .inl (flock_unlock_of_ne hh hs)
      · exact .inl hh
  · exact .inl hh

theorem System.flock_act_kept {inode : Nat} (hh : s.flock inode = some other) (ha : other ≠ number)
    (found : s.calls other = some call') :
    (s.act number call uuid count).flock inode = some other ∨
    (s.act number call uuid count).calls other = some { call' with stage := .ended true } := by
  unfold act
  split
  case h_7 target here =>
    split
    · next hf =>
        refine .inl ?_
        change update s.flock target (some number) inode = some other
        by_cases hs : inode = target
        · subst hs
          cases hh.symm.trans hf
        · rw [update_of_ne hs]
          exact hh
    · exact .inl hh
  case h_14 =>
    split
    · next lease _ =>
        rcases @flock_closeLease_kept s other call' lease inode hh found with hk | hc
        · exact .inl hk
        · exact .inr ((update_of_ne ha _ _).trans hc)
    · exact .inl (flock_unlock_of_ne hh ha)
  all_goals
    repeat' split
    all_goals exact .inl hh

theorem guard_ended (ok : Bool) : Guard s number { call with stage := .ended ok } where
  fits := call.task.fits_ended ok
  inside _ working := absurd working (by simp)
  locked _ holds := absurd holds (by simp [Stage.isLocked])
  place := by cases task : call.task <;> simp

theorem Guarded.acted (hg : Guarded s) (hl : Laid s) (ha : Anchored s)
    (found : s.calls number = some call) (working : call.stage.isWorking)
    (ho : Orderly s (.act number uuid count)) : Guarded (s.act number call uuid count) := by
  have guard := hg number call found
  obtain ⟨_, acted⟩ := @System.act_acted s number uuid count call found working
  intro other new here
  by_cases hs : other = number
  · subst hs
    obtain ⟨_, own, hk⟩ := @guard_act s other uuid count call hl ha found guard working
    rw [← some.inj (own.symm.trans here)]
    exact hk
  · have beside := acted.others other hs
    rw [here] at beside
    rcases beside with hk | ⟨_, _, _, hc⟩
    · have guard' := hg other new hk.symm
      refine ⟨guard'.fits, ?_, ?_, ?_⟩
      · rw [System.lifecycle_act]
        exact guard'.inside
      · intro claims hh
        obtain ⟨inode, live, held⟩ := guard'.locked claims hh
        rcases @System.flock_act_kept s number other uuid count call new inode held hs hk.symm with still | hc
        · exact ⟨inode, live, still⟩
        · have he : new.stage = .ended true := by rw [some.inj (here.symm.trans hc)]
          rw [he] at hh
          exact absurd hh (by simp [Stage.isLocked])
      · rw [System.lifecycle_act]
        have owes := hl.owes number call found
        by_cases turning : call.stage.isTurning ∧ new.key = call.key
        · refine Place.turning hl guard guard' found hs acted.effect turning.1 turning.2 fun task task' => ?_
          have removing : call.stage = .removing := by
            have hf := guard.fits
            cases stage : call.stage <;> simp_all [Stage.isTurning]
          exact ho.single number uuid count call rfl found task removing other new hs hk.symm task' turning.2
        · refine guard'.place.frame (fun role => acted.effect.frame hl.sound owes fun turns hn => ?_)
            (acted.effect.forgets hl.sound owes) id
          exact turning ⟨turns, (Name.marker.inj hn).2.symm⟩
    · rw [some.inj hc]
      exact guard_ended true

theorem Guard.carry (guard : Guard s number call) (files : s'.directory = s.directory)
    (lifecycle : call.task ≠ .remove → call.stage.isWorking → s.lifecycle call.key = some number →
      s'.lifecycle call.key = some number)
    (back : s'.lifecycle call.key = some number → s.lifecycle call.key = some number)
    (flock : ∀ inode, s.flock inode = some number → s'.flock inode = some number) :
    Guard s' number call where
  fits := guard.fits
  inside task working := lifecycle task working (guard.inside task working)
  locked claims holds := by
    obtain ⟨inode, live, hh⟩ := guard.locked claims holds
    exact ⟨inode, live, flock inode hh⟩
  place := by
    rw [files]
    exact guard.place.frame (fun _ => frame_refl _ _) (forgets_refl _) back

theorem Guarded.leave (hg : Guarded s) (hf : s.calls number = some call)
    (idle : call.stage.isWorking = false) : Guarded (s.leave number call) := by
  unfold System.leave
  split
  · next hh =>
      intro other new here
      refine (hg other new here).carry rfl (fun task working hi => ?_) (fun hi => ?_) fun _ hh => hh
      · have ha : new.key ≠ call.key := by
          intro hs
          rw [hs, hh] at hi
          cases hi
          cases hf.symm.trans here
          cases working.symm.trans idle
        change update s.lifecycle call.key none new.key = _
        rw [update_of_ne ha, hi]
      · change update s.lifecycle call.key none new.key = _ at hi
        by_cases hs : new.key = call.key
        · rw [hs, update_self] at hi
          cases hi
        · rwa [update_of_ne hs] at hi
  · exact hg

theorem guarded_update (hg : Guarded s) (own : Guard s' number call)
    (files : s'.directory = s.directory) (lifecycle : s'.lifecycle = s.lifecycle)
    (flock : s'.flock = s.flock) (calls : s'.calls = update s.calls number (some call)) :
    Guarded s' := by
  intro other new here
  rw [calls] at here
  by_cases hs : other = number
  · subst hs
    rw [update_self] at here
    rw [← some.inj here]
    exact own
  · rw [update_of_ne hs] at here
    refine (hg other new here).carry files (fun _ _ hh => ?_) (fun hh => ?_) fun inode hh => ?_
    · rw [lifecycle]
      exact hh
    · rwa [lifecycle] at hh
    · rw [flock]
      exact hh

theorem Guarded.step {event : Event} (hg : Guarded s) (hl : Laid s) (anchored : Anchored s)
    (ho : Orderly s event) (next : s.step event = some s') : Guarded s' := by
  cases event with
  | act number uuid count =>
    rcases System.step_cases next with ⟨_, call, _, _, hs, hf, working, rfl⟩ | ⟨rest, _⟩
    · cases hs
      exact hg.acted hl anchored hf working ho
    · exact absurd rfl (rest number uuid count)
  | call number process key _ task =>
    simp only [System.step] at next
    split at next
    · rw [← some.inj next]
      refine guarded_update hg ⟨?_, fun ha working => ?_, fun _ holds => ?_, ?_⟩ rfl rfl rfl rfl
      · cases task <;> simp [Task.first]
      · rw [if_neg ha] at working
        exact absurd working (by simp)
      · cases task <;> simp [Stage.isLocked, Task.first] at holds
      · cases task <;> simp [Task.first]
    · cases next
  | enter number =>
    simp only [System.step] at next
    split at next
    · next call hf =>
        split at next
        · next hw =>
            rw [← some.inj next]
            intro other new here
            by_cases hs : other = number
            · subst hs
              change update s.calls other _ other = some new at here
              rw [update_self] at here
              rw [← some.inj here]
              refine ⟨?_, fun _ _ => update_self _ _ _, fun _ holds => ?_, ?_⟩
              · cases task : call.task <;> simp [Task.first]
              · cases task : call.task <;> simp [task, Stage.isLocked, Task.first] at holds
              · cases task : call.task <;> simp [Task.first]
            · change update s.calls number _ other = some new at here
              rw [update_of_ne hs] at here
              have outside : new.key = call.key → s.lifecycle new.key ≠ some other := by
                intro key hh
                rw [key, hw.2] at hh
                cases hh
              refine (hg other new here).carry rfl (fun task working hi => ?_) (fun hi => ?_) fun _ hh => hh
              · have ha : new.key ≠ call.key := fun key => outside key hi
                exact (update_of_ne ha _ _).trans hi
              · change update s.lifecycle call.key (some number) new.key = some other at hi
                by_cases key : new.key = call.key
                · rw [key, update_self] at hi
                  exact absurd (some.inj hi).symm hs
                · rwa [update_of_ne key] at hi
        · cases next
    · cases next
  | leave number =>
    simp only [System.step] at next
    repeat' split at next
    all_goals cases next
    next hf idle => exact hg.leave hf (by simpa using idle)
  | close lease =>
    rw [← some.inj next]
    intro other new here
    have beside := System.beside_closeLease (s := s) lease other
    rw [here] at beside
    rcases beside with hk | ⟨call, _, _, hc⟩
    · by_cases he : new.stage = .ended true
      · have hs : new = { new with stage := .ended true } := by rw [← he]
        rw [hs]
        exact guard_ended true
      · refine (hg other new hk.symm).carry (System.directory_closeLease lease) (fun _ _ hh => ?_)
          (fun hh => ?_)
          fun inode hh => ?_
        · rw [System.lifecycle_closeLease]
          exact hh
        · rwa [System.lifecycle_closeLease] at hh
        · rcases @System.flock_closeLease_kept s other new lease inode hh hk.symm with still | hc
          · exact still
          · exact absurd (by rw [some.inj (here.symm.trans hc)]) he
    · rw [some.inj hc]
      exact guard_ended true
  | cancel number =>
    simp only [System.step] at next
    split at next
    · next call hf =>
        rw [← some.inj next]
        have guard := hg number call hf
        unfold System.cancel
        split
        · exact guarded_update hg (guard_ended false) rfl rfl rfl rfl
        · refine guarded_update hg ?_ rfl rfl rfl rfl
          exact ⟨guard.fits, guard.inside, guard.locked, guard.place⟩
        · next task _ => exact hg.leave hf (ho.shielded number call rfl hf task)
        · exact hg
    · cases next
  | exit process =>
    rw [← some.inj next]
    intro other _ here
    obtain ⟨call, hf, rfl⟩ := map_eq_some_iff.mp here
    unfold System.stop
    split
    · refine ⟨?_, fun _ working => absurd working (by simp),
        fun _ holds => absurd holds (by simp [Stage.isLocked]), ?_⟩
      · cases task : call.task <;> simp
      · cases task : call.task <;> simp
    · next strange =>
        have runs : s.runsIn process other = false := by simp [System.runsIn, hf, strange]
        refine (hg other call hf).carry rfl (fun _ _ hh => ?_) (fun hh => ?_) fun inode hh => ?_
        · simp [System.exit, hh, runs]
        · exact (filter_eq_some_iff.mp hh).1
        · simp [System.exit, hh, runs]

end Steps

theorem Reached.guarded {s : System} (hr : Reached Orderly s) : Guarded s := by
  induction hr with
  | initial =>
    intro _ _ hf
    exact absurd hf (by simp [System.initial])
  | step before fits next ih => exact ih.step before.laid before.anchored fits next

end Yinshi.Admission
