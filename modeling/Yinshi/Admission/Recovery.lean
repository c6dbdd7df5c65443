import Yinshi.Admission.Layout

/-! Recovery after a process has stopped. A marker is put up by a link beside its temporary
name, and readers refuse a file with two names: a marker can be read again unless a process
stopped between the link and the removal of the temporary name. -/

namespace Yinshi.Admission
open ByteText Links Links.Directory Function Option

/-- The states of the runs whose events are all allowed. -/
inductive Reached (allowed : System → Event → Prop) : System → Prop
  | initial : Reached allowed .initial
  | step {s s' : System} {event : Event} (before : Reached allowed s) (fits : allowed s event)
      (next : s.step event = some s') : Reached allowed s'

variable {s : System} {allowed : System → Event → Prop}

theorem Reached.laid (hr : Reached allowed s) : Laid s := by
  induction hr with
  | initial => exact laid_initial
  | step _ _ next ih => exact ih.step next

theorem Reached.anchored (hr : Reached allowed s) : Anchored s := by
  induction hr with
  | initial => exact anchored_initial
  | step before _ next ih => exact ih.step before.laid next

/-- No process stops between the link and the unlink of a publication. -/
def Unbroken (s : System) (event : Event) : Prop :=
  ∀ process, event = .exit process → ∀ number call uuid, s.calls number = some call →
    call.process = process → call.stage ≠ .unlinking uuid true

def Tidy (s : System) : Prop :=
  ∀ uuid name inode, s.directory.entry (.temporary uuid) = some inode → s.directory.entry name = some inode →
    name.isTemporary = false → ∃ number call, s.calls number = some call ∧ call.stage = .unlinking uuid true

theorem tidy_initial : Tidy .initial := by
  intro _ _ _ entry
  simp [System.initial, Directory.empty] at entry

variable {s s' : System} {number : Nat}

theorem Tidy.acted {call next : Call} (tidy : Tidy s) (hl : Laid s)
    (hf : s.calls number = some call) (acted : System.Acted s number call next s') : Tidy s' := by
  -- A publication of another call is still where it was.
  have elsewhere : ∀ uuid, (∀ linked, call.stage ≠ .unlinking uuid linked) →
      (∃ other call', s.calls other = some call' ∧ call'.stage = .unlinking uuid true) →
      ∃ other call', s'.calls other = some call' ∧ call'.stage = .unlinking uuid true := by
    rintro uuid ha ⟨other, call', hf', hh⟩
    have strange : other ≠ number := by
      rintro rfl
      cases hf.symm.trans hf'
      exact ha true hh
    rcases acted.others other strange with hs | ⟨_, before, granted, _⟩
    · exact ⟨other, call', hs.trans hf', hh⟩
    · cases before.symm.trans hf'
      cases hh.symm.trans granted
  obtain ⟨stage, hh⟩ : ∃ stage, next.stage = stage := ⟨_, rfl⟩
  have effect := acted.effect
  rw [hh] at effect
  intro uuid name inode entry entry' fixed
  generalize files : s'.directory = later at effect entry entry'
  have old := hl.owes number call hf
  cases effect with
  | keep hp gone =>
    refine elsewhere uuid (fun linked stands => ?_) (tidy uuid name inode entry entry' fixed)
    cases entry.symm.trans (gone uuid linked stands)
  | live stands absent =>
    refine elsewhere uuid (fun linked ht => by cases stands.symm.trans ht) ?_
    rcases entry_create entry with ⟨hs, _⟩ | ⟨_, entry⟩
    · cases hs
    · rcases entry_create entry' with ⟨_, rfl⟩ | ⟨_, entry'⟩
      · exact absurd (hl.sound.counted.used _ _ entry) (lt_irrefl _)
      · exact tidy uuid name inode entry entry' fixed
  | create stands absent =>
    refine elsewhere uuid (fun linked ht => by cases stands.symm.trans ht) ?_
    rcases entry_create entry' with ⟨rfl, _⟩ | ⟨_, entry'⟩
    · exact absurd fixed (by simp [Name.isTemporary])
    · rcases entry_create entry with ⟨_, rfl⟩ | ⟨_, entry⟩
      · exact absurd (hl.sound.counted.used _ _ entry') (lt_irrefl _)
      · exact tidy uuid name inode entry entry' fixed
  | write stands | refused stands _ | written stands =>
    exact elsewhere uuid (fun linked ht => by cases stands.symm.trans ht)
      (tidy uuid name inode entry entry' fixed)
  | @link own target stands _ =>
    rcases entry_link entry with ⟨hs, _⟩ | ⟨_, entry⟩
    · cases hs
    · rcases entry_link entry' with ⟨_, rfl⟩ | ⟨_, entry'⟩
      · -- The new name: the call that acts is about to remove the temporary one.
        unfold Owes at old
        rw [stands] at old
        obtain ⟨_, only, _⟩ := old
        rw [Name.temporary.inj (only _ entry)]
        exact ⟨number, next, acted.own, hh⟩
      · exact elsewhere uuid (fun linked ht => by cases stands.symm.trans ht)
          (tidy uuid name inode entry entry' fixed)
  | @unlink _ _ linked _ stands removed _ =>
    obtain ⟨ha, entry⟩ := entry_unlink entry
    refine elsewhere uuid (fun linked' ht => ?_) (tidy uuid name inode entry (entry_unlink entry').2 fixed)
    rw [stands] at ht
    exact ha (by rw [(Stage.unlinking.inj ht).1])
  | remove stands _ =>
    exact elsewhere uuid (fun linked ht => by cases stands.symm.trans ht)
      (tidy uuid name inode (entry_unlink entry).2 (entry_unlink entry').2 fixed)

variable {event : Event}

theorem Tidy.step (ht : Tidy s) (hl : Laid s) (unbroken : Unbroken s event)
    (next : s.step event = some s') : Tidy s' := by
  rcases System.step_cases next with ⟨number, call, uuid, _, _, hf, working, rfl⟩ | ⟨rest, files⟩
  · obtain ⟨_, acted⟩ := System.act_acted hf working
    exact ht.acted hl hf acted
  · intro uuid name inode entry entry' fixed
    rw [files] at entry entry'
    obtain ⟨number, call, hf, hh⟩ := ht uuid name inode entry entry' fixed
    have working : call.stage.isWorking := by
      rw [hh]
      rfl
    rcases System.step_working next rest hf working with stopped | ⟨call', hf', _, stage, _⟩
    · exact absurd hh (unbroken _ stopped number call uuid hf rfl)
    · exact ⟨number, call', hf', stage.trans hh⟩

theorem Reached.tidy (hr : Reached Unbroken s) : Tidy s := by
  induction hr with
  | initial => exact tidy_initial
  | step before hf next ih => exact ih.step before.laid hf next

structure AtRest (s : System) (key : Text) : Prop where
  lifecycle : s.lifecycle key = none
  flock : ∀ inode, s.directory.entry (.live key) = some inode → s.flock inode = none
  calls : ∀ number call, s.calls number = some call → call.key = key → call.stage.isWorking = false

def Name.key : Name → Option Text
  | .marker _ key | .live key => some key
  | .temporary _ => none

variable {payload : Payload} {role : Role}

theorem length_dumps (owner : payload.isOwner role) : payload.dumps.length ≤ 1024 := by
  simp only [Payload.isOwner, isHexText, Bool.and_eq_true, beq_iff_eq] at owner
  have kind : payload.kind.name.length ≤ 11 := by cases payload.kind <;> decide
  simp only [Payload.dumps, List.length_append, owner.1.2.1, owner.2.1]
  have fixed : (text "\x7b\"authority\":\"").length + (text "\",\"kind\":\"").length +
      (text "\",\"operation\":\"").length + (text "\",\"version\":1\x7d").length ≤ 100 := by decide
  omega

section
variable {key : Text} {inode : Nat} (hl : Laid s) (ht : Tidy s) (rest : AtRest s key)
include hl ht rest

theorem links_at_rest {name : Name} (about : name.key = some key)
    (entry : s.directory.entry name = some inode) : (s.directory.inode inode).links = 1 := by
  have fixed : name.isTemporary = false := by
    cases name with
    | temporary uuid => exact absurd about (by simp [Name.key])
    | marker role key => rfl
    | live key => rfl
  refine hl.sound.counted.links_eq_one entry fun other entry' => ?_
  by_cases kind : other.isTemporary = false
  · exact hl.sound.single other name inode entry' entry (kind.trans fixed.symm)
  · exfalso
    cases other with
    | marker role key | live key => exact kind rfl
    | temporary uuid =>
      obtain ⟨number, call, hf, hh⟩ := ht uuid name inode entry' entry fixed
      have owes := hl.owes number call hf
      unfold Owes at owes
      rw [hh] at owes
      obtain ⟨_, own, only⟩ := owes
      cases own.symm.trans entry'
      rcases only name entry with hs | ⟨_, hs⟩
      · rw [hs] at fixed
        exact absurd fixed (by simp [Name.isTemporary])
      · have ours : call.key = key := by
          rw [hs] at about
          exact some.inj about
        have hi := rest.calls number call hf ours
        rw [hh] at hi
        exact absurd hi (by simp [Stage.isWorking])

theorem validate_marker (entry : s.directory.entry (.marker role key) = some inode) :
    validateFile (s.directory.inode inode) := by
  obtain ⟨_, owner, content⟩ := hl.sound.marked role key inode entry
  simp only [validateFile, links_at_rest hl ht rest rfl entry, content, Content.whole, Content.size,
    Nat.min_self, length_dumps owner, decide_true, beq_self_eq_true, Bool.and_self]

theorem validate_live (entry : s.directory.entry (.live key) = some inode) :
    validateFile (s.directory.inode inode) := by
  simp [validateFile, links_at_rest hl ht rest rfl entry, hl.sound.lived key inode entry, Content.size]

end

theorem readMarker_whole (owner : payload.isOwner role) :
    readMarker role (.whole payload) = some payload := by
  simp [readMarker, Content.whole, Content.loads, owner]

/-- The call `number` goes on alone, whatever its writes take, until `goal` holds. -/
inductive Finishes (number uuid : Nat) (goal : System → Prop) : System → Prop
  | done {s : System} (here : goal s) : Finishes number uuid goal s
  | act {s : System} {call : Call} (found : s.calls number = some call) (working : call.stage.isWorking)
      (acts : ∀ count, 0 < count → Finishes number uuid goal (s.act number call uuid count)) :
      Finishes number uuid goal s

/-- A call that starts now and is not disturbed gets to `goal`. -/
def Succeeds (s : System) (process : Nat) (key : Text) (owner : Payload) (task : Task) (uuid : Nat)
    (goal : Nat → System → Prop) : Prop :=
  ∀ number, s.calls number = none → ∃ s₁ s₂, s.step (.call number process key owner task) = some s₁ ∧
    (if task = .remove then s₂ = s₁ else s₁.step (.enter number) = some s₂) ∧
      Finishes number uuid (goal number) s₂

def StandsAt (number : Nat) (stage : Stage) (s : System) : Prop :=
  ∃ call, s.calls number = some call ∧ call.stage = stage

variable {stage : Stage} {inode : Nat}

section Alone
variable {s : System} {number uuid : Nat} {call : Call} {goal : System → Prop}

theorem finishes_of_act (hf : s.calls number = some call) (hh : call.stage = stage)
    (working : stage.isWorking)
    (ha : ∀ count, 0 < count → Finishes number uuid goal (s.act number call uuid count)) :
    Finishes number uuid goal s :=
  .act hf (by rw [hh]; exact working) ha

variable {resume : Bool}

theorem finishes_syncing (hf : s.calls number = some call) (hh : call.stage = .syncing)
    (task : call.task = .claim resume) (hu : call.cancelled = false) :
    Finishes number uuid (StandsAt number .granted) s := by
  refine finishes_of_act hf hh rfl fun count _ => .done ⟨{ call with stage := .granted }, ?_, rfl⟩
  simp [System.act, hh, task, System.move, Call.granting, hu]

variable {own : Nat}

theorem finishes_unlinking (hf : s.calls number = some call) (hh : call.stage = .unlinking own true)
    (task : call.task = .claim resume) (hu : call.cancelled = false)
    (entry : s.directory.entry (.temporary own) = some inode) :
    Finishes number uuid (StandsAt number .granted) s := by
  refine finishes_of_act hf hh rfl fun count _ => ?_
  simp only [System.act, hh, entry, ↓reduceIte]
  exact finishes_syncing (update_self _ _ _) rfl task hu

theorem finishes_linking (hf : s.calls number = some call) (hh : call.stage = .linking own inode)
    (task : call.task = .claim resume) (hu : call.cancelled = false)
    (entry : s.directory.entry (.temporary own) = some inode)
    (ha : s.directory.entry (.marker .admission call.key) = none) :
    Finishes number uuid (StandsAt number .granted) s := by
  refine finishes_of_act hf hh rfl fun count _ => ?_
  simp only [System.act, hh, task, Task.role, ha]
  exact finishes_unlinking (update_self _ _ _) rfl task hu ((entry_link_of_ne (by simp)).trans entry)

theorem finishes_writing (left : Nat) :
    ∀ {s : System} {call : Call} {written : Nat}, s.calls number = some call →
      call.stage = .writing own inode written → call.owner.dumps.length - written ≤ left →
      call.task = .claim resume → call.cancelled = false →
      s.directory.entry (.temporary own) = some inode →
      s.directory.entry (.marker .admission call.key) = none →
      Finishes number uuid (StandsAt number .granted) s := by
  induction left with
  | zero =>
    intro s call written hf hh few task hu entry ha
    refine finishes_of_act hf hh rfl fun count some => ?_
    have hw : min (written + count) call.owner.dumps.length = call.owner.dumps.length := by omega
    simp only [System.act, hh, Nat.ne_of_gt some, hw, ↓reduceIte]
    exact finishes_linking (update_self _ _ _) rfl task hu entry ha
  | succ left ih =>
    intro _ call written hf hh _ task hu entry ha
    refine finishes_of_act hf hh rfl fun count some => ?_
    by_cases hw : min (written + count) call.owner.dumps.length = call.owner.dumps.length
    · simp only [System.act, hh, Nat.ne_of_gt some, hw, ↓reduceIte]
      exact finishes_linking (update_self _ _ _) rfl task hu entry ha
    · simp only [System.act, hh, Nat.ne_of_gt some, hw, ↓reduceIte]
      refine ih (update_self _ _ _) rfl ?_ task hu entry ha
      change call.owner.dumps.length - min (written + count) call.owner.dumps.length ≤ left
      omega

theorem finishes_creating (found : s.calls number = some call) (hh : call.stage = .creating)
    (task : call.task = .claim resume) (hu : call.cancelled = false)
    (hf : s.directory.entry (.temporary uuid) = none)
    (ha : s.directory.entry (.marker .admission call.key) = none) :
    Finishes number uuid (StandsAt number .granted) s := by
  refine finishes_of_act found hh rfl fun count _ => ?_
  simp only [System.act, hh, hf]
  refine finishes_writing _ (update_self _ _ _) rfl (le_refl _) task hu (update_self _ _ _) ?_
  exact (entry_create_of_ne (by simp)).trans ha

theorem finishes_claim (hfo : s.calls number = some call) (hh : call.stage = .opening .deletion)
    (task : call.task = .claim resume)
    (absent : s.directory.entry (.marker .deletion call.key) = none)
    (hv : ∀ inode,
        s.directory.entry (.live call.key) = some inode → validateFile (s.directory.inode inode))
    (hf : ∀ inode, s.directory.entry (.live call.key) = some inode → s.flock inode = none)
    (fresh : s.flock s.directory.next = none)
    (onward : ∀ s' call', s'.calls number = some call' → call.Same call' →
        call'.stage = .opening .admission → call'.cancelled = call.cancelled →
        (∀ name, name ≠ .live call.key → s'.directory.entry name = s.directory.entry name) →
        (∀ inode, inode ≠ s.directory.next → s'.directory.inode inode = s.directory.inode inode) →
        s'.lifecycle = s.lifecycle → Finishes number uuid goal s') :
    Finishes number uuid goal s := by
  refine finishes_of_act hfo hh rfl fun count _ => ?_
  simp only [System.act, hh, absent, Call.found, task, isSome_none, Bool.false_eq_true, ↓reduceIte]
  refine finishes_of_act (update_self _ _ _) rfl rfl fun count _ => ?_
  cases live : s.directory.entry (.live call.key) with
  | some inode =>
    simp only [System.act, System.move, System.directory_put, live]
    refine finishes_of_act (update_self _ _ _) rfl rfl fun count _ => ?_
    simp only [System.act, System.move, System.directory_put, hv inode live, ↓reduceIte]
    refine finishes_of_act (update_self _ _ _) rfl rfl fun count _ => ?_
    simp only [System.act, System.move, System.flock_put, hf inode live, ↓reduceIte]
    exact onward _ _ (update_self _ _ _) ⟨rfl, rfl, rfl, rfl⟩ rfl rfl (fun _ _ => rfl) (fun _ _ => rfl) rfl
  | none =>
    simp only [System.act, System.move, System.directory_put, live]
    refine finishes_of_act (update_self _ _ _) rfl rfl fun count _ => ?_
    have hg : validateFile ((s.directory.create (.live call.key) .empty).inode s.directory.next) := by
      simp [Directory.create, validateFile, Content.size]
    simp only [System.act, System.move, hg, ↓reduceIte]
    refine finishes_of_act (update_self _ _ _) rfl rfl fun count _ => ?_
    simp only [System.act, System.move, System.flock_put, fresh, ↓reduceIte]
    refine onward _ _ (update_self _ _ _) ⟨rfl, rfl, rfl, rfl⟩ rfl rfl (fun name ha => ?_)
      (fun inode ha => ?_) rfl
    · exact entry_create_of_ne ha
    · exact update_of_ne ha _ _

theorem finishes_reading (hf : s.calls number = some call) (hh : call.stage = .opening role)
    (entry : s.directory.entry (.marker role call.key) = some inode)
    (hv : validateFile (s.directory.inode inode))
    (content : (s.directory.inode inode).content = .whole payload) (owner : payload.isOwner role)
    (onward : Finishes number uuid goal (s.move number call (call.found role (some payload)))) :
    Finishes number uuid goal s := by
  refine finishes_of_act hf hh rfl fun count _ => ?_
  simp only [System.act, hh, entry]
  refine finishes_of_act (update_self _ _ _) rfl rfl fun count _ => ?_
  simp only [System.act, System.move, System.directory_put, hv, ↓reduceIte]
  refine finishes_of_act (update_self _ _ _) rfl rfl fun count _ => ?_
  simp only [System.act, System.move, System.directory_put, content, readMarker_whole owner]
  have hs : ∀ stage, (((s.put number { call with stage := .checking role inode }).put number
      { call with stage := .reading role inode }).put number { call with stage := stage }) =
      s.put number { call with stage := stage } := by
    intro _
    simp [System.put]
  rw [hs]
  exact onward

theorem finishes_removing {key : Text} (hf : s.calls number = some call)
    (here : call.stage = .removing) (ownRole : call.task.role = role) (ownKey : call.key = key)
    (removes : call.task = .remove ∨ ∃ lease, call.task = .release lease)
    (entry : s.directory.entry (.marker role key) = some inode) :
    Finishes number uuid
      (fun s' => StandsAt number (.ended true) s' ∧ s'.directory.entry (.marker role key) = none)
      s := by
  refine finishes_of_act hf here rfl fun count _ => ?_
  simp only [System.act, here, ownRole, ownKey, entry]
  refine finishes_of_act (update_self _ _ _) rfl rfl fun count _ => ?_
  rcases removes with task | ⟨_, task⟩
  · simp only [System.act, System.move, task]
    refine finishes_of_act (update_self _ _ _) rfl rfl fun count _ => .done ?_
    exact ⟨⟨_, update_self _ _ _, rfl⟩, update_self _ _ _⟩
  · simp only [System.act, System.move, task]
    refine finishes_of_act (update_self _ _ _) rfl rfl fun count _ => .done ?_
    simp only [System.act]
    refine ⟨⟨_, update_self _ _ _, rfl⟩, ?_⟩
    simp only [System.move, System.directory_put, System.directory_closeLease]
    exact update_self _ _ _

end Alone

/-- Whoever may act on a key can do so: anybody without markers, the owner of a marker with it. -/
structure Recoverable (s : System) (key : Text) : Prop where
  acquire : s.directory.entry (.marker .admission key) = none →
    s.directory.entry (.marker .deletion key) = none →
    ∀ process owner resume uuid, owner.isOwner .admission → s.directory.entry (.temporary uuid) = none →
      Succeeds s process key owner (.claim resume) uuid fun number => StandsAt number .granted
  resume : ∀ inode, s.directory.entry (.marker .admission key) = some inode →
    s.directory.entry (.marker .deletion key) = none →
      ∃ owner, (s.directory.inode inode).content = .whole owner ∧
      ∀ process uuid, Succeeds s process key owner (.claim true) uuid
          fun number s' => StandsAt number .granted s' ∧
        ∃ later, s'.step (.leave number) = some later ∧
          Succeeds later process key owner (.release number) uuid fun other last =>
          StandsAt other (.ended true) last ∧ last.directory.entry (.marker .admission key) = none
  deletion : ∀ inode, s.directory.entry (.marker .deletion key) = some inode →
    ∃ owner, (s.directory.inode inode).content = .whole owner ∧ ∀ process uuid,
      (Succeeds s process key owner .publish uuid fun number s' =>
        StandsAt number (.ended true) s' ∧ s'.directory = s.directory) ∧
      Succeeds s process key owner .remove uuid fun number s' =>
        StandsAt number (.ended true) s' ∧ s'.directory.entry (.marker .deletion key) = none

variable {uuid : Nat}

section Recovery
variable {s : System} {key : Text} {number process : Nat} {owner : Payload}

theorem step_enter {task : Task} (new : s.calls number = none)
    (ha : s.accepts process key owner task) (waits : task ≠ .remove) (hf : s.lifecycle key = none) :
    ∃ s₁ s₂, s.step (.call number process key owner task) = some s₁ ∧
      (if task = .remove then s₂ = s₁ else s₁.step (.enter number) = some s₂) ∧
      s₂.directory = s.directory ∧ s₂.flock = s.flock ∧
      s₂.lifecycle = update s.lifecycle key (some number) ∧
      s₂.calls =
        update s.calls number (some ⟨process, key, owner, task, task.first, none, false⟩) := by
  refine ⟨s.put number ⟨process, key, owner, task, .waiting, none, false⟩,
    { s.put number ⟨process, key, owner, task, task.first, none, false⟩ with
      lifecycle := update s.lifecycle key (some number) }, ?_, ?_, rfl, rfl, rfl, rfl⟩
  · simp [System.step, new, ha, waits]
  · rw [if_neg waits]
    simp [System.step, hf, System.move, System.put]

variable (laid : Laid s) (anchored : Anchored s) (tidy : Tidy s) (rest : AtRest s key)
include laid anchored tidy rest

variable {resume : Bool}

theorem claim_at_rest {goal : Nat → System → Prop} (isOwner : owner.isOwner .admission)
    (ha : s.directory.entry (.marker .deletion key) = none)
    (onward : ∀ number s' call', s.calls number = none → s'.calls number = some call' →
        call'.Same ⟨process, key, owner, .claim resume, .waiting, none, false⟩ →
        call'.stage = .opening .admission → call'.cancelled = false →
        (∀ name, name ≠ .live key → s'.directory.entry name = s.directory.entry name) →
        (∀ inode, inode ≠ s.directory.next → s'.directory.inode inode = s.directory.inode inode) →
        s'.lifecycle = update s.lifecycle key (some number) →
        Finishes number uuid (goal number) s') :
    Succeeds s process key owner (.claim resume) uuid goal := by
  intro number new
  obtain ⟨s₁, s₂, called, entered, files, flock, lifecycle, calls⟩ :=
    @step_enter s key number process owner (.claim resume) new isOwner (by simp) rest.lifecycle
  refine ⟨s₁, s₂, called, entered, ?_⟩
  have hf : s₂.calls number = some ⟨process, key, owner, .claim resume, .opening .deletion, none, false⟩ := by
    rw [calls, update_self]
    rfl
  refine finishes_claim hf rfl rfl (by rw [files]; exact ha) ?_ ?_ ?_ ?_
  · intro inode entry
    rw [files] at entry ⊢
    exact validate_live laid tidy rest entry
  · intro inode entry
    rw [files] at entry
    rw [flock]
    exact rest.flock inode entry
  · rw [flock, files]
    cases hh : s.flock s.directory.next with
    | none => rfl
    | some holder =>
      obtain ⟨call, hf, live⟩ := anchored.lock _ holder hh
      exact absurd (laid.sound.counted.used _ _ (anchored.live holder call _ hf live)) (lt_irrefl _)
  · intro s' call' hf hs stage cancelled entries inodes hk
    rw [files] at entries inodes
    obtain ⟨sameProcess, sameKey, sameOwner, sameTask⟩ := hs
    exact onward number s' call' new hf
      ⟨sameProcess.symm, sameKey.symm, sameOwner.symm, sameTask.symm⟩ stage cancelled
      entries inodes (hk.trans lifecycle)

theorem acquire_at_rest (isOwner : owner.isOwner .admission)
    (ha : s.directory.entry (.marker .admission key) = none)
    (ha' : s.directory.entry (.marker .deletion key) = none)
    (fresh : s.directory.entry (.temporary uuid) = none) :
    Succeeds s process key owner (.claim resume) uuid fun number => StandsAt number .granted := by
  refine claim_at_rest laid anchored tidy rest isOwner ha' ?_
  rintro _ s' call' _ hfo ⟨_, sameKey, _, sameTask⟩ stage hu entries _ _
  have hf : s'.directory.entry (.marker .admission call'.key) = none := by
    rw [← sameKey, entries _ (by simp), ha]
  refine finishes_of_act hfo stage rfl fun count _ => ?_
  simp only [System.act, stage, hf, Call.found, ← sameTask]
  refine finishes_creating (update_self _ _ _) rfl sameTask.symm hu ?_ hf
  exact (entries _ (by simp)).trans fresh

theorem resume_at_rest (entry : s.directory.entry (.marker .admission key) = some inode)
    (absent : s.directory.entry (.marker .deletion key) = none) (isOwner : owner.isOwner .admission)
    (content : (s.directory.inode inode).content = .whole owner) :
    Succeeds s process key owner (.claim true) uuid
      fun number s' => StandsAt number .granted s' ∧
        ∃ later, s'.step (.leave number) = some later ∧
          Succeeds later process key owner (.release number) uuid
            fun other last => StandsAt other (.ended true) last ∧
              last.directory.entry (.marker .admission key) = none := by
  refine claim_at_rest laid anchored tidy rest isOwner absent ?_
  rintro number s' call' _ hf ⟨sameProcess, sameKey, sameOwner, sameTask⟩ stage hu entries inodes lifecycle
  dsimp only at sameProcess sameKey sameOwner sameTask
  have ha : inode ≠ s.directory.next := Nat.ne_of_lt (laid.sound.counted.used _ _ entry)
  have entry' : s'.directory.entry (.marker .admission key) = some inode := (entries _ (by simp)).trans entry
  have hv : validateFile (s'.directory.inode inode) := by
    rw [inodes inode ha]
    exact validate_marker laid tidy rest entry
  have content' : (s'.directory.inode inode).content = .whole owner := by rw [inodes inode ha, content]
  refine finishes_reading hf stage (sameKey ▸ entry') hv content' isOwner (.done ?_)
  have grants : call'.found .admission (some owner) = .granted := by
    simp [Call.found, ← sameTask, sameOwner, Call.granting, hu]
  rw [grants]
  refine ⟨⟨_, update_self _ _ _, rfl⟩, ?_⟩
  -- The lease leaves the lifecycle lock and is released.
  refine ⟨{ s'.move number call' .granted with lifecycle := update s'.lifecycle key none }, ?_, ?_⟩
  · simp [System.step, System.move, Stage.isWorking, System.leave, ← sameKey, lifecycle]
  · intro other new'
    have ha' : other ≠ number := by
      rintro rfl
      exact absurd new' (by simp [System.move])
    obtain ⟨s₁, s₂, called, entered, files, _, _, calls⟩ :=
      @step_enter { s'.move number call' .granted with lifecycle := update s'.lifecycle key none }
        key other process owner
        (.release number) new'
        (by simp [System.accepts, System.move, ← sameProcess, ← sameKey, ← sameOwner, ← sameTask])
          (by simp) (update_self _ _ _)
    refine ⟨s₁, s₂, called, entered, ?_⟩
    have hs : s₂.calls other = some ⟨process, key, owner, .release number, .checkingLease, none, false⟩ := by
      rw [calls, update_self]
      rfl
    have opened : s₂.isOpen number := by simp [System.isOpen, calls, System.move, Ne.symm ha']
    refine finishes_of_act hs rfl rfl fun count _ => ?_
    simp only [System.act, opened, ↓reduceIte]
    have ht : s₂.directory = s'.directory := files
    rw [← ht] at entry' hv content'
    refine finishes_reading (update_self _ _ _) rfl entry' hv content' isOwner ?_
    simp only [Call.found, ↓reduceIte]
    exact finishes_removing (update_self _ _ _) rfl rfl rfl (.inr ⟨number, rfl⟩) entry'

omit anchored in
theorem deletion_at_rest (entry : s.directory.entry (.marker .deletion key) = some inode)
    (isOwner : owner.isOwner .deletion)
    (content : (s.directory.inode inode).content = .whole owner) :
    (Succeeds s process key owner .publish uuid
        fun number s' => StandsAt number (.ended true) s' ∧ s'.directory = s.directory) ∧
    Succeeds s process key owner .remove uuid
      fun number s' =>
        StandsAt number (.ended true) s' ∧ s'.directory.entry (.marker .deletion key) = none := by
  have hv := validate_marker laid tidy rest entry
  refine ⟨?_, ?_⟩
  · intro number new
    obtain ⟨s₁, s₂, called, entered, files, _, _, calls⟩ :=
      @step_enter s key number process owner .publish new isOwner (by simp) rest.lifecycle
    refine ⟨s₁, s₂, called, entered, ?_⟩
    have hs : s₂.calls number = some ⟨process, key, owner, .publish, .opening .deletion, none, false⟩ := by
      rw [calls, update_self]
      rfl
    refine finishes_reading hs rfl (by rw [files]; exact entry) (by rw [files]; exact hv)
      (by rw [files]; exact content) isOwner ?_
    simp only [Call.found, decide_true]
    refine finishes_of_act (update_self _ _ _) rfl rfl
      fun count _ => .done ⟨⟨_, update_self _ _ _, rfl⟩, files⟩
  · intro _ new
    refine ⟨_, _, by simp [System.step, new, System.accepts, Task.role, isOwner]; rfl, rfl, ?_⟩
    refine finishes_reading (update_self _ _ _) rfl entry hv content isOwner ?_
    simp only [Call.found, ↓reduceIte]
    exact finishes_removing (update_self _ _ _) rfl rfl rfl (.inl rfl) entry

end Recovery

/-- In every run without a stop between a link and the unlink after it, a key at rest is
recoverable. -/
theorem markers_recoverable {s : System} (reached : Reached Unbroken s) {key : Text}
    (rest : AtRest s key) : Recoverable s key where
  acquire absent absent' process owner resume uuid isOwner fresh :=
    acquire_at_rest reached.laid reached.anchored reached.tidy rest isOwner absent absent' fresh
  resume inode entry absent := by
    obtain ⟨owner, isOwner, content⟩ := reached.laid.sound.marked .admission key inode entry
    exact ⟨owner, content, fun process uuid =>
      resume_at_rest reached.laid reached.anchored reached.tidy rest entry absent isOwner content⟩
  deletion inode entry := by
    obtain ⟨owner, isOwner, content⟩ := reached.laid.sound.marked .deletion key inode entry
    exact ⟨owner, content,
      fun process uuid => deletion_at_rest reached.laid reached.tidy rest entry isOwner content⟩

def System.run (s : System) (events : List Event) : Option System := events.foldlM System.step s

variable {events : List Event}

theorem Reached.run {allowed : System → Event → Prop} {s last : System} (hr : Reached allowed s)
    (hf : ∀ s, ∀ event ∈ events, allowed s event) (ran : s.run events = some last) :
    Reached allowed last := by
  induction events generalizing s with
  | nil =>
    rw [← some.inj ran]
    exact hr
  | cons event _ ih =>
    obtain ⟨_, next, ran'⟩ := bind_eq_some_iff.mp ran
    exact ih (hr.step (hf s event (by simp)) next) (fun s event hl => hf s event (by simp [hl])) ran'

def Event.starts (event : Event) (number : Nat) : Bool :=
  match event with
  | .call other _ _ _ _ => other == number
  | _ => false

theorem step_absent (next : s.step event = some s') (absent : s.calls number = none)
    (other : event.starts number = false) : s'.calls number = none := by
  cases event with
  | call _ process _ _ _ =>
    simp only [Event.starts, beq_eq_false_iff_ne] at other
    simp only [System.step] at next
    split at next
    · rw [← some.inj next]
      simp [Ne.symm other, absent]
    · cases next
  | enter entered =>
    simp only [System.step] at next
    split at next
    · next call hf =>
        have ha : number ≠ entered := by
          rintro rfl
          cases hf.symm.trans absent
        split at next
        · rw [← some.inj next]
          simp [System.move, ha, absent]
        · cases next
    · cases next
  | act acting uuid count =>
    rcases System.step_cases next with ⟨_, call, _, _, hs, hf, working, rfl⟩ | ⟨rest, _⟩
    · cases hs
      obtain ⟨_, acted⟩ := @System.act_acted s acting uuid count call hf working
      have ha : number ≠ acting := by
        rintro rfl
        cases hf.symm.trans absent
      rcases acted.others number ha with hk | ⟨_, before, _, _⟩
      · exact hk.trans absent
      · cases before.symm.trans absent
    · exact absurd rfl (rest acting uuid count)
  | leave _ =>
    simp only [System.step] at next
    repeat' split at next
    all_goals cases next
    unfold System.leave
    split <;> exact absent
  | close lease =>
    rw [← some.inj next]
    rcases System.beside_closeLease (s := s) lease number with hs | ⟨_, hf, _, _⟩
    · exact hs.trans absent
    · cases hf.symm.trans absent
  | cancel cancelled =>
    simp only [System.step] at next
    split at next
    · next call hf =>
        have ha : number ≠ cancelled := by
          rintro rfl
          cases hf.symm.trans absent
        rw [← some.inj next]
        unfold System.cancel System.leave
        repeat' split
        all_goals simp [System.move, ha, absent]
    · cases next
  | exit _ =>
    rw [← some.inj next]
    simp [System.exit, absent]

theorem run_absent (others : ∀ event ∈ events, event.starts number = false) :
    ∀ {s last : System},
      s.calls number = none → s.run events = some last → last.calls number = none := by
  induction events with
  | nil =>
    intro s last ha ran
    rw [← some.inj ran]
    exact ha
  | cons event _ ih =>
    intro _ _ ha ran
    obtain ⟨_, next, ran'⟩ := bind_eq_some_iff.mp ran
    exact ih (fun event hl => others event (by simp [hl])) (step_absent next ha (others event (by simp))) ran'

def System.alone (number uuid : Nat) : Nat → System → System
  | 0, s => s
  | steps + 1, s =>
    match s.calls number with
    | some call => if call.stage.isWorking then System.alone number uuid steps (s.act number call uuid 1) else s
    | none => s

theorem Finishes.alone {goal : System → Prop} (finishes : Finishes number uuid goal s) :
    ∃ steps, goal (System.alone number uuid steps s) := by
  induction finishes with
  | done hh => exact ⟨0, hh⟩
  | act hf working _ ih =>
    obtain ⟨steps, hh⟩ := ih 1 Nat.one_pos
    exact ⟨steps + 1, by simpa [System.alone, hf, working] using hh⟩

theorem alone_add {number uuid : Nat} {call : Call} (first : Nat) : ∀ {s : System} (more : Nat),
    (System.alone number uuid first s).calls number = some call → call.stage.isWorking = false →
    System.alone number uuid (first + more) s = System.alone number uuid first s := by
  induction first with
  | zero =>
    intro s more hf he
    cases more with
    | zero => rfl
    | succ more =>
      have hh : s.calls number = some call := hf
      simp [System.alone, hh, he]
  | succ _ ih =>
    intro _ more hf he
    rw [Nat.succ_add]
    simp only [System.alone] at hf ⊢
    split
    · next own ht =>
        rw [ht] at hf
        dsimp only at hf
        split
        · next working =>
            rw [if_pos working] at hf
            exact ih more hf he
        · rfl
    · rfl

def sampleKey : Text := List.replicate 64 97

def sampleOwner : Payload := ⟨List.replicate 64 98, List.replicate 32 99, .prompt⟩

def strandingEvents : List Event :=
  [.call 0 0 sampleKey sampleOwner (.claim false), .enter 0, .act 0 7 0, .act 0 7 0, .act 0 7 0,
    .act 0 7 0, .act 0 7 0, .act 0 7 0, .act 0 7 1024, .act 0 7 0, .exit 0]

def closingEvents : List Event :=
  [.call 0 0 sampleKey sampleOwner (.claim false), .enter 0, .act 0 7 0, .act 0 7 0, .act 0 7 0,
    .act 0 7 0, .act 0 7 0, .act 0 7 0, .act 0 7 1024, .act 0 7 0, .act 0 7 0, .act 0 7 0, .leave 0,
    .close 0]

def stranded : System := (System.initial.run strandingEvents).getD .initial

def closed : System := (System.initial.run closingEvents).getD .initial

set_option maxRecDepth 4000

theorem run_getD (ran : (System.initial.run events).isSome) :
    System.initial.run events = some ((System.initial.run events).getD .initial) := by
  obtain ⟨_, hs⟩ := isSome_iff_exists.mp ran
  rw [hs, getD_some]

theorem run_stranded : System.initial.run strandingEvents = some stranded := run_getD (by decide)

theorem run_closed : System.initial.run closingEvents = some closed := run_getD (by decide)

theorem atRest_of_first {last : System} (ran : System.initial.run events = some last)
    (only : ∀ event ∈ events, ∀ number, event.starts (number + 1) = false)
    (lifecycle : last.lifecycle sampleKey = none)
    (live : last.directory.entry (.live sampleKey) = some 0) (flock : last.flock 0 = none)
    (first : (last.calls 0).map (fun call => call.stage) = some stage)
    (hi : stage.isWorking = false) : AtRest last sampleKey where
  lifecycle := lifecycle
  flock inode entry := by
    rw [← some.inj (live.symm.trans entry)]
    exact flock
  calls number call found _ := by
    cases number with
    | zero =>
      rw [found] at first
      have hs : call.stage = stage := some.inj first
      rw [hs]
      exact hi
    | succ number =>
      have ha := run_absent (fun event hl => only event hl number) rfl ran
      cases found.symm.trans ha

theorem starts_first (firsts : events.all fun event =>
      match event with
      | .call number _ _ _ _ => number == 0
      | _ => true) : ∀ event ∈ events, ∀ number, event.starts (number + 1) = false := by
  intro event hl _
  have first := List.all_eq_true.mp firsts event hl
  cases event with
  | call _ =>
    simp only [beq_iff_eq] at first
    simp [Event.starts, first]
  | enter | act | leave | close | cancel | exit => rfl

theorem stranded_atRest : AtRest stranded sampleKey :=
  atRest_of_first run_stranded (starts_first (by decide)) (by decide) (by decide) (by decide)
    (by decide : _ = some Stage.stopped) rfl

theorem closed_atRest : AtRest closed sampleKey :=
  atRest_of_first run_closed (starts_first (by decide)) (by decide) (by decide) (by decide)
    (by decide : _ = some (Stage.ended true)) rfl

theorem closed_reached : Reached Unbroken closed := by
  refine Reached.initial.run (fun s event hl process exits => ?_) run_closed
  rw [exits] at hl
  exact absurd hl (by simp [closingEvents])

/-- The marker of a closed lease can be resumed. -/
theorem markers_recoverable_closed :
    closed.directory.entry (.marker .admission sampleKey) = some 1 ∧
    ∃ owner,
      (closed.directory.inode 1).content = .whole owner ∧
      ∀ process uuid, Succeeds closed process sampleKey owner (.claim true) uuid
          fun number s' => StandsAt number .granted s' ∧
            ∃ later, s'.step (.leave number) = some later ∧
              Succeeds later process sampleKey owner (.release number) uuid
                fun other last => StandsAt other (.ended true) last ∧
                  last.directory.entry (.marker .admission sampleKey) = none := by
  have entry : closed.directory.entry (.marker .admission sampleKey) = some 1 := by decide
  exact ⟨entry, (markers_recoverable closed_reached closed_atRest).resume 1 entry (by decide)⟩

def resumed : System :=
  ((stranded.step (.call 1 0 sampleKey sampleOwner (.claim true))).bind
      fun s => s.step (.enter 1)).getD .initial

theorem resumed_raises (steps : Nat) : ¬ StandsAt 1 .granted (System.alone 1 0 steps resumed) := by
  have he : ((System.alone 1 0 7 resumed).calls 1).map (fun call => call.stage) =
        some (.ended false) := by
    decide
  have never : ∀ steps < 8,
        ((System.alone 1 0 steps resumed).calls 1).map (fun call => call.stage) ≠
          some .granted := by
    decide
  rintro ⟨call, hf, granted⟩
  have hh : ((System.alone 1 0 steps resumed).calls 1).map (fun call => call.stage) = some .granted := by
    rw [hf, map_some, granted]
  by_cases few : steps < 8
  · exact never steps few hh
  · obtain ⟨last, ht, stage⟩ := map_eq_some_iff.mp he
    have hs := @alone_add 1 0 last 7 resumed (steps - 7) ht (by rw [stage]; rfl)
    rw [show 7 + (steps - 7) = steps by omega] at hs
    rw [hs, he] at hh
    cases hh

/-- A process that stops between the link and the unlink leaves a marker that its owner cannot
resume. -/
theorem marker_stranded : ∃ s, Reached (fun _ _ => True) s ∧ ∃ key, AtRest s key ∧
    s.directory.entry (.marker .deletion key) = none ∧ ¬ Recoverable s key := by
  refine ⟨stranded, Reached.initial.run (fun _ _ _ => trivial) run_stranded, sampleKey,
    stranded_atRest, by decide, ?_⟩
  intro recoverable
  have entry : stranded.directory.entry (.marker .admission sampleKey) = some 1 := by decide
  obtain ⟨owner, content, resumes⟩ := recoverable.resume 1 entry (by decide)
  have hs : owner = sampleOwner := by exact (Content.start.inj content).1.symm
  subst hs
  obtain ⟨_, s₂, called, entered, finishes⟩ := resumes 0 0 1 (by decide)
  have begins : s₂ = resumed := by
    rw [if_neg (by simp)] at entered
    simp [resumed, called, entered]
  obtain ⟨steps, granted, _⟩ := finishes.alone
  rw [begins] at granted
  exact resumed_raises steps granted

end Yinshi.Admission
