import Yinshi.Threads.Barrier
import Yinshi.Threads.Walk

/-! The limits of a root tree hold in every reachable state of a tenant's database. A spawn is
the only transaction that adds a delegation, and it counts the whole tree before it does; every
other transaction keeps the rows, their parents and their terminal statuses. -/

namespace Yinshi.Threads
open ByteText Keyed Checked Runs Relation List

inductive TenantStep (digest : Text → Text) (settings : Settings) : Database → Database → Prop
  | reserve {db db' : Database} (request : Request) (tenant : request.tenant = true) (call : SpawnCall)
      {row : Delegation} (done : reserve settings request db call = .ok (db', row)) :
      TenantStep digest settings db db'
  -- Every other transaction adds no row.
  | other {db db' : Database} (step : Transaction digest settings db db')
      (kept : db'.delegations.length = db.delegations.length) : TenantStep digest settings db db'

section Counts
open Classical

noncomputable def treeSize (db : Database) (rootId : Text) : Nat :=
  db.delegations.countP fun row => InTree db rootId row

noncomputable def activeSize (db : Database) (rootId : Text) : Nat :=
  db.delegations.countP fun row => InTree db rootId row ∧ row.status ∈ activeStatuses

end Counts

def childSize (db : Database) (sessionId : Text) : Nat :=
  db.delegations.countP (·.parentSessionId = sessionId)

structure Capacity (settings : Settings) (db : Database) : Prop where
  depth : ∀ rootId, IsRoot db rootId → ∀ depth, ∀ row ∈ db.delegations,
    Under db rootId depth row.parentSessionId → depth + 1 ≤ settings.maxDepth
  children : ∀ sessionId, childSize db sessionId ≤ settings.maxDirectChildren
  active : ∀ rootId, IsRoot db rootId → activeSize db rootId ≤ settings.maxActiveDescendants
  total : ∀ rootId, IsRoot db rootId → 1 + treeSize db rootId ≤ settings.maxTotal
  spawns : ∀ sessionId runId, spawnsOf db sessionId runId ≤ settings.maxSpawnsPerTurn

section Steps
variable {digest : Text → Text} {settings : Settings} {db db' : Database} {rootId : Text}
variable {adopting : Prop} {attachment : Option (Text × Text)} {row row' : Delegation}

theorem TenantStep.transaction (step : TenantStep digest settings db db') :
    Transaction digest settings db db' := by
  cases step with
  | reserve request _ call hd => exact .plain (.reserve request call hd)
  | other step => exact step

section
variable (he : Explained digest adopting db db') (hf : Formed db)
include he hf

theorem Explained.under {depth : Nat} {sessionId : Text} (under : Under db' rootId depth sessionId)
    (stored : (db.sessionById sessionId).isSome) : Under db rootId depth sessionId := by
  obtain ⟨_, _, _, hr⟩ := he
  induction under with
  | root => exact .root
  | @child _ _ _ _ hm ha ih =>
    rcases hr.origin hm with ⟨row, old, rewrite⟩ | reserved
    · rcases rewrite.child with hs | ⟨_, attaches, -, -, isChild⟩
      · rw [rewrite.parent] at ih
        exact .child (ih (hf.parents row old)) old (hs ▸ ha)
      · have after := hr.sessions
        rw [attaches] at after
        cases isChild.symm.trans ha
        rw [after.1] at stored
        simp at stored
    · cases ha.symm.trans reserved.session

theorem Explained.isRoot (hro : IsRoot db' rootId) : IsRoot db rootId := by
  obtain ⟨attachment, _, _, hr⟩ := he
  refine ⟨?_, fun row hm ha => ?_⟩
  · have after := hr.sessions
    have hs := hro.stored
    cases attachment with
    | none =>
      rw [Database.sessionById, show db'.sessions = db.sessions from after] at hs
      exact hs
    | some pair =>
      obtain ⟨_, _⟩ := pair
      obtain ⟨-, ⟨row, hl, ha⟩, _, rfl, same⟩ := after
      rw [sessionById_isSome, same, map_append, mem_append, map_singleton, mem_singleton] at hs
      rcases hs with old | rfl
      · exact sessionById_isSome.mpr old
      · exact absurd ha (hro.unparented row hl)
  · obtain ⟨row', hl, rewrite⟩ := hr.successor hm
    refine hro.unparented row' hl ?_
    rcases rewrite.child with same | ⟨_, -, was, -⟩
    · rw [same, ha]
    · cases (hf.bare row hm was).symm.trans ha

theorem Explained.inTree (hm : row ∈ db.delegations)
    (rewrite : Rewrite digest db adopting attachment row row') (inTree : InTree db' rootId row') :
    InTree db rootId row := by
  obtain ⟨-, depth, under⟩ := inTree
  rw [rewrite.parent] at under
  exact ⟨hm, depth, he.under hf under (hf.parents row hm)⟩

end

theorem Rewrite.active (rewrite : Rewrite digest db adopting attachment row row')
    (active : row'.status ∈ activeStatuses) : row.status ∈ activeStatuses := by
  rw [active_iff_not_terminal] at active ⊢
  intro terminal
  exact active (rewrite.terminal terminal ▸ terminal)

theorem Rewrite.spawn (rewrite : Rewrite digest db adopting attachment row row') :
    row'.parentSessionId = row.parentSessionId ∧ row'.delegatedByRunId = row.delegatedByRunId ∧
    row'.initiator = row.initiator :=
  ⟨rewrite.parent, congrArg Identity.delegatedByRunId rewrite.identity,
    congrArg Identity.initiator rewrite.identity⟩

structure Grows (db db' : Database) (new : List Delegation) : Prop where
  children : ∀ sessionId, childSize db' sessionId ≤
    childSize db sessionId + new.countP (·.parentSessionId = sessionId)
  tree : ∀ rootId, treeSize db' rootId ≤
    treeSize db rootId + (open Classical in new.countP fun row => InTree db' rootId row)
  active : ∀ rootId, activeSize db' rootId ≤
    activeSize db rootId + (open Classical in new.countP fun row => InTree db' rootId row)
  spawns : ∀ sessionId runId, spawnsOf db' sessionId runId ≤ spawnsOf db sessionId runId +
    new.countP fun row => row.parentSessionId = sessionId ∧ row.delegatedByRunId = some runId ∧
      row.initiator = .agent

open Classical in
theorem Rewritten.grows {front new : List Delegation}
    (hr : Rewritten digest adopting db db' attachment front new) (hf : Formed db) :
    Grows db db' new := by
  have he : Explained digest adopting db db' := ⟨attachment, front, new, hr⟩
  refine ⟨fun sessionId => ?_, fun rootId => ?_, fun rootId => ?_, fun sessionId runId => ?_⟩
  · rw [childSize, hr.rows, List.countP_append]
    refine Nat.add_le_add_right (forall₂_countP_le hr.each fun row _ row' _ rewrite under => ?_) _
    rwa [← rewrite.parent]
  · rw [treeSize, hr.rows, List.countP_append]
    refine Nat.add_le_add_right (forall₂_countP_le hr.each fun row hm row' _ rewrite inTree => ?_) _
    rw [decide_eq_true_eq] at inTree ⊢
    exact he.inTree hf hm rewrite inTree
  · rw [activeSize, hr.rows, List.countP_append]
    refine Nat.add_le_add (forall₂_countP_le hr.each fun row hm row' _ rewrite both => ?_)
      (List.countP_mono_left fun row _ both => ?_)
    · rw [decide_eq_true_eq] at both ⊢
      exact ⟨he.inTree hf hm rewrite both.1, rewrite.active both.2⟩
    · rw [decide_eq_true_eq] at both ⊢
      exact both.1
  · rw [spawnsOf, hr.rows, List.countP_append]
    refine Nat.add_le_add_right (forall₂_countP_le hr.each fun row _ row' _ rewrite spawned => ?_) _
    obtain ⟨parent, run, initiator⟩ := rewrite.spawn
    rwa [← parent, ← run, ← initiator]

theorem Capacity.kept (capacity : Capacity settings db) (hf : Formed db)
    (he : Explained digest adopting db db') (hk : db'.delegations.length = db.delegations.length) :
    Capacity settings db' := by
  obtain ⟨attachment, front, new, hr⟩ := he
  have none : new = [] := by
    have rows := congrArg length hr.rows
    have each := hr.each.length_eq
    rw [length_append] at rows
    exact eq_nil_of_length_eq_zero (by omega)
  have grows := hr.grows hf
  have he : Explained digest adopting db db' := ⟨attachment, front, new, hr⟩
  rw [none] at grows
  refine ⟨fun rootId hro depth row' hm under => ?_, fun sessionId => ?_, fun rootId hro => ?_,
    fun rootId hro => ?_, fun sessionId runId => ?_⟩
  · have hm' : row' ∈ front := by
      rw [hr.rows, none, append_nil] at hm
      exact hm
    obtain ⟨row, old, rewrite⟩ := forall₂_mem_right hr.each hm'
    rw [rewrite.parent] at under
    exact capacity.depth rootId (he.isRoot hf hro) depth row old (he.under hf under (hf.parents row old))
  · exact (grows.children sessionId).trans (capacity.children sessionId)
  · exact (grows.active rootId).trans (capacity.active rootId (he.isRoot hf hro))
  · exact (Nat.add_le_add_left (grows.tree rootId) 1).trans (capacity.total rootId (he.isRoot hf hro))
  · exact (grows.spawns sessionId runId).trans (capacity.spawns sessionId runId)

section Spawns
open Classical

theorem Capacity.shallow (capacity : Capacity settings db)
    (hb : settings.maxDepth ≤ ancestryHopLimit) :
    ∀ rootId, IsRoot db rootId → Shallow db rootId := by
  intro rootId hr depth row hm under
  have := capacity.depth rootId hr depth row hm under
  omega

theorem snapshot_sizes (hf : Formed db) (capacity : Capacity settings db)
    (hb : settings.maxDepth ≤ ancestryHopLimit) {sessionId : Text} {snapshot : Snapshot}
    (done : buildRootTreeSnapshot db none sessionId = .ok snapshot) :
    snapshot.totalThreads = 1 + treeSize db snapshot.rootId ∧
    snapshot.activeDescendants = activeSize db snapshot.rootId ∧
    snapshot.childCount sessionId = childSize db sessionId := by
  obtain ⟨_, under, hd, rows⟩ :=
    buildRootTreeSnapshot_counts hf (capacity.shallow hb) done
  have hs : snapshot.rows.Perm (db.delegations.filter fun row => InTree db snapshot.rootId row) := by
    refine (perm_ext_iff_of_nodup hd (hf.parented.nodup.filter _)).mpr fun row => ?_
    rw [rows row, mem_filter, decide_eq_true_eq]
    exact ⟨fun inTree => ⟨inTree.1, inTree⟩, And.right⟩
  obtain ⟨sized, -⟩ := buildRootTreeSnapshot_sized done
  refine ⟨?_, ?_, ?_⟩
  · rw [sized.total, hs.length_eq, ← countP_eq_length_filter, treeSize]
  · rw [sized.active, hs.countP_eq, countP_filter, activeSize]
    refine countP_congr fun row _ => ?_
    simp only [Bool.and_eq_true, decide_eq_true_eq]
    exact and_comm
  · rw [sized.children, hs.countP_eq, countP_filter, childSize]
    refine countP_congr fun row hm => ?_
    simp only [Bool.and_eq_true, decide_eq_true_eq]
    refine ⟨And.left, ?_⟩
    rintro rfl
    exact ⟨rfl, hm, _, under⟩

theorem admitSpawn_limits (hf : Formed db) (capacity : Capacity settings db)
    (hb : settings.maxDepth ≤ ancestryHopLimit) {request : Request} (tenant : request.tenant = true)
    {call : SpawnCall} (admitted : admitSpawn settings request db call = .ok ()) :
    ∃ rootId depth, IsRoot db rootId ∧ Under db rootId depth call.parentSessionId ∧
      depth + 1 ≤ settings.maxDepth ∧
      childSize db call.parentSessionId < settings.maxDirectChildren ∧
      activeSize db rootId < settings.maxActiveDescendants ∧
      1 + treeSize db rootId < settings.maxTotal ∧
      ∀ caller, call.caller = some caller →
        spawnsOf db call.parentSessionId caller.runId < settings.maxSpawnsPerTurn := by
  simp only [admitSpawn, enforceSpawnLimits, steps_ok] at admitted
  obtain ⟨_, -, -, -, -, ⟨snapshot, built, _, _, _, _⟩, spawns⟩ := admitted
  rw [show spawnOwnerEmail request = none from if_pos tenant] at built
  obtain ⟨hr, under, -, -⟩ := buildRootTreeSnapshot_counts hf (capacity.shallow hb) built
  obtain ⟨_, _, _⟩ := snapshot_sizes hf capacity hb built
  refine ⟨snapshot.rootId, snapshot.memberDepth, hr, under, by omega, by omega, by omega, by omega, ?_⟩
  intro _ isCaller
  rw [isCaller] at spawns
  simp only [rejectIf_eq_ok] at spawns
  omega

theorem Capacity.reserved (capacity : Capacity settings db) (formed : Formed db)
    (hb : settings.maxDepth ≤ ancestryHopLimit) {request : Request} (tenant : request.tenant = true)
    {call : SpawnCall} {row : Delegation}
    (done : Threads.reserve settings request db call = .ok (db', row)) : Capacity settings db' := by
  rcases reserve_cases done with rfl | ⟨admitted, hrd, hs, _, isRow⟩
  · exact capacity
  obtain ⟨top, level, isTop, beneath, deep, _, _, _, spawns⟩ :=
    admitSpawn_limits formed capacity hb tenant admitted
  have rewritten : Rewritten id False db db' none db.delegations [row] := by
    rw [hs]
    exact ⟨rfl, forall₂_same.mpr fun row _ => .refl row, .inr ⟨row, rfl, hrd⟩, rfl, .refl _⟩
  have he : Explained id False db db' := ⟨none, db.delegations, [row], rewritten⟩
  have grows := rewritten.grows formed
  have parent : row.parentSessionId = call.parentSessionId := by rw [isRow]; rfl
  -- The tree that the new row is in is the one that was counted.
  have hc : ∀ rootId depth, IsRoot db' rootId → Under db' rootId depth row.parentSessionId →
      rootId = top ∧ depth = level := by
    intro rootId depth hr under
    have before := he.under formed under hrd.parent
    rw [parent] at before
    exact before.unique formed.parented (he.isRoot formed hr).unparented isTop.unparented beneath
  have one : ∀ rootId,
        IsRoot db' rootId → rootId ≠ top → ([row].countP fun row => InTree db' rootId row) = 0 := by
    intro rootId hr other
    rw [countP_eq_zero]
    intro _ hl
    rw [mem_singleton.mp hl, decide_eq_true_eq]
    rintro ⟨-, depth, under⟩
    exact other (hc rootId depth hr under).1
  have most : ∀ test : Delegation → Bool, [row].countP test ≤ 1 := fun test => countP_le_length
  refine ⟨fun rootId hr depth row' hm under => ?_, fun sessionId => ?_, fun rootId hr => ?_,
    fun rootId hr => ?_, fun sessionId runId => ?_⟩
  · rw [rewritten.rows, mem_append, mem_singleton] at hm
    rcases hm with old | rfl
    · exact capacity.depth rootId (he.isRoot formed hr) depth row' old
        (he.under formed under (formed.parents row' old))
    · rw [(hc rootId depth hr under).2]
      exact deep
  · have count := grows.children sessionId
    by_cases own : sessionId = call.parentSessionId
    · have := most fun row => row.parentSessionId = sessionId
      subst own
      omega
    · have none : ([row].countP fun row => row.parentSessionId = sessionId) = 0 := by
        rw [countP_singleton, if_neg (by simpa [parent] using Ne.symm own)]
      have := capacity.children sessionId
      omega
  · have count := grows.active rootId
    by_cases own : rootId = top
    · have := most fun row => InTree db' rootId row
      subst own
      omega
    · have := one rootId hr own
      have := capacity.active rootId (he.isRoot formed hr)
      omega
  · have count := grows.tree rootId
    by_cases own : rootId = top
    · have := most fun row => InTree db' rootId row
      subst own
      omega
    · have := one rootId hr own
      have := capacity.total rootId (he.isRoot formed hr)
      omega
  · have count := grows.spawns sessionId runId
    have := capacity.spawns sessionId runId
    by_cases own : row.parentSessionId = sessionId ∧ row.delegatedByRunId = some runId ∧
      row.initiator = .agent
    · obtain ⟨under, byRun, -⟩ := own
      have := most fun row => row.parentSessionId = sessionId ∧ row.delegatedByRunId = some runId ∧
        row.initiator = .agent
      rw [isRow] at byRun
      obtain ⟨caller, isCaller, rfl⟩ := Option.map_eq_some_iff.mp byRun
      have hf := spawns caller isCaller
      rw [← parent, under] at hf
      omega
    · have none : ([row].countP fun row => row.parentSessionId = sessionId ∧
          row.delegatedByRunId = some runId ∧ row.initiator = .agent) = 0 := by
        rw [countP_singleton, if_neg (by simpa using own)]
      omega

end Spawns

def Rooted (db : Database) : Prop :=
  ∀ sessionId,
    (db.sessionById sessionId).isSome →
    ∃ rootId depth, IsRoot db rootId ∧ Under db rootId depth sessionId

theorem Explained.under_later (he : Explained digest adopting db db') (hf : Formed db) {depth : Nat}
    {sessionId : Text} (under : Under db rootId depth sessionId) :
    Under db' rootId depth sessionId := by
  obtain ⟨_, _, _, hr⟩ := he
  induction under with
  | root => exact .root
  | @child _ row _ _ hm ha ih =>
    obtain ⟨_, hl, rewrite⟩ := hr.successor hm
    exact .child (rewrite.parent ▸ ih) hl (rewrite.keepsChild (hf.bare row hm) ha)

theorem Explained.isRoot_later (he : Explained digest adopting db db') (isRoot : IsRoot db rootId) :
    IsRoot db' rootId := by
  obtain ⟨_, _, _, hr⟩ := he
  refine ⟨hr.sessions.mono isRoot.stored, fun row' hm ha => ?_⟩
  rcases hr.origin hm with ⟨row, old, rewrite⟩ | reserved
  · rcases rewrite.child with same | ⟨_, attaches, -, -, isChild⟩
    · exact isRoot.unparented row old (same ▸ ha)
    · have after := hr.sessions
      rw [attaches] at after
      cases isChild.symm.trans ha
      have hs := isRoot.stored
      rw [after.1] at hs
      simp at hs
  · cases ha.symm.trans reserved.session

theorem Explained.rooted (he : Explained digest adopting db db') (hf : Formed db)
    (rooted : Rooted db) : Rooted db' := by
  have old : ∀ sessionId, (db.sessionById sessionId).isSome →
      ∃ rootId depth, IsRoot db' rootId ∧ Under db' rootId depth sessionId := by
    intro sessionId hs
    obtain ⟨rootId, depth, hr, under⟩ := rooted sessionId hs
    exact ⟨rootId, depth, he.isRoot_later hr, he.under_later hf under⟩
  obtain ⟨attachment, _, _, rewritten⟩ := he
  intro sessionId hs
  have after := rewritten.sessions
  cases attachment with
  | none =>
    rw [Database.sessionById, show db'.sessions = db.sessions from after] at hs
    exact old sessionId hs
  | some pair =>
    obtain ⟨_, _⟩ := pair
    obtain ⟨-, ⟨row', hl, ha⟩, _, rfl, same⟩ := after
    rw [sessionById_isSome, same, map_append, mem_append, map_singleton, mem_singleton] at hs
    rcases hs with before | rfl
    · exact old sessionId (sessionById_isSome.mpr before)
    · have parent : (db.sessionById row'.parentSessionId).isSome := by
        rcases rewritten.origin hl with ⟨row, hm, rewrite⟩ | reserved
        · exact rewrite.parent ▸ hf.parents row hm
        · exact reserved.parent
      obtain ⟨rootId, depth, hr, under⟩ := old row'.parentSessionId parent
      exact ⟨rootId, depth + 1, hr, .child under hl ha⟩

structure Bounded (settings : Settings) (db : Database) : Prop where
  formed : Formed db
  rooted : Rooted db
  capacity : Capacity settings db

theorem TenantStep.bounded (step : TenantStep digest settings db db')
    (hb : settings.maxDepth ≤ ancestryHopLimit) (before : Bounded settings db) :
    Bounded settings db' := by
  have he := step.transaction.explained before.formed.ids
  refine ⟨step.transaction.formed before.formed, he.rooted before.formed before.rooted, ?_⟩
  cases step with
  | reserve _ tenant _ hd => exact before.capacity.reserved before.formed hb tenant hd
  | other _ hk => exact before.capacity.kept before.formed he hk

theorem bounded_of_roots {first : Database} (forest : first.delegations = [])
    (hp : 0 < settings.maxTotal) : Bounded settings first := by
  refine ⟨formed_of_nil forest, fun sessionId hs => ?_, ?_⟩
  · exact ⟨sessionId, 0, ⟨hs, by simp [forest]⟩, .root⟩
  · refine ⟨?_, ?_, ?_, ?_, ?_⟩
    · simp [forest]
    · simp [childSize, forest]
    · simp [activeSize, forest]
    · intro _ _
      simp only [treeSize, forest, countP_nil]
      omega
    · simp [spawnsOf, forest]

theorem small_of_treeSize (few : treeSize db rootId ≤ treeNodeLimit) : Small db rootId := by
  classical
  intro _ hd inTree
  refine le_trans ?_ few
  rw [treeSize, countP_eq_length_filter]
  refine (hd.subperm fun row hl => ?_).length_le
  have hh := inTree row hl
  exact mem_filter.mpr ⟨hh.1, by simpa using hh⟩

structure TreesCounted (settings : Settings) (db : Database) : Prop where
  rooted : ∀ row ∈ db.delegations, ∃ rootId, IsRoot db rootId ∧ InTree db rootId row
  capacity : Capacity settings db
  exact : ∀ rootId, IsRoot db rootId → ∀ depth sessionId, Under db rootId depth sessionId →
    ∀ snapshot, buildRootTreeSnapshot db none sessionId = .ok snapshot →
      snapshot.rootId = rootId ∧ snapshot.memberDepth = depth ∧ snapshot.rows.Nodup ∧
      ∀ row, row ∈ snapshot.rows ↔ InTree db rootId row
  built : ∀ rootId, IsRoot db rootId → ∀ depth sessionId, Under db rootId depth sessionId →
    treeSize db rootId ≤ treeNodeLimit →
    ∃ snapshot, buildRootTreeSnapshot db none sessionId = .ok snapshot

/-- In every state a tenant's database can reach from root sessions, every delegation lies in a
root tree and every root tree keeps the limits. The snapshot of a session counts exactly the
delegations of its tree, and it is built as long as there are at most five hundred. -/
theorem tree_capacity {first last : Database} (bounded : settings.maxDepth ≤ ancestryHopLimit)
    (positive : 0 < settings.maxTotal) (forest : first.delegations = [])
    (run : ReflTransGen (TenantStep digest settings) first last) : TreesCounted settings last := by
  have hr := run_keeps (Bounded settings) (fun _ _ step => step.bounded bounded) run
    (bounded_of_roots forest positive)
  refine ⟨fun row hm => ?_, hr.capacity, fun rootId isRoot depth sessionId under snapshot built => ?_,
    fun rootId isRoot depth sessionId under few => ?_⟩
  · obtain ⟨rootId, depth, isRoot, under⟩ := hr.rooted _ (hr.formed.parents row hm)
    exact ⟨rootId, isRoot, hm, depth, under⟩
  · obtain ⟨isTop, again, hd, rows⟩ :=
      buildRootTreeSnapshot_counts hr.formed (hr.capacity.shallow bounded) built
    obtain ⟨rfl, rfl⟩ := again.unique hr.formed.parented isTop.unparented isRoot.unparented under
    exact ⟨rfl, rfl, hd, rows⟩
  · obtain ⟨snapshot, built, -⟩ := buildRootTreeSnapshot_ok hr.formed isRoot
      (hr.capacity.shallow bounded rootId isRoot) (small_of_treeSize few) under
    exact ⟨snapshot, built⟩

end Steps

def secondCall : SpawnCall :=
  { sampleCall with idempotencyKey := text "second", reservationId := text "fedcba98765432100123456789abcdef" }

def secondReservation : Delegation :=
  { sampleReservation with id := secondCall.reservationId, idempotencyKey := text "second" }

def twiceDatabase : Database := { rootDatabase with delegations := [sampleReservation, secondReservation] }

/-- Two spawns under the root. -/
theorem tree_capacity_twice : TreesCounted {} twiceDatabase := by
  have once : TenantStep id {} rootDatabase reservedDatabase := .reserve {} rfl sampleCall
    (by decide : reserve {} {} rootDatabase sampleCall = .ok (reservedDatabase, sampleReservation))
  have twice : TenantStep id {} reservedDatabase twiceDatabase := .reserve {} rfl secondCall
    (by decide : reserve {} {} reservedDatabase secondCall = .ok (twiceDatabase, secondReservation))
  exact tree_capacity (by decide) (by decide) rfl (.tail (.single once) twice)

end Yinshi.Threads
