import Mathlib.Data.List.Perm.Subperm
import Yinshi.Threads.Lifecycle

/-! The bounded walks see the whole tree. A forest of delegations has one path from a root to
each session; the ancestry chain climbs it, and the breadth-first walk with the placeholders
counts every delegation once, as long as no session with children lies below the hop limit. -/

namespace Yinshi.Threads
open ByteText Keyed Checked List

inductive Under (db : Database) (rootId : Text) : Nat → Text → Prop
  | root : Under db rootId 0 rootId
  | child {depth : Nat} {row : Delegation} {child : Text} (above : Under db rootId depth row.parentSessionId)
      (member : row ∈ db.delegations) (attached : row.childSessionId = some child) :
      Under db rootId (depth + 1) child

structure IsRoot (db : Database) (sessionId : Text) : Prop where
  stored : (db.sessionById sessionId).isSome
  unparented : ∀ row ∈ db.delegations, row.childSessionId ≠ some sessionId

/-- What the table itself upholds of the parentage: its keys and its references. -/
structure Parented (db : Database) : Prop where
  ids : (db.delegations.map (·.id)).Nodup
  children : ∀ row ∈ db.delegations, ∀ other ∈ db.delegations, ∀ child,
    row.childSessionId = some child → other.childSessionId = some child → row.id = other.id
  known : ∀ row ∈ db.delegations, ∀ child ∈ row.childSessionId, (db.sessionById child).isSome

def InTree (db : Database) (rootId : Text) (row : Delegation) : Prop :=
  row ∈ db.delegations ∧ ∃ depth, Under db rootId depth row.parentSessionId

section Trees
variable {db : Database} {rootId sessionId : Text} {depth : Nat} {row : Delegation}
variable {walk : Walk} {rows : List Delegation} {turns : Nat} {frontier : List (Text × Nat)}
  {seen : List Text} {nodes : List TreeDescendant}

theorem Formed.parented (hf : Formed db) : Parented db := ⟨hf.ids, hf.children, hf.known⟩

theorem Parented.sameChild (hf : Parented db) {other : Delegation} {child : Text}
    (hm : row ∈ db.delegations) (hl : other ∈ db.delegations)
    (own : row.childSessionId = some child) (theirs : other.childSessionId = some child) :
    row = other :=
  key_inj_of_nodup hf.ids hm hl (hf.children row hm other hl child own theirs)

theorem Under.unique (hf : Parented db) {otherId : Text} {level : Nat}
    (hr : ∀ row ∈ db.delegations, row.childSessionId ≠ some rootId)
    (ho : ∀ row ∈ db.delegations, row.childSessionId ≠ some otherId)
    (under : Under db rootId depth sessionId) (again : Under db otherId level sessionId) :
    rootId = otherId ∧ depth = level := by
  induction under generalizing level with
  | root =>
    cases again with
    | root => exact ⟨rfl, rfl⟩
    | child _ hm ha => exact absurd ha (hr _ hm)
  | child _ hm ha ih =>
    cases again with
    | root => exact absurd ha (ho _ hm)
    | child beyond hl theirs =>
      obtain rfl := hf.sameChild hm hl ha theirs
      obtain ⟨rfl, rfl⟩ := ih beyond
      exact ⟨rfl, rfl⟩

theorem visible_none : db.visible none sessionId = true := rfl

theorem ancestryFrom_under {hops : Nat} {visited : List Text} {current : Text}
    {chain : List Delegation}
    (done : db.ancestryFrom none sessionId hops visited current = .ok chain) :
    (∀ row ∈ db.delegations,
        row.childSessionId ≠ some ((chain.getLast?.map (·.parentSessionId)).getD current)) ∧
    Under db ((chain.getLast?.map (·.parentSessionId)).getD current) chain.length current := by
  induction hops generalizing visited current chain with
  | zero =>
    rw [Database.ancestryFrom] at done
    split at done
    next hm =>
      cases done
      exact ⟨fun row member => by simpa using find?_eq_none.mp hm row member, .root⟩
    next => simp at done
  | succ _ ih =>
    rw [Database.ancestryFrom] at done
    split at done
    next hm =>
      cases done
      exact ⟨fun row member => by simpa using find?_eq_none.mp hm row member, .root⟩
    next row hf =>
      simp only [steps_ok] at done
      obtain ⟨-, -, rest, climbs, rfl⟩ := done
      have hs : (((row :: rest).getLast?.map (·.parentSessionId)).getD current) =
          (rest.getLast?.map (·.parentSessionId)).getD row.parentSessionId := by
        rw [getLast?_cons]
        cases rest.getLast? <;> rfl
      obtain ⟨hr, under⟩ := ih climbs
      rw [hs]
      exact ⟨hr, .child under (mem_of_find?_eq_some hf) (by simpa using find?_some hf)⟩

theorem ancestryFrom_ok (hf : Formed db) (hr : IsRoot db rootId) {hops : Nat} {visited : List Text}
    {current : Text} (under : Under db rootId depth current) (near : depth ≤ hops)
    (hb : ∀ other ∈ visited, ∃ level, depth ≤ level ∧ Under db rootId level other) :
    ∃ chain, db.ancestryFrom none sessionId hops visited current = .ok chain := by
  induction under generalizing hops visited with
  | root =>
    have missing : db.delegationByChild rootId = none :=
      find?_eq_none.mpr fun row hm => by simpa using hr.unparented row hm
    exact ⟨[], by rw [Database.ancestryFrom, missing]⟩
  | @child depth row _ ha hm attached ih =>
    obtain ⟨_, rfl⟩ := Nat.exists_eq_add_of_le' (Nat.lt_of_lt_of_le (Nat.succ_pos depth) near)
    have unvisited : row.parentSessionId ∉ visited := by
      intro hs
      obtain ⟨level, deeper, again⟩ := hb _ hs
      have := (ha.unique hf.parented hr.unparented hr.unparented again).2
      omega
    have upwards : ∀ other ∈ row.parentSessionId :: visited,
        ∃ level, depth ≤ level ∧ Under db rootId level other := by
      intro other hl
      rcases mem_cons.mp hl with rfl | hs
      · exact ⟨depth, le_rfl, ha⟩
      · obtain ⟨level, _, again⟩ := hb other hs
        exact ⟨level, by omega, again⟩
    obtain ⟨chain, climbs⟩ := ih (Nat.le_of_succ_le_succ near) upwards
    refine ⟨row :: chain, ?_⟩
    rw [Database.ancestryFrom, hf.delegationByChild hm attached]
    simp only [visible_none, steps_ok]
    exact ⟨by simp, unvisited, chain, climbs, rfl⟩

def Delegation.child (row : Delegation) : Text := row.childSessionId.getD []

def Walk.extend (walk : Walk) (depth : Nat) (rows : List Delegation) : Walk where
  frontier := walk.frontier ++ rows.map fun row => (row.child, depth + 1)
  seen := walk.seen ++ rows.map (·.child)
  nodes := walk.nodes ++ rows.map fun row => ⟨row, row.child, depth + 1⟩

theorem visitAll_eq_ok {walk' : Walk} (distinct : walk.seen.Nodup)
    (few : walk.nodes.length ≤ treeNodeLimit) (attached : ∀ row ∈ rows, row.childSessionId.isSome) :
    Walk.visitAll depth walk rows = .ok walk' ↔
    (walk.seen ++ rows.map (·.child)).Nodup ∧ walk.nodes.length + rows.length ≤ treeNodeLimit ∧
    walk' = walk.extend depth rows := by
  induction rows generalizing walk with
  | nil =>
    have hs : walk.extend depth [] = walk := by simp [Walk.extend]
    simp only [Walk.visitAll, Except.ok.injEq, map_nil, append_nil, length_nil, Nat.add_zero, hs]
    exact ⟨fun equal => ⟨distinct, few, equal.symm⟩, fun all => all.2.2.symm⟩
  | cons row rows ih =>
    obtain ⟨child, isChild⟩ := Option.isSome_iff_exists.mp (attached row mem_cons_self)
    have own : row.child = child := by rw [Delegation.child, isChild]; rfl
    have later : ∀ other ∈ rows, other.childSessionId.isSome :=
      fun other hl => attached other (mem_cons_of_mem _ hl)
    simp only [Walk.visitAll, Walk.visit, isChild, steps_ok]
    constructor
    · rintro ⟨_, ⟨hu, room, rfl⟩, hd⟩
      have hf : (walk.seen ++ [child]).Nodup :=
        nodup_append.mpr
          ⟨distinct, by simp, fun a hh b ht => by rw [mem_singleton.mp ht]; rintro rfl; exact hu hh⟩
      have fits : (walk.nodes ++ [TreeDescendant.mk row child (depth + 1)]).length ≤ treeNodeLimit := by
        rw [length_append, length_singleton]
        omega
      obtain ⟨all, room, ends⟩ := (ih hf fits later).mp hd
      refine ⟨by simpa [own] using all, ?_, ?_⟩
      · rw [length_append, length_singleton] at room
        rw [length_cons]
        omega
      · rw [ends]
        simp [Walk.extend, own]
    · rintro ⟨all, room, rfl⟩
      rw [length_cons] at room
      have hf : (walk.seen ++ [child]).Nodup := by
        rw [map_cons, own, ← singleton_append, ← append_assoc] at all
        exact (nodup_append.mp all).1
      have hu : child ∉ walk.seen := fun hh =>
        (nodup_append.mp hf).2.2 child hh child (mem_singleton_self child) rfl
      have fits : (walk.nodes ++ [TreeDescendant.mk row child (depth + 1)]).length ≤ treeNodeLimit := by
        rw [length_append, length_singleton]
        omega
      refine ⟨_, ⟨hu, by omega, rfl⟩, (ih hf fits later).mpr ⟨?_, ?_, ?_⟩⟩
      · simpa [own] using all
      · rw [length_append, length_singleton]
        omega
      · simp [Walk.extend, own]

theorem mem_ordered : row ∈ Database.ordered rows ↔ row ∈ rows := mem_sortBy

theorem nodup_ordered (hd : rows.Nodup) : (Database.ordered rows).Nodup :=
  sortBy_perm.nodup_iff.mpr hd

theorem Parented.nodup (hf : Parented db) : db.delegations.Nodup := Nodup.of_map _ hf.ids

theorem mem_directChildren (hf : Parented db) : row ∈ db.directChildren none sessionId ↔
    row ∈ db.delegations ∧ row.parentSessionId = sessionId ∧ row.childSessionId.isSome := by
  rw [Database.directChildren, mem_ordered, mem_filter, decide_eq_true_eq]
  constructor
  · rintro ⟨hm, under, child, ha, -⟩
    exact ⟨hm, under, by rw [Option.mem_def.mp ha]; rfl⟩
  · rintro ⟨hm, under, isSome⟩
    obtain ⟨child, ha⟩ := Option.isSome_iff_exists.mp isSome
    exact ⟨hm, under, child, ha, hf.known row hm child ha, rfl⟩

structure Walking (db : Database) (rootId : Text) (turns : Nat) (walk : Walk) : Prop where
  sessions : walk.seen = rootId :: walk.nodes.map (·.sessionId)
  distinct : walk.seen.Nodup
  rows : ∀ node ∈ walk.nodes, node.row ∈ db.delegations ∧ node.row.childSessionId = some node.sessionId
  parents : ∀ node ∈ walk.nodes, node.row.parentSessionId ∈ walk.seen ∧
    ∃ depth, Under db rootId depth node.row.parentSessionId
  depths : ∀ node ∈ walk.nodes, Under db rootId node.depth node.sessionId ∧ 0 < node.depth ∧
    node.depth ≤ ancestryHopLimit
  waiting : ∀ entry ∈ walk.frontier, Under db rootId entry.2 entry.1 ∧ entry.1 ∈ walk.seen ∧
    entry.2 ≤ ancestryHopLimit
  once : (walk.frontier.map Prod.fst).Nodup
  expanded : ∀ node ∈ walk.nodes, node.row.parentSessionId ∉ walk.frontier.map Prod.fst
  closed : ∀ sessionId ∈ walk.seen,
      sessionId ∈ walk.frontier.map Prod.fst ∨ Under db rootId ancestryHopLimit sessionId ∨
    ∀ row ∈ db.delegations, row.parentSessionId = sessionId → row.childSessionId.isSome →
      ∃ node ∈ walk.nodes, node.row = row
  few : walk.nodes.length ≤ treeNodeLimit
  budget : turns + walk.nodes.length = treeNodeLimit + walk.frontier.length

theorem Walking.pop
    (walking : Walking db rootId (turns + 1) ⟨(sessionId, depth) :: frontier, seen, nodes⟩)
    (children : ∀ row, row ∈ rows ↔
        row ∈ db.delegations ∧ row.parentSessionId = sessionId ∧ row.childSessionId.isSome)
    (near : depth < ancestryHopLimit) (hf : (seen ++ rows.map (·.child)).Nodup)
    (room : nodes.length + rows.length ≤ treeNodeLimit) :
    Walking db rootId turns (Walk.extend ⟨frontier, seen, nodes⟩ depth rows) := by
  obtain ⟨-, newOnce, apart⟩ := nodup_append.mp hf
  obtain ⟨underHere, seenHere, -⟩ := walking.waiting (sessionId, depth) mem_cons_self
  have once := walking.once
  rw [map_cons, nodup_cons] at once
  have hu : ∀ row ∈ rows, row.child ∉ seen := fun row hl hh =>
    apart row.child hh row.child (mem_map_of_mem hl) rfl
  have ha : ∀ row ∈ rows, row.childSessionId = some row.child := by
    intro row hl
    obtain ⟨child, isChild⟩ := Option.isSome_iff_exists.mp ((children row).mp hl).2.2
    rw [Delegation.child, isChild, Option.getD_some]
  have hre : ∀ row ∈ rows, Under db rootId (depth + 1) row.child := by
    intro row hl
    obtain ⟨hm, under, -⟩ := (children row).mp hl
    exact .child (under ▸ underHere) hm (ha row hl)
  have fronts : ∀ other, other ∈ (frontier ++ rows.map fun row => (row.child, depth + 1)).map Prod.fst ↔
      other ∈ frontier.map Prod.fst ∨ other ∈ rows.map (·.child) := by
    intro other
    rw [map_append, mem_append, map_map]
    rfl
  refine ⟨?_, hf, ?_, ?_, ?_, ?_, ?_, ?_, ?_, ?_, ?_⟩
  · have sessions := walking.sessions
    simp only [Walk.extend, map_append, map_map] at sessions ⊢
    rw [sessions]
    rfl
  · intro node hl
    rcases mem_append.mp hl with old | new
    · exact walking.rows node old
    · obtain ⟨row, hr, rfl⟩ := mem_map.mp new
      exact ⟨((children row).mp hr).1, ha row hr⟩
  · intro node hl
    rcases mem_append.mp hl with old | new
    · exact ⟨mem_append_left _ (walking.parents node old).1, (walking.parents node old).2⟩
    · obtain ⟨row, hr, rfl⟩ := mem_map.mp new
      obtain ⟨-, under, -⟩ := (children row).mp hr
      exact ⟨mem_append_left _ (under ▸ seenHere), depth, under ▸ underHere⟩
  · intro node hl
    rcases mem_append.mp hl with old | new
    · exact walking.depths node old
    · obtain ⟨row, hr, rfl⟩ := mem_map.mp new
      exact ⟨hre row hr, Nat.succ_pos depth, near⟩
  · intro entry hl
    rcases mem_append.mp hl with old | new
    · have before := walking.waiting entry (mem_cons_of_mem _ old)
      exact ⟨before.1, mem_append_left _ before.2.1, before.2.2⟩
    · obtain ⟨row, hr, rfl⟩ := mem_map.mp new
      exact ⟨hre row hr, mem_append_right _ (mem_map_of_mem hr), near⟩
  · rw [Walk.extend, map_append, map_map]
    refine nodup_append.mpr ⟨once.2, newOnce, fun other old next new equal => ?_⟩
    obtain ⟨entry, hl, rfl⟩ := mem_map.mp old
    obtain ⟨row, hr, rfl⟩ := mem_map.mp new
    have hh := (walking.waiting entry (mem_cons_of_mem _ hl)).2.1
    have child : entry.1 = row.child := equal
    exact hu row hr (child ▸ hh)
  · intro node hl hw
    rw [Walk.extend, fronts] at hw
    rcases mem_append.mp hl with old | new
    · rcases hw with hs | child
      · exact walking.expanded node old (mem_cons_of_mem _ hs)
      · obtain ⟨row, hr, same⟩ := mem_map.mp child
        exact hu row hr (same ▸ (walking.parents node old).1)
    · obtain ⟨row, hr, rfl⟩ := mem_map.mp new
      rw [((children row).mp hr).2.1] at hw
      rcases hw with hs | child
      · exact once.1 hs
      · obtain ⟨other, ho, same⟩ := mem_map.mp child
        exact hu other ho (same ▸ seenHere)
  · intro other hl
    rw [Walk.extend, fronts]
    rcases mem_append.mp hl with old | new
    · rcases walking.closed other old with hw | limit | hd
      · rcases mem_cons.mp hw with rfl | hs
        · refine .inr (.inr fun row hm under isSome => ?_)
          have hr := (children row).mpr ⟨hm, under, isSome⟩
          exact ⟨⟨row, row.child, depth + 1⟩, mem_append_right _ (mem_map.mpr ⟨row, hr, rfl⟩), rfl⟩
        · exact .inl (.inl hs)
      · exact .inr (.inl limit)
      · refine .inr (.inr fun row hm under isSome => ?_)
        obtain ⟨node, hn, same⟩ := hd row hm under isSome
        exact ⟨node, mem_append_left _ hn, same⟩
    · exact .inl (.inr new)
  · rw [Walk.extend, length_append, length_map]
    exact room
  · have budget := walking.budget
    simp only [Walk.extend, length_append, length_map, length_cons] at budget ⊢
    omega

theorem Walking.skip
    (hwa : Walking db rootId (turns + 1) ⟨(sessionId, depth) :: frontier, seen, nodes⟩)
    (deep : ancestryHopLimit ≤ depth) : Walking db rootId turns ⟨frontier, seen, nodes⟩ := by
  obtain ⟨underHere, -, near⟩ := hwa.waiting (sessionId, depth) mem_cons_self
  obtain rfl : depth = ancestryHopLimit := le_antisymm near deep
  refine ⟨hwa.sessions, hwa.distinct, hwa.rows, hwa.parents, hwa.depths, ?_, ?_, ?_, ?_, hwa.few, ?_⟩
  · exact fun entry hl => hwa.waiting entry (mem_cons_of_mem _ hl)
  · exact (nodup_cons.mp hwa.once).2
  · exact fun node hl hs => hwa.expanded node hl (mem_cons_of_mem _ hs)
  · intro other hl
    rcases hwa.closed other hl with hw | rest
    · rcases mem_cons.mp hw with rfl | hs
      · exact .inr (.inl underHere)
      · exact .inl hs
    · exact .inr rest
  · have budget := hwa.budget
    simp only [length_cons] at budget ⊢
    omega

def Shallow (db : Database) (rootId : Text) : Prop :=
  ∀ depth, ∀ row ∈ db.delegations, Under db rootId depth row.parentSessionId → depth < ancestryHopLimit

def WithinHops (db : Database) (rootId : Text) : Prop :=
  ∀ depth sessionId, Under db rootId depth sessionId → depth ≤ ancestryHopLimit

theorem Shallow.withinHops (shallow : Shallow db rootId) : WithinHops db rootId := by
  intro _ _ under
  cases under with
  | root => exact Nat.zero_le _
  | child ha hm _ => exact shallow _ _ hm ha

theorem directChildren_attached (hf : Parented db) :
    ∀ row ∈ db.directChildren none sessionId, row.childSessionId.isSome :=
  fun _ hl => ((mem_directChildren hf).mp hl).2.2

theorem Walking.visits {next : Walk} (hf : Parented db)
    (hw : Walking db rootId turns ⟨(sessionId, depth) :: frontier, seen, nodes⟩) :
    Walk.visitAll depth ⟨frontier, seen, nodes⟩ (db.directChildren none sessionId) = .ok next ↔
    (seen ++ (db.directChildren none sessionId).map (·.child)).Nodup ∧
    nodes.length + (db.directChildren none sessionId).length ≤ treeNodeLimit ∧
    next = Walk.extend ⟨frontier, seen, nodes⟩ depth (db.directChildren none sessionId) :=
  visitAll_eq_ok hw.distinct hw.few (directChildren_attached hf)

theorem expand_walking (formed : Parented db) {last : Walk} (hw : Walking db rootId turns walk)
    (hd : db.expand none turns walk = .ok last) :
    last.frontier = [] ∧ ∃ turns, Walking db rootId turns last := by
  induction turns generalizing walk with
  | zero =>
    cases hd
    refine ⟨eq_nil_of_length_eq_zero ?_, 0, hw⟩
    have budget := hw.budget
    have few := hw.few
    omega
  | succ _ ih =>
    obtain ⟨frontier, _, _⟩ := walk
    cases frontier with
    | nil =>
      cases hd
      exact ⟨rfl, _, hw⟩
    | cons entry _ =>
      obtain ⟨sessionId, depth⟩ := entry
      simp only [Database.expand] at hd
      split at hd
      next deep => exact ih (hw.skip deep) hd
      next near =>
        simp only [bind_eq_ok] at hd
        obtain ⟨_, visited, hd⟩ := hd
        obtain ⟨hf, room, rfl⟩ := (hw.visits formed).mp visited
        exact ih (hw.pop (fun row => mem_directChildren formed) (not_le.mp near) hf room) hd

theorem Walking.nodup_rows (hw : Walking db rootId turns walk) : (walk.nodes.map (·.row)).Nodup := by
  have sessions : (rootId :: walk.nodes.map (·.sessionId)).Nodup := hw.sessions ▸ hw.distinct
  have hs : (walk.nodes.map (·.row)).map (·.child) = walk.nodes.map (·.sessionId) := by
    rw [map_map]
    refine map_congr_left fun node hn => ?_
    rw [Function.comp_apply, Delegation.child, (hw.rows node hn).2, Option.getD_some]
  exact Nodup.of_map _ (hs ▸ (nodup_cons.mp sessions).2)

theorem Walking.fresh (hf : Parented db) (hr : IsRoot db rootId)
    (hw : Walking db rootId turns ⟨(sessionId, depth) :: frontier, seen, nodes⟩) :
    (seen ++ (db.directChildren none sessionId).map (·.child)).Nodup ∧
    (nodes.map (·.row) ++ db.directChildren none sessionId).Nodup := by
  have ha : ∀ row ∈ db.directChildren none sessionId, row.childSessionId = some row.child := by
    intro row hl
    obtain ⟨child, isChild⟩ := Option.isSome_iff_exists.mp (directChildren_attached hf row hl)
    rw [Delegation.child, isChild, Option.getD_some]
  have rows : (db.directChildren none sessionId).Nodup := nodup_ordered (hf.nodup.filter _)
  have unexpanded : ∀ row ∈ db.directChildren none sessionId, ∀ node ∈ nodes, node.row ≠ row := by
    rintro row hl node hn rfl
    refine hw.expanded node hn ?_
    rw [((mem_directChildren hf).mp hl).2.1]
    exact mem_cons_self
  refine ⟨nodup_append.mpr ⟨hw.distinct, ?_, ?_⟩, nodup_append.mpr ⟨?_, rows, ?_⟩⟩
  · refine (nodup_map_iff_inj_on rows).mpr fun row hl other ho hs => ?_
    refine hf.sameChild ((mem_directChildren hf).mp hl).1 ((mem_directChildren hf).mp ho).1 (ha row hl) ?_
    rw [hs]
    exact ha other ho
  · intro other hh _ new equal
    obtain ⟨row, hl, rfl⟩ := mem_map.mp new
    have hm := ((mem_directChildren hf).mp hl).1
    have sessions : seen = rootId :: nodes.map (·.sessionId) := hw.sessions
    rw [sessions, equal] at hh
    rcases mem_cons.mp hh with isRootChild | isSession
    · exact hr.unparented row hm (isRootChild ▸ ha row hl)
    · obtain ⟨node, hn, hs⟩ := mem_map.mp isSession
      obtain ⟨stored, theirs⟩ := hw.rows node hn
      exact unexpanded row hl node hn (hf.sameChild stored hm theirs (hs ▸ ha row hl))
  · exact hw.nodup_rows
  · intro _ old other new equal
    obtain ⟨node, hn, rfl⟩ := mem_map.mp old
    exact unexpanded other new node hn equal

def Small (db : Database) (rootId : Text) : Prop :=
  ∀ rows : List Delegation, rows.Nodup → (∀ row ∈ rows, InTree db rootId row) → rows.length ≤ treeNodeLimit

theorem expand_ok (formed : Parented db) (hr : IsRoot db rootId) (hs : Small db rootId)
    (hw : Walking db rootId turns walk) : ∃ last, db.expand none turns walk = .ok last := by
  induction turns generalizing walk with
  | zero => exact ⟨walk, rfl⟩
  | succ _ ih =>
    obtain ⟨frontier, _, nodes⟩ := walk
    cases frontier with
    | nil => exact ⟨_, rfl⟩
    | cons entry _ =>
      obtain ⟨sessionId, depth⟩ := entry
      have hh := (hw.waiting (sessionId, depth) mem_cons_self).1
      by_cases deep : ancestryHopLimit ≤ depth
      · obtain ⟨last, hd⟩ := ih (hw.skip deep)
        exact ⟨last, by simpa only [Database.expand, if_pos deep] using hd⟩
      · obtain ⟨hf, distinct⟩ := hw.fresh formed hr
        have room : nodes.length + (db.directChildren none sessionId).length ≤ treeNodeLimit := by
          have few := hs _ distinct ?_
          · simpa using few
          · intro row hl
            rcases mem_append.mp hl with old | new
            · obtain ⟨node, hn, rfl⟩ := mem_map.mp old
              exact ⟨(hw.rows node hn).1, (hw.parents node hn).2⟩
            · obtain ⟨hm, rfl, -⟩ := (mem_directChildren formed).mp new
              exact ⟨hm, depth, hh⟩
        obtain ⟨last, hd⟩ := ih (hw.pop (fun row => mem_directChildren formed) (not_le.mp deep) hf room)
        refine ⟨last, ?_⟩
        simp only [Database.expand, if_neg deep, bind_eq_ok]
        exact ⟨_, (hw.visits formed).mpr ⟨hf, room, rfl⟩, hd⟩

theorem walking_start : Walking db rootId (treeNodeLimit + 1) ⟨[(rootId, 0)], [rootId], []⟩ where
  sessions := rfl
  distinct := nodup_singleton rootId
  rows := by simp
  parents := by simp
  depths := by simp
  waiting := by simpa using Under.root
  once := nodup_singleton rootId
  expanded := by simp
  closed := by simp
  few := Nat.zero_le _
  budget := rfl

theorem mem_placeholdersOf : row ∈ db.placeholdersOf none sessionId ↔
    row ∈ db.delegations ∧ row.childSessionId = none ∧ row.parentSessionId = sessionId := by
  rw [Database.placeholdersOf, mem_ordered, mem_filter, decide_eq_true_eq]
  simp [visible_none]

theorem Walking.under (walking : Walking db rootId turns ⟨[], seen, nodes⟩)
    (hb : WithinHops db rootId) (under : Under db rootId depth sessionId) : sessionId ∈ seen := by
  have sessions : seen = rootId :: nodes.map (·.sessionId) := walking.sessions
  induction under with
  | root => rw [sessions]; exact mem_cons_self
  | @child _ row _ _ hm ha ih =>
    rcases walking.closed row.parentSessionId ih with hw | limit | hd
    · simp at hw
    · exact absurd (hb _ _ (.child limit hm ha)) (Nat.not_succ_le_self _)
    · obtain ⟨node, hn, rfl⟩ := hd row hm rfl (by rw [ha]; rfl)
      cases (walking.rows node hn).2.symm.trans ha
      rw [sessions]
      exact mem_cons_of_mem _ (mem_map_of_mem hn)

theorem Walking.counts (hf : Parented db) (hb : WithinHops db rootId)
    (walking : Walking db rootId turns ⟨[], seen, nodes⟩) :
    (nodes.map (·.row) ++
        (rootId :: nodes.map (·.sessionId)).flatMap (db.placeholdersOf none)).Nodup ∧
    ∀ row, row ∈
          nodes.map (·.row) ++
            (rootId :: nodes.map (·.sessionId)).flatMap (db.placeholdersOf none) ↔
      InTree db rootId row := by
  have sessions : seen = rootId :: nodes.map (·.sessionId) := walking.sessions
  have hd : (rootId :: nodes.map (·.sessionId)).Nodup := sessions ▸ walking.distinct
  refine ⟨nodup_append.mpr ⟨?_, ?_, ?_⟩, fun row => ⟨fun hl => ?_, fun inTree => ?_⟩⟩
  · exact walking.nodup_rows
  · refine nodup_flatMap.mpr ⟨fun other _ => nodup_ordered (hf.nodup.filter _), ?_⟩
    refine hd.imp fun apart row hh ht => ?_
    exact apart ((mem_placeholdersOf.1 hh).2.2.symm.trans (mem_placeholdersOf.1 ht).2.2)
  · rintro row hl _ waiting rfl
    obtain ⟨node, hn, rfl⟩ := mem_map.mp hl
    obtain ⟨other, -, placeholder⟩ := mem_flatMap.mp waiting
    cases (walking.rows node hn).2.symm.trans (mem_placeholdersOf.1 placeholder).2.1
  · rcases mem_append.mp hl with ha | waiting
    · obtain ⟨node, hn, rfl⟩ := mem_map.mp ha
      exact ⟨(walking.rows node hn).1, (walking.parents node hn).2⟩
    · obtain ⟨_, isSession, placeholder⟩ := mem_flatMap.mp waiting
      obtain ⟨hm, -, rfl⟩ := mem_placeholdersOf.1 placeholder
      refine ⟨hm, ?_⟩
      rcases mem_cons.mp isSession with hs | isSession
      · exact ⟨0, hs ▸ .root⟩
      · obtain ⟨node, hn, hs⟩ := mem_map.mp isSession
        obtain ⟨stored, theirs⟩ := walking.rows node hn
        obtain ⟨depth, under⟩ := (walking.parents node hn).2
        exact ⟨depth + 1, .child under stored (hs ▸ theirs)⟩
  · obtain ⟨hm, _, under⟩ := inTree
    have seenHere := walking.under hb under
    cases ha : row.childSessionId with
    | none =>
      refine mem_append_right _ (mem_flatMap.mpr ⟨row.parentSessionId, sessions ▸ seenHere, ?_⟩)
      exact mem_placeholdersOf.2 ⟨hm, ha, rfl⟩
    | some _ =>
      refine mem_append_left _ ?_
      rcases walking.closed row.parentSessionId seenHere with hw | limit | done
      · simp at hw
      · exact absurd (hb _ _ (.child limit hm ha)) (Nat.not_succ_le_self _)
      · obtain ⟨node, hn, hs⟩ := done row hm rfl (by rw [ha]; rfl)
        exact mem_map.mpr ⟨node, hn, hs⟩

theorem descendantNodes_walking (hf : Parented db)
    (hd : db.descendantNodes none rootId = .ok nodes) :
    ∃ turns seen, Walking db rootId turns ⟨[], seen, nodes⟩ := by
  simp only [Database.descendantNodes, map_eq_ok] at hd
  obtain ⟨⟨_, seen, _⟩, expands, rfl⟩ := hd
  obtain ⟨rfl, turns, hw⟩ := expand_walking hf walking_start expands
  exact ⟨turns, seen, hw⟩

theorem Under.stored (hf : Formed db) (hr : IsRoot db rootId)
    (under : Under db rootId depth sessionId) : (db.sessionById sessionId).isSome := by
  cases under with
  | root => exact hr.stored
  | child _ hm ha => exact hf.known _ hm _ ha

section Tallies
variable {tally : Tally} {nodes : List TreeDescendant}

structure Tally.Counts (tally : Tally) (rows : List Delegation) : Prop where
  children : ∀ id, tally.childCounts.get id = rows.countP (·.parentSessionId = id)
  activeChildren : ∀ id, tally.activeChildCounts.get id =
    rows.countP fun row => row.parentSessionId = id ∧ row.status ∈ activeStatuses
  active : tally.activeDescendants = rows.countP (·.status ∈ activeStatuses)

theorem Tally.Counts.count (counts : tally.Counts rows) (row : Delegation) :
    (tally.count row).Counts (rows ++ [row]) := by
  obtain ⟨children, activeChildren, active⟩ := counts
  unfold Tally.count
  by_cases isActive : row.status ∈ activeStatuses
  · rw [if_pos isActive]
    refine ⟨fun id => ?_, fun id => ?_, ?_⟩
    · simp [Counter.get_add, children, countP_append, countP_singleton]
    · simp only [Counter.get_add, activeChildren, countP_append, countP_singleton, isActive,
        and_true, decide_eq_true_eq]
    · simp only [active, countP_append, countP_singleton, isActive, decide_true, if_true]
  · rw [if_neg isActive]
    refine ⟨fun id => ?_, fun id => ?_, ?_⟩
    · simp [Counter.get_add, children, countP_append, countP_singleton]
    · simp only [activeChildren, countP_append, countP_singleton, isActive, and_false, decide_false,
        Bool.false_eq_true, if_false, Nat.add_zero]
    · simp only [active, countP_append, countP_singleton, isActive, decide_false,
        Bool.false_eq_true, if_false, Nat.add_zero]

theorem Tally.Counts.visited (counts : tally.Counts rows) (nodes : List TreeDescendant) :
    (nodes.foldl Tally.node tally).Counts (rows ++ nodes.map (·.row)) := by
  induction nodes generalizing tally rows with
  | nil => simpa using counts
  | cons node rest ih =>
    obtain ⟨children, activeChildren, active⟩ := counts.count node.row
    have counted : (tally.node node).Counts (rows ++ [node.row]) := ⟨children, activeChildren, active⟩
    simpa using ih counted

theorem Tally.Counts.waiting (counts : tally.Counts rows) (placeholders : List Delegation) :
    (placeholders.foldl Tally.count tally).Counts (rows ++ placeholders) := by
  induction placeholders generalizing tally rows with
  | nil => simpa using counts
  | cons row rest ih => simpa using ih (counts.count row)

theorem Tally.counts_of (nodes : List TreeDescendant) (placeholders : List Delegation) :
    (Tally.of nodes placeholders).Counts (nodes.map (·.row) ++ placeholders) := by
  have start : Tally.Counts {} [] := ⟨fun _ => rfl, fun _ => rfl, rfl⟩
  simpa [Tally.of] using (start.visited nodes).waiting placeholders

theorem Tally.treeDepth_count (tally : Tally) (row : Delegation) :
    (tally.count row).treeDepth = tally.treeDepth := by
  unfold Tally.count
  split <;> rfl

theorem Tally.treeDepth_of (nodes : List TreeDescendant) (placeholders : List Delegation) :
    (Tally.of nodes placeholders).treeDepth = (nodes.map (·.depth)).foldl max 0 := by
  have placed : ∀ tally : Tally, (placeholders.foldl Tally.count tally).treeDepth = tally.treeDepth := by
    induction placeholders with
    | nil => exact fun _ => rfl
    | cons row _ ih => exact fun tally => (ih _).trans (tally.treeDepth_count row)
  have walked : ∀ tally : Tally, (nodes.foldl Tally.node tally).treeDepth =
      (nodes.map (·.depth)).foldl max tally.treeDepth := by
    induction nodes with
    | nil => exact fun _ => rfl
    | cons node _ ih => exact fun tally => ih _
  exact (placed _).trans (walked _)

end Tallies

structure Snapshot.Sized (snapshot : Snapshot) : Prop where
  total : snapshot.totalThreads = 1 + snapshot.rows.length
  children : ∀ id, snapshot.childCount id = snapshot.rows.countP (·.parentSessionId = id)
  activeChildren : ∀ id, snapshot.activeChildCount id =
    snapshot.rows.countP fun row => row.parentSessionId = id ∧ row.status ∈ activeStatuses
  active : snapshot.activeDescendants = snapshot.rows.countP (·.status ∈ activeStatuses)

theorem buildRootTreeSnapshot_sized {snapshot : Snapshot}
    (done : buildRootTreeSnapshot db none sessionId = .ok snapshot) :
    snapshot.Sized ∧ snapshot.counts = .of snapshot.descendants snapshot.placeholders := by
  simp only [buildRootTreeSnapshot, steps_ok] at done
  obtain ⟨-, chain, -, -, nodes, -, placeholders, -, rfl⟩ := done
  obtain ⟨children, activeChildren, active⟩ := Tally.counts_of nodes placeholders
  refine ⟨⟨?_, children, activeChildren, active⟩, rfl⟩
  simp only [Snapshot.rows, length_append, length_map]
  omega

theorem buildRootTreeSnapshot_eq_ok {snapshot : Snapshot}
    (hd : buildRootTreeSnapshot db none sessionId = .ok snapshot) :
    IsRoot db snapshot.rootId ∧ Under db snapshot.rootId snapshot.memberDepth sessionId ∧
    db.descendantNodes none snapshot.rootId = .ok snapshot.descendants ∧
    snapshot.placeholders =
      (snapshot.rootId :: snapshot.descendants.map (·.sessionId)).flatMap
        (db.placeholdersOf none) := by
  simp only [buildRootTreeSnapshot, steps_ok] at hd
  obtain ⟨-, chain, climbs, hs, _, walked, _, read, rfl⟩ := hd
  obtain ⟨unparented, under⟩ := ancestryFrom_under climbs
  rw [Database.placeholderRows] at read
  split at read
  next => simp at read
  next =>
    cases read
    exact ⟨⟨Option.isSome_iff_ne_none.mpr (by simpa using hs), unparented⟩, under, walked, rfl⟩

theorem buildRootTreeSnapshot_counts (hf : Formed db)
    (shallow : ∀ rootId, IsRoot db rootId → Shallow db rootId) {snapshot : Snapshot}
    (done : buildRootTreeSnapshot db none sessionId = .ok snapshot) :
    IsRoot db snapshot.rootId ∧ Under db snapshot.rootId snapshot.memberDepth sessionId ∧
    snapshot.rows.Nodup ∧ ∀ row, row ∈ snapshot.rows ↔ InTree db snapshot.rootId row := by
  obtain ⟨hr, under, walked, read⟩ := buildRootTreeSnapshot_eq_ok done
  obtain ⟨_, _, hw⟩ := descendantNodes_walking hf.parented walked
  obtain ⟨hd, rows⟩ := hw.counts hf.parented (shallow _ hr).withinHops
  rw [← read] at hd rows
  exact ⟨hr, under, hd, rows⟩

theorem buildRootTreeSnapshot_ok (hf : Formed db) (hr : IsRoot db rootId)
    (shallow : Shallow db rootId) (hs : Small db rootId) (under : Under db rootId depth sessionId) :
    ∃ snapshot,
      buildRootTreeSnapshot db none sessionId = .ok snapshot ∧ snapshot.rootId = rootId := by
  have near := shallow.withinHops depth sessionId under
  obtain ⟨chain, climbs⟩ : ∃ chain, db.ancestryChain none sessionId = .ok chain := by
    refine ancestryFrom_ok hf hr under near fun other hl => ?_
    rw [mem_singleton.mp hl]
    exact ⟨depth, le_rfl, under⟩
  obtain ⟨unparented, again⟩ := ancestryFrom_under climbs
  have top := (under.unique hf.parented hr.unparented unparented again).1
  obtain ⟨last, expands⟩ := expand_ok hf.parented hr hs walking_start
  have walked : db.descendantNodes none rootId = .ok last.nodes := by
    simp only [Database.descendantNodes, map_eq_ok]
    exact ⟨last, expands, rfl⟩
  obtain ⟨_, _, hw⟩ := descendantNodes_walking hf.parented walked
  obtain ⟨hd, rows⟩ := hw.counts hf.parented shallow.withinHops
  have few := hs _ hd fun row => (rows row).mp
  rw [length_append, length_map] at few
  have read : db.placeholderRows none (rootId :: last.nodes.map (·.sessionId))
        (treeNodeLimit - last.nodes.length) =
      .ok ((rootId :: last.nodes.map (·.sessionId)).flatMap (db.placeholdersOf none)) :=
    if_neg (by omega)
  obtain ⟨placeholders, hpl⟩ :
      ∃ rows, (rootId :: last.nodes.map (·.sessionId)).flatMap (db.placeholdersOf none) = rows :=
    ⟨_, rfl⟩
  rw [hpl] at read
  refine ⟨⟨rootId, chain, last.nodes, placeholders, .of last.nodes placeholders,
    1 + last.nodes.length + placeholders.length⟩, ?_, rfl⟩
  simp only [buildRootTreeSnapshot, steps_ok]
  refine ⟨?_, chain, climbs, ?_⟩
  · simpa using Option.isSome_iff_ne_none.mp (under.stored hf hr)
  · rw [← top]
    exact ⟨by simpa using Option.isSome_iff_ne_none.mp hr.stored, last.nodes, walked, _, read, rfl⟩

/-- The snapshot is the whole tree of the session: each session below the root once, with its
distance, each delegation without a child, and the numbers of both; and every member's snapshot
is the same. -/
structure Snapshot.Complete (db : Database) (sessionId : Text) (snapshot : Snapshot) : Prop where
  root : IsRoot db snapshot.rootId
  member : Under db snapshot.rootId snapshot.memberDepth sessionId
  distinct : (snapshot.rootId :: snapshot.descendants.map (·.sessionId)).Nodup
  descendants : ∀ depth id, 0 < depth → (Under db snapshot.rootId depth id ↔
    ∃ node ∈ snapshot.descendants, node.sessionId = id ∧ node.depth = depth)
  placeholders : snapshot.placeholders.Nodup ∧
    ∀ row, row ∈ snapshot.placeholders ↔ InTree db snapshot.rootId row ∧ row.childSessionId = none
  counts : snapshot.rows.Nodup ∧ (∀ row, row ∈ snapshot.rows ↔ InTree db snapshot.rootId row) ∧ snapshot.Sized
  deepest : (∃ id, Under db snapshot.rootId snapshot.treeDepth id) ∧
    ∀ depth id, Under db snapshot.rootId depth id → depth ≤ snapshot.treeDepth
  same : ∀ depth other, Under db snapshot.rootId depth other → ∀ again,
    buildRootTreeSnapshot db none other = .ok again → again.rootId = snapshot.rootId ∧
      again.descendants = snapshot.descendants ∧ again.placeholders = snapshot.placeholders ∧
      again.counts = snapshot.counts ∧ again.totalThreads = snapshot.totalThreads

/-- A snapshot that is not refused is the whole tree exactly if no session lies more than
`ancestryHopLimit` links below the root. -/
theorem snapshot_complete_iff (parented : Parented db) {snapshot : Snapshot}
    (done : buildRootTreeSnapshot db none sessionId = .ok snapshot) :
    snapshot.Complete db sessionId ↔ WithinHops db snapshot.rootId := by
  obtain ⟨hr, under, walked, read⟩ := buildRootTreeSnapshot_eq_ok done
  obtain ⟨sized, tallied⟩ := buildRootTreeSnapshot_sized done
  obtain ⟨_, hs, hw⟩ := descendantNodes_walking parented walked
  have sessions : hs = snapshot.rootId :: snapshot.descendants.map (·.sessionId) := hw.sessions
  constructor
  · intro complete depth id hb
    cases depth with
    | zero => exact Nat.zero_le _
    | succ depth =>
      obtain ⟨node, hl, -, hsa⟩ := (complete.descendants _ id (Nat.succ_pos depth)).mp hb
      have near := (hw.depths node hl).2.2
      rwa [hsa] at near
  · intro hbo
    obtain ⟨hd, rows⟩ := hw.counts parented hbo
    rw [← read] at hd rows
    have placed : ∀ depth id, 0 < depth → Under db snapshot.rootId depth id →
        ∃ node ∈ snapshot.descendants, node.sessionId = id ∧ node.depth = depth := by
      intro depth id hp hb
      have hl := hw.under hbo hb
      rw [sessions] at hl
      rcases mem_cons.mp hl with rfl | hn
      · have := (Under.root.unique parented hr.unparented hr.unparented hb).2
        omega
      · obtain ⟨node, hm, rfl⟩ := mem_map.mp hn
        exact ⟨node, hm, rfl, ((hw.depths node hm).1.unique parented hr.unparented hr.unparented hb).2⟩
    have deep : (0 :: snapshot.descendants.map (·.depth)).max? = some snapshot.treeDepth := by
      rw [Snapshot.treeDepth, tallied, Tally.treeDepth_of, max?_cons']
    obtain ⟨reached, greatest⟩ := max?_eq_some_iff.mp deep
    refine ⟨hr, under, sessions ▸ hw.distinct,
      fun depth id hp => ⟨placed depth id hp, ?_⟩, ?_, ⟨hd, rows, sized⟩, ⟨?_, ?_⟩, ?_⟩
    · rintro ⟨node, hm, rfl, rfl⟩
      exact (hw.depths node hm).1
    · refine ⟨(nodup_append.mp hd).2.1, fun row => ⟨fun hl => ?_, fun inTree => ?_⟩⟩
      · have bare : row.childSessionId = none := by
          rw [read] at hl
          obtain ⟨_, -, placeholder⟩ := mem_flatMap.mp hl
          exact (mem_placeholdersOf.mp placeholder).2.1
        exact ⟨(rows row).mp (mem_append_right _ hl), bare⟩
      · rcases mem_append.mp ((rows row).mpr inTree.1) with ha | placeholder
        · obtain ⟨node, hm, rfl⟩ := mem_map.mp ha
          cases (hw.rows node hm).2.symm.trans inTree.2
        · exact placeholder
    · rcases mem_cons.mp reached with flat | reached
      · exact ⟨snapshot.rootId, flat ▸ .root⟩
      · obtain ⟨node, hm, equal⟩ := mem_map.mp reached
        exact ⟨node.sessionId, equal ▸ (hw.depths node hm).1⟩
    · intro depth id hb
      rcases Nat.eq_zero_or_pos depth with rfl | hp
      · exact Nat.zero_le _
      · obtain ⟨node, hm, -, rfl⟩ := placed depth id hp hb
        exact greatest _ (mem_cons_of_mem _ (mem_map_of_mem hm))
    · intro depth other hb again repeated
      obtain ⟨hr', under', walked', read'⟩ := buildRootTreeSnapshot_eq_ok repeated
      have root := (under'.unique parented hr'.unparented hr.unparented hb).1
      rw [root] at walked' read'
      have nodes := Except.ok.inj (walked'.symm.trans walked)
      have waiting : again.placeholders = snapshot.placeholders := by rw [read', read, nodes]
      obtain ⟨sized', tallied'⟩ := buildRootTreeSnapshot_sized repeated
      refine ⟨root, nodes, waiting, by rw [tallied', tallied, nodes, waiting], ?_⟩
      rw [sized'.total, sized.total, Snapshot.rows, Snapshot.rows, nodes, waiting]

end Trees

/-- A chain of 33 delegations; the last child lies one link below the hop limit. -/
def deepChain : Database where
  sessions := (List.range 34).map fun number => { id := [number], workspaceId := text "workspace" }
  delegations := (List.range 33).map fun number =>
    { sampleReservation with
      id := [100, number], parentSessionId := [number], childSessionId := some [number + 1] }

theorem deepChain_partial :
    Parented deepChain ∧
    ∃ snapshot, buildRootTreeSnapshot deepChain none [0] = .ok snapshot ∧
      ¬ snapshot.Complete deepChain [0] := by
  constructor
  · refine ⟨by decide +kernel, ?_, ?_⟩
    · intro row hm other hl child own theirs
      obtain ⟨_, -, rfl⟩ := mem_map.mp hm
      obtain ⟨_, -, rfl⟩ := mem_map.mp hl
      simpa using own.trans theirs.symm
    · decide +kernel
  · have hb : ∀ number, number ≤ 33 → Under deepChain [0] number [number] := by
      intro number
      induction number with
      | zero => exact fun _ => .root
      | succ number ih =>
        intro near
        exact .child (ih (by omega)) (mem_map.mpr ⟨number, mem_range.mpr (by omega), rfl⟩) rfl
    have read : ∃ snapshot ∈ (buildRootTreeSnapshot deepChain none [0]).toOption,
        snapshot.rootId = [0] ∧ ∀ node ∈ snapshot.descendants, node.sessionId ≠ [33] := by decide +kernel
    obtain ⟨snapshot, isOk, root, hmi⟩ := read
    refine ⟨snapshot, ?_, fun complete => ?_⟩
    · cases built : buildRootTreeSnapshot deepChain none [0] with
      | error error => simp [built, Except.toOption] at isOk
      | ok built' => simpa [built, Except.toOption] using isOk
    · have last := complete.descendants 33 [33] (by decide)
      rw [root] at last
      obtain ⟨node, hl, hs, -⟩ := last.mp (hb 33 le_rfl)
      exact hmi node hl hs

/-- A root with one attached child, which has a delegation without a session. -/
def family : Database where
  sessions := [{ id := [0], workspaceId := text "workspace" }, { id := [1], workspaceId := text "workspace" }]
  delegations :=
    [{ sampleReservation with id := [100], parentSessionId := [0], childSessionId := some [1] },
      { sampleReservation with id := [101], parentSessionId := [1], childSessionId := none }]

theorem snapshot_complete_family :
    ∃ snapshot, buildRootTreeSnapshot family none [1] = .ok snapshot ∧ snapshot.childCount [1] = 1 ∧
      snapshot.totalThreads = 3 ∧ snapshot.treeDepth = 1 ∧ snapshot.Complete family [1] := by
  have parented : Parented family := ⟨by decide +kernel, by decide +kernel, by decide +kernel⟩
  have shallow : ∀ depth id, Under family [0] depth id → depth = 0 ∧ id = [0] ∨ depth = 1 ∧ id = [1] := by
    intro depth id under
    induction under with
    | root => exact .inl ⟨rfl, rfl⟩
    | @child _ row _ above member attached ih =>
      rcases mem_pair.mp member with rfl | rfl
      · rcases ih with ⟨rfl, -⟩ | ⟨-, other⟩
        · exact .inr ⟨rfl, (Option.some.inj attached).symm⟩
        · cases other
      · cases attached
  refine ⟨_, rfl, by decide +kernel, by decide +kernel, by decide +kernel, ?_⟩
  refine (snapshot_complete_iff parented rfl).mpr fun depth id under => ?_
  rcases shallow depth id under with ⟨rfl, -⟩ | ⟨rfl, -⟩ <;> decide

end Yinshi.Threads
