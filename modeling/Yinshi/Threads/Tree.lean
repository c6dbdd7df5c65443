import Yinshi.Threads.Store

/-! Bounded walks over the delegation tree: the ancestry chain, the breadth-first walk of the
descendants, the placeholders, the limits computed from them, and the cancellation barrier. -/

namespace Yinshi.Threads
open ByteText Keyed Checked

def ancestryHopLimit : Nat := 32
def treeNodeLimit : Nat := 500

namespace Database

/-- The owner check of the legacy mode: `owner_email` is unset or the reader's. -/
def visible (db : Database) (owner : Option Text) (sessionId : Text) : Bool :=
  match owner with
  | none => true
  | some owner => (db.location sessionId).any fun place => place.2.ownerEmail.all (· = owner)

def ordered (rows : List Delegation) : List Delegation :=
  sortBy (fun row => toLex (row.createdAt, row.id)) rows

/-- `_direct_children`: the delegations of a session whose child session exists. -/
def directChildren (db : Database) (owner : Option Text) (sessionId : Text) : List Delegation :=
  ordered (db.delegations.filter fun row => row.parentSessionId = sessionId ∧
    ∃ child ∈ row.childSessionId, (db.sessionById child).isSome ∧ db.visible owner child)

/-- The loop of `_ancestry_chain`; `hops` rows may still be added. -/
def ancestryFrom (db : Database) (owner : Option Text) (sessionId : Text) :
    Nat → List Text → Text → Except ThreadError (List Delegation)
  | hops, visited, current =>
    match db.delegationByChild current with
    | none => .ok []
    | some row => do
        rejectIf (db.visible owner row.parentSessionId = false) (.notFound sessionId)
        rejectIf (row.parentSessionId ∈ visited) (.cycle "thread parentage records contain a cycle")
        match hops with
        | 0 => .error (.cycle "thread parentage ancestry exceeds the hop limit")
        | hops + 1 =>
          let chain ← db.ancestryFrom owner sessionId hops (row.parentSessionId :: visited)
            row.parentSessionId
          pure (row :: chain)

def ancestryChain (db : Database) (owner : Option Text) (sessionId : Text) :
    Except ThreadError (List Delegation) :=
  db.ancestryFrom owner sessionId ancestryHopLimit [sessionId] sessionId

end Database

structure TreeDescendant where
  row : Delegation
  sessionId : Text
  depth : Nat

structure Walk where
  frontier : List (Text × Nat)
  seen : List Text
  nodes : List TreeDescendant

def Walk.visit (depth : Nat) (walk : Walk) (row : Delegation) : Except ThreadError Walk :=
  match row.childSessionId with
  | none => .ok walk
  | some child => do
      rejectIf (child ∈ walk.seen) (.cycle "thread parentage records contain a cycle")
      rejectIf (treeNodeLimit < walk.nodes.length + 1) (.treeSize "thread tree exceeds the size bound")
      pure ⟨walk.frontier ++ [(child, depth + 1)], walk.seen ++ [child],
        walk.nodes ++ [⟨row, child, depth + 1⟩]⟩

def Walk.visitAll (depth : Nat) : Walk → List Delegation → Except ThreadError Walk
  | walk, [] => .ok walk
  | walk, row :: rows => do
      let walk ← walk.visit depth row
      Walk.visitAll depth walk rows

namespace Database

/-- The loop of `_descendant_nodes`; every turn takes one session off the frontier. -/
def expand (db : Database) (owner : Option Text) : Nat → Walk → Except ThreadError Walk
  | 0, walk => .ok walk
  | turns + 1, walk =>
    match walk.frontier with
    | [] => .ok walk
    | (sessionId, depth) :: frontier =>
      if ancestryHopLimit ≤ depth then db.expand owner turns { walk with frontier := frontier }
      else do
        let walk ← Walk.visitAll depth { walk with frontier := frontier }
          (db.directChildren owner sessionId)
        db.expand owner turns walk

/-- Every session on the frontier is the root or a node, and there are at most
`treeNodeLimit` nodes. -/
def descendantNodes (db : Database) (owner : Option Text) (rootId : Text) :
    Except ThreadError (List TreeDescendant) :=
  (·.nodes) <$> db.expand owner (treeNodeLimit + 1) ⟨[(rootId, 0)], [rootId], []⟩

def placeholdersOf (db : Database) (owner : Option Text) (sessionId : Text) : List Delegation :=
  ordered (db.delegations.filter fun row => row.childSessionId = none ∧
    row.parentSessionId = sessionId ∧ db.visible owner sessionId)

/-- `_placeholder_rows`: raises at the first row beyond `maxRows`. -/
def placeholderRows (db : Database) (owner : Option Text) (sessionIds : List Text) (maxRows : Nat) :
    Except ThreadError (List Delegation) :=
  let rows := sessionIds.flatMap (db.placeholdersOf owner)
  if maxRows < rows.length then .error (.treeSize "thread placeholders exceed the size bound")
  else .ok rows

end Database

/-- A `Counter`; a key that it does not hold has the count 0. -/
abbrev Counter : Type := List (Text × Nat)

namespace Counter

def get (counter : Counter) (key : Text) : Nat := (counter.lookup key).getD 0

def add : Counter → Text → Counter
  | [], key => [(key, 1)]
  | (other, count) :: rest, key =>
    if other = key then (other, count + 1) :: rest else (other, count) :: add rest key

theorem get_add (counter : Counter) (key other : Text) :
    (counter.add key).get other = counter.get other + if key = other then 1 else 0 := by
  induction counter with
  | nil =>
    by_cases same : key = other
    · simp [add, get, same]
    · simp [add, get, same, List.lookup_cons, beq_false_of_ne (Ne.symm same)]
  | cons entry rest ih =>
    obtain ⟨held, count⟩ := entry
    simp only [get] at ih
    by_cases own : other = held
    · subst own
      by_cases same : other = key
      · simp [add, get, same]
      · simp [add, get, same, Ne.symm same]
    · have missed : (other == held) = false := beq_false_of_ne own
      by_cases same : held = key
      · subst same
        simp [add, get, List.lookup_cons, missed, Ne.symm own]
      · simp [add, get, List.lookup_cons, missed, same, ih]

end Counter

/-- What the loops of `_build_root_tree_snapshot` count. -/
structure Tally where
  childCounts : Counter := []
  activeChildCounts : Counter := []
  activeDescendants : Nat := 0
  treeDepth : Nat := 0

namespace Tally

def count (tally : Tally) (row : Delegation) : Tally :=
  let childCounts := tally.childCounts.add row.parentSessionId
  if row.status ∈ activeStatuses then
    { tally with
      childCounts
      activeChildCounts := tally.activeChildCounts.add row.parentSessionId
      activeDescendants := tally.activeDescendants + 1 }
  else { tally with childCounts }

def node (tally : Tally) (node : TreeDescendant) : Tally :=
  { tally.count node.row with treeDepth := max tally.treeDepth node.depth }

def of (descendants : List TreeDescendant) (placeholders : List Delegation) : Tally :=
  placeholders.foldl count (descendants.foldl node {})

end Tally

/-- `_RootTreeSnapshot`, without the rows that only the projections read. -/
structure Snapshot where
  rootId : Text
  chain : List Delegation
  descendants : List TreeDescendant
  placeholders : List Delegation
  counts : Tally
  totalThreads : Nat

namespace Snapshot

def memberDepth (snapshot : Snapshot) : Nat := snapshot.chain.length

def childCount (snapshot : Snapshot) (sessionId : Text) : Nat := snapshot.counts.childCounts.get sessionId

def activeChildCount (snapshot : Snapshot) (sessionId : Text) : Nat :=
  snapshot.counts.activeChildCounts.get sessionId

def activeDescendants (snapshot : Snapshot) : Nat := snapshot.counts.activeDescendants

def treeDepth (snapshot : Snapshot) : Nat := snapshot.counts.treeDepth

def rows (snapshot : Snapshot) : List Delegation :=
  snapshot.descendants.map (·.row) ++ snapshot.placeholders

end Snapshot

def buildRootTreeSnapshot (db : Database) (owner : Option Text) (sessionId : Text) :
    Except ThreadError Snapshot := do
  rejectIf ((db.sessionById sessionId).isNone) (.notFound sessionId)
  let chain ← db.ancestryChain owner sessionId
  let rootId := (chain.getLast?.map (·.parentSessionId)).getD sessionId
  rejectIf ((db.sessionById rootId).isNone) (.notFound rootId)
  let descendants ← db.descendantNodes owner rootId
  let placeholders ← db.placeholderRows owner (rootId :: descendants.map (·.sessionId))
    (treeNodeLimit - descendants.length)
  pure ⟨rootId, chain, descendants, placeholders, .of descendants placeholders,
    1 + descendants.length + placeholders.length⟩

def spawnOwnerEmail (request : Request) : Option Text :=
  if request.tenant then none else request.userEmail

def enforceSpawnLimits (settings : Settings) (request : Request) (db : Database)
    (parentSessionId : Text) : Except ThreadError Unit := do
  let snapshot ← buildRootTreeSnapshot db (spawnOwnerEmail request) parentSessionId
  rejectIf (settings.maxDepth < snapshot.memberDepth + 1)
    (.orchestration "depth_exceeded" "thread depth limit exceeded for this root tree")
  rejectIf (settings.maxDirectChildren ≤ snapshot.childCount parentSessionId)
    (.orchestration "child_limit_exceeded" "thread direct-child limit exceeded for the parent")
  rejectIf (settings.maxActiveDescendants ≤ snapshot.activeDescendants)
    (.orchestration "active_thread_limit_exceeded"
      "thread active-descendant limit exceeded for the root tree")
  rejectIf (settings.maxTotal ≤ snapshot.totalThreads)
    (.treeLimit "thread tree size limit exceeded for the root tree")

/-- The loop of `_assert_no_cancellation`; at most `hops` more rows are read. -/
def assertNoCancellationFrom (db : Database) : Nat → List Text → Text → Except ThreadError Unit
  | 0, _, _ => .error (.treeLimit "thread ancestry exceeds the depth bound")
  | hops + 1, seen, current => do
      rejectIf (current ∈ seen) (.cycle "thread ancestry contains a cycle")
      match db.delegationByChild current with
      | none => .ok ()
      | some row => do
          rejectIf (row.cancelScope ≠ none ∨ row.status = .cancelling)
            (.cancelPending "An ancestor cancellation is pending.")
          assertNoCancellationFrom db hops (current :: seen) row.parentSessionId

def assertNoCancellation (db : Database) (sessionId : Text) : Except ThreadError Unit :=
  assertNoCancellationFrom db 32 [] sessionId

/-- The loop of `authorize_descendant`: the caller's session is an ancestor in its repository. -/
def climbToCaller (request : Request) (db : Database) (caller : Caller) (repoId threadId : Text) :
    Nat → List Text → Delegation → Except ThreadError Unit
  | 0, _, _ => .error (.notFound threadId)
  | hops + 1, visited, current => do
      rejectIf (current.parentSessionId ∈ visited) (.notFound threadId)
      authorizeSession request db current.parentSessionId
      let parentRepo ← sessionRepository db current.parentSessionId
      rejectIf (parentRepo ≠ repoId) (.notFound threadId)
      if current.parentSessionId = caller.sessionId then pure ()
      else do
        let next ← orRaise (.notFound threadId) (db.delegationByChild current.parentSessionId)
        climbToCaller request db caller repoId threadId hops (current.parentSessionId :: visited) next

def requireRepository (db : Database) (repoId threadId : Text) : Option Text → Except ThreadError Unit
  | none => .ok ()
  | some child => do
      let childRepo ← sessionRepository db child
      rejectIf (childRepo ≠ repoId) (.notFound threadId)

def authorizeDescendant (settings : Settings) (request : Request) (db : Database) (caller : Caller)
    (threadId : Text) : Except ThreadError Delegation := do
  authorizeCaller settings request db caller
  rejectIf (threadId = caller.sessionId) (.notFound threadId)
  let target ← resolveCancelTarget request db threadId
  let repoId ← sessionRepository db caller.sessionId
  requireRepository db repoId threadId target.childSessionId
  rejectIf (target.childSessionId = some caller.sessionId) (.notFound threadId)
  climbToCaller request db caller repoId threadId 64 [threadId] target
  pure target

end Yinshi.Threads
