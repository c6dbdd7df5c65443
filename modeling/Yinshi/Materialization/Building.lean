import Yinshi.Artifact.SafeTree
import Yinshi.Materialization.Progress

/-! The builder of a pending directory and the scanner agree on the manifest of every decoded
worktree, and the builder empties whatever an earlier one has left. -/

namespace Yinshi.Materialization
open ByteText Artifact Checked Faulty Prog Function List
variable {entries : List ManifestEntry}

/-! ### Manifests -/

def directoriesOf (entries : List ManifestEntry) : List (List Bytes) :=
  (entries.filter fun entry => entry.kind = .directory).map partsOf

theorem mem_directoriesOf {path : List Bytes} :
    path ∈ directoriesOf entries ↔
    ∃ entry ∈ entries, entry.kind = .directory ∧ partsOf entry = path := by
  simp [directoriesOf, and_assoc]

theorem partsOf_inj {a b : ManifestEntry} (hs : partsOf a = partsOf b) : a.rawPath = b.rawPath := by
  rw [← joinComponents_components a.rawPath, ← joinComponents_components b.rawPath]
  exact congrArg joinComponents hs

structure Orderly (entries : List ManifestEntry) : Prop where
  distinct : (entries.map partsOf).Nodup
  safe : ∀ entry ∈ entries, gitName ∉ partsOf entry
  parents : ∀ before entry after, entries = before ++ entry :: after →
    ∀ count, 1 ≤ count → count < (partsOf entry).length → (partsOf entry).take count ∈ directoriesOf before

theorem orderly_of_decoded {limits : ArtifactLimits} {payload : Bytes} {aggregate : Nat}
    (decoded : parseManifest limits payload = .ok (entries, aggregate)) : Orderly entries := by
  obtain ⟨-, shapes, sorted, topology, -⟩ := parseManifest_eq_ok.mp decoded
  refine ⟨?_, fun entry hm => ?_, fun before entry after split count low high => ?_⟩
  · exact pairwise_map.mpr (sorted.imp fun less hs => less.ne (partsOf_inj hs))
  · have raw := (validateEntryShape_eq_ok.mp (shapes entry hm)).2.2.2.2.2
    exact fun ht => (validateRawPath_eq_ok raw).plain gitName ht (by decide)
  · have ha : joinComponents ((partsOf entry).take count) ∈ properAncestors entry.rawPath :=
      mem_map.mpr ⟨count, mem_range'_1.mpr ⟨low, by unfold partsOf at high; omega⟩, rfl⟩
    obtain ⟨parent, hm, hs, kind⟩ := (parents_of_topology topology split _ ha).resolve_left not_mem_nil
    refine mem_directoriesOf.2 ⟨parent, hm, kind, ?_⟩
    unfold partsOf at hs high ⊢
    rw [hs]
    refine (fun some => splitOn_intercalate slash
          (fun part ht => slash_not_mem_component (mem_of_mem_take ht)) some) fun none => ?_
    have length := congrArg length none
    rw [length_take, length_nil] at length
    omega

/-! ### Trees on the way -/

def pendingTree (repository home : Nat) (git worktree rest : Tree) : Tree :=
  .node repoName repository (.node gitName 0 git worktree) (.node homeName home .nil rest)

structure Scans (entries : List ManifestEntry) (worktree : Tree) : Prop where
  distinct : worktree.Distinct
  leaves : worktree.leaves.Perm (expectedLeaves entries)
  nodes : worktree.nodes.Perm (directoriesOf entries)
  apart : gitName ∉ worktree.names

section Trees
variable {repository home : Nat} {git worktree worktree' rest kids : Tree} {path : List Bytes}
  {name : Bytes} {change : Tree → Except Error Tree}

theorem within_pendingTree
    (lifts : ∀ worktree,
        change (.node gitName 0 git worktree) = (change worktree).map (.node gitName 0 git))
    (ha : ∀ first ∈ path.head?, first ≠ gitName) :
    Forest.within .notFound change (repoName :: path)
        (pendingTree repository home git worktree rest) =
      (Forest.within .notFound change path worktree).map
        fun worktree' => pendingTree repository home git worktree' rest := by
  unfold pendingTree
  cases path with
  | nil =>
    simp only [Forest.within, if_true, lifts]
    cases change worktree <;> rfl
  | cons first path =>
    simp only [Forest.within, if_true, if_neg (Ne.symm (ha first rfl))]
    cases Forest.within .notFound change (first :: path) worktree <;> rfl

theorem inside_pendingTree {first : Bytes} (ha : first ≠ gitName) :
    Forest.inside (repoName :: first :: path) (pendingTree repository home git worktree rest) =
      Forest.inside (first :: path) worktree := by
  simp only [pendingTree, Forest.inside, if_true, if_neg (Ne.symm ha)]

def addition (name : Bytes) (new : Tree) (kids : Tree) : Except Error Tree :=
  if name ∈ kids.names then .error .fileExists else .ok (kids.append new)

theorem addition_lifts {new : Tree} (ha : name ≠ gitName) :
    addition name new (.node gitName 0 git worktree) =
      (addition name new worktree).map (.node gitName 0 git) := by
  unfold addition
  simp only [Forest.names, mem_cons, ha, false_or]
  split <;> rfl

/-! ### The next entry -/

variable {entries before after : List ManifestEntry} {entry : ManifestEntry}

theorem partsOf_split (entry : ManifestEntry) :
    (partsOf entry).dropLast ++ [(partsOf entry).getLastD []] = partsOf entry := by
  have some : partsOf entry ≠ [] := components_ne_nil _
  rw [getLastD_eq_getLast?, getLast?_eq_some_getLast some]
  exact dropLast_append_getLast some

theorem mem_expectedLeaves {place : List Bytes × Leaf} (hm : place ∈ expectedLeaves entries) :
    ∃ entry ∈ entries, place.1 = partsOf entry := by
  obtain ⟨entry, ht, hs⟩ := mem_filterMap.mp hm
  refine ⟨entry, ht, ?_⟩
  split at hs <;> cases hs <;> rfl

theorem Scans.place (scans : Scans before worktree) (ho : Orderly entries)
    (split : entries = before ++ entry :: after) :
    ∃ kids, Forest.inside (partsOf entry).dropLast worktree = some kids ∧
      (partsOf entry).getLastD [] ∉ kids.names := by
  have hf : ∃ kids, Forest.inside (partsOf entry).dropLast worktree = some kids := by
    by_cases alone : (partsOf entry).dropLast = []
    · rw [alone]
      exact ⟨worktree, by cases worktree <;> rfl⟩
    · have long : 1 ≤ (partsOf entry).dropLast.length := length_pos_iff.mpr alone
      rw [length_dropLast] at long
      have ha := ho.parents before entry after split ((partsOf entry).length - 1) long (by omega)
      rw [← dropLast_eq_take] at ha
      exact Forest.inside_of_mem scans.distinct (scans.nodes.mem_iff.mpr ha)
  obtain ⟨kids, hf⟩ := hf
  refine ⟨kids, hf, fun ht => ?_⟩
  have hd := ho.distinct
  rw [split, map_append, map_cons] at hd
  have fresh : ∀ other ∈ before, partsOf other ≠ partsOf entry := fun other hm hs =>
    (nodup_append.mp hd).2.2 _ (mem_map.mpr ⟨other, hm, rfl⟩) _ (mem_cons_self ..) hs
  have hk := Forest.mem_of_inside hf ht
  rw [partsOf_split] at hk
  rcases hk with leaf | node
  · obtain ⟨_, hm, hs⟩ := mem_map.mp leaf
    obtain ⟨other, hm', hs'⟩ := mem_expectedLeaves (scans.leaves.mem_iff.mp hm)
    exact fresh other hm' (hs'.symm.trans hs)
  · obtain ⟨other, hm, -, hs⟩ := mem_directoriesOf.1 (scans.nodes.mem_iff.mp node)
    exact fresh other hm hs

def entryTree (entry : ManifestEntry) (identity : Nat) : Tree :=
  let name := (partsOf entry).getLastD []
  match entry.kind with
  | .file => .leaf name (.file entry.executable entry.content) .nil
  | .symlink => .leaf name (.symlink entry.content) .nil
  | .directory => .node name identity .nil .nil

theorem Scans.add {identity : Nat} (scans : Scans before worktree) (ho : Orderly entries)
    (split : entries = before ++ entry :: after)
    (hd : Forest.within .notFound (fun kids => .ok (kids.append (entryTree entry identity)))
          (partsOf entry).dropLast worktree = (.ok worktree' : Except Error Tree)) :
    Scans (before ++ [entry]) worktree' := by
  obtain ⟨_, hf, ha⟩ := scans.place ho split
  have names : (entryTree entry identity).names = [(partsOf entry).getLastD []] := by
    unfold entryTree
    cases entry.kind <;> rfl
  have hap : gitName ∉ partsOf entry := ho.safe entry (by simp [split])
  refine ⟨?_, ?_, ?_, ?_⟩
  · refine Forest.distinct_within scans.distinct hf ?_ (fun name hm => ?_) hd
    · unfold entryTree
      cases entry.kind <;> simp [Forest.Distinct, Forest.names]
    · rw [names, mem_singleton] at hm
      rw [hm]
      exact ha
  · refine (Forest.leaves_within hd).trans ?_
    have own : ((entryTree entry identity).leaves.map
            fun hb => ((partsOf entry).dropLast ++ hb.1, hb.2)) = expectedLeaves [entry] := by
      have hw := partsOf_split entry
      rw [getLastD_eq_getLast?] at hw
      unfold entryTree expectedLeaves
      cases kind : entry.kind <;> simp [Forest.leaves, hw, kind]
    rw [own, expectedLeaves, expectedLeaves, filterMap_append]
    exact scans.leaves.append_right _
  · refine (Forest.nodes_within hd).trans ?_
    have own : ((entryTree entry identity).nodes.map ((partsOf entry).dropLast ++ ·)) =
          directoriesOf [entry] := by
      have hw := partsOf_split entry
      rw [getLastD_eq_getLast?] at hw
      unfold entryTree directoriesOf
      cases kind : entry.kind <;> simp [Forest.nodes, hw, kind]
    rw [own, directoriesOf, directoriesOf, filter_append, map_append]
    exact scans.nodes.append_right _
  · cases parent : (partsOf entry).dropLast with
    | nil =>
      rw [parent] at hd
      simp only [Forest.within, Except.ok.injEq] at hd
      rw [← hd, Forest.names_append, names, mem_append, mem_singleton]
      refine not_or.mpr ⟨scans.apart, fun hs => hap ?_⟩
      rw [← partsOf_split entry, parent, hs]
      exact mem_cons_self ..
    | cons _ _ =>
      rw [parent] at hd
      rw [Forest.names_within hd]
      exact scans.apart

end Trees

/-! ### The steps of a build -/

def Disk.building (d : Disk) (directory : Nat) (tree : Tree) (next : Nat) : Disk :=
  { d with tree := update d.tree directory tree, next := next }

section Build
variable {allowed : Label → Disk → Fault Error → Prop} {inv : Disk → Prop}
  {failed : Error → Disk → Prop} {d : Disk} {directory next : Nat} {tree tree' : Tree}
  {path : List Bytes} {name : Bytes} {post : Unit → Disk → Prop}

theorem tree_building : (d.building directory tree next).tree directory = tree := update_self _ _ _

theorem building_building {next' : Nat} :
    (d.building directory tree next).building directory tree' next' =
      d.building directory tree' next' := by
  unfold Disk.building
  rw [update_idem]

theorem edit_spec {change : Tree → Except Error Tree} (stops : inv (d.building directory tree next))
    (hf : ∀ error, Disturbed allowed → failed error (d.building directory tree next))
    (goes : ∀ tree', change tree = .ok tree' → post () (d.building directory tree' next))
    (refuses :
      ∀ error, change tree = .error error → failed error (d.building directory tree next)) :
    Wp allowed inv failed post (edit directory change) (d.building directory tree next) := by
  refine .act stops (fun error met => hf error ⟨_, _, _, met⟩) (fun _ _ d' hd => ?_) fun _ error hr => ?_
  · rw [tree_building] at hd
    obtain ⟨tree', hc, hs⟩ := map_eq_ok.mp hd
    cases hs
    have hs : (d.building directory tree next).building directory tree' next =
          d.building directory tree' next := building_building
    have gone := goes tree' hc
    rwa [← hs] at gone
  · rw [tree_building] at hr
    exact refuses error (map_eq_error.mp hr)

theorem mkdirAt_spec (stops : inv (d.building directory tree next))
    (hf : ∀ error, Disturbed allowed → failed error (d.building directory tree next))
    (goes : ∀ tree', Forest.within .notFound (addition name (.node name next .nil .nil)) path tree =
            .ok tree' → post () (d.building directory tree' (next + 1)))
    (refuses : ∀ error, Forest.within .notFound (addition name (.node name next .nil .nil)) path
              tree = .error error → failed error (d.building directory tree next)) :
    Wp allowed inv failed post (mkdirAt directory path name) (d.building directory tree next) := by
  refine .act stops (fun error met => hf error ⟨_, _, _, met⟩) (fun _ _ d' hd => ?_) fun _ error hr => ?_
  · rw [tree_building] at hd
    obtain ⟨tree', hc, hs⟩ := map_eq_ok.mp hd
    cases hs
    have hs : (d.building directory tree next).building directory tree' (next + 1) =
          d.building directory tree' (next + 1) :=
      building_building
    have gone := goes tree' hc
    rwa [← hs] at gone
  · rw [tree_building] at hr
    exact refuses error (map_eq_error.mp hr)

section Within
variable (stops : ∀ tree next', next ≤ next' → inv (d.building directory tree next'))
  (fails : ∀ error tree next',
      next ≤ next' → Disturbed allowed → failed error (d.building directory tree next'))

include stops fails in
theorem mkdirOpen_there (ht : (Forest.inside (path ++ [name]) tree).isSome = true)
    (goes : post () (d.building directory tree next)) :
    Wp allowed inv failed post (mkdirOpen directory path name)
      (d.building directory tree next) := by
  obtain ⟨_, hf, hm⟩ := Forest.inside_of_append ht
  have exists' : ∀ new, Forest.within Error.notFound (addition name new) path tree = .error .fileExists :=
    fun new => Forest.within_error_of_inside hf (if_pos hm)
  refine .seq (fun _ d' => d' = d.building directory tree next) (.rescue
    (fun error d' => (error = .fileExists ∨ Disturbed allowed) ∧ d' = d.building directory tree next)
    (mkdirAt_spec (stops _ _ le_rfl) (fun _ met => ⟨.inr met, rfl⟩) (fun tree' hd => ?_) fun error hr => ?_)
    fun error d' hb => ?_) fun _ d' hs => ?_
  · rw [exists'] at hd
    exact nomatch hd
  · rw [exists'] at hr
    exact ⟨.inl (Except.error.inj hr).symm, rfl⟩
  · obtain ⟨either, rfl⟩ := hb
    split
    next => exact .pure rfl
    next other => exact .raise (fails _ _ _ le_rfl (either.resolve_left other))
  subst hs
  refine .bind
    (fetch_spec (stops _ _ le_rfl) (fun _ => fails _ _ _ le_rfl) (fun _ _ => ?_) fun error hr => ?_)
  · exact touch_spec (stops _ _ le_rfl) (fun _ => fails _ _ _ le_rfl) goes
  · rw [tree_building, if_pos ht] at hr
    exact nomatch hr

include stops fails in
theorem openParents_spec {parts : List Bytes} (goes : post () (d.building directory tree next))
    (ht : ∀ count, 1 ≤ count → count ≤ parts.length →
        (Forest.inside (path ++ parts.take count) tree).isSome = true) :
    Wp allowed inv failed post (openParents directory path parts)
      (d.building directory tree next) := by
  induction parts generalizing path with
  | nil => exact .pure goes
  | cons _ _ ih =>
    refine .bind (mkdirOpen_there stops fails (by simpa using ht 1 le_rfl (by simp))
        (ih fun count low high => ?_))
    have deeper := ht (count + 1) (by omega) (by simp; omega)
    rwa [List.take_succ_cons, List.append_cons] at deeper

variable {repository home : Nat} {git worktree rest : Tree}
  {entries before after : List ManifestEntry} {entry : ManifestEntry}

include stops fails in
theorem createManifestEntry_spec (ho : Orderly entries) (split : entries = before ++ entry :: after)
    (scans : Scans before worktree)
    (goes : ∀ worktree' next', next ≤ next' → Scans (before ++ [entry]) worktree' →
        post () (d.building directory (pendingTree repository home git worktree' rest) next')) :
    Wp allowed inv failed post (createManifestEntry directory entry)
      (d.building directory (pendingTree repository home git worktree rest) next) := by
  have safe : ∀ part ∈ partsOf entry,
      part ≠ gitName := fun part hm hs => ho.safe entry (by simp [split]) (hs ▸ hm)
  have parent : ∀ first ∈ (partsOf entry).dropLast.head?, first ≠ gitName := fun first head =>
    safe first (List.mem_of_mem_dropLast (List.mem_of_mem_head? head))
  have last : (partsOf entry).getLastD [] ≠ gitName := by
    have hm : (partsOf entry).getLastD [] ∈ (partsOf entry).dropLast ++ [(partsOf entry).getLastD []] :=
      List.mem_append_right _ (List.mem_singleton_self _)
    rw [partsOf_split] at hm
    exact safe _ hm
  obtain ⟨kids, hf, ha⟩ := scans.place ho split
  have adds : ∀ new, Forest.within Error.notFound (addition ((partsOf entry).getLastD []) new)
          (partsOf entry).dropLast worktree =
      Forest.within Error.notFound (fun kids => .ok (kids.append new)) (partsOf entry).dropLast worktree :=
    fun new => Forest.within_congr hf (if_neg ha)
  have grows : ∀ new, ∃ worktree',
      Forest.within Error.notFound (fun kids => .ok (kids.append new)) (partsOf entry).dropLast
          worktree = .ok worktree' :=
    fun new => Forest.within_of_inside hf rfl
  have lifted : ∀ new, Forest.within Error.notFound (addition ((partsOf entry).getLastD []) new)
          (repoName :: (partsOf entry).dropLast)
      (pendingTree repository home git worktree rest) =
      (Forest.within Error.notFound (fun kids => .ok (kids.append new)) (partsOf entry).dropLast
          worktree).map fun worktree' =>
        pendingTree repository home git worktree' rest := fun new => by
    rw [within_pendingTree (fun _ => addition_lifts last) parent, adds]
  refine .seq (fun _ d' => d' = d.building directory (pendingTree repository home git worktree rest) next)
    (openParents_spec stops fails rfl fun count low high => ?_) fun _ d' hs => ?_
  · have above : (partsOf entry).dropLast.take count ∈ directoriesOf before := by
      rw [List.length_dropLast] at high
      have taken : (partsOf entry).dropLast.take count = (partsOf entry).take count := by
        rw [List.dropLast_eq_take, List.take_take, Nat.min_eq_left (by omega)]
      rw [taken]
      exact ho.parents before entry after split count low (by omega)
    obtain ⟨hb, ht⟩ := Forest.inside_of_mem scans.distinct (scans.nodes.mem_iff.mpr above)
    cases taken : (partsOf entry).dropLast.take count with
    | nil =>
      have length := congrArg List.length taken
      rw [List.length_take, List.length_nil] at length
      omega
    | cons first _ =>
      have hm : first ∈ (partsOf entry).dropLast.take count := taken ▸ List.mem_cons_self ..
      rw [List.singleton_append,
        inside_pendingTree (safe first (List.mem_of_mem_dropLast (List.mem_of_mem_take hm))),
        ← taken, ht]
      rfl
  subst hs
  -- what is left is the entry itself: one addition, and for a file its content
  have refuses : ∀ new error, Forest.within Error.notFound (addition ((partsOf entry).getLastD []) new)
      (repoName :: (partsOf entry).dropLast) (pendingTree repository home git worktree rest) ≠
          .error error := fun new error hr => by
    obtain ⟨worktree', hd⟩ := grows new
    rw [lifted, hd] at hr
    exact nomatch hr
  have adds' : ∀ {new tree'}, Forest.within Error.notFound (addition ((partsOf entry).getLastD []) new)
      (repoName :: (partsOf entry).dropLast) (pendingTree repository home git worktree rest) = .ok tree' →
      ∃ worktree', Forest.within Error.notFound (fun kids => .ok (kids.append new))
            (partsOf entry).dropLast worktree = .ok worktree' ∧
        pendingTree repository home git worktree' rest = tree' :=
          fun hd => map_eq_ok.mp ((lifted _).symm.trans hd)
  cases kind : entry.kind with
  | file =>
    refine .bind (edit_spec (stops _ _ le_rfl) (fun _ => fails _ _ _ le_rfl) (fun tree' hd => ?_)
      fun error hr => absurd hr (refuses _ error))
    obtain ⟨created, made, rfl⟩ := adds' hd
    have written : Forest.within Error.notFound (fun kids => .ok (kids.assign ((partsOf entry).getLastD [])
          (.file entry.executable entry.content))) (repoName :: (partsOf entry).dropLast)
        (pendingTree repository home git created rest) =
        (Forest.within Error.notFound (fun kids => .ok (kids.append (entryTree entry next)))
          (partsOf entry).dropLast worktree).map
          fun worktree' => pendingTree repository home git worktree' rest := by
      rw [within_pendingTree (fun _ => rfl) parent, Forest.within_within made]
      refine congrArg (Except.map _) (Forest.within_congr hf ?_)
      unfold entryTree
      rw [kind]
      exact congrArg Except.ok (Forest.assign_append_of_not_mem ha)
    refine .bind (edit_spec (stops _ _ le_rfl) (fun _ => fails _ _ _ le_rfl) (fun tree' hd => ?_)
        fun error hr => ?_)
    · obtain ⟨worktree', added, rfl⟩ := map_eq_ok.mp (written.symm.trans hd)
      refine .bind (touch_spec (stops _ _ le_rfl) (fun _ => fails _ _ _ le_rfl) ?_)
      refine .bind (touch_spec (stops _ _ le_rfl) (fun _ => fails _ _ _ le_rfl) ?_)
      exact touch_spec (stops _ _ le_rfl) (fun _ => fails _ _ _ le_rfl)
        (goes worktree' next le_rfl (scans.add ho split added))
    · obtain ⟨worktree', added⟩ := grows (entryTree entry next)
      rw [written, added] at hr
      exact nomatch hr
  | symlink =>
    have new : entryTree entry next = .leaf ((partsOf entry).getLastD []) (.symlink entry.content) .nil := by
      unfold entryTree
      rw [kind]
    refine .bind (edit_spec (stops _ _ le_rfl) (fun _ => fails _ _ _ le_rfl) (fun tree' hd => ?_)
      fun error hr => absurd hr (refuses _ error))
    obtain ⟨worktree', added, rfl⟩ := adds' hd
    rw [← new] at added
    exact touch_spec (stops _ _ le_rfl) (fun _ => fails _ _ _ le_rfl)
      (goes worktree' next le_rfl (scans.add ho split added))
  | directory =>
    have new : entryTree entry next = .node ((partsOf entry).getLastD []) next .nil .nil := by
      unfold entryTree
      rw [kind]
    have hw : (repoName :: (partsOf entry).dropLast) ++ [(partsOf entry).getLastD []] =
          repoName :: partsOf entry := by
      rw [List.cons_append, partsOf_split]
    obtain ⟨first, hb, parts⟩ :
      ∃ first hb, partsOf entry = first :: hb := List.exists_cons_of_ne_nil (components_ne_nil _)
    have hi : ∀ worktree', Forest.inside (repoName :: partsOf entry)
            (pendingTree repository home git worktree' rest) =
        Forest.inside (partsOf entry) worktree' := fun worktree' => by
      rw [parts]
      exact inside_pendingTree (safe first (parts ▸ List.mem_cons_self ..))
    have missing : (Forest.inside (partsOf entry) worktree).isSome ≠ true := fun ht => by
      rw [← partsOf_split] at ht
      obtain ⟨_, hf', hm⟩ := Forest.inside_of_append ht
      rw [hf] at hf'
      exact ha (Option.some.inj hf' ▸ hm)
    refine .bind (.seq (fun _ d' => (∃ worktree', Scans (before ++ [entry]) worktree' ∧
          d' = d.building directory (pendingTree repository home git worktree' rest) (next + 1)) ∨
        Disturbed allowed ∧ d' = d.building directory (pendingTree repository home git worktree rest) next)
      (.rescue (fun _ d' => Disturbed allowed ∧
            d' = d.building directory (pendingTree repository home git worktree rest) next)
          (mkdirAt_spec (stops _ _ le_rfl) (fun error met => ⟨met, rfl⟩) (fun tree' hd => ?_)
            fun error hr => absurd hr (refuses _ error)) fun error d' broken => ?_)
        fun _ d' made => ?_)
    · obtain ⟨worktree', added, rfl⟩ := adds' hd
      rw [← new] at added
      exact .inl ⟨worktree', scans.add ho split added, rfl⟩
    · split
      next => exact .pure (.inr broken)
      next =>
        obtain ⟨met, rfl⟩ := broken
        exact .raise (fails _ _ _ le_rfl met)
    rcases made with ⟨worktree', scans', rfl⟩ | ⟨met, rfl⟩
    · have later : ∀ (error : Error), Disturbed allowed →
          failed error (d.building directory (pendingTree repository home git worktree' rest) (next + 1)) :=
        fun error => fails error _ _ (Nat.le_succ _)
      refine .bind (fetch_spec (stops _ _ (Nat.le_succ _)) later (fun _ _ => ?_) fun error hr => ?_)
      · refine touch_spec (stops _ _ (Nat.le_succ _)) later ?_
        refine .bind (touch_spec (stops _ _ (Nat.le_succ _)) later ?_)
        exact touch_spec (stops _ _ (Nat.le_succ _)) later (goes worktree' _ (Nat.le_succ _) scans')
      · have hl : partsOf entry ∈ directoriesOf (before ++ [entry]) :=
          mem_directoriesOf.2 ⟨entry, List.mem_append_right _ (List.mem_singleton_self _), kind, rfl⟩
        obtain ⟨_, ht⟩ := Forest.inside_of_mem scans'.distinct (scans'.nodes.mem_iff.mpr hl)
        rw [tree_building, hw, hi, ht] at hr
        exact nomatch hr
    · refine .bind (fetch_spec (stops _ _ le_rfl) (fun error => fails error _ _ le_rfl) (fun _ seen => ?_)
        fun error _ => fails error _ _ le_rfl met)
      rw [tree_building, hw, hi, if_neg missing] at seen
      exact nomatch seen

include stops fails in
theorem createEntries_spec (ho : Orderly entries) (split : entries = before ++ after)
    (scans : Scans before worktree)
    (goes : ∀ worktree' next', next ≤ next' → Scans entries worktree' →
        post () (d.building directory (pendingTree repository home git worktree' rest) next')) :
    Wp allowed inv failed post (.each (createManifestEntry directory) after)
      (d.building directory (pendingTree repository home git worktree rest) next) := by
  induction after generalizing before worktree next with
  | nil =>
    rw [List.append_nil] at split
    exact .pure (goes worktree next le_rfl (split ▸ scans))
  | cons _ _ ih =>
    refine .bind (createManifestEntry_spec stops fails ho split scans fun worktree' next' grown scans' => ?_)
    refine ih (fun tree later low => stops tree later (grown.trans low))
      (fun error tree later low => fails error tree later (grown.trans low))
      (by simpa using split) scans' fun worktree'' later low => goes worktree'' later (grown.trans low)

end Within

end Build

/-! ### What the scanner finds -/

section Scanner
variable {entries : List ManifestEntry} {repository home : Nat} {git worktree : Tree}
variable {artifact : VerifiedWorktreeArtifact}

theorem mem_expectedDirectories (ho : Orderly entries) {path : List Bytes} :
    path ∈ expectedDirectories entries ↔ path ∈ directoriesOf entries := by
  simp only [expectedDirectories, mem_flatMap, mem_append, mem_map, mem_range'_1]
  constructor
  · intro hl
    obtain ⟨entry, hm, own | ⟨count, ⟨low, _⟩, rfl⟩⟩ := hl
    · split at own
      next kind => exact mem_directoriesOf.2 ⟨entry, hm, kind, (mem_singleton.mp own).symm⟩
      next => exact nomatch own
    · obtain ⟨before, after, split⟩ := append_of_mem hm
      obtain ⟨parent, ht, kind, hs⟩ :=
        mem_directoriesOf.1 (ho.parents before entry after split count low (by omega))
      exact mem_directoriesOf.2 ⟨parent, by rw [split]; exact mem_append_left _ ht, kind, hs⟩
  · intro hl
    obtain ⟨entry, hm, kind, rfl⟩ := mem_directoriesOf.1 hl
    exact ⟨entry, hm, .inl (by rw [if_pos kind]; exact mem_singleton_self _)⟩

theorem verifyWorktree_of_scans (ho : Orderly artifact.entries)
    (scans : Scans artifact.entries worktree) (index : readIndex git = artifact.indexBytes) :
    verifyWorktree artifact (.node gitName 0 git worktree) = .ok () := by
  have scanned : (Forest.node gitName 0 git worktree : Tree).without gitName = worktree := by
    exact Forest.without_of_not_mem scans.apart
  have ha : worktree.leaves.isPerm (expectedLeaves artifact.entries) ∧
      (∀ path ∈ worktree.nodes, path ∈ expectedDirectories artifact.entries) ∧
      ∀ path ∈ expectedDirectories artifact.entries, path ∈ worktree.nodes :=
    ⟨isPerm_iff.mpr scans.leaves, fun path ht => (mem_expectedDirectories ho).mpr (scans.nodes.mem_iff.mp ht),
      fun path hl => scans.nodes.mem_iff.mpr ((mem_expectedDirectories ho).mp hl)⟩
  unfold verifyWorktree
  simp only [scanned]
  rw [if_neg (not_not.mpr ha)]
  simp only [Forest.child, if_true, if_pos index]

theorem declared_distinct (ho : Orderly artifact.entries) :
    ((declaredDestinationSymlinks artifact).map Prod.fst).Nodup := by
  have keys : (declaredDestinationSymlinks artifact).map Prod.fst =
      (artifact.entries.filter fun entry => entry.kind = .symlink).map
        fun entry => repoName :: partsOf entry := by
    unfold declaredDestinationSymlinks
    rw [map_filterMap]
    induction artifact.entries with
    | nil => rfl
    | cons entry _ ih =>
      rw [filterMap_cons, filter_cons, ih]
      by_cases kind : entry.kind = .symlink <;> simp [kind]
  rw [keys]
  have hd := pairwise_map.mp ho.distinct
  exact pairwise_map.mpr ((hd.filter _).imp fun ha hs => ha (cons.inj hs).2)

theorem syncTreeDigest_of_scans {ω : Type} {store : Store ω} (ho : Orderly artifact.entries)
    (scans : Scans artifact.entries worktree) (hp : ∀ leaf ∈ git.leaves, leaf.2.isSymlink = false) :
    syncTreeDigest store (declaredDestinationSymlinks artifact)
        (pendingTree repository home git worktree .nil) =
      .ok (digestOf store (pendingTree repository home git worktree .nil)) := by
  refine if_neg fun some => ?_
  obtain ⟨⟨path, leaf⟩, hm, bad⟩ := any_eq_true.mp some
  cases leaf with
  | file _ _ => exact nomatch bad
  | symlink target =>
    simp only [pendingTree, Forest.leaves, map_append, map_map, map_nil, append_nil, mem_append,
      mem_map] at hm
    rcases hm with ⟨leaf, ht, hs⟩ | ⟨leaf, ht, hs⟩
    · have link : leaf.2 = .symlink target := (Prod.mk.inj hs).2
      have straight := hp leaf ht
      rw [link] at straight
      exact nomatch straight
    · have link : leaf.2 = .symlink target := (Prod.mk.inj hs).2
      have place : repoName :: leaf.1 = path := (Prod.mk.inj hs).1
      refine of_decide_eq_true bad ((lookup_eq_some_iff_mem ?_).mpr ?_)
      · exact declared_distinct ho
      · obtain ⟨entry, hl, given⟩ := mem_filterMap.mp (scans.leaves.mem_iff.mp ht)
        have kind : entry.kind = .symlink ∧ leaf.1 = partsOf entry ∧ entry.content = target := by
          obtain ⟨_, _⟩ := leaf
          subst link
          split at given
          · cases given
          next kind =>
            cases given
            exact ⟨kind, rfl, rfl⟩
          · cases given
        refine mem_filterMap.mpr ⟨entry, hl, ?_⟩
        rw [if_pos kind.1, kind.2.2, ← kind.2.1, place]

end Scanner

/-! ### Whole builds -/

section Pending
variable {ω : Type} {store : Store ω} {opened : Opened ω}
variable {git : Tree}

structure Built (store : Store ω) (opened : Opened ω) (tree : Tree) : Prop where
  entries : hasEntries tree = true
  repository : (tree.child repoName).isSome = true
  home : (tree.child homeName).isSome = true
  empty : below [homeName] emptyHome tree = .ok ()
  worktree : below [repoName] (verifyWorktree opened.worktree) tree = .ok ()
  topology : below [repoName, gitName] (validateGitTopology store opened) tree = .ok ()
  refs : below [repoName, gitName] (store.git.verifyRefsAndHead opened) tree = .ok ()
  objects : below [repoName, gitName] (store.git.verifyObjects opened) tree = .ok ()
  index : below [repoName, gitName] (store.git.verifyIndexSemantics opened) tree = .ok ()
  links : syncTreeDigest store (declaredDestinationSymlinks opened.worktree) tree = .ok (digestOf store tree)

def withIndex (content : Option Bytes) (git : Tree) : Tree := match content with
  | none => git
  | some content => git.append (.leaf indexName (.file false content) .nil)

structure Imports (store : Store ω) (opened : Opened ω) (fresh imported restored : Tree) : Prop where
  init : store.git.init opened = .ok fresh
  imports : store.git.importObjects opened fresh = .ok imported
  inventory : store.git.verifyObjects opened imported = .ok ()
  restores : store.git.restoreRefsAndHead opened imported = .ok restored
  noIndex : indexName ∉ restored.names
  refs : store.git.verifyRefsAndHead opened (withIndex opened.worktree.indexBytes restored) = .ok ()
  objects : store.git.verifyObjects opened (withIndex opened.worktree.indexBytes restored) = .ok ()
  index : store.git.verifyIndexSemantics opened (withIndex opened.worktree.indexBytes restored) = .ok ()
  topology : validateGitTopology store opened (withIndex opened.worktree.indexBytes restored) = .ok ()

def Buildable (store : Store ω) (opened : Opened ω) : Prop :=
  ∃ fresh imported restored, Imports store opened fresh imported restored

theorem readIndex_withIndex {content : Option Bytes} (ha : indexName ∉ git.names) :
    readIndex (withIndex content git) = content := by
  unfold readIndex withIndex
  cases content with
  | none => rw [Forest.value_of_not_mem ha]
  | some _ => rw [Forest.value_append_of_not_mem ha]

theorem plain_of_topology (topology : validateGitTopology store opened git = .ok ()) :
    ∀ leaf ∈ git.leaves, leaf.2.isSymlink = false := by
  intro leaf hm
  obtain ⟨_, inventory, -⟩ := bind_eq_ok.mp topology
  unfold gitTreeInventory at inventory
  split at inventory
  next => exact nomatch inventory
  next clean =>
    simp only [not_or, any_eq_true, not_exists, not_and, Bool.not_eq_true] at clean
    exact clean.1 leaf hm

theorem below_git {check : Tree → Except Error Unit} {repository home : Nat}
    {worktree rest : Tree} :
    below [repoName, gitName] check (pendingTree repository home git worktree rest) =
      check git := by
  simp only [below, pendingTree, Forest.inside, if_true]

theorem within_git {change : Tree → Except Error Tree} {repository home : Nat}
    {worktree rest : Tree} :
    Forest.within .notFound change [repoName, gitName]
        (pendingTree repository home git worktree rest) =
      (change git).map fun git' => pendingTree repository home git' worktree rest := by
  simp only [pendingTree, Forest.within, if_true]
  cases change git <;> rfl

variable {allowed : Label → Disk → Fault Error → Prop} {inv : Disk → Prop}
  {failed : Error → Disk → Prop} {d : Disk} {directory : Nat} {post : Unit → Disk → Prop}

theorem building_self : d.building directory (d.tree directory) d.next = d := by
  unfold Disk.building
  rw [update_eq_self]

theorem removeContents_spec (stops : ∀ tree, inv (d.building directory tree d.next))
    (hf : ∀ error tree, Disturbed allowed → failed error (d.building directory tree d.next))
    (goes : post () (d.building directory .nil d.next)) :
    Wp allowed inv failed post (removeContents directory) d := by
  have start : ∃ tree, d = d.building directory tree d.next := ⟨_, building_self.symm⟩
  have here : inv d := by
    have hh := stops (d.tree directory)
    rwa [building_self] at hh
  have hb : ∀ error, Disturbed allowed → failed error d := fun error met => by
    have hh := hf error (d.tree directory) met
    rwa [building_self] at hh
  refine .bind (fetch_spec here hb (fun entries hs => ?_) fun _ hr => nomatch hr)
  refine .seq _ (.drain (fun d' => ∃ tree, d' = d.building directory tree d.next)
    (fun d' => (d'.tree directory).size) entries ?_ ?_ ?_ ?_
    start (by cases hs; exact le_rfl)) ?_
  · rintro _ ⟨tree, rfl⟩ -
    exact stops tree
  · rintro _ error ⟨tree, rfl⟩ met
    exact hf error tree ⟨_, _, _, met⟩
  · rintro _ d' ⟨tree, rfl⟩ hm
    obtain ⟨tree', -, rfl⟩ := Option.mem_map.mp (Option.mem_toList.mp hm)
    exact ⟨tree', building_building⟩
  · intro d' _ hm
    obtain ⟨tree', less, rfl⟩ := Option.mem_map.mp (Option.mem_toList.mp hm)
    change (update d'.tree directory tree' directory).size < _
    rw [update_self]
    exact Forest.size_removal less
  · rintro - _ ⟨⟨tree, rfl⟩, hd⟩
    rw [tree_building] at hd
    obtain rfl : tree = .nil := Forest.eq_nil_of_removal (by simpa using hd)
    exact touch_spec (stops _) (fun error => hf error _) goes

theorem checkAt_spec {path : List Bytes} {check : Tree → Except Error Unit} (hs : inv d)
    (hf : ∀ error, Disturbed allowed → failed error d)
    (goes : below path check (d.tree directory) = .ok () → post () d)
    (refuses : ∀ error, below path check (d.tree directory) = .error error → failed error d) :
    Wp allowed inv failed post (checkAt directory path check) d :=
  fetch_spec hs hf (fun _ => goes) refuses

theorem template_fresh (rest : Bytes) :
    bytes ".template." ++ rest ≠ repoName ∧ bytes ".template." ++ rest ≠ homeName := by
  have first : (bytes ".template." ++ rest).head? = some 46 := rfl
  constructor <;> intro hs <;> rw [hs] at first <;> exact absurd first (by decide)

theorem initRepository_spec (hs : ∀ tree next, d.next ≤ next → inv (d.building directory tree next))
    (fails : ∀ error tree next, d.next ≤ next → (Buildable store opened → Disturbed allowed) →
        failed error (d.building directory tree next))
    (goes : ∀ fresh rest, store.git.init opened = .ok fresh → rest = .nil ∨ Disturbed allowed →
        post ()
          (d.building directory (pendingTree d.next (d.next + 1) fresh .nil rest) (d.next + 3))) :
    Wp allowed inv failed post (initRepository store directory opened) d := by
  have disturbed : ∀ error tree next,
        d.next ≤ next → Disturbed allowed → failed error (d.building directory tree next) :=
    fun error tree next low met => fails error tree next low fun _ => met
  refine .bind (removeContents_spec (fun tree => hs tree _ le_rfl)
      (fun error tree => disturbed error tree _ le_rfl) ?_)
  have later := Nat.le_succ d.next
  refine .bind (mkdirAt_spec (hs _ _ le_rfl) (fun error => disturbed error _ _ le_rfl)
      (fun tree hd => ?_) fun _ hr => nomatch hr)
  cases hd
  refine .bind (mkdirAt_spec (hs _ _ later) (fun error => disturbed error _ _ later)
      (fun tree hd => ?_) fun _ hr => nomatch hr)
  cases hd
  have later := Nat.le_add_right d.next 2
  refine .bind (choose_spec (hs _ _ later) (fun error => disturbed error _ _ later) fun choice => ?_)
  obtain ⟨notRepo, notHome⟩ := template_fresh (replicate choice 0)
  generalize bytes ".template." ++ replicate choice 0 = template at notRepo notHome
  have fresh : ¬ template ∈
        (Forest.node repoName d.next .nil (.node homeName (d.next + 1) .nil .nil) :
          Tree).names := by
    simp [Forest.names, notRepo, notHome]
  have added : Forest.within Error.notFound (addition template (.node template (d.next + 1 + 1) .nil .nil)) []
      (Forest.node repoName d.next .nil (.node homeName (d.next + 1) .nil .nil) : Tree) =
      .ok (.node repoName d.next .nil
            (.node homeName (d.next + 1) .nil (.node template (d.next + 1 + 1) .nil .nil))) :=
        if_neg fresh
  refine .bind (mkdirAt_spec (hs _ _ later) (fun error => disturbed error _ _ later)
      (fun tree hd => ?_) fun _ hr => ?_)
  swap
  · exact nomatch added.symm.trans hr
  cases added.symm.trans hd
  have later := Nat.le_add_right d.next 3
  have hh := fun tree => hs tree (d.next + 3) later
  have hb := fun error tree => disturbed error tree (d.next + 3) later
  refine .bind (touch_spec (hh _) (fun error => hb error _) ?_)
  -- from here on the repository has its identity, and what is beside the two directories goes
  have cleans : ∀ (tree : Tree) (post' : Unit → Disk → Prop),
        post' () (d.building directory (tree.without template) (d.next + 3)) →
      (Disturbed allowed → post' () (d.building directory tree (d.next + 3))) →
        Wp allowed inv failed post' (Prog.attempt (do
            edit directory fun tree => .ok (tree.without template)
            .touch .call)
          fun error => if error = .notFound then pure () else
            .raise error) (d.building directory tree (d.next + 3)) := by
    intro tree post' gone hk
    refine .rescue (fun _ d' =>
        Disturbed allowed ∧ post' () d' ∧ ∃ tree', d' = d.building directory tree' (d.next + 3))
      (.bind (edit_spec (hh _) (fun _ met => ⟨met, hk met, _, rfl⟩) (fun tree' hd => ?_)
          fun _ hr => nomatch hr))
      fun error d' hb' => ?_
    · cases hd
      exact touch_spec (hh _) (fun _ met => ⟨met, gone, _, rfl⟩) gone
    · obtain ⟨met, after, _, rfl⟩ := hb'
      split
      next => exact .pure after
      next => exact .raise (hb _ _ met)
  refine .cleaned
    (fun _ d' =>
      (Buildable store opened → Disturbed allowed) ∧
      ∃ tree, d' = d.building directory tree (d.next + 3))
    (fun _ d' => ∃ fresh, store.git.init opened = .ok fresh ∧
        d' =
          d.building directory
            (pendingTree d.next (d.next + 1) fresh .nil (.node template (d.next + 1 + 1) .nil .nil))
            (d.next + 3)) ?_ ?_ ?_
  · refine edit_spec (hh _) (fun error met => ⟨fun _ => met, _, rfl⟩) (fun tree hd => ?_)
      fun error hr => ⟨fun buildable => ?_, _, rfl⟩
    · cases init : store.git.init opened with
      | error error =>
        rw [init] at hd
        exact nomatch hd
      | ok fresh =>
        rw [init] at hd
        cases hd
        exact ⟨fresh, rfl, rfl⟩
    · obtain ⟨fresh, _, _, imports⟩ := buildable
      simp only [Forest.within, if_true, imports.init] at hr
      exact nomatch hr
  · intro _ _ he
    obtain ⟨why, tree, rfl⟩ := he
    exact cleans tree _ (fails _ _ _ later why) fun met => fails _ _ _ later fun _ => met
  · intro _ _ hm
    obtain ⟨fresh, init, rfl⟩ := hm
    refine cleans _ _ ?_ fun met => goes fresh _ init (.inr met)
    have ha : ¬ repoName = template ∧ ¬ homeName = template := ⟨Ne.symm notRepo, Ne.symm notHome⟩
    simp only [pendingTree, Forest.without, if_neg ha.1, if_neg ha.2, if_true]
    exact goes fresh .nil init (.inl rfl)

theorem buildPending_spec
    (stops : ∀ tree next, d.next ≤ next → inv (d.building directory tree next))
    (fails : ∀ error tree next, d.next ≤ next → (Buildable store opened → Disturbed allowed) →
        failed error (d.building directory tree next))
    (goes : ∀ tree next,
        d.next ≤ next → Built store opened tree → post () (d.building directory tree next)) :
    Wp allowed inv failed post (buildPending store directory opened) d := by
  refine .bind (initRepository_spec stops fails fun hf rest init clean => ?_)
  have later := Nat.le_add_right d.next 3
  have hh := fun tree => stops tree (d.next + 3) later
  have hb := fun error tree met => fails error tree (d.next + 3) later fun _ => met
  refine .bind (touch_spec (hh _) (fun error => hb error _) ?_)
  refine .bind (edit_spec (hh _) (fun error => hb error _) (fun tree hd => ?_) fun error hr => ?_)
  swap
  · refine fails _ _ _ later fun ⟨hf', imported, restored, git⟩ => ?_
    cases init.symm.trans git.init
    rw [within_git, git.imports] at hr
    exact nomatch hr
  obtain ⟨_, imports, rfl⟩ := map_eq_ok.mp (within_git.symm.trans hd)
  refine .bind (checkAt_spec (hh _) (fun error => hb error _) (fun _ => ?_) fun error hr => ?_)
  swap
  · refine fails _ _ _ later fun ⟨hf', imported', restored, git⟩ => ?_
    cases init.symm.trans git.init
    cases imports.symm.trans git.imports
    rw [tree_building, below_git, git.inventory] at hr
    exact nomatch hr
  refine .bind (edit_spec (hh _) (fun error => hb error _) (fun tree hd => ?_) fun error hr => ?_)
  swap
  · refine fails _ _ _ later fun ⟨hf', imported', restored, git⟩ => ?_
    cases init.symm.trans git.init
    cases imports.symm.trans git.imports
    rw [within_git, git.restores] at hr
    exact nomatch hr
  obtain ⟨restored, restores, rfl⟩ := map_eq_ok.mp (within_git.symm.trans hd)
  have hk : ∀ {hf' imported' restored'},
        Imports store opened hf' imported' restored' → restored' = restored := by
    intro hf' imported' restored' git
    cases init.symm.trans git.init
    cases imports.symm.trans git.imports
    exact Except.ok.inj (git.restores.symm.trans restores)
  refine .seq (fun _ d' => d' =
        d.building directory (pendingTree d.next (d.next + 1)
            (withIndex opened.worktree.indexBytes restored) .nil rest) (d.next + 3)) ?_
    fun _ d' hs => ?_
  · cases content : opened.worktree.indexBytes with
    | none => exact .pure rfl
    | some _ =>
      refine .bind (edit_spec (hh _) (fun error => hb error _) (fun tree hd => ?_) fun error hr => ?_)
      · obtain ⟨_, hm, rfl⟩ := map_eq_ok.mp (within_git.symm.trans hd)
        split at hm
        next => exact nomatch hm
        next ha =>
          cases hm
          refine .bind (edit_spec (hh _) (fun error => hb error _) (fun tree hd => ?_) fun error hr => ?_)
          · obtain ⟨_, hm, rfl⟩ := map_eq_ok.mp (within_git.symm.trans hd)
            cases hm
            refine touch_spec (hh _) (fun error => hb error _) ?_
            rw [Forest.assign_append_of_not_mem ha]
            rfl
          · rw [within_git] at hr
            exact nomatch hr
      · refine fails _ _ _ later fun ⟨hf', imported', restored', git⟩ => ?_
        obtain rfl := hk git
        rw [within_git] at hr
        simp only [if_neg git.noIndex] at hr
        exact nomatch hr
  subst hs
  obtain ⟨_, _, _, decoded⟩ := opened.decoded
  have ho := orderly_of_decoded decoded
  have scanned : Scans [] .nil := ⟨trivial, .refl _, .refl _, not_mem_nil⟩
  refine .bind (createEntries_spec (fun tree next low => stops tree next (later.trans low))
    (fun error tree next low met => fails error tree next (later.trans low) fun _ => met) ho rfl
      scanned fun worktree next low scans => ?_)
  have high := later.trans low
  have hh := stops (pendingTree d.next (d.next + 1) (withIndex opened.worktree.indexBytes restored)
        worktree rest) next high
  have hb := fun error met =>
    fails error (pendingTree d.next (d.next + 1) (withIndex opened.worktree.indexBytes restored)
        worktree rest) next high fun _ => met
  have gits : ∀ {check : Tree → Except Error Unit} {error : Error},
        below [repoName, gitName] check ((d.building directory (pendingTree d.next (d.next + 1)
                  (withIndex opened.worktree.indexBytes restored) worktree rest) next).tree
              directory) = .error error →
      (∀ {hf' imported'}, Imports store opened hf' imported' restored →
        check (withIndex opened.worktree.indexBytes restored) = .ok ()) →
      failed error (d.building directory (pendingTree d.next (d.next + 1)
            (withIndex opened.worktree.indexBytes restored) worktree rest) next) := by
    intro _ error hr hp
    refine fails _ _ _ high fun ⟨hf', imported', restored', git⟩ => ?_
    obtain rfl := hk git
    rw [tree_building, below_git, hp git] at hr
    exact nomatch hr
  refine .bind (checkAt_spec hh hb (fun refs => ?_) fun error hr => gits hr fun git => git.refs)
  refine .bind (checkAt_spec hh hb (fun objects => ?_) fun error hr => gits hr fun git => git.objects)
  refine .bind (checkAt_spec hh hb (fun index => ?_) fun error hr => gits hr fun git => git.index)
  refine .bind (checkAt_spec hh hb (fun found => ?_) fun error hr => ?_)
  swap
  · refine fails _ _ _ high fun ⟨hf', imported', restored', git⟩ => ?_
    obtain rfl := hk git
    have agrees := verifyWorktree_of_scans ho scans (readIndex_withIndex git.noIndex)
    rw [tree_building] at hr
    exact nomatch agrees.symm.trans hr
  refine .bind (touch_spec hh hb ?_)
  refine .bind (checkAt_spec hh hb (fun topology => ?_) fun error hr => gits hr fun git => git.topology)
  refine .bind (touch_spec hh hb ?_)
  refine .bind (checkAt_spec hh hb (fun empty => ?_) fun error hr => ?_)
  swap
  · rw [tree_building] at hr
    exact nomatch hr
  refine .bind (touch_spec hh hb ?_)
  refine .bind (fetch_spec hh hb (fun _ entries => ?_) fun error hr => ?_)
  swap
  · refine fails _ _ _ high fun _ => clean.resolve_left fun none => ?_
    subst none
    rw [tree_building] at hr
    exact nomatch hr
  refine touch_spec hh hb (goes _ _ high ?_)
  rw [tree_building] at refs objects index found topology entries
  have entries : hasEntries (pendingTree d.next (d.next + 1)
            (withIndex opened.worktree.indexBytes restored) worktree rest) = true := by
    by_contra other
    rw [if_neg other] at entries
    exact nomatch entries
  obtain rfl : rest = .nil := by
    have length := (isPerm_iff.mp entries).length_eq
    cases rest with
    | nil => rfl
    | leaf name value rest | node name value hi rest => simp [pendingTree, Forest.names] at length
  exact {
    entries := entries
    repository := rfl
    home := rfl
    empty := rfl
    worktree := found
    topology := topology
    refs := refs
    objects := objects
    index := index
    links := syncTreeDigest_of_scans ho scans (plain_of_topology (below_git.symm.trans topology)) }

end Pending

end Yinshi.Materialization
