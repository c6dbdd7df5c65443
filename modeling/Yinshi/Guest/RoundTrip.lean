import Yinshi.Guest.Atomicity
import Yinshi.Guest.Extraction

/-! An archive within the limits of its reader restores the files it was made from. -/

namespace Yinshi.Guest
open ByteText Checked Faulty Prog Reconcile Restoring List

theorem root_name (root : Root) : validName root.name ∧ 92 ∉ root.name ∧ root.name.head? ≠ some 47 := by
  cases root <;> refine ⟨⟨by decide, by decide, by decide, by decide⟩, by decide, by decide⟩

theorem root_name_inj {root other : Root} (hs : root.name = other.name) : root = other := by
  revert hs
  cases root <;> cases other <;> decide

section MemberName
variable {root : Root} {path : Path}

theorem nameParts_memberName (hn : ∀ name ∈ path, validName name) :
    nameParts (memberName root path) = root.name :: path := by
  have hv : ∀ name ∈ root.name :: path, validName name := by
    intro name hl
    rcases mem_cons.mp hl with rfl | hb
    · exact (root_name root).1
    · exact hn name hb
  have split : (memberName root path).splitOn 47 = root.name :: path :=
    splitOn_intercalate 47 (fun name hl slash => ((hv name hl).2.2.2 47 slash).1 rfl) (by simp)
  rw [nameParts, split, filter_eq_self]
  intro name hl
  simpa using ⟨(hv name hl).1, (hv name hl).2.1⟩

theorem mem_intercalate {c : Nat} (hm : c ∈ [47].intercalate path) : c = 47 ∨ ∃ name ∈ path, c ∈ name := by
  simp only [intercalate, mem_flatten] at hm
  obtain ⟨part, hl, hi⟩ := hm
  induction path with
  | nil => simp at hl
  | cons name rest ih =>
    cases rest with
    | nil =>
      simp only [intersperse_singleton, mem_singleton] at hl
      exact .inr ⟨name, by simp, hl ▸ hi⟩
    | cons _ _ =>
      simp only [intersperse_cons_cons, mem_cons] at hl
      rcases hl with rfl | rfl | later
      · exact .inr ⟨part, by simp, hi⟩
      · exact .inl (by simpa using hi)
      · rcases ih (by simpa using later) with slash | ⟨other, hb, hw⟩
        · exact .inl slash
        · exact .inr ⟨other, mem_cons_of_mem _ hb, hw⟩

theorem loadsText_eq_self {value : Text} (low : ∀ c ∈ value, ¬ (55296 ≤ c ∧ c < 56320)) :
    loadsText value = value := by
  fun_induction loadsText value with
  | case1 first second rest pair ih => exact absurd ⟨pair.1, pair.2.1⟩ (low first (by simp))
  | case2 _ _ _ _ ih => rw [ih fun c hm => low c (mem_cons_of_mem _ hm)]
  | case3 => rfl

theorem loadsText_memberName (hn : ∀ name ∈ path, validName name) :
    loadsText (memberName root path) = memberName root path := by
  refine loadsText_eq_self fun c hm => ?_
  rcases mem_intercalate hm with rfl | ⟨name, hl, hi⟩
  · decide
  · rcases mem_cons.mp hl with rfl | hb
    · exact ((root_name root).1.2.2.2 c hi).2
    · exact ((hn name hb).2.2.2 c hi).2

theorem safe_memberName (hn : ∀ name ∈ path, validName name) (hp : 92 ∉ memberName root path) :
    unsafeName (memberName root path) = false := by
  have hv : ∀ name ∈ root.name :: path, validName name := by
    intro name hl
    rcases mem_cons.mp hl with rfl | hb
    · exact (root_name root).1
    · exact hn name hb
  have head : (memberName root path).head? ≠ some 47 := by
    cases root <;> cases path <;> simp [memberName, intercalate, Root.name, text]
  rw [unsafeName, nameParts_memberName hn]
  simp only [decide_eq_false_iff_not]
  rintro (slash | back | empty | dot | dots)
  · exact head slash
  · exact hp back
  · exact (hv _ empty).1 rfl
  · exact (hv _ dot).2.1 rfl
  · exact (hv _ dots).2.2.1 rfl

end MemberName

def sources (trees : Root → SourceTree) : List SourceFile :=
  roots.flatMap fun root => (trees root).nodes.filterMap (sourceFile root)

section Written
variable {trees : Root → SourceTree} {key : Bytes} {context : ManagedArchiveContext} {archive : Archive}
variable {file : SourceFile} {root : Root} {staged : List Entry}

theorem mem_sources :
    file ∈ sources trees ↔
    ∃ root, ∃ node ∈ (trees root).nodes, sourceFile root node = some file := by
  simp only [sources, mem_flatMap, mem_filterMap]
  refine ⟨fun ⟨root, _, hf⟩ => ⟨root, hf⟩, fun ⟨root, hf⟩ => ⟨root, ?_, hf⟩⟩
  cases root <;> simp [roots]

theorem memberName_sourceFile {node : Node} (regular : sourceFile root node = some file) :
    file.memberName = memberName root node.path := by
  unfold sourceFile at regular
  split at regular
  · cases regular
    rfl
  · exact nomatch regular

theorem parts_source {node : Node} (hl : node ∈ (trees root).nodes)
    (regular : sourceFile root node = some file) :
    nameParts file.memberName = root.name :: node.path := by
  rw [memberName_sourceFile regular, nameParts_memberName ((trees root).named node hl).2]

theorem nodup_parts : ((sources trees).map fun file => nameParts file.memberName).Nodup := by
  have parts : ∀ root,
        ((trees root).nodes.filterMap (sourceFile root)).map
          (fun file => nameParts file.memberName) =
      ((trees root).nodes.filter fun node => (sourceFile root node).isSome).map
        fun node => root.name :: node.path := by
    intro root
    generalize hs : (trees root).nodes = nodes
    have hn : ∀ node ∈ nodes, node ∈ (trees root).nodes := fun node hl => hs ▸ hl
    clear hs
    induction nodes with
    | nil => rfl
    | cons node _ ih =>
      have later := ih fun node hl => hn node (mem_cons_of_mem _ hl)
      cases regular : sourceFile root node with
      | none => simpa [filterMap_cons, filter_cons, regular] using later
      | some _ =>
        simpa [filterMap_cons, filter_cons, regular,
          parts_source (hn node (by simp)) regular] using later
  rw [sources, map_flatMap, nodup_flatMap]
  simp only [parts]
  refine ⟨fun root _ => ?_, ?_⟩
  · have ha := (trees root).distinct.sublist
          ((filter_sublist (p := fun node => (sourceFile root node).isSome)).map _)
    have cons := ha.map (f := fun path => root.name :: path) (by intro _ _; simp)
    simpa [map_map, Function.comp_def] using cons
  · refine List.Pairwise.imp (R := fun root other => root ≠ other)
      (fun {root other} ha path hh ht => ?_) (by decide)
    obtain ⟨_, -, rfl⟩ := mem_map.mp hh
    obtain ⟨_, -, hs⟩ := mem_map.mp ht
    exact ha (root_name_inj (cons.inj hs).1).symm

theorem nodup_names (trees : Root → SourceTree) : ((sources trees).map (·.memberName)).Nodup := by
  refine Nodup.of_map nameParts ?_
  simpa [map_map, Function.comp_def] using nodup_parts

def members (trees : Root → SourceTree) : List SourceFile := Keyed.sortBy (·.memberName) (sources trees)

variable (created : createManagedBackupArchive (trees .sqlite) (trees .files) key context = .ok archive)

include created in
theorem create_spec :
    requireContext context = .ok () ∧ requireKey key = .ok () ∧
    (manifestText context ((members trees).map (·.memberName))).length ≤ manifestBytesMax ∧
    (∃ file ∈ sources trees,
      file.memberName = memberName .sqlite [portableDataKeyName] ∧ file.content.length = 32) ∧
    archive =
      ⟨key, ⟨context, text "yinshi-managed-backup-v2", (members trees).map (·.memberName)⟩,
        (manifestText context ((members trees).map (·.memberName))).length,
        (members trees).map fun file => (file.memberName, file.content)⟩ := by
  have perm : ∀ root, (Keyed.sortBy (·.memberName) ((trees root).nodes.filterMap (sourceFile root))).Perm
      ((trees root).nodes.filterMap (sourceFile root)) := fun root => Keyed.sortBy_perm
  have all : Keyed.sortBy (·.memberName) (Keyed.sortBy (·.memberName)
        ((trees .sqlite).nodes.filterMap (sourceFile .sqlite)) ++
      Keyed.sortBy (·.memberName) ((trees .files).nodes.filterMap (sourceFile .files))) = members trees := by
    have both := (perm .sqlite).append (perm .files)
    refine Keyed.sortBy_eq_of_perm ?_ (((both.map _).nodup_iff).mpr ?_)
    · simpa [sources, roots] using both
    · simpa [sources, roots] using nodup_names trees
  simp only [createManagedBackupArchive, regularFiles, steps_ok] at created
  obtain ⟨contextOk, keyOk, _, ⟨-, rfl⟩, counted, _, ⟨-, rfl⟩, hb, hv, rfl⟩ := created
  rw [all] at hb hv ⊢
  refine ⟨contextOk, keyOk, by omega, ?_, rfl⟩
  obtain ⟨file, hl, portable⟩ := countP_pos_iff.mp (not_not.mp counted ▸ Nat.one_pos)
  have sqlite : file ∈ sources trees := by
    have hf : file ∈ (trees .sqlite).nodes.filterMap (sourceFile .sqlite) := by simpa using hl
    simpa [sources, roots] using .inl (by simpa using hf)
  have hc : validPortableDataKey file = true := by
    by_contra wrong
    exact hv ⟨file, by simpa [members] using sqlite, portable, wrong⟩
  refine ⟨file, sqlite, by simpa [isPortableDataKey] using portable, ?_⟩
  simp only [validPortableDataKey, decide_eq_true_eq] at hc
  exact hc.2.2.2

/-- What the reader asks of a backup and the writer does not check. -/
structure Readable (trees : Root → SourceTree) (context : ManagedArchiveContext) : Prop where
  count : (sources trees).length + 1 ≤ memberCountMax
  plain : ∀ file ∈ sources trees, 92 ∉ file.memberName
  each : ∀ file ∈ sources trees, file.content.length ≤ memberBytesMax
  expanded : (manifestText context ((members trees).map (·.memberName))).length +
    ((members trees).map (·.content.length)).sum ≤ expandedBytesMax
  context : loadsContext context = context

theorem inspectMembers_ok {index : Nat} {seen : List Text} {expandedBytes : Nat}
    {rest : List (Text × Nat)} (count : index + rest.length ≤ memberCountMax + 1)
    (hf : (rest.map (·.1)).Nodup) (hu : ∀ member ∈ rest, member.1 ∉ seen)
    (safe : ∀ member ∈ rest, unsafeName member.1 = false)
    (each : ∀ member ∈ rest, member.2 ≤ memberBytesMax)
    (total : expandedBytes + (rest.map (·.2)).sum ≤ expandedBytesMax) :
    inspectMembers index seen expandedBytes rest = .ok () := by
  induction rest generalizing index seen expandedBytes with
  | nil => rfl
  | cons _ _ ih =>
    simp only [length_cons, map_cons, sum_cons, nodup_cons, mem_cons, forall_eq_or_imp] at *
    simp only [inspectMembers, steps_ok]
    refine ⟨by omega, by simp [hu.1, safe.1], by omega, by omega, ?_⟩
    refine ih (by omega) hf.2 (fun other hl => ?_) safe.2 each.2 (by omega)
    simp only [mem_cons, not_or]
    exact ⟨fun hs => hf.1 (mem_map.mpr ⟨other, hl, hs⟩), hu.2 other hl⟩

theorem loadsManifest_eq_self (trees : Root → SourceTree) (loads : loadsContext context = context) :
    loadsManifest ⟨context, text "yinshi-managed-backup-v2", (members trees).map (·.memberName)⟩ =
      ⟨context, text "yinshi-managed-backup-v2", (members trees).map (·.memberName)⟩ := by
  have names : ∀ name ∈ (members trees).map (·.memberName), loadsText name = name := by
    intro _ hl
    obtain ⟨_, hm, rfl⟩ := mem_map.mp hl
    obtain ⟨root, node, hb, regular⟩ := mem_sources.1 (by simpa [members] using hm)
    rw [memberName_sourceFile regular]
    exact loadsText_memberName ((trees root).named node hb).2
  have format : loadsText (text "yinshi-managed-backup-v2") = text "yinshi-managed-backup-v2" := by decide
  simp only [loadsManifest, loads, format, map_congr_left names, map_id']

theorem mem_members : file ∈ members trees ↔ file ∈ sources trees := Keyed.mem_sortBy

theorem memberName_ne_manifest (source : file ∈ sources trees) : file.memberName ≠ manifestName := by
  intro hs
  obtain ⟨root, _, hb, regular⟩ := mem_sources.1 source
  have parts := parts_source hb regular
  rw [hs] at parts
  cases root <;> exact absurd (cons.inj parts).1 (by decide)

theorem inspectMembers_readable (readable : Readable trees context)
    (bounded :
      (manifestText context ((members trees).map (·.memberName))).length ≤ manifestBytesMax) :
    inspectMembers 1 [] 0 ((manifestName,
            (manifestText context ((members trees).map (·.memberName))).length) ::
          (members trees).map fun file => (file.memberName, file.content.length)) = .ok () := by
  refine inspectMembers_ok ?_ ?_ (by simp) ?_ ?_ ?_
  · have count := readable.count
    simp only [length_cons, length_map, members, Keyed.length_sortBy]
    omega
  · have hd := Keyed.nodup_keys_sortBy.mpr (nodup_names trees)
    simp only [map_cons, map_map, Function.comp_def, nodup_cons]
    refine ⟨fun hl => ?_, hd⟩
    obtain ⟨file, hm, hs⟩ := mem_map.mp hl
    exact memberName_ne_manifest (mem_members.1 hm) hs
  · intro hm hl
    rcases mem_cons.mp hl with rfl | written
    · show unsafeName manifestName = false
      decide
    · obtain ⟨file, source, rfl⟩ := mem_map.mp written
      obtain ⟨root, node, hb, regular⟩ := mem_sources.1 (mem_members.1 source)
      have hp := readable.plain file (mem_members.1 source)
      rw [memberName_sourceFile regular] at hp ⊢
      exact safe_memberName ((trees root).named node hb).2 hp
  · intro _ hl
    rcases mem_cons.mp hl with rfl | written
    · exact Nat.le_trans bounded (by decide)
    · obtain ⟨file, source, rfl⟩ := mem_map.mp written
      exact readable.each file (mem_members.1 source)
  · simpa [Function.comp_def] using readable.expanded

variable (readable : Readable trees context)

include created readable in
theorem inspect_accepts :
    inspectManagedBackupArchive archive key context = .ok ((members trees).map (·.memberName)) := by
  obtain ⟨contextOk, keyOk, hb, ⟨portable, hl, hn, sized⟩, rfl⟩ := create_spec created
  have hs : Keyed.sortBy (fun name : Text => name) ((members trees).map (·.memberName)) =
      (members trees).map (·.memberName) := by
    refine Keyed.sortBy_eq_self ?_
    rw [pairwise_map]
    exact Keyed.pairwise_sortBy
  have loaded := loadsManifest_eq_self trees readable.context
  simp only [inspectManagedBackupArchive, inspectTar, steps_ok, map_map, Function.comp_def, hs, loaded]
  refine ⟨contextOk,
    keyOk, by simp, inspectMembers_readable readable hb, by omega, by decide, by simp, ?_, ?_, trivial⟩
  · rw [not_not]
    exact ⟨_, mem_map.mpr ⟨portable, mem_members.2 hl, rfl⟩, hn, sized⟩
  · simp only [not_exists, not_and, not_not, mem_map]
    rintro _ ⟨_, source, rfl⟩
    obtain ⟨root, _, below, regular⟩ := mem_sources.1 (mem_members.1 source)
    rw [parts_source below regular]
    cases root <;> simp

include created readable in
theorem inspect_rejects {other : ManagedArchiveContext} (hd : other ≠ context)
    {reader : Bytes} {names : List Text} :
    inspectManagedBackupArchive archive reader other ≠ .ok names := by
  intro ha
  obtain ⟨-, -, -, -, rfl⟩ := create_spec created
  have loaded := loadsManifest_eq_self trees readable.context
  simp only [inspectManagedBackupArchive, inspectTar, steps_ok, loaded, not_not] at ha
  obtain ⟨-, -, -, -, -, -, hs, -⟩ := ha
  exact hd (Manifest.mk.inj hs).1.symm

/-- A restored root: the files of a source tree, and the directories that have a file below them. -/
structure Restores (source : SourceTree) (tree : Tree Entry) : Prop where
  files : ∀ path content,
      (path, some content) ∈ tree ↔
      ∃ owned links mode, ⟨path, .file content owned links mode⟩ ∈ source.nodes
  directories : ∀ path, (path, none) ∈ tree ↔ path ≠ [] ∧
    ∃ back, back ≠ [] ∧
      ∃ content owned links mode, ⟨path ++ back, .file content owned links mode⟩ ∈ source.nodes
  distinct : (tree.map (·.1)).Nodup

def memberPaths (trees : Root → SourceTree) : List (Path × Bytes) :=
  (members trees).map fun file => (nameParts file.memberName, file.content)

theorem mem_memberPaths {path : Path} {content : Bytes} :
    (root.name :: path, content) ∈ memberPaths trees ↔
    ∃ owned links mode, ⟨path, .file content owned links mode⟩ ∈ (trees root).nodes := by
  simp only [memberPaths, mem_map, mem_members, Prod.mk.injEq]
  constructor
  · rintro ⟨_, source, parts, rfl⟩
    obtain ⟨_, ⟨_, kind⟩, hl, regular⟩ := mem_sources.1 source
    rw [parts_source hl regular, cons.injEq] at parts
    obtain ⟨hs, rfl⟩ := parts
    cases root_name_inj hs
    cases kind <;> simp only [sourceFile, Option.some.injEq, reduceCtorEq] at regular
    subst regular
    exact ⟨_, _, _, hl⟩
  · rintro ⟨_, _, _, hl⟩
    have source : _ ∈ sources trees := mem_sources.2 ⟨root, _, hl, rfl⟩
    exact ⟨_, source, parts_source hl rfl, rfl⟩

theorem memberPaths_source {file : Path × Bytes} (hl : file ∈ memberPaths trees) :
    ∃ root path owned links mode, file.1 = root.name :: path ∧ path ≠ [] ∧
      ⟨path, .file file.2 owned links mode⟩ ∈ (trees root).nodes := by
  obtain ⟨_, hi, rfl⟩ := mem_map.mp hl
  obtain ⟨root, node, hb, regular⟩ := mem_sources.1 (mem_members.1 hi)
  have parts := parts_source hb regular
  rw [parts] at hl
  obtain ⟨owned, links, mode, file⟩ := mem_memberPaths.1 hl
  exact ⟨root, node.path, owned, links, mode, parts, ((trees root).named node hb).1, file⟩

theorem layered_memberPaths : Layered (memberPaths trees) where
  distinct := by
    have perm : (members trees).Perm (sources trees) := Keyed.sortBy_perm
    have hd := (perm.map fun file => nameParts file.memberName).nodup_iff.mpr nodup_parts
    simpa [memberPaths, Function.comp_def] using hd
  apart file listed other among above := by
    obtain ⟨root, path, _, _, _, parts, hn, node⟩ := memberPaths_source listed
    obtain ⟨_, _, _, _, _, parts', -, node'⟩ := memberPaths_source among
    obtain ⟨-, back, hb, split⟩ := mem_properParents.mp above
    rw [parts, parts', cons_append, cons.injEq] at split
    obtain ⟨hs, rfl⟩ := split
    cases root_name_inj hs
    -- the file would be a directory of its own tree
    have directory := (trees root).parents _ node' path back rfl hn hb
    exact nomatch (Node.mk.inj (Keyed.key_inj_of_nodup (trees root).distinct node directory rfl)).2
  below file listed root hs := by
    obtain ⟨_, _, _, _, _, parts, hn, _⟩ := memberPaths_source listed
    rw [parts, cons.injEq] at hs
    exact hn hs.2

theorem belowRoot_eq_some {entry kept : Entry} :
    belowRoot root entry = some kept ↔ kept.1 ≠ [] ∧ entry = (root.name :: kept.1, kept.2) := by
  obtain ⟨path, _⟩ := entry
  obtain ⟨_, _⟩ := kept
  cases path with
  | nil => simp [belowRoot]
  | cons _ _ =>
    simp only [belowRoot, Option.ite_none_right_eq_some, Option.some.injEq, Prod.mk.injEq, cons.injEq]
    constructor
    · rintro ⟨⟨rfl, hn⟩, rfl, rfl⟩
      exact ⟨hn, ⟨rfl, rfl⟩, rfl⟩
    · rintro ⟨hn, ⟨rfl, rfl⟩, rfl⟩
      exact ⟨⟨rfl, hn⟩, rfl, rfl⟩

theorem mem_below {path : Path} {content : Option Bytes} :
    (path, content) ∈ below root staged ↔ path ≠ [] ∧ (root.name :: path, content) ∈ staged := by
  simp only [below, mem_filterMap, belowRoot_eq_some]
  refine ⟨fun ⟨_, hl, hn, hs⟩ => ⟨hn, hs ▸ hl⟩, fun ⟨hn, hl⟩ => ⟨_, hl, hn, rfl⟩⟩

theorem nodup_below (hd : (staged.map (·.1)).Nodup) : ((below root staged).map (·.1)).Nodup := by
  rw [Nodup, pairwise_map] at hd ⊢
  rw [below, pairwise_filterMap]
  refine hd.imp fun {first second} ha left leftBelow hr rightBelow hs => ha ?_
  rw [(belowRoot_eq_some.1 leftBelow).2, (belowRoot_eq_some.1 rightBelow).2, hs]

theorem restores_below (staging : Staged (memberPaths trees) staged) (root : Root) :
    Restores (trees root) (below root staged) where
  files path content := by
    rw [mem_below, staging.files, mem_memberPaths]
    refine ⟨And.right, fun hf => ⟨?_, hf⟩⟩
    obtain ⟨_, _, _, hl⟩ := hf
    exact ((trees root).named _ hl).1
  directories path := by
    rw [mem_below, staging.directories]
    refine and_congr_right fun hn => ⟨?_, ?_⟩
    · rintro (⟨other, hs⟩ | ⟨_, hl, ha⟩)
      · exact absurd (cons.inj hs).2 hn
      · obtain ⟨_, _, ho, links, mode, parts, -, node⟩ := memberPaths_source hl
        obtain ⟨-, back, below, split⟩ := mem_properParents.mp ha
        rw [parts, cons_append, cons.injEq] at split
        obtain ⟨hs, rfl⟩ := split
        cases root_name_inj hs
        exact ⟨back, below, _, _, _, _, node⟩
    · rintro ⟨back, below, _, ho, links, mode, node⟩
      refine .inr ⟨_, mem_memberPaths.2 ⟨ho, links, mode, node⟩, ?_⟩
      exact mem_properParents.mpr ⟨by simp, back, below, rfl⟩
  distinct := nodup_below staging.distinct

include created readable in
theorem stage_restores :
    ∃ staged, stageArchive archive key context = .ok staged ∧
      ∀ root, Restores (trees root) (staged root) := by
  have ha := inspect_accepts created readable
  obtain ⟨-, -, -, ⟨portable, source, hn, sized⟩, rfl⟩ := create_spec created
  have paths : ((members trees).map fun file => (file.memberName, file.content)).map
        (fun file => (nameParts file.1, file.2)) =
      memberPaths trees := by simp [memberPaths]
  obtain ⟨staged, extracted, staging⟩ :=
      extract_spec ((members trees).map fun file => (file.memberName, file.content))
    staged_roots (by rw [nil_append, paths]; exact layered_memberPaths)
  rw [nil_append, paths] at staging
  have key : staged.any
        fun entry =>
          entry.1 = [Root.sqlite.name, portableDataKeyName] ∧ entry.2.any (·.length = 32) := by
    have hl : (nameParts portable.memberName, portable.content) ∈ memberPaths trees :=
      mem_map.mpr ⟨portable, mem_members.2 source, rfl⟩
    rw [any_eq_true]
    refine ⟨_, (staging.files _ _).mpr hl, ?_⟩
    have parts : nameParts (memberName .sqlite [portableDataKeyName]) =
          [Root.sqlite.name, portableDataKeyName] := by
      decide
    simp [hn, parts, sized]
  refine ⟨fun root => below root staged, ?_, fun root => restores_below staging root⟩
  simp only [stageArchive, steps_ok]
  exact ⟨_, ha, staged, extracted, by simpa using key, rfl⟩

theorem refused_never_returns {π : Type} {s : StateRoot π} {faults : List (Fault Error)}
    {pending : Bool} : (restoreManagedBackupArchive none faults s).exit ≠ .value pending := by
  intro exit
  obtain ⟨_, -, exit⟩ := bind_value exit
  obtain ⟨_, -, exit⟩ := bind_value exit
  obtain ⟨_, -, exit⟩ := bind_value exit
  obtain ⟨_, -, exit⟩ := bind_value exit
  obtain ⟨_, -, exit⟩ := bind_value exit
  obtain ⟨_, exit, -⟩ := bind_value exit
  rcases attempt_value exit with exit | ⟨_, -, exit⟩
  · obtain ⟨_, -, exit⟩ := bind_value exit
    exact nomatch exit
  · obtain ⟨_, -, exit⟩ := bind_value exit
    exact nomatch exit

theorem restore_installs {π : Type} {s : StateRoot π} (hr : Reached Permitted s)
    (staged : Root → Tree π) (faults : List (Fault Error))
    (undisturbed :
      ∀ step ∈ (restoreManagedBackupArchive (some staged) faults s).met, step.fault.isGo = true) :
    (∃ pending, (restoreManagedBackupArchive (some staged) faults s).exit = .value pending) ∧
    ∀ root,
      (restoreManagedBackupArchive (some staged) faults s).state.live root =
        some (staged root) := by
  have permits : ∀ (label : Step) (s : StateRoot π) (fault : Fault Error),
        fault.isGo = true → Permitted label s fault :=
    fun label s fault go => permitted_of_isGo go
  have ends := restore_spec (some staged) permits (sound_reached hr) faults undisturbed
  unfold Ran.Ends at ends
  split at ends
  next pending exit =>
    obtain ⟨hs, same⟩ := ends
    refine ⟨⟨pending, exit⟩, fun root => ?_⟩
    rw [hs.live root, ← congrFun (Option.some.inj same) root]
  next =>
    rcases ends.2.2 with ⟨_, _, _, go⟩ | none
    · exact nomatch go
    · exact nomatch none
  next =>
    obtain ⟨-, step, met, stopped⟩ := ends
    have go := undisturbed step met
    rw [stopped] at go
    exact nomatch go

/-- A readable backup restores the files of its sources, into any roots and under no other
context. -/
theorem backup_restores
    (created : createManagedBackupArchive (trees .sqlite) (trees .files) key context = .ok archive)
    (readable : Readable trees context) :
    (∃ names, inspectManagedBackupArchive archive key context = .ok names) ∧
    (∀ s, Reached Permitted s →
      ∀ faults,
        (∀ step ∈ (restoreArchive archive key context faults s).met, step.fault.isGo = true) →
        (∃ pending, (restoreArchive archive key context faults s).exit = .value pending) ∧
        ∀ root, ∃ tree,
          (restoreArchive archive key context faults s).state.live root = some tree ∧
          Restores (trees root) tree) ∧
    ∀ other, other ≠ context →
      (∃ error, inspectManagedBackupArchive archive key other = .error error) ∧
      ∀ s faults pending, (restoreArchive archive key other faults s).exit ≠ .value pending := by
  refine ⟨⟨_, inspect_accepts created readable⟩, fun s reached faults undisturbed => ?_, fun other hd => ?_⟩
  · obtain ⟨staged, ha, restores⟩ := stage_restores created readable
    have opened : restoreArchive archive key context = restoreManagedBackupArchive (some staged) := by
      rw [restoreArchive, ha]
      rfl
    rw [opened] at undisturbed ⊢
    obtain ⟨hr, live⟩ := restore_installs reached staged faults undisturbed
    exact ⟨hr, fun root => ⟨staged root, live root, restores root⟩⟩
  · cases inspected : inspectManagedBackupArchive archive key other with
    | ok _ => exact absurd inspected (inspect_rejects created readable hd)
    | error error =>
      refine ⟨⟨error, rfl⟩, fun s faults pending => ?_⟩
      rw [restoreArchive, stageArchive, inspected]
      exact refused_never_returns

end Written

def sampleKey : Bytes := List.replicate 32 7

def sampleContext : ManagedArchiveContext := ⟨text "archive", text "today", List.replicate 64 48, 1⟩

def sampleSqlite : SourceTree where
  nodes := [⟨[text "empty"], .directory⟩, ⟨[portableDataKeyName], .file sampleKey true 1 0o600⟩]
  distinct := by decide
  named := by decide
  parents node listed front back split nonempty below := by
    have flat : ∀ node ∈
          [Node.mk [text "empty"] .directory,
            ⟨[portableDataKeyName], .file sampleKey true 1 0o600⟩],
        node.path.length = 1 := by decide
    have short := flat node listed
    have front_pos := List.length_pos_iff.mpr nonempty
    have back_pos := List.length_pos_iff.mpr below
    rw [split, List.length_append] at short
    omega

def sampleFiles : SourceTree where
  nodes := []
  distinct := .nil
  named _ listed := nomatch listed
  parents _ listed := nomatch listed

def sampleTrees : Root → SourceTree
  | .sqlite => sampleSqlite
  | .files => sampleFiles

def sampleArchive : Archive where
  key := sampleKey
  tar := ⟨⟨sampleContext, text "yinshi-managed-backup-v2", [memberName .sqlite [portableDataKeyName]]⟩, 248,
    [(memberName .sqlite [portableDataKeyName], sampleKey)]⟩

set_option maxRecDepth 8000 in
theorem sample_created :
    createManagedBackupArchive sampleSqlite sampleFiles sampleKey sampleContext =
      .ok sampleArchive := by
  decide

set_option maxRecDepth 8000 in
theorem sample_readable : Readable sampleTrees sampleContext where
  count := by decide
  plain := by decide
  each := by decide
  expanded := by decide
  context := by decide

def sampleRoots : Root → Tree Entry := fun _ => []

def occupiedRoots : Root → Tree Entry := fun _ => [([text "old"], some (bytes "1"))]

set_option maxRecDepth 8000 in
theorem backup_restores_sample :
    (∃ names, inspectManagedBackupArchive sampleArchive sampleKey sampleContext = .ok names) ∧
    (∃ pending,
      (restoreArchive sampleArchive sampleKey sampleContext [] (.initial occupiedRoots)).exit =
        .value pending) ∧
    (∀ root, ∃ tree,
      (restoreArchive sampleArchive sampleKey sampleContext [] (.initial occupiedRoots)).state.live
            root = some tree ∧ Restores (sampleTrees root) tree) ∧
    ∃ error, inspectManagedBackupArchive sampleArchive sampleKey
          { sampleContext with runtimeGeneration := 2 } = .error error := by
  have created : createManagedBackupArchive (sampleTrees .sqlite) (sampleTrees .files) sampleKey sampleContext =
      .ok sampleArchive := sample_created
  have undisturbed :
      (restoreArchive sampleArchive sampleKey sampleContext [] (.initial occupiedRoots)).met.all
        (·.fault.isGo) := by
    decide
  obtain ⟨inspected, restored, rejected⟩ := backup_restores created sample_readable
  obtain ⟨returns, live⟩ := restored _ (.initial occupiedRoots) [] (List.all_eq_true.mp undisturbed)
  exact ⟨inspected, returns, live, (rejected _ (by decide)).1⟩

set_option maxRecDepth 8000 in
/-- An empty directory is not in the backup that was made of it. -/
theorem empty_directory_lost :
    ¬ ∀ (trees : Root → SourceTree) (key : Bytes) (context : ManagedArchiveContext)
        (archive : Archive),
    createManagedBackupArchive (trees .sqlite) (trees .files) key context = .ok archive →
    ∀ s, Reached Permitted s →
      ∀ faults,
        (∀ step ∈ (restoreArchive archive key context faults s).met, step.fault.isGo = true) →
        ∀ root, ∃ tree,
          (restoreArchive archive key context faults s).state.live root = some tree ∧
          ∀ path, (path, none) ∈ tree ↔ ⟨path, .directory⟩ ∈ (trees root).nodes := by
  intro hs
  have undisturbed : (restoreArchive sampleArchive sampleKey sampleContext []
          (.initial sampleRoots)).met.all (·.fault.isGo) := by
    decide
  obtain ⟨_, live, directories⟩ := hs sampleTrees sampleKey sampleContext sampleArchive sample_created
    (.initial sampleRoots) (.initial sampleRoots) [] (List.all_eq_true.mp undisturbed) .sqlite
  have hl := (directories [text "empty"]).mpr (by decide)
  rw [← Option.some.inj live] at hl
  exact absurd hl (by decide)

end Yinshi.Guest
