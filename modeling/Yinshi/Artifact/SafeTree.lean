import Yinshi.Artifact.Canonicity

/-! The tree that an accepted artifact describes: whoever creates its entries in their order writes
below directories only. -/

namespace Yinshi.Artifact
open ByteText Keyed Checked List

def Below (path below : Bytes) : Prop := path ++ [slash] <+: below

theorem Below.mem_properAncestors {path below : Bytes} (hi : Below path below) :
    path ∈ properAncestors below := by
  obtain ⟨rest, rfl⟩ := hi
  have cut : components (path ++ [slash] ++ rest) = components path ++ components rest := by
    rw [append_assoc]
    exact splitOn_append_cons_self ..
  have front := length_pos_of_ne_nil (components_ne_nil path)
  have back := length_pos_of_ne_nil (components_ne_nil rest)
  refine mem_map.mpr ⟨(components path).length, mem_range'_1.mpr ⟨front, ?_⟩, ?_⟩
  · rw [cut, length_append]
    omega
  · rw [cut, take_left, joinComponents_components]

structure SafePath (limits : ArtifactLimits) (path : Bytes) : Prop where
  short : path.length ≤ limits.maxPathBytes
  shallow : (components path).length ≤ limits.maxDepth
  relative : path.head? ≠ some slash
  noNul : 0 ∉ path
  plain : ∀ part ∈ components path, part ∉ [[], bytes ".", bytes "..", bytes ".git"]

theorem validateRawPath_eq_ok {limits : ArtifactLimits} {error : String → ArtifactError}
    {path : Bytes} (hv : validateRawPath limits error path = .ok ()) : SafePath limits path := by
  simp only [validateRawPath, steps_ok, not_lt, not_or, not_exists, not_and] at hv
  obtain ⟨short, ⟨-, relative, noNul⟩, shallow, hp⟩ := hv
  exact ⟨short, shallow, relative, noNul, hp⟩

/-- Every entry comes after the directories above it, and nothing else is above it. -/
structure SafeTree (limits : ArtifactLimits) (entries : List ManifestEntry) : Prop where
  increasing : entries.Pairwise fun first second => first.rawPath < second.rawPath
  ancestors : ∀ before entry after, entries = before ++ entry :: after → ∀ path,
    Below path entry.rawPath → ∃ parent ∈ before, parent.rawPath = path ∧ parent.kind = .directory
  beneath : ∀ upper ∈ entries, ∀ entry ∈ entries, Below upper.rawPath entry.rawPath → upper.kind = .directory
  paths : ∀ entry ∈ entries, SafePath limits entry.rawPath
  contents : ∀ entry ∈ entries, entry.content.length ≤ limits.maxContentBytes
  aggregate : (entries.map fun entry => entry.content.length).sum ≤ limits.maxAggregateContentBytes

theorem parents_of_topology {entries : List ManifestEntry}
    {present : List (Bytes × WorktreeEntryKind)} {before after : List ManifestEntry}
    {entry : ManifestEntry} (topology : TopologyFrom present entries)
    (split : entries = before ++ entry :: after) (ancestor : Bytes)
    (ha : ancestor ∈ properAncestors entry.rawPath) :
    (ancestor, .directory) ∈ present ∨
    ∃ parent ∈ before, parent.rawPath = ancestor ∧ parent.kind = .directory := by
  induction before generalizing present entries with
  | nil =>
    subst split
    obtain ⟨_, _, hs, -⟩ := lookup_eq_some_iff.mp (topology.1 ancestor ha)
    exact .inl (hs ▸ mem_append_right _ (mem_cons_self ..))
  | cons first _ ih =>
    subst split
    rcases ih topology.2 rfl with ht | ⟨parent, hm, hs⟩
    · rcases mem_cons.mp ht with hs | ht
      · obtain ⟨path, kind⟩ := Prod.mk.inj hs
        exact .inr ⟨first, mem_cons_self .., path.symm, kind.symm⟩
      · exact .inl ht
    · exact .inr ⟨parent, mem_cons_of_mem _ hm, hs⟩

theorem safeTree_of_parseManifest {limits : ArtifactLimits} {payload : Bytes}
    {entries : List ManifestEntry} {total : Nat}
    (parsed : parseManifest limits payload = .ok (entries, total)) : SafeTree limits entries := by
  obtain ⟨-, shapes, increasing, topology, -, -, _⟩ := parseManifest_eq_ok.mp parsed
  have shape := fun entry hm => validateEntryShape_eq_ok.mp (shapes entry hm)
  have ancestors :
      ∀ before entry after, entries = before ++ entry :: after → ∀ path, Below path entry.rawPath →
      ∃ parent ∈ before, parent.rawPath = path ∧ parent.kind = .directory := by
    intro before entry after split path hi
    exact (parents_of_topology topology split path hi.mem_properAncestors).resolve_left not_mem_nil
  refine ⟨increasing, ancestors, fun upper hl entry hm hi => ?_,
    fun entry hm => validateRawPath_eq_ok (shape entry hm).2.2.2.2.2,
      fun entry hm => (shape entry hm).2.2.2.2.1, ?_⟩
  · obtain ⟨before, after, split⟩ := append_of_mem hm
    obtain ⟨_, earlier, hs, directory⟩ := ancestors before entry after split upper.rawPath hi
    have hd : (entries.map (·.rawPath)).Nodup := pairwise_map.mpr (increasing.imp ne_of_lt)
    have one := inj_on_of_nodup_map hd (split ▸ mem_append_left _ earlier) hl hs
    rw [← one]
    exact directory
  · -- A directory has no content, so the loop's sum leaves nothing out.
    have weights : entries.map contentWeight = entries.map fun entry => entry.content.length := by
      refine map_congr_left fun entry hm => ?_
      unfold contentWeight
      split
      next directory => rw [((shape entry hm).2.2.1 directory).1, length_nil]
      next => rfl
    rwa [← weights]

theorem decoded_tree_is_safe {H : Hashes} {limits : ArtifactLimits} {data : Bytes}
    {v : VerifiedWorktreeArtifact} (decoded : decodeWorktreeArtifact H limits data = .ok v) :
    SafeTree limits v.entries ∧ v.rootOids.Pairwise (· < ·) ∧
    ∀ oid, oid ∈ v.rootOids ↔
      v.headOid ≠ [] ∧ oid = v.headOid ∨ ∃ entry ∈ v.indexEntries, entry.objectId = oid := by
  obtain ⟨_, _, _, _, _, rfl, -, -, -, -, sections⟩ :=
    decodeWorktreeArtifact_eq_ok.mp decoded
  simp only [decodeSections, steps_ok, Prod.exists] at sections
  obtain ⟨control, -, -, -, _, -, _, _, parsed, -, -, -, -, -, expected, rfl⟩ := sections
  rw [not_not.mp expected]
  refine ⟨safeTree_of_parseManifest parsed, expectedRoots_sorted _ _, fun oid => ?_⟩
  simp only [expectedRoots, mem_sortBy, mem_dedup, mem_append, mem_map]
  by_cases unborn : control.headOid = [] <;> simp [unborn, or_comm]

theorem decoded_tree_is_safe_sample :
    ∃ v, decodeWorktreeArtifact sampleHashes defaultArtifactLimits
            (artifactBytes sampleHashes sampleArtifact) = .ok v ∧
      SafeTree defaultArtifactLimits v.entries := by
  obtain ⟨v, decoded⟩ := sampleArtifact_decodes
  exact ⟨v, decoded, (decoded_tree_is_safe decoded).1⟩

end Yinshi.Artifact
