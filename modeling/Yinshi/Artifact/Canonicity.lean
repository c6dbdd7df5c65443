import Mathlib.Algebra.BigOperators.Group.List.Basic
import Yinshi.Artifact.RoundTrip

/-! One description of an admissible snapshot and its unique bytes. The encoder
returns them exactly for admissible snapshots, and the decoder accepts exactly
them; the round trip and the canonicity of the format follow. -/

namespace Yinshi.Artifact
open ByteText Checked Keyed List
variable {a : WorktreeArtifactInput} {indexEntries : List ArtifactIndexEntry} {data : Bytes}

variable {H : Hashes} {limits : ArtifactLimits}

def aggregateOf (entries : List ManifestEntry) : Nat := (entries.map contentWeight).sum

def manifestLengthOf (entries : List ManifestEntry) : Nat :=
  (entries.map manifestEntryLength).sum

def controlPayloadOf (a : WorktreeArtifactInput) : Bytes :=
  buildControlPayload a ⟨a.entries.length, a.rootOids.length, aggregateOf a.entries⟩

def artifactBytes (H : Hashes) (a : WorktreeArtifactInput) : Bytes :=
  frameEnvelope H (sectionsOf (controlPayloadOf a) (a.indexBytes.getD [])
    (buildManifestPayload (sortEntries a.entries)) (sortBy id a.rootOids).flatten)

def framedLengthOf (a : WorktreeArtifactInput) : Nat :=
  envelopeHeaderLen + 4 * sectionHeaderLen +
    (controlLength a (oidSizeOf a.objectFormat) + (a.indexBytes.getD []).length +
      manifestLengthOf a.entries + a.rootOids.length * oidSizeOf a.objectFormat)

theorem parseOptionalIndex_error_free (first second : String → ArtifactError) {format : Text}
    {index : Option Bytes} {out : List ArtifactIndexEntry} :
    parseOptionalIndex H limits first format index = .ok out ↔
    parseOptionalIndex H limits second format index = .ok out := by
  cases index with
  | none => rfl
  | some _ => exact parseIndex_error_free first second

structure Admissible (H : Hashes) (limits : ArtifactLimits) (a : WorktreeArtifactInput)
    (indexEntries : List ArtifactIndexEntry) : Prop where
  format : formatCodes.lookup a.objectFormat ≠ none
  state : headStateCodes.lookup a.headState ≠ none
  head : validateHead limits a (oidSizeOf a.objectFormat) = .ok ()
  policy : ∀ digest ∈ a.policyDigest, digest.length = 32
  exactIndex : (a.indexBytes.getD []).length ≤ limits.maxExactIndexBytes
  index : parseOptionalIndex H limits .encodeError a.objectFormat a.indexBytes = .ok indexEntries
  entryCount : a.entries.length ≤ limits.maxManifestEntries
  rootCount : a.rootOids.length ≤ limits.maxRoots
  shapes : ∀ entry ∈ a.entries, validateEntryShape limits .encodeError entry = .ok ()
  distinct : (a.entries.map (·.rawPath)).Nodup
  topology : TopologyFrom [] (sortEntries a.entries)
  aggregate : aggregateOf a.entries ≤ limits.maxAggregateContentBytes
  ignored : (∃ entry ∈ a.entries, entry.allowedIgnored = true) → a.policyDigest ≠ none
  rootShapes : ∀ root ∈ a.rootOids,
    root.length = oidSizeOf a.objectFormat ∧ anyNonzero root = true
  roots : a.rootOids.Perm (expectedRoots a.headOid indexEntries)
  controlBound : controlLength a (oidSizeOf a.objectFormat) ≤ limits.maxControlBytes
  manifestBound : manifestLengthOf a.entries ≤ limits.maxManifestBytes
  rootsBound : a.rootOids.length * oidSizeOf a.objectFormat ≤ limits.maxRootsBytes
  total : framedLengthOf a ≤ limits.maxTotalBytes

def reorder (a : WorktreeArtifactInput) (entries : List ManifestEntry) (roots : List Bytes) :
    WorktreeArtifactInput := { a with entries := entries, rootOids := roots }

theorem aggregateOf_perm {xs ys : List ManifestEntry} (perm : xs.Perm ys) :
    aggregateOf xs = aggregateOf ys := (perm.map contentWeight).sum_eq

theorem manifestLengthOf_perm {xs ys : List ManifestEntry} (perm : xs.Perm ys) :
    manifestLengthOf xs = manifestLengthOf ys := (perm.map manifestEntryLength).sum_eq

theorem sortEntries_perm (entries : List ManifestEntry) : (sortEntries entries).Perm entries :=
  sortBy_perm

theorem Admissible.reorder (ha : Admissible H limits a indexEntries) {entries : List ManifestEntry}
    {roots : List Bytes} (hentries : entries.Perm a.entries) (hroots : roots.Perm a.rootOids) :
    Admissible H limits (reorder a entries roots) indexEntries := by
  have hs : sortEntries entries = sortEntries a.entries :=
    (sortBy_eq_of_perm hentries.symm ha.distinct).symm
  have length := hentries.length_eq
  have count := hroots.length_eq
  exact
    { format := ha.format
      state := ha.state
      head := ha.head
      policy := ha.policy
      exactIndex := ha.exactIndex
      index := ha.index
      entryCount := length.trans_le ha.entryCount
      rootCount := count.trans_le ha.rootCount
      shapes := fun entry hm => ha.shapes entry (hentries.mem_iff.mp hm)
      distinct := (hentries.map _).nodup_iff.mpr ha.distinct
      topology := show TopologyFrom [] (sortEntries entries) from hs ▸ ha.topology
      aggregate := (aggregateOf_perm hentries).trans_le ha.aggregate
      ignored := fun ⟨entry, hm, flag⟩ => ha.ignored ⟨entry, hentries.mem_iff.mp hm, flag⟩
      rootShapes := fun root hm => ha.rootShapes root (hroots.mem_iff.mp hm)
      roots := hroots.trans ha.roots
      controlBound := ha.controlBound
      manifestBound := (manifestLengthOf_perm hentries).trans_le ha.manifestBound
      rootsBound := by
        show roots.length * _ ≤ _
        rw [count]
        exact ha.rootsBound
      total := by
        have : framedLengthOf (Artifact.reorder a entries roots) = framedLengthOf a := by
          show envelopeHeaderLen + 4 * sectionHeaderLen + (controlLength a _ +
            (a.indexBytes.getD []).length + manifestLengthOf entries + roots.length * _) = _
          rw [count, manifestLengthOf_perm hentries]
          rfl
        exact this.trans_le ha.total }

theorem artifactBytes_reorder {entries : List ManifestEntry} {roots : List Bytes}
    (hentries : entries.Perm a.entries) (hroots : roots.Perm a.rootOids)
    (paths : (a.entries.map (·.rawPath)).Nodup) (oids : a.rootOids.Nodup) :
    artifactBytes H (reorder a entries roots) = artifactBytes H a := by
  have hs : sortEntries entries = sortEntries a.entries :=
    (sortBy_eq_of_perm hentries.symm paths).symm
  have sortedRoots : sortBy id roots = sortBy id a.rootOids :=
    (sortBy_eq_of_perm hroots.symm (by simpa using oids)).symm
  have control : controlPayloadOf (reorder a entries roots) = controlPayloadOf a := by
    simp only [controlPayloadOf, reorder, buildControlPayload, hentries.length_eq,
      hroots.length_eq, aggregateOf_perm hentries]
    rfl
  simp only [artifactBytes, control]
  simp only [reorder, hs, sortedRoots]

theorem length_controlPayloadOf (policy : ∀ digest ∈ a.policyDigest, digest.length = 32)
    (oid : a.headState ≠ text "unborn" → a.headOid.length = oidSizeOf a.objectFormat) :
    (controlPayloadOf a).length = controlLength a (oidSizeOf a.objectFormat) := by
  have head : (if a.headState ≠ text "unborn" then a.headOid else []).length =
      if a.headState = text "unborn" then 0 else oidSizeOf a.objectFormat := by
    by_cases unborn : a.headState = text "unborn"
    · simp [unborn]
    · simp [unborn, oid unborn]
  have digest : (policyBytes a.policyDigest).length = 1 + if a.policyDigest.isNone then 0 else 32 := by
    cases h : a.policyDigest with
    | none => rfl
    | some digest => simp [policyBytes, policy digest h]
  simp only [controlPayloadOf, buildControlPayload, length_append, head, digest, u32Bytes, u64Bytes,
    length_beBytes, length_cons, length_nil, controlLength]
  omega

theorem length_frameEnvelope (control index manifest roots : Bytes) :
    (frameEnvelope H (sectionsOf control index manifest roots)).length =
      envelopeHeaderLen + 4 * sectionHeaderLen +
        (control.length + index.length + manifest.length + roots.length) := by
  simp only [frameEnvelope, sectionsOf, u32Bytes, length_append, length_beBytes,
    flatMap_cons, flatMap_nil, frameSection, u32Bytes, u64Bytes, length_append, length_beBytes,
    H.length_sha256, sectionHeaderLen, length_nil, envelopeHeaderLen]
  omega

theorem length_sorted_roots {size : Nat} (sized : ∀ root ∈ a.rootOids, root.length = size) :
    (sortBy id a.rootOids).flatten.length = a.rootOids.length * size := by
  have each : (sortBy id a.rootOids).map length = replicate a.rootOids.length size := by
    refine eq_replicate_iff.mpr ⟨by simp, ?_⟩
    intro _ hm
    obtain ⟨root, hi, rfl⟩ := mem_map.mp hm
    exact sized root (mem_sortBy.mp hi)
  rw [length_flatten, each]
  simp

theorem headState_cases {state : Text} (hk : headStateCodes.lookup state ≠ none) :
    state = text "unborn" ∨ state = text "detached" ∨ state = text "symbolic" := by
  obtain ⟨_, hf⟩ := Option.ne_none_iff_exists'.mp hk
  rw [lookup_eq_some_iff_mem (by decide)] at hf
  simp only [headStateCodes, mem_cons, Prod.mk.injEq, not_mem_nil, or_false] at hf
  tauto

theorem validateSymbolicHeadTarget_bounds {error : String → ArtifactError} {target : Bytes}
    (valid : validateSymbolicHeadTarget limits error target = .ok ()) :
    target.length ≤ limits.maxPathBytes ∧ target ≠ [] := by
  simp only [validateSymbolicHeadTarget, steps_ok, not_or, not_lt, not_not] at valid
  refine ⟨valid.1.1, ?_⟩
  rintro rfl
  exact absurd valid.1.2 (by decide)

structure HeadFits (limits : ArtifactLimits) (state : Text) (target oid : Bytes) (size : Nat) :
    Prop where
  bounded : target.length ≤ limits.maxPathBytes
  unborn : state = text "unborn" → oid = [] ∧
    validateSymbolicHeadTarget limits .decodeError target = .ok ()
  sized : state ≠ text "unborn" → oid.length = size
  detached : state = text "detached" → target = []
  symbolic : state = text "symbolic" →
    validateSymbolicHeadTarget limits .decodeError target = .ok ()
  nonzero : oid ≠ [] → anyNonzero oid = true

theorem validateHead_eq_ok {size : Nat} (hk : headStateCodes.lookup a.headState ≠ none) :
    validateHead limits a size = .ok () ↔
    HeadFits limits a.headState a.headTarget a.headOid size := by
  have path := limits.path_fits
  have ha : text "detached" ≠ text "unborn" ∧ text "symbolic" ≠ text "unborn" ∧
      text "symbolic" ≠ text "detached" := by decide
  have swap : validateSymbolicHeadTarget limits .encodeError a.headTarget = .ok () ↔
      validateSymbolicHeadTarget limits .decodeError a.headTarget = .ok () :=
    validateSymbolicHeadTarget_error_free _ _
  have hb : validateSymbolicHeadTarget limits .decodeError a.headTarget = .ok () →
      a.headTarget.length ≤ limits.maxPathBytes :=
    fun hv => (validateSymbolicHeadTarget_bounds hv).1
  rcases headState_cases hk with state | state | state
  · simp only [validateHead, validateHeadShape, state, ↓reduceIte, steps_ok, not_lt, not_not, ne_eq,
      not_and, swap, Bool.not_eq_false]
    constructor
    · rintro ⟨-, ⟨oid, hv⟩, nonzero⟩
      exact ⟨hb hv, fun _ => ⟨oid, hv⟩, fun h => absurd rfl h,
        fun h => absurd h.symm ha.1, fun h => absurd h.symm ha.2.1, nonzero⟩
    · intro hf
      exact ⟨hf.bounded.trans path.2, hf.unborn rfl, hf.nonzero⟩
  · simp only [validateHead, validateHeadShape, state, ha.1, ↓reduceIte, steps_ok, not_lt, not_not,
      ne_eq, not_or, not_and, Bool.not_eq_false]
    constructor
    · rintro ⟨-, ⟨empty, oid⟩, nonzero⟩
      exact ⟨by simp [empty], fun h => absurd h ha.1, fun _ => oid, fun _ => empty,
        fun h => absurd h.symm ha.2.2, nonzero⟩
    · intro hf
      exact ⟨hf.bounded.trans path.2, ⟨hf.detached rfl, hf.sized ha.1⟩, hf.nonzero⟩
  · simp only [validateHead, validateHeadShape, state, ha.2.1, ha.2.2, ↓reduceIte, steps_ok, not_lt,
      not_not, ne_eq, not_and, swap, Bool.not_eq_false]
    constructor
    · rintro ⟨-, ⟨oid, hv⟩, nonzero⟩
      exact ⟨hb hv, fun h => absurd h ha.2.1, fun _ => oid,
        fun h => absurd h ha.2.2, fun _ => hv, nonzero⟩
    · intro hf
      exact ⟨hf.bounded.trans path.2, ⟨hf.sized ha.2.1, hf.symbolic rfl⟩, hf.nonzero⟩

theorem checkControl_eq_ok {control : Control} :
    checkControl limits control = .ok () ↔
    (control.headState = text "unborn" →
        control.headOid = [] ∧
        validateSymbolicHeadTarget limits .decodeError control.headTarget = .ok ()) ∧
    (control.headState = text "detached" → control.headTarget = []) ∧
    (control.headState = text "symbolic" →
      validateSymbolicHeadTarget limits .decodeError control.headTarget = .ok ()) ∧
    (control.headOid ≠ [] → anyNonzero control.headOid = true) ∧
    control.entryCount ≤ limits.maxManifestEntries ∧ control.rootCount ≤ limits.maxRoots ∧
    control.aggregate ≤ limits.maxAggregateContentBytes := by
  have hn : validateSymbolicHeadTarget limits .decodeError control.headTarget = .ok () →
      control.headTarget ≠ [] := fun hv => (validateSymbolicHeadTarget_bounds hv).2
  simp only [checkControl, steps_ok, checkWhen_eq_ok, not_or, not_not, not_and, not_lt,
    Bool.not_eq_false, ne_eq]
  constructor
  · rintro ⟨unborn, rest⟩
    exact ⟨fun state => ⟨(unborn state).1.1, (unborn state).2⟩, rest⟩
  · rintro ⟨unborn, rest⟩
    exact ⟨fun state => ⟨⟨(unborn state).1, hn (unborn state).2⟩, (unborn state).2⟩, rest⟩

theorem expectedRoots_nodup (oid : Bytes) (entries : List ArtifactIndexEntry) :
    (expectedRoots oid entries).Nodup := (expectedRoots_sorted oid entries).imp ne_of_lt

theorem sorted_roots_eq (roots : a.rootOids.Perm (expectedRoots a.headOid indexEntries)) :
    sortBy id a.rootOids = expectedRoots a.headOid indexEntries := by
  have hd : (a.rootOids.map id).Nodup := by
    simpa using roots.nodup_iff.mpr (expectedRoots_nodup a.headOid indexEntries)
  rw [sortBy_eq_of_perm roots hd]
  exact sortBy_eq_self ((expectedRoots_sorted a.headOid indexEntries).imp le_of_lt)

theorem same_members_iff_perm {xs ys : List Bytes} (hx : xs.Nodup) (hy : ys.Nodup) :
    ¬ ((∃ x ∈ xs, x ∉ ys) ∨ ∃ y ∈ ys, y ∉ xs) ↔ xs.Perm ys := by
  rw [perm_ext_iff_of_nodup hx hy]
  push Not
  exact ⟨fun h z => ⟨h.1 z, h.2 z⟩, fun h => ⟨fun z => (h z).mp, fun z => (h z).mpr⟩⟩

theorem length_artifactBytes (policy : ∀ digest ∈ a.policyDigest, digest.length = 32)
    (oid : a.headState ≠ text "unborn" → a.headOid.length = oidSizeOf a.objectFormat)
    (sized : ∀ root ∈ a.rootOids, root.length = oidSizeOf a.objectFormat) :
    (artifactBytes H a).length = framedLengthOf a := by
  rw [artifactBytes, length_frameEnvelope, length_controlPayloadOf policy oid,
    length_buildManifestPayload, length_sorted_roots sized]
  have manifest : ((sortEntries a.entries).map manifestEntryLength).sum =
      manifestLengthOf a.entries := manifestLengthOf_perm (sortEntries_perm a.entries)
  rw [manifest]
  rfl

theorem encodeWorktreeArtifact_eq_ok :
    encodeWorktreeArtifact H limits a = .ok data ↔
    data = artifactBytes H a ∧ ∃ indexEntries, Admissible H limits a indexEntries := by
  have aggregate : ((sortEntries a.entries).map contentWeight).sum = aggregateOf a.entries :=
    aggregateOf_perm (sortEntries_perm a.entries)
  have manifest : ((sortEntries a.entries).map manifestEntryLength).sum =
      manifestLengthOf a.entries := manifestLengthOf_perm (sortEntries_perm a.entries)
  have length := (sortEntries_perm a.entries).length_eq
  have hd : ((sortEntries a.entries).map (·.rawPath)).Nodup ↔
      (a.entries.map (·.rawPath)).Nodup := nodup_keys_sortBy
  have ignored : (sortEntries a.entries).any (·.allowedIgnored) = true ↔
      ∃ entry ∈ a.entries, entry.allowedIgnored = true := by
    simp [sortEntries]
  have policy : ¬ (a.policyDigest.any (·.length != 32) = true) ↔
      ∀ digest ∈ a.policyDigest, digest.length = 32 := by
    cases a.policyDigest <;> simp
  simp only [encodeWorktreeArtifact, steps_ok, each_eq_ok, validateEntryOrder_eq_ok, policy,
    aggregate, manifest, length, hd, ignored]
  constructor
  · rintro ⟨format, state, head, digest, exactIndex, entries, parsed, entryCount, rootCount,
      shapes, ⟨paths, -, topology⟩, total, marked, rootShapes, hu, members, hb, framed,
      -, rfl⟩
    have perm : a.rootOids.Perm (expectedRoots a.headOid entries) :=
      (same_members_iff_perm (not_not.mp hu) (expectedRoots_nodup _ _)).mp members
    rw [← perm.length_eq] at hb framed ⊢
    simp only [not_or, not_lt] at hb
    refine ⟨by rw [← sorted_roots_eq perm]; rfl, entries, ?_⟩
    exact
      { format := format
        state := state
        head := head
        policy := digest
        exactIndex := not_lt.mp exactIndex
        index := parsed
        entryCount := not_lt.mp entryCount
        rootCount := not_lt.mp rootCount
        shapes := shapes
        distinct := paths
        topology := topology
        aggregate := not_lt.mp total
        ignored := fun some none => marked ⟨some, none⟩
        rootShapes := fun root hm => by simpa using rootShapes root hm
        roots := perm
        controlBound := hb.1
        manifestBound := hb.2.2.1
        rootsBound := hb.2.2.2
        total := not_lt.mp framed }
  · rintro ⟨rfl, entries, ha⟩
    have perm := ha.roots
    have heads := (validateHead_eq_ok ha.state).mp ha.head
    have sized := length_artifactBytes (H := H) ha.policy heads.sized
      fun root hm => (ha.rootShapes root hm).1
    have layout : artifactBytes H a = frameEnvelope H [
        (1, buildControlPayload a ⟨a.entries.length, a.rootOids.length, aggregateOf a.entries⟩),
        (2, a.indexBytes.getD []), (3, buildManifestPayload (sortEntries a.entries)),
        (4, (expectedRoots a.headOid entries).flatten)] := by
      rw [← sorted_roots_eq perm]
      rfl
    rw [layout] at sized ⊢
    have hu := perm.nodup_iff.mpr (expectedRoots_nodup a.headOid entries)
    refine ⟨ha.format, ha.state, ha.head, ha.policy,
      not_lt.mpr ha.exactIndex, entries, ha.index, not_lt.mpr ha.entryCount,
      not_lt.mpr ha.rootCount, ha.shapes,
      ⟨ha.distinct, by simp, ha.topology⟩, not_lt.mpr ha.aggregate,
      fun marked => ha.ignored marked.1 marked.2,
      fun root hm => by simpa using ha.rootShapes root hm, not_not.mpr hu,
      (same_members_iff_perm hu (expectedRoots_nodup _ _)).mpr perm, ?_, ?_, ?_, ?_⟩
    all_goals rw [← perm.length_eq]
    · simp only [not_or, not_lt]
      exact ⟨ha.controlBound, ha.exactIndex.trans limits.exactIndex_le_index,
        ha.manifestBound, ha.rootsBound⟩
    · exact not_lt.mpr ha.total
    · exact not_not.mpr sized

def inputOf (v : VerifiedWorktreeArtifact) : WorktreeArtifactInput where
  objectFormat := v.objectFormat
  headState := v.headState
  headTarget := v.headTarget
  headOid := v.headOid
  indexBytes := v.indexBytes
  entries := v.entries
  rootOids := v.rootOids
  policyDigest := v.policyDigest

def verifiedOf (H : Hashes) (a : WorktreeArtifactInput) (indexEntries : List ArtifactIndexEntry) :
    VerifiedWorktreeArtifact where
  objectFormat := a.objectFormat
  hasIndex := a.indexBytes.isSome
  indexBytes := a.indexBytes
  indexEntries := indexEntries
  headState := a.headState
  headTarget := a.headTarget
  headOid := a.headOid
  policyDigest := a.policyDigest
  entries := sortEntries a.entries
  rootOids := sortBy id a.rootOids
  sourceStateSha256 := computeSourceStateSha256 H [H.sha256 (controlPayloadOf a),
    H.sha256 (a.indexBytes.getD []), H.sha256 (buildManifestPayload (sortEntries a.entries)),
    H.sha256 (sortBy id a.rootOids).flatten]
  totalBytes := (artifactBytes H a).length

def controlOf (a : WorktreeArtifactInput) : Control where
  objectFormat := a.objectFormat
  hasIndex := a.indexBytes.isSome
  headState := a.headState
  headTarget := a.headTarget
  headOid := a.headOid
  policyDigest := a.policyDigest
  entryCount := a.entries.length
  rootCount := a.rootOids.length
  aggregate := aggregateOf a.entries

theorem parseControl_controlPayloadOf (ha : Admissible H limits a indexEntries) :
    parseControl limits (controlPayloadOf a) = .ok (controlOf a) := by
  have heads := (validateHead_eq_ok ha.state).mp ha.head
  have entries := ha.entryCount.trans limits.entries_fit
  have roots := ha.rootCount.trans limits.rootCount_fits
  have aggregate := ha.aggregate.trans limits.aggregate_fits
  refine parseControl_eq_ok.mpr ⟨rfl, ?_, checkControl_eq_ok.2 ⟨heads.unborn, heads.detached,
    heads.symbolic, heads.nonzero, ha.entryCount, ha.rootCount,
    ha.aggregate⟩⟩
  exact ⟨ha.format, ha.state, heads.bounded, fun h => (heads.unborn h).1,
    heads.sized, by show a.entries.length < _; omega, by show a.rootOids.length < _; omega,
    by show aggregateOf a.entries < _; omega, ha.policy⟩

theorem parseManifest_sortEntries (ha : Admissible H limits a indexEntries) :
    parseManifest limits (buildManifestPayload (sortEntries a.entries)) =
      .ok (sortEntries a.entries, aggregateOf a.entries) := by
  have aggregate : ((sortEntries a.entries).map contentWeight).sum = aggregateOf a.entries :=
    aggregateOf_perm (sortEntries_perm a.entries)
  refine parseManifest_eq_ok.mpr ⟨rfl, ?_, ?_, ha.topology, ?_, aggregate.symm, ?_⟩
  · intro entry hm
    exact (validateEntryShape_error_free _ _).mp
      (ha.shapes entry ((sortEntries_perm a.entries).mem_iff.mp hm))
  · exact pairwise_lt_of_nodup (nodup_keys_sortBy.mpr ha.distinct) pairwise_sortBy
  · exact (sortEntries_perm a.entries).length_eq.trans_le ha.entryCount
  · exact aggregate.trans_le ha.aggregate

theorem decode_artifactBytes (ha : Admissible H limits a indexEntries) :
    decodeWorktreeArtifact H limits (artifactBytes H a) = .ok (verifiedOf H a indexEntries) := by
  have heads := (validateHead_eq_ok ha.state).mp ha.head
  have sized := fun root hm => (ha.rootShapes root hm).1
  have total := length_artifactBytes (H := H) ha.policy heads.sized sized
  have rootsLength := length_sorted_roots sized
  have sortedSized : ∀ root ∈ sortBy id a.rootOids, root.length = oidSizeOf a.objectFormat :=
    fun root hm => sized root (mem_sortBy.mp hm)
  have split : splitRoots (oidSizeOf a.objectFormat) a.rootOids.length
      (sortBy id a.rootOids).flatten = sortBy id a.rootOids := by
    have := splitRoots_flatten sortedSized
    rwa [length_sortBy] at this
  have expected := sorted_roots_eq ha.roots
  have manifestLength : ((sortEntries a.entries).map manifestEntryLength).sum =
      manifestLengthOf a.entries := manifestLengthOf_perm (sortEntries_perm a.entries)
  refine decodeWorktreeArtifact_eq_ok.mpr ⟨total.trans_le ha.total, _, _, _, _, rfl, ?_, ?_, ?_, ?_, ?_⟩
  · exact (length_controlPayloadOf ha.policy heads.sized).trans_le ha.controlBound
  · exact ha.exactIndex.trans limits.exactIndex_le_index
  · rw [length_buildManifestPayload, manifestLength]
    exact ha.manifestBound
  · exact rootsLength.trans_le ha.rootsBound
  · have index : (if a.indexBytes.isSome then some (a.indexBytes.getD []) else none) = a.indexBytes := by
      cases a.indexBytes <;> rfl
    simp only [decodeSections, steps_ok, Prod.exists]
    refine ⟨_, parseControl_controlPayloadOf ha, ?_, ?_, indexEntries, ?_, _, _,
      parseManifest_sortEntries ha, ?_, ?_, ?_, ?_, ?_, ?_, ?_⟩
    · cases h : a.indexBytes <;> simp [controlOf, h]
    · exact fun excess => absurd ha.exactIndex (not_le.mpr excess.2)
    · show parseOptionalIndex H limits .decodeError a.objectFormat
        (if a.indexBytes.isSome then some (a.indexBytes.getD []) else none) = _
      rw [index]
      exact (parseOptionalIndex_error_free _ _).mp ha.index
    · rintro ⟨marked, none⟩
      obtain ⟨entry, hm, flag⟩ := any_eq_true.mp marked
      exact ha.ignored ⟨entry, (sortEntries_perm a.entries).mem_iff.mp hm, flag⟩ none
    · exact not_not.mpr (sortEntries_perm a.entries).length_eq
    · exact not_not.mpr rfl
    · exact not_not.mpr rootsLength
    · show ¬ (sortBy id (splitRoots (oidSizeOf a.objectFormat) a.rootOids.length
        (sortBy id a.rootOids).flatten).dedup ≠ splitRoots (oidSizeOf a.objectFormat)
          a.rootOids.length (sortBy id a.rootOids).flatten ∨ _)
      rw [split, not_or, not_not, sortBy_dedup_eq_self_iff]
      refine ⟨expected ▸ expectedRoots_sorted _ _, ?_⟩
      rintro ⟨root, hm, zero⟩
      have hm : root ∈ sortBy id a.rootOids := by
        rw [← split]
        exact hm
      have nonzero := (ha.rootShapes root (mem_sortBy.mp hm)).2
      rw [zero] at nonzero
      cases nonzero
    · show ¬ (splitRoots (oidSizeOf a.objectFormat) a.rootOids.length
        (sortBy id a.rootOids).flatten ≠ expectedRoots a.headOid indexEntries)
      rw [split, expected]
      exact not_not.mpr rfl
    · show VerifiedWorktreeArtifact.mk a.objectFormat a.indexBytes.isSome
        (if a.indexBytes.isSome then some (a.indexBytes.getD []) else none) indexEntries a.headState
        a.headTarget a.headOid a.policyDigest (sortEntries a.entries)
        (splitRoots (oidSizeOf a.objectFormat) a.rootOids.length (sortBy id a.rootOids).flatten)
        _ _ = _
      rw [index, split]
      rfl

theorem decode_sound {v : VerifiedWorktreeArtifact}
    (decoded : decodeWorktreeArtifact H limits data = .ok v) :
    Admissible H limits (inputOf v) v.indexEntries ∧ data = artifactBytes H (inputOf v) := by
  obtain ⟨total, _, index, _, rootsPayload, rfl, hc, _, hm, hr, sections⟩ :=
    decodeWorktreeArtifact_eq_ok.mp decoded
  simp only [decodeSections, steps_ok, Prod.exists] at sections
  obtain ⟨control, parsed, ha, exactIndex, indexEntries, parsedIndex, entries, aggregate,
    parsedManifest, ignored, entryCount, sum, rootsLength, canonical, expected, result⟩ := sections
  obtain ⟨rfl, hf, checked⟩ := parseControl_eq_ok.mp parsed
  obtain ⟨unborn, detached, symbolic, nonzero, entryBound, rootBound, -⟩ :=
    checkControl_eq_ok.1 checked
  obtain ⟨rfl, shapes, increasing, topology, -, rfl, aggregateBound⟩ :=
    parseManifest_eq_ok.mp parsedManifest
  obtain ⟨joined, count, sized⟩ := splitRoots_spec (not_not.mp rootsLength)
  obtain ⟨sorted, nonzeroRoots⟩ := not_or.mp canonical
  have sortedRoots := sortBy_dedup_eq_self_iff.mp (not_not.mp sorted)
  have hs : sortEntries entries = entries := sortBy_eq_self (increasing.imp le_of_lt)
  have sameRoots : sortBy id (splitRoots (oidSizeOf control.objectFormat) control.rootCount
      rootsPayload) = splitRoots (oidSizeOf control.objectFormat) control.rootCount rootsPayload :=
    sortBy_eq_self (sortedRoots.imp le_of_lt)
  have hp : (if control.hasIndex then some index else none).getD [] = index ∧
      (if control.hasIndex then some index else none).isSome = control.hasIndex := by
    cases flag : control.hasIndex with
    | true => exact ⟨rfl, rfl⟩
    | false =>
      have empty : index = [] := by
        by_contra other
        exact ha ⟨flag, other⟩
      rw [empty]
      exact ⟨rfl, rfl⟩
  have input : inputOf v =
      { objectFormat := control.objectFormat, headState := control.headState
        headTarget := control.headTarget, headOid := control.headOid
        indexBytes := if control.hasIndex then some index else none, entries := entries
        rootOids := splitRoots (oidSizeOf control.objectFormat) control.rootCount rootsPayload
        policyDigest := control.policyDigest } := by
    rw [← result]
    rfl
  have written : frameEnvelope H (sectionsOf (controlBytes control) index
      (buildManifestPayload entries) rootsPayload) = artifactBytes H (inputOf v) := by
    rw [input]
    simp only [artifactBytes, controlPayloadOf, buildControlPayload, hs, sameRoots,
      joined, hp.1, hp.2, count, not_not.mp entryCount]
    rw [aggregateOf, not_not.mp sum]
    rfl
  refine ⟨?_, written⟩
  have heads : HeadFits limits control.headState control.headTarget control.headOid
      (oidSizeOf control.objectFormat) :=
    ⟨hf.target, unborn, hf.oid, detached, symbolic, nonzero⟩
  have rootShapes : ∀ root ∈ splitRoots (oidSizeOf control.objectFormat) control.rootCount
      rootsPayload, root.length = oidSizeOf control.objectFormat ∧ anyNonzero root = true := by
    intro root member
    refine ⟨sized root member, ?_⟩
    by_contra zero
    exact nonzeroRoots ⟨root, member, by simpa using zero⟩
  have controlLength : (controlPayloadOf (inputOf v)).length = _ :=
    length_controlPayloadOf (by rw [input]; exact hf.policy) (by rw [input]; exact heads.sized)
  have framed : (artifactBytes H (inputOf v)).length = _ :=
    length_artifactBytes (by rw [input]; exact hf.policy) (by rw [input]; exact heads.sized)
      (by rw [input]; exact sized)
  have payload : controlPayloadOf (inputOf v) = controlBytes control := by
    rw [input]
    simp only [controlPayloadOf, buildControlPayload, hp.2, count, not_not.mp entryCount]
    rw [aggregateOf, not_not.mp sum]
    rfl
  have entriesOf : v.indexEntries = indexEntries := by rw [← result]
  rw [← written] at framed
  rw [payload] at controlLength
  rw [entriesOf]
  rw [input] at framed controlLength ⊢
  exact
    { format := hf.format
      state := hf.state
      head := (validateHead_eq_ok hf.state).mpr heads
      policy := hf.policy
      exactIndex := by
        rw [hp.1]
        by_cases flag : control.hasIndex = true
        · exact not_lt.mp fun excess => exactIndex ⟨flag, excess⟩
        · have empty : index = [] := by
            by_contra other
            exact ha ⟨by simpa using flag, other⟩
          simp [empty]
      index := (parseOptionalIndex_error_free _ _).mp parsedIndex
      entryCount := (not_not.mp entryCount).trans_le entryBound
      rootCount := count.trans_le rootBound
      shapes := fun entry member => (validateEntryShape_error_free _ _).mp (shapes entry member)
      distinct := (pairwise_map.mpr (increasing.imp ne_of_lt))
      topology := show TopologyFrom [] (sortEntries entries) from hs.symm ▸ topology
      aggregate := aggregateBound
      ignored := fun flagged none => ignored ⟨any_eq_true.mpr flagged, none⟩
      rootShapes := rootShapes
      roots := .of_eq (not_not.mp expected)
      controlBound := controlLength ▸ hc
      manifestBound := by
        rw [manifestLengthOf, ← length_buildManifestPayload]
        exact hm
      rootsBound := by
        rw [count, ← not_not.mp rootsLength]
        exact hr
      total := framed ▸ total }

/-- Encoding then decoding returns the snapshot with entries and roots sorted, and
the bytes do not depend on the order in which they were listed. -/
theorem decode_encode {a : WorktreeArtifactInput} {b : Bytes}
    (encoded : encodeWorktreeArtifact H limits a = .ok b) :
    (∃ v, decodeWorktreeArtifact H limits b = .ok v ∧ v.objectFormat = a.objectFormat ∧
        v.headState = a.headState ∧ v.headTarget = a.headTarget ∧ v.headOid = a.headOid ∧
        v.indexBytes = a.indexBytes ∧ v.hasIndex = a.indexBytes.isSome ∧
        v.policyDigest = a.policyDigest ∧ v.entries = sortBy (·.rawPath) a.entries ∧
        v.rootOids = sortBy id a.rootOids ∧ v.totalBytes = b.length) ∧
    ∀ entries roots, entries.Perm a.entries → roots.Perm a.rootOids →
      encodeWorktreeArtifact H limits { a with entries := entries, rootOids := roots } = .ok b := by
  obtain ⟨rfl, indexEntries, ha⟩ := encodeWorktreeArtifact_eq_ok.mp encoded
  refine ⟨⟨_, decode_artifactBytes ha, rfl, rfl, rfl, rfl, rfl, rfl, rfl, rfl, rfl, rfl⟩, ?_⟩
  intro _ _ hentries hroots
  refine encodeWorktreeArtifact_eq_ok.mpr ⟨?_, indexEntries, ha.reorder hentries hroots⟩
  exact (artifactBytes_reorder hentries hroots ha.distinct
    (ha.roots.nodup_iff.mpr (expectedRoots_nodup _ _))).symm

def sampleArtifact : WorktreeArtifactInput where
  objectFormat := text "sha1"
  headState := text "detached"
  headOid := (List.range 20).map fun i => UInt8.ofNat (i + 1)
  entries :=
    [{ rawPath := bytes "d/f", kind := .file, content := bytes "hi", executable := true },
      { rawPath := bytes "d", kind := .directory }]
  rootOids := [(List.range 20).map fun i => UInt8.ofNat (i + 1)]

/-- SHA-256 of the four sections of `sampleArtifact`, in section order. -/
def sampleSectionDigests : List (Bytes × Bytes) :=
  [(controlPayloadOf sampleArtifact,
      [169, 214, 114, 94, 122, 131, 204, 52, 24, 251, 111, 139, 69, 33, 118, 59, 84, 248, 180, 85,
      91, 143, 21, 251, 11, 214, 16, 91, 192, 124, 106, 133]),
    ([],
      [227, 176, 196, 66, 152, 252, 28, 20, 154, 251, 244, 200, 153, 111, 185, 36, 39, 174, 65,
      228, 100, 155, 147, 76, 164, 149, 153, 27, 120, 82, 184, 85]),
    (buildManifestPayload (sortEntries sampleArtifact.entries),
      [78, 33, 0, 2, 11, 84, 212, 82, 141, 215, 128, 105, 82, 158, 89, 58, 78, 86, 184, 151, 55,
      218, 93, 60, 96, 78, 244, 38, 119, 243, 214, 149]),
    (sampleArtifact.headOid,
      [225, 47, 8, 116, 51, 68, 192, 234, 183, 175, 170, 34, 187, 113, 226, 114, 95, 126, 19, 222,
      206, 106, 194, 210, 55, 17, 5, 78, 231, 135, 182, 194])]

def sampleDigests : List (Bytes × Bytes) :=
  (sourceDomain ++ [0] ++ (sampleSectionDigests.map (·.2)).flatten,
    [106, 154, 207, 255, 99, 75, 123, 42, 205, 20, 223, 126, 130, 219, 240, 194, 198, 119, 165,
      86, 34, 184, 187, 121, 78, 190, 18, 148, 196, 244, 248, 29]) ::
  sampleSectionDigests

def sampleHashes : Hashes where
  sha1 _ := List.replicate 20 0
  sha256 message := (sampleDigests.lookup message).getD (List.replicate 32 0)
  length_sha1 _ := List.length_replicate
  length_sha256 message := by
    cases found : sampleDigests.lookup message with
    | none => exact List.length_replicate
    | some digest =>
      have sized : ∀ row ∈ sampleDigests, row.2.length = 32 := by decide
      obtain ⟨before, after, rows, -⟩ := List.lookup_eq_some_iff.mp found
      exact sized (message, digest) (rows ▸ by simp)

theorem sampleArtifact_encodes : encodeWorktreeArtifact sampleHashes defaultArtifactLimits
    sampleArtifact = .ok (artifactBytes sampleHashes sampleArtifact) := by
  decide +kernel

theorem decode_encode_sampleArtifact :
    (∃ v, decodeWorktreeArtifact sampleHashes defaultArtifactLimits
              (artifactBytes sampleHashes sampleArtifact) = .ok v ∧
        v.entries = sampleArtifact.entries.reverse) ∧
    encodeWorktreeArtifact sampleHashes defaultArtifactLimits
        { sampleArtifact with entries := sampleArtifact.entries.reverse } =
      .ok (artifactBytes sampleHashes sampleArtifact) := by
  obtain ⟨⟨v, decoded, -, -, -, -, -, -, -, entries, -⟩, reordered⟩ :=
    decode_encode sampleArtifact_encodes
  refine ⟨⟨v, decoded, entries.trans (by decide)⟩, ?_⟩
  exact reordered _ _ (reverse_perm _) (Perm.refl _)

theorem frameSection_append_inj {number : Nat} {first second rest other : Bytes}
    (hfirst : first.length < 256 ^ 8) (hsecond : second.length < 256 ^ 8)
    (hs : frameSection H (number, first) ++ rest = frameSection H (number, second) ++ other) :
    first = second ∧ rest = other := by
  simp only [frameSection, u32Bytes, u64Bytes, append_assoc] at hs
  obtain ⟨-, hs⟩ := append_inj hs (by simp)
  obtain ⟨sizes, hs⟩ := append_inj hs (by simp)
  obtain ⟨-, hs⟩ := append_inj hs (by simp [H.length_sha256])
  have length : first.length = second.length := by rw [← beNat_beBytes hfirst, sizes, beNat_beBytes hsecond]
  exact append_inj hs length

theorem accepted_prefix_free {extra : Bytes} {v w : VerifiedWorktreeArtifact}
    (decoded : decodeWorktreeArtifact H limits data = .ok v)
    (extended : decodeWorktreeArtifact H limits (data ++ extra) = .ok w) : extra = [] := by
  have control := limits.control_fits
  have index := limits.index_fits
  have manifest := limits.manifest_fits
  have roots := limits.roots_fit
  obtain ⟨-, _, _, _, _, rfl, _, _, _, _, -⟩ := decodeWorktreeArtifact_eq_ok.mp decoded
  obtain ⟨-, _, _, _, _, hs, _, _, _, _, -⟩ :=
    decodeWorktreeArtifact_eq_ok.mp extended
  simp only [frameEnvelope, sectionsOf, length_cons, length_nil, append_assoc,
    flatMap_cons, flatMap_nil, append_cancel_left_eq] at hs
  obtain ⟨-, hs⟩ := frameSection_append_inj (by omega) (by omega) hs
  obtain ⟨-, hs⟩ := frameSection_append_inj (by omega) (by omega) hs
  obtain ⟨-, hs⟩ := frameSection_append_inj (by omega) (by omega) hs
  obtain ⟨-, hs⟩ := frameSection_append_inj (by omega) (by omega) hs
  simpa using hs

/-- Every accepted byte string is the encoding of the snapshot it decodes to; no
other byte string decodes to that snapshot, and no extension of it is accepted. -/
theorem encode_decode {b : Bytes} {v : VerifiedWorktreeArtifact}
    (decoded : decodeWorktreeArtifact H limits b = .ok v) :
    encodeWorktreeArtifact H limits (inputOf v) = .ok b ∧
    (∀ b' v', decodeWorktreeArtifact H limits b' = .ok v' → inputOf v' = inputOf v →
      b' = b ∧ v'.sourceStateSha256 = v.sourceStateSha256 ∧ v' = v) ∧
    ∀ extra ≠ [], ∀ w, decodeWorktreeArtifact H limits (b ++ extra) ≠ .ok w := by
  obtain ⟨ha, written⟩ := decode_sound decoded
  refine ⟨encodeWorktreeArtifact_eq_ok.mpr ⟨written, _, ha⟩, ?_, ?_⟩
  · intro b' v' decoded' input
    have hs : b' = b := by rw [(decode_sound decoded').2, input, ← written]
    rw [hs, decoded] at decoded'
    obtain rfl : v = v' := by simpa using decoded'
    exact ⟨hs, rfl, rfl⟩
  · intro _ more _ extended
    exact more (accepted_prefix_free decoded extended)

theorem sampleArtifact_decodes : ∃ v, decodeWorktreeArtifact sampleHashes defaultArtifactLimits
    (artifactBytes sampleHashes sampleArtifact) = .ok v := by
  obtain ⟨-, _, ha⟩ := encodeWorktreeArtifact_eq_ok.1 sampleArtifact_encodes
  exact ⟨_, decode_artifactBytes ha⟩

theorem encode_decode_sampleArtifact :
    ∃ v, decodeWorktreeArtifact sampleHashes defaultArtifactLimits
            (artifactBytes sampleHashes sampleArtifact) = .ok v ∧
      encodeWorktreeArtifact sampleHashes defaultArtifactLimits (inputOf v) =
        .ok (artifactBytes sampleHashes sampleArtifact) := by
  obtain ⟨v, decoded⟩ := sampleArtifact_decodes
  exact ⟨v, decoded, (encode_decode decoded).1⟩

end Yinshi.Artifact
