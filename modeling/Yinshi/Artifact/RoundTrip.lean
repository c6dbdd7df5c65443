import Yinshi.Artifact.Layout

/-! The encoder and the decoder agree. Both are reduced to one description of
an admissible snapshot; the error constructor a validator was given never
matters for whether it passes. -/

namespace Yinshi.Artifact
open ByteText Checked Keyed List
variable {entries : List ManifestEntry}

variable {H : Hashes} {limits : ArtifactLimits}

section ErrorFree
variable (first second : String → ArtifactError)
variable {previous : Option (Bytes × Nat)} {window : IndexWindow} {position : Nat}

theorem validateRawPath_error_free {path : Bytes} :
    validateRawPath limits first path = .ok () ↔ validateRawPath limits second path = .ok () := by
  simp only [validateRawPath, steps_ok]

theorem validateSymbolicHeadTarget_error_free {target : Bytes} :
    validateSymbolicHeadTarget limits first target = .ok () ↔
    validateSymbolicHeadTarget limits second target = .ok () := by
  simp only [validateSymbolicHeadTarget, steps_ok]

theorem validateEntryShape_error_free {entry : ManifestEntry} :
    validateEntryShape limits first entry = .ok () ↔
    validateEntryShape limits second entry = .ok () := by
  rw [validateEntryShape_eq_ok, validateEntryShape_eq_ok, validateRawPath_error_free first second]

theorem validateTopology_eq_ok {path : Bytes} {present : List (Bytes × WorktreeEntryKind)} :
    validateTopology first path present = .ok () ↔
    ∀ ancestor ∈ properAncestors path, present.lookup ancestor = some .directory := by
  simp [validateTopology]

theorem checkIndexKey_error_free {key : Bytes × Nat} :
    checkIndexKey first key previous = .ok () ↔ checkIndexKey second key previous = .ok () := by
  cases previous with
  | none => simp [checkIndexKey]
  | some _ => simp only [checkIndexKey, steps_ok]

theorem readExtendedFlags_error_free {flags : Nat} {out : Nat × Nat} :
    readExtendedFlags first window flags position = .ok out ↔
    readExtendedFlags second window flags position = .ok out := by
  unfold readExtendedFlags
  split
  · simp only [steps_ok]
  · rfl

theorem parseIndexEntries_error_free {count : Nat} {out : List ArtifactIndexEntry × Nat} :
    parseIndexEntries limits first window count position previous = .ok out ↔
    parseIndexEntries limits second window count position previous = .ok out := by
  induction count generalizing position previous out with
  | zero => rfl
  | succ _ ih =>
    simp only [parseIndexEntries, bind_eq_ok, Prod.exists, parseIndexEntry, steps_ok,
      readExtendedFlags_error_free first second, validateRawPath_error_free first second,
        checkIndexKey_error_free first second, ih]

theorem parseIndexExtensions_error_free {seen : Bool} :
    parseIndexExtensions first window position seen = .ok () ↔
    parseIndexExtensions second window position seen = .ok () := by
  induction rest : window.checksumStart - position using Nat.strong_induction_on generalizing position seen with
  | h _ ih =>
    rw [parseIndexExtensions.eq_1 first, parseIndexExtensions.eq_1 second]
    split
    · next hi =>
        simp only [steps_ok]
        rw [ih _ (by omega) rfl]
    · rfl

theorem parseIndex_error_free {indexBytes : Bytes} {format : Text} {out : List ArtifactIndexEntry} :
    parseIndex H limits first indexBytes format = .ok out ↔
    parseIndex H limits second indexBytes format = .ok out := by
  simp only [parseIndex, steps_ok, Prod.exists, parseIndexEntries_error_free first second,
    parseIndexExtensions_error_free first second]

end ErrorFree

def TopologyFrom : List (Bytes × WorktreeEntryKind) → List ManifestEntry → Prop
  | _, [] => True
  | present, entry :: entries =>
    (∀ ancestor ∈ properAncestors entry.rawPath, present.lookup ancestor = some .directory) ∧
      TopologyFrom ((entry.rawPath, entry.kind) :: present) entries

theorem validateEntryOrder_eq_ok {present : List (Bytes × WorktreeEntryKind)} :
    validateEntryOrder present entries = .ok () ↔
    (entries.map (·.rawPath)).Nodup ∧ (∀ entry ∈ entries, entry.rawPath ∉ present.map Prod.fst) ∧
    TopologyFrom present entries := by
  induction entries generalizing present with
  | nil => simp [validateEntryOrder, TopologyFrom]
  | cons _ _ ih =>
    simp only [validateEntryOrder, steps_ok, validateTopology_eq_ok, ih, TopologyFrom, map_cons,
      nodup_cons, mem_cons, forall_eq_or_imp, not_or, mem_map, not_exists, not_and]
    constructor
    · rintro ⟨hu, parents, hd, hf, later⟩
      exact ⟨⟨fun other hm hs => (hf other hm).1 hs, hd⟩, ⟨hu, fun other hm => (hf other hm).2⟩,
        parents, later⟩
    · rintro ⟨⟨ha, hd⟩, ⟨hu, hf⟩, parents, later⟩
      exact ⟨hu, parents, hd,
        fun other hm => ⟨ha other hm, hf other hm⟩, later⟩

theorem scanAccepts_iff {scan : ManifestScan} (count : scan.count ≤ limits.maxManifestEntries)
    (aggregate : scan.aggregate ≤ limits.maxAggregateContentBytes) :
    ScanAccepts limits scan entries ↔
    (∀ entry ∈ entries, validateEntryShape limits .decodeError entry = .ok ()) ∧
    entries.Pairwise (fun a b => a.rawPath < b.rawPath) ∧
    (∀ previous ∈ scan.previous, ∀ entry ∈ entries, previous < entry.rawPath) ∧
    TopologyFrom scan.present entries ∧ scan.count + entries.length ≤ limits.maxManifestEntries ∧
    scan.aggregate + (entries.map contentWeight).sum ≤ limits.maxAggregateContentBytes := by
  induction entries generalizing scan with
  | nil => simpa [ScanAccepts, TopologyFrom] using ⟨count, aggregate⟩
  | cons entry _ ih =>
    have weight : contentWeight entry = if entry.kind = .directory then 0 else entry.content.length :=
      rfl
    simp only [ScanAccepts, forall_mem_cons, pairwise_cons, TopologyFrom, length_cons, map_cons, sum_cons]
    constructor
    · rintro ⟨ha, later⟩
      have room : (scan.push entry).count ≤ limits.maxManifestEntries := ha.room
      have sum : (scan.push entry).aggregate ≤ limits.maxAggregateContentBytes := by
        have := ha.aggregate
        simp only [ManifestScan.push, weight]
        split <;> simp_all
      obtain ⟨shapes, increasing, after, topology, length, total⟩ := (ih room sum).mp later
      refine ⟨⟨ha.shape, shapes⟩, ⟨?_, increasing⟩, ?_,
        ⟨(validateTopology_eq_ok _).mp ha.topology, topology⟩, ?_, ?_⟩
      · exact fun other hm => after entry.rawPath rfl other hm
      · intro previous hs
        have before := ha.increasing previous hs
        exact ⟨before, fun other hm => before.trans (after entry.rawPath rfl other hm)⟩
      · simp only [ManifestScan.push] at length
        omega
      · simp only [ManifestScan.push] at total
        omega
    · rintro ⟨⟨shape, shapes⟩, ⟨above, increasing⟩, after, ⟨parents, topology⟩, _, total⟩
      have room : (scan.push entry).count ≤ limits.maxManifestEntries := by
        simp only [ManifestScan.push]
        omega
      have sum : (scan.push entry).aggregate ≤ limits.maxAggregateContentBytes := by
        simp only [ManifestScan.push]
        omega
      refine ⟨⟨by omega, shape, fun previous hs => (after previous hs).1,
        (validateTopology_eq_ok _).mpr parents, ?_⟩, (ih room sum).mpr
        ⟨shapes, increasing, ?_, topology, ?_, ?_⟩⟩
      · intro kind
        rw [weight, if_neg kind] at total
        omega
      · intro previous hs other hm
        have same : entry.rawPath = previous := by simpa [ManifestScan.push] using hs
        exact same ▸ above other hm
      · simp only [ManifestScan.push]
        omega
      · simp only [ManifestScan.push]
        omega

theorem parseManifest_eq_ok {payload : Bytes} {aggregate : Nat} :
    parseManifest limits payload = .ok (entries, aggregate) ↔
    payload = buildManifestPayload entries ∧
    (∀ entry ∈ entries, validateEntryShape limits .decodeError entry = .ok ()) ∧
    entries.Pairwise (fun a b => a.rawPath < b.rawPath) ∧ TopologyFrom [] entries ∧
    entries.length ≤ limits.maxManifestEntries ∧ aggregate = (entries.map contentWeight).sum ∧
    (entries.map contentWeight).sum ≤ limits.maxAggregateContentBytes := by
  rw [parseManifest, parseManifestFrom_eq_ok le_rfl, scanAccepts_iff (Nat.zero_le _) (Nat.zero_le _)]
  simp only [Option.mem_def, reduceCtorEq, IsEmpty.forall_iff, implies_true, true_and, zero_add]
  tauto

theorem length_buildManifestPayload (entries : List ManifestEntry) :
    (buildManifestPayload entries).length = (entries.map manifestEntryLength).sum := by
  simp [buildManifestPayload, length_flatMap, length_buildManifestEntry]

theorem exists_envelope {data : Bytes} (long : envelopeHeaderLen ≤ data.length) :
    ∃ mark number flags count rest : Bytes, data = mark ++ (number ++ (flags ++ (count ++ rest))) ∧
      mark.length = 8 ∧ number.length = 4 ∧ flags.length = 4 ∧ count.length = 4 := by
  have long' : 20 ≤ data.length := long
  refine ⟨data.take 8, (data.drop 8).take 4, (data.drop 12).take 4, (data.drop 16).take 4,
    data.drop 20, ?_, ?_, ?_, ?_, ?_⟩
  · have fourth := take_append_drop 4 (data.drop 16)
    have third := take_append_drop 4 (data.drop 12)
    have second := take_append_drop 4 (data.drop 8)
    rw [drop_drop] at second third fourth
    rw [fourth, third, second, take_append_drop]
  all_goals simp only [length_take, length_drop]; omega

theorem envelope_fields {mark number flags count : Bytes} (rest : Bytes) (hmark : mark.length = 8)
    (hnumber : number.length = 4) (hflags : flags.length = 4) (hcount : count.length = 4) :
    (mark ++ (number ++ (flags ++ (count ++ rest)))).take magic.length = mark ∧
    slice (mark ++ (number ++ (flags ++ (count ++ rest)))) 8 12 = number ∧
    slice (mark ++ (number ++ (flags ++ (count ++ rest)))) 12 16 = flags ∧
    slice (mark ++ (number ++ (flags ++ (count ++ rest)))) 16 20 = count ∧
    (mark ++ (number ++ (flags ++ (count ++ rest)))).drop envelopeHeaderLen = rest := by
  refine ⟨take_left' hmark, ?_, ?_, ?_, ?_⟩
  · rw [slice_append_right (by omega), hmark]
    exact slice_append_left hnumber
  · rw [slice_append_right (by omega), slice_append_right (by omega), hmark, hnumber]
    exact slice_append_left hflags
  · rw [slice_append_right (by omega), slice_append_right (by omega),
      slice_append_right (by omega), hmark, hnumber, hflags]
    exact slice_append_left hcount
  · have hw : (mark ++ (number ++ (flags ++ count))).length = envelopeHeaderLen := by
      simp only [length_append, hmark, hnumber, hflags, hcount]
      rfl
    have regrouped : mark ++ (number ++ (flags ++ (count ++ rest))) =
        mark ++ (number ++ (flags ++ count)) ++ rest := by simp
    rw [regrouped, ← hw, drop_left]

def sectionsOf (control index manifest roots : Bytes) : List (Nat × Bytes) :=
  [(1, control), (2, index), (3, manifest), (4, roots)]

theorem parseSections_eq_ok {rest : Bytes} {sections : List (Bytes × Bytes)} :
    parseSectionsFrom H 1 (sectionBounds limits) rest = .ok sections ↔
    ∃ control index manifest roots, rest =
          (sectionsOf control index manifest roots).flatMap (frameSection H) ∧
      control.length ≤ limits.maxControlBytes ∧ index.length ≤ limits.maxIndexBytes ∧
      manifest.length ≤ limits.maxManifestBytes ∧ roots.length ≤ limits.maxRootsBytes ∧
      sections =
        [(H.sha256 control, control), (H.sha256 index, index), (H.sha256 manifest, manifest),
          (H.sha256 roots, roots)] := by
  have hf : ∀ bound ≤ 0xFFFFFFFFFFFFFFFF, bound < 256 ^ 8 := by
    intro _ _
    omega
  rw [sectionBounds, parseSectionsFrom_cons (by decide) (hf _ limits.control_fits)]
  constructor
  · rintro ⟨control, _, _, rfl, hc, parsed, rfl⟩
    rw [parseSectionsFrom_cons (by decide) (hf _ limits.index_fits)] at parsed
    obtain ⟨index, _, _, rfl, hi, parsed, rfl⟩ := parsed
    rw [parseSectionsFrom_cons (by decide) (hf _ limits.manifest_fits)] at parsed
    obtain ⟨manifest, _, _, rfl, hm, parsed, rfl⟩ := parsed
    rw [parseSectionsFrom_cons (by decide) (hf _ limits.roots_fit)] at parsed
    obtain ⟨roots, _, _, rfl, hr, parsed, rfl⟩ := parsed
    simp only [parseSectionsFrom, steps_ok, ne_eq, not_not] at parsed
    obtain ⟨rfl, rfl⟩ := parsed
    exact ⟨control, index, manifest, roots, by simp [sectionsOf], hc, hi, hm, hr, rfl⟩
  · rintro ⟨control, index, manifest, roots, rfl, hc, hi, hm, hr, rfl⟩
    refine ⟨control, _, _, by simp only [sectionsOf, flatMap_cons]; rfl, hc, ?_, rfl⟩
    rw [parseSectionsFrom_cons (by decide) (hf _ limits.index_fits)]
    refine ⟨index, _, _, rfl, hi, ?_, rfl⟩
    rw [parseSectionsFrom_cons (by decide) (hf _ limits.manifest_fits)]
    refine ⟨manifest, _, _, rfl, hm, ?_, rfl⟩
    rw [parseSectionsFrom_cons (by decide) (hf _ limits.roots_fit)]
    exact ⟨roots, [], [], by simp, hr, rfl, rfl⟩

theorem decodeWorktreeArtifact_eq_ok {data : Bytes} {verified : VerifiedWorktreeArtifact} :
    decodeWorktreeArtifact H limits data = .ok verified ↔
    data.length ≤ limits.maxTotalBytes ∧
    ∃ control index manifest roots, data =
          frameEnvelope H (sectionsOf control index manifest roots) ∧
      control.length ≤ limits.maxControlBytes ∧ index.length ≤ limits.maxIndexBytes ∧
      manifest.length ≤ limits.maxManifestBytes ∧ roots.length ≤ limits.maxRootsBytes ∧
      decodeSections H limits [H.sha256 control, H.sha256 index, H.sha256 manifest, H.sha256 roots]
          data.length control index manifest roots = .ok verified := by
  simp only [decodeWorktreeArtifact, steps_ok, parseSections_eq_ok, not_lt, not_not, ne_eq]
  constructor
  · rintro ⟨total, long, mark, number, flags, count, _,
      ⟨control, index, manifest, roots, framed, hc, hi, hm, hr, rfl⟩, decoded⟩
    refine ⟨total, control, index, manifest, roots, ?_, hc, hi, hm, hr, decoded⟩
    obtain ⟨_, _, _, _, rest, rfl, h₁, h₂, h₃, h₄⟩ := exists_envelope long
    obtain ⟨e₁, e₂, e₃, e₄, e₅⟩ := envelope_fields rest h₁ h₂ h₃ h₄
    rw [e₁] at mark
    rw [e₂] at number
    rw [e₃] at flags
    rw [e₄] at count
    rw [e₅] at framed
    obtain ⟨rfl, -⟩ := eq_beBytes_iff.mpr ⟨h₂, number⟩
    obtain ⟨rfl, -⟩ := eq_beBytes_iff.mpr ⟨h₃, flags⟩
    obtain ⟨rfl, -⟩ := eq_beBytes_iff.mpr ⟨h₄, count⟩
    rw [mark, framed]
    rfl
  · rintro ⟨total, control, index, manifest, roots, hs, hc, hi, hm, hr, decoded⟩
    have layout : data = magic ++ (beBytes 4 version ++ (beBytes 4 flagComplete ++ (beBytes 4 4 ++
        (sectionsOf control index manifest roots).flatMap (frameSection H)))) := by
      rw [hs]
      rfl
    obtain ⟨e₁, e₂, e₃, e₄, e₅⟩ := envelope_fields
      ((sectionsOf control index manifest roots).flatMap (frameSection H))
      (show magic.length = 8 from rfl) (length_beBytes 4 version) (length_beBytes 4 flagComplete)
      (length_beBytes 4 4)
    rw [← layout] at e₁ e₂ e₃ e₄ e₅
    rw [e₁, e₂, e₃, e₄, e₅]
    refine ⟨total, ?_, rfl, rfl, rfl, rfl, _,
      ⟨control, index, manifest, roots, rfl, hc, hi, hm, hr, rfl⟩, decoded⟩
    rw [layout]
    simp only [length_append, length_beBytes, envelopeHeaderLen]
    omega

theorem splitRoots_flatten {size : Nat} {roots : List Bytes}
    (sized : ∀ root ∈ roots, root.length = size) :
    splitRoots size roots.length roots.flatten = roots := by
  induction roots with
  | nil => rfl
  | cons root _ ih =>
    have first := sized root (by simp)
    simp only [length_cons, splitRoots, flatten_cons, take_left' first,
      drop_left' first, ih fun r h => sized r (by simp [h])]

theorem splitRoots_spec {size count : Nat} {payload : Bytes}
    (exact : payload.length = count * size) :
    (splitRoots size count payload).flatten = payload ∧
    (splitRoots size count payload).length = count ∧
    ∀ root ∈ splitRoots size count payload, root.length = size := by
  induction count generalizing payload with
  | zero =>
    rw [Nat.zero_mul] at exact
    simp [splitRoots, length_eq_zero_iff.mp exact]
  | succ count ih =>
    rw [Nat.add_one_mul] at exact
    have hs : (payload.drop size).length = count * size := by
      rw [length_drop]
      omega
    obtain ⟨joined, length, sized⟩ := ih hs
    refine ⟨by simp [splitRoots, joined], by simp [splitRoots, length], ?_⟩
    simp only [splitRoots, mem_cons, forall_eq_or_imp, length_take]
    exact ⟨by omega, sized⟩

theorem sortBy_dedup_eq_self_iff {roots : List Bytes} :
    sortBy id roots.dedup = roots ↔ roots.Pairwise (· < ·) := by
  constructor
  · intro same
    rw [← same]
    exact pairwise_lt_of_nodup (nodup_keys_sortBy.mpr (by simpa using roots.nodup_dedup)) pairwise_sortBy
  · intro hs
    have hd : roots.Nodup := hs.imp ne_of_lt
    rw [hd.dedup]
    exact sortBy_eq_self (hs.imp le_of_lt)

theorem expectedRoots_sorted (oid : Bytes) (entries : List ArtifactIndexEntry) :
    (expectedRoots oid entries).Pairwise (· < ·) :=
  pairwise_lt_of_nodup (nodup_keys_sortBy.mpr (by simpa using nodup_dedup _)) pairwise_sortBy

end Yinshi.Artifact
